import CanTransport.Probe.Run
import CanTransport.Proofs.Bus.History
import CanTransport.Proofs.Bus.Solo
import CanTransport.Proofs.Probe.Following
/-!
# A dump beside its bus

A dump installs its listener, connects, follows what it is woken by, disconnects and prints the
counters. Between any two of its own steps the call that is under way, the reception task and others
act as they like; which of several things that are ready wakes it next is open. What it has printed
at any moment is the beginning of what its listener was handed, and once it has printed the counters
nothing is left of the connection.
-/

namespace CanTransport.Probe

/-- Where the run of a dump is. -/
inductive Point where
  | connecting
  /-- Connected, or refused. -/
  | following
  /-- The dump has returned. -/
  | disconnecting
  | ended (outcome : Except Error Unit)

/-- A dump and its bus. -/
structure Dumping where
  life : Life
  /-- The call that it began last. -/
  call : OperationId
  /-- The subscription of its listener. -/
  subscription : Nat
  /-- How many states had been published when it last looked. -/
  seen : Nat
  point : Point := .connecting
  /-- How the connect ended. -/
  connected : Option (Except Error Unit) := none
  /-- What has woken it, in order. -/
  wakes : List Wake := []
  /-- The counters that it printed. -/
  statistics : Option Stats := none

namespace Dumping

/-- A dump on a bus, about to connect. -/
def begun (s : Site) : Dumping :=
  let w := ({ site := s } : Life).after (.subscribe { log := some probed })
  { life := w.after (.start .connect)
    call := w.site.bus.next
    subscription := w.site.bus.reception.subscription
    seen := w.site.bus.reception.published.length }

/-- The frames that were handed to the listener, in order. -/
def handed (d : Dumping) : List Frame :=
  (d.life.site.bus.reception.deliveries.filter (·.subscription == d.subscription)).map
    Delivery.frame

/-- The frames that were printed, each on its line. -/
def lines (limit : Option Nat) (d : Dumping) : List Frame := (follow limit 0 d.wakes).1

/-- What the dump returned, if it has. -/
def result? (limit : Option Nat) (d : Dumping) : Option (Except Error Ending) :=
  match d.connected with
  | none => none
  | some (.error e) => some (.error e)
  | some (.ok ()) =>
    match (follow limit 0 d.wakes).2 with
    | .pending => none
    | ending => some (.ok ending)

def woken (d : Dumping) (wake : Wake) : Dumping := { d with wakes := d.wakes ++ [wake] }

/-- Whatever happens next. -/
inductive Step (limit : Option Nat) (d : Dumping) : Dumping → Prop where
  /-- The call that is under way or a task acts, or something happens elsewhere. -/
  | bus {event : Life.Event} {w : Life} (hstep : Life.Step event d.life w)
      (hold : event.isNew = false)
      (hgoes : ∀ outcome, event = .act d.call → (d.life.site.advance d.call).1 ≠ .ends outcome) :
      Step limit d { d with life := w }
  | connected {outcome : Except Error Unit} (hpoint : d.point = .connecting)
      (hends : (d.life.site.advance d.call).1 = .ends outcome) : Step limit d { d with
        life := d.life.act d.call
        point := .following
        connected := some outcome }
  | frame {received : Frame} (hpoint : d.point = .following) (hwaits : d.result? limit = none)
      (hnext : d.handed[(taken d.wakes).length]? = some received) :
      Step limit d (d.woken (.frame received))
  /-- A state that was published since the dump last looked; it looks at the latest. -/
  | state {seen : Nat} (hpoint : d.point = .following) (hwaits : d.result? limit = none)
      (hlt : d.seen < seen) (hle : seen ≤ d.life.site.bus.reception.published.length) :
      Step limit d ({ d with seen := seen }.woken (.state d.life.site.bus.reception.state))
  | closed (hpoint : d.point = .following) (hwaits : d.result? limit = none) :
      Step limit d (d.woken .closed)
  | shutdown (hpoint : d.point = .following) (hwaits : d.result? limit = none) :
      Step limit d (d.woken .shutdown)
  | returned {result : Except Error Ending} (hpoint : d.point = .following)
      (hresult : d.result? limit = some result) : Step limit d { d with
        life := d.life.after (.start .disconnect)
        call := d.life.site.bus.next
        point := .disconnecting }
  | disconnected {outcome : Except Error Unit} (hpoint : d.point = .disconnecting)
      (hends : (d.life.site.advance d.call).1 = .ends outcome) : Step limit d { d with
        life := d.life.act d.call
        point := .ended outcome }
  | printed (hpoint : d.point = .ended (.ok ())) : Step limit d { d with
        statistics := some d.life.site.bus.reception.stats }

/-- Any number of steps. -/
inductive Run (limit : Option Nat) (d : Dumping) : Dumping → Prop where
  | refl : Run limit d d
  | step {d' d'' : Dumping} (hrun : Run limit d d') (hstep : Step limit d' d'') : Run limit d d''

variable {limit : Option Nat} {s : Site} {d d' : Dumping} {w : Life} {event : Life.Event}

/-! ## What the bus does -/

theorem handed_kept (hstep : Life.Step event d.life w) :
    d.handed <+: { d with life := w }.handed := by
  obtain ⟨more, hmore⟩ := hstep.deliveries_kept
  show _ <+: ((w.site.bus.reception.deliveries.filter _).map _)
  rw [← hmore, List.filter_append, List.map_append]
  exact List.prefix_append _ _

/-- What was published stays so. -/
theorem published_kept {state : ReceptionState} (hstep : Life.Step event d.life w)
    (hw : d.life.Sound) (h : state ∈ d.life.site.bus.reception.published) :
    state ∈ w.site.bus.reception.published := by
  rw [← List.mem_reverse, (hstep.watch hw).states_eq]
  exact List.mem_append_left _ (List.mem_reverse.mpr h)

theorem mem_published_of_state {r : Reception} {reason : String} (h : r.state = .failed reason) :
    .failed reason ∈ r.published := by
  unfold Reception.state at h
  cases hpublished : r.published with
  | nil =>
    rw [hpublished] at h
    cases h
  | cons state rest =>
    rw [hpublished] at h
    exact h ▸ List.mem_cons_self

/-- The call that is under way, if there is one, and what is known of it. -/
inductive Calls (limit : Option Nat) (d : Dumping) : Prop where
  | connecting {o : Operation} (hpoint : d.point = .connecting)
      (hoperations : d.life.site.bus.operations = [o]) (hid : o.id = d.call)
      (hrequest : o.request = .connect) (hconnected : d.connected = none)
      (hsmooth : d.life.site.bus.transport = .virtual → o.Smooth d.life.site.bus)
      (hsilent : d.statistics = none)
  | following (hpoint : d.point = .following) (hoperations : d.life.site.bus.operations = [])
      (hconnected : d.connected.isSome = true) (hsilent : d.statistics = none)
  | disconnecting {o : Operation} (hpoint : d.point = .disconnecting)
      (hoperations : d.life.site.bus.operations = [o]) (hid : o.id = d.call)
      (hrequest : o.request = .disconnect) (hresult : (d.result? limit).isSome = true)
      (hbare : o.todo = [] → d.life.site.bus.Bare) (hsilent : d.statistics = none)
  | ended {outcome : Except Error Unit} (hpoint : d.point = .ended outcome)
      (hoperations : d.life.site.bus.operations = []) (hresult : (d.result? limit).isSome = true)
      (hbare : d.life.site.bus.Bare) (hsilent : outcome ≠ .ok () → d.statistics = none)
      (hprinted : ∀ stats, d.statistics = some stats → stats = d.life.site.bus.reception.stats)

/-- What is known of a dump at every moment. -/
structure Kept (limit : Option Nat) (s : Site) (d : Dumping) : Prop where
  reachable : Life.Reachable s d.life
  followed : Followed limit d.wakes
  taken_handed : taken d.wakes <+: d.handed
  failed : ∀ reason, .state (.failed reason) ∈ d.wakes →
    .failed reason ∈ d.life.site.bus.reception.published
  quiet : d.connected ≠ some (.ok ()) → d.wakes = []
  calls : d.Calls limit
  unrefused : d.life.site.bus.transport = .virtual → d.life.refused = false

/-- A dump that has not returned, but whose connect has. -/
theorem result?_eq_none (hconnected : d.connected.isSome = true) (h : d.result? limit = none) :
    d.connected = some (.ok ()) ∧ (follow limit 0 d.wakes).2 = .pending := by
  unfold result? at h
  cases hcase : d.connected with
  | none =>
    rw [hcase] at hconnected
    cases hconnected
  | some outcome =>
    cases outcome with
    | error e =>
      rw [hcase] at h
      cases h
    | ok u =>
      rw [hcase] at h
      refine ⟨rfl, ?_⟩
      revert h
      cases (follow limit 0 d.wakes).2 with
      | pending => exact fun _ => rfl
      | done | failed => exact nofun

/-- What happens on the bus leaves the call what it is. -/
theorem Calls.bus (h : d.Calls limit) (hw : d.life.Sound) (hreach : Life.Reachable s w)
    (hstep : Life.Step event d.life w) (hold : event.isNew = false)
    (hgoes : ∀ outcome, event = .act d.call → (d.life.site.advance d.call).1 ≠ .ends outcome) :
    { d with life := w }.Calls limit := by
  have htransport := hstep.transport_eq hw
  cases h with
  | following hpoint hoperations hconnected hsilent =>
    refine .following hpoint ?_ hconnected hsilent
    cases hstep with
    | start | subscribe => cases hold
    | outside => exact hoperations
    | run id => exact (Site.aside_run hw.stocked hw.held id).2.1.trans hoperations
    | act id =>
      have hnone : d.life.site.operation? id = none := by
        rw [Site.operation?, hoperations]
        rfl
      rw [Life.act_of_none hnone]
      exact hoperations
  | ended hpoint hoperations hresult hbare hsilent hprinted =>
    have hbus := hstep.bus_eq hold hoperations hbare.receivers_eq
    refine .ended hpoint ?_ hresult ?_ hsilent fun stats hstats => ?_
    · exact hbus ▸ hoperations
    · exact hbus.symm ▸ hbare
    · exact hbus.symm ▸ hprinted stats hstats
  | connecting hpoint hoperations hid hrequest hconnected hsmooth hsilent =>
    rcases hstep.single hold hw hoperations hid hgoes with ⟨hsame, -, hconnection, -, -⟩ |
      ⟨action, rest, s', o', -, htodo, hperform, hsite, hsame, hid', hrequest'⟩
    · exact .connecting hpoint hsame hid hrequest hconnected
        (fun hvirtual => (hsmooth (htransport ▸ hvirtual)).congr hconnection) hsilent
    · refine .connecting hpoint hsame hid' (hrequest'.trans hrequest) hconnected
        (fun hvirtual => ?_) hsilent
      have hbefore := htransport ▸ hvirtual
      refine ((hsmooth hbefore).perform hbefore hrequest htodo hperform).congr ?_
      rw [hsite, Site.collect_bus]
      rfl
  | disconnecting hpoint hoperations hid hrequest hresult hbare hsilent =>
    rcases hstep.single hold hw hoperations hid hgoes with
      ⟨hsame, hlock, hconnection, hpublished, htasks⟩ |
      ⟨action, rest, s', o', hact, htodo, hperform, hsite, hsame, hid', hrequest'⟩
    · exact .disconnecting hpoint hsame hid hrequest hresult
        (fun htodo => (hbare htodo).congr hlock hconnection hpublished htasks) hsilent
    · refine .disconnecting hpoint hsame hid' (hrequest'.trans hrequest) hresult
        (fun hdone => ?_) hsilent
      -- A call that has come to its end with this action has given back the lock with it.
      have hfind := Life.operation?_single hsame hid'
      have hwire : o'.request.wire? = none := by rw [hrequest', hrequest]; rfl
      rcases (hact ▸ hw.acted d.call).left hreach hfind hwire hdone with hidle | hleft
      · rw [hidle, hoperations] at hsame
        cases hsame
        rw [htodo] at hdone
        cases hdone
      · have hnot : o'.request.connects = false := by rw [hrequest', hrequest]; rfl
        obtain ⟨hconnection, hpublished, hreceivers⟩ := hleft.bare (Or.inl hnot)
        exact ⟨hleft.lock_eq, hconnection, hpublished, hreceivers⟩

/-- A frame that is next in the queue is next in what the listener was handed. -/
theorem Kept.taken_concat (h : d.Kept limit s) {wake : Wake}
    (hnext : ∀ received, wake.frame? = some received →
      d.handed[(taken d.wakes).length]? = some received) :
    taken (d.wakes ++ [wake]) <+: d.handed := by
  rw [Probe.taken_concat]
  cases hframe : wake.frame? with
  | none =>
    rw [Option.toList_none, List.append_nil]
    exact h.taken_handed
  | some received =>
    obtain ⟨more, hmore⟩ := h.taken_handed
    have hhead := hnext received hframe
    rw [← hmore, List.getElem?_append_right (Nat.le_refl _), Nat.sub_self] at hhead
    cases more with
    | nil => cases hhead
    | cons first rest =>
      cases hhead
      exact ⟨rest, by rw [← hmore, List.append_assoc]; rfl⟩

/-- Whatever wakes a dump. -/
theorem Kept.woken (h : d.Kept limit s) (hpoint : d.point = .following)
    (hwaits : d.result? limit = none) {wake : Wake}
    (hnext : ∀ received, wake.frame? = some received →
      d.handed[(taken d.wakes).length]? = some received)
    (hfailed : ∀ reason, wake = .state (.failed reason) →
      .failed reason ∈ d.life.site.bus.reception.published) {seen : Nat} :
    ({ d with seen := seen }.woken wake).Kept limit s := by
  obtain ⟨hconnected, hsilent, hoperations⟩ : d.connected.isSome = true ∧ d.statistics = none ∧
      d.life.site.bus.operations = [] := by
    cases h.calls with
    | following _ hoperations hconnected hsilent => exact ⟨hconnected, hsilent, hoperations⟩
    | connecting hother | disconnecting hother | ended hother => cases hother.symm.trans hpoint
  obtain ⟨hok, hpending⟩ := result?_eq_none hconnected hwaits
  exact {
    reachable := h.reachable
    followed := h.followed.concat hpending wake
    taken_handed := h.taken_concat hnext
    failed := fun reason hmem => by
      rcases List.mem_append.mp hmem with hold | hnew
      · exact h.failed reason hold
      · exact hfailed reason (List.mem_singleton.mp hnew).symm
    quiet := fun hnot => absurd hok hnot
    calls := .following hpoint hoperations hconnected hsilent
    unrefused := h.unrefused }

/-- No connect of a virtual bus fails. -/
theorem Calls.unfailing (h : d.Calls limit) (hvirtual : d.life.site.bus.transport = .virtual)
    (id : OperationId) (o : Operation) (hfind : d.life.site.operation? id = some o)
    (hconnects : o.request.connects = true) : o.failure = none := by
  have hmem := (Site.operation?_mem hfind).1
  cases h with
  | connecting _ hoperations _ _ _ hsmooth =>
    rw [hoperations, List.mem_singleton] at hmem
    exact hmem ▸ (hsmooth hvirtual).failure_eq
  | disconnecting _ hoperations _ hrequest =>
    rw [hoperations, List.mem_singleton] at hmem
    rw [hmem, hrequest] at hconnects
    cases hconnects
  | following _ hoperations | ended _ hoperations =>
    rw [hoperations] at hmem
    cases hmem

theorem Kept.unrefused_after (h : d.Kept limit s) (hstep : Life.Step event d.life w)
    (hw : d.life.Sound) (hvirtual : w.site.bus.transport = .virtual) : w.refused = false := by
  have hbefore : d.life.site.bus.transport = .virtual := hstep.transport_eq hw ▸ hvirtual
  have hrefused := h.unrefused hbefore
  cases hstep with
  | start | subscribe | run | outside => exact hrefused
  | act id => exact Life.refused_act hrefused (h.calls.unfailing hbefore id)

theorem Kept.bus (h : d.Kept limit s) (hw : d.life.Sound) (hstep : Life.Step event d.life w)
    (hold : event.isNew = false)
    (hgoes : ∀ outcome, event = .act d.call → (d.life.site.advance d.call).1 ≠ .ends outcome) :
    { d with life := w }.Kept limit s where
  reachable := .step h.reachable trivial hstep
  followed := h.followed
  taken_handed := h.taken_handed.trans (handed_kept hstep)
  failed reason hmem := published_kept hstep hw (h.failed reason hmem)
  quiet := h.quiet
  calls := h.calls.bus hw (.step h.reachable trivial hstep) hstep hold hgoes
  unrefused hvirtual := h.unrefused_after hstep hw hvirtual

/-- The connect ends. -/
theorem Kept.connected (h : d.Kept limit s) (hw : d.life.Sound) (hpoint : d.point = .connecting)
    {outcome : Except Error Unit} (hends : (d.life.site.advance d.call).1 = .ends outcome) :
    Kept limit s { d with
      life := d.life.act d.call
      point := .following
      connected := some outcome } := by
  have hstep := Life.Step.act (w := d.life) d.call
  cases h.calls with
  | following hother | disconnecting hother | ended hother => cases hpoint.symm.trans hother
  | connecting _ hoperations hid hrequest hconnected hsmooth hsilent =>
    obtain ⟨-, -, hgone⟩ := Life.act_ends hoperations hid hends
    exact {
      reachable := .step h.reachable trivial hstep
      followed := h.followed
      taken_handed := h.taken_handed.trans (handed_kept hstep)
      failed := fun reason hmem => published_kept hstep hw (h.failed reason hmem)
      quiet := fun _ => h.quiet (by rw [hconnected]; exact nofun)
      calls := .following rfl hgone rfl hsilent
      unrefused := h.unrefused_after hstep hw }

/-- The dump has returned, and the disconnect begins. -/
theorem Kept.returned (h : d.Kept limit s) (hpoint : d.point = .following)
    {result : Except Error Ending} (hresult : d.result? limit = some result) :
    Kept limit s { d with
      life := d.life.after (.start .disconnect)
      call := d.life.site.bus.next
      point := .disconnecting } := by
  have hstep := Life.Step.start (w := d.life) .disconnect
  cases h.calls with
  | connecting hother | disconnecting hother | ended hother => cases hpoint.symm.trans hother
  | following _ hoperations hconnected hsilent =>
    exact {
      reachable := .step h.reachable trivial hstep
      followed := h.followed
      taken_handed := h.taken_handed.trans (handed_kept hstep)
      failed := h.failed
      quiet := h.quiet
      calls := .disconnecting rfl (congrArg (· ++ _) hoperations) rfl rfl
        (Option.isSome_iff_exists.mpr ⟨result, hresult⟩) nofun hsilent
      unrefused := h.unrefused }

/-- The disconnect ends. -/
theorem Kept.disconnected (h : d.Kept limit s) (hw : d.life.Sound)
    (hpoint : d.point = .disconnecting) {outcome : Except Error Unit}
    (hends : (d.life.site.advance d.call).1 = .ends outcome) :
    Kept limit s { d with
      life := d.life.act d.call
      point := .ended outcome } := by
  have hstep := Life.Step.act (w := d.life) d.call
  cases h.calls with
  | connecting hother | following hother | ended hother => cases hpoint.symm.trans hother
  | disconnecting _ hoperations hid hrequest hresult hbare hsilent =>
    obtain ⟨htodo, hact, hgone⟩ := Life.act_ends hoperations hid hends
    have hbare' : (d.life.act d.call).site.bus.Bare := by
      rw [hact]
      have hbus := Site.finish_bus d.life.site
      exact (hbare htodo).congr (by rw [hbus]) (by rw [hbus]) (by rw [hbus])
        (by simp only [Bus.tasks]; rw [hbus])
    exact {
      reachable := .step h.reachable trivial hstep
      followed := h.followed
      taken_handed := h.taken_handed.trans (handed_kept hstep)
      failed := fun reason hmem => published_kept hstep hw (h.failed reason hmem)
      quiet := h.quiet
      calls := .ended rfl hgone hresult hbare' (fun _ => hsilent) fun stats hstats => by
        cases hsilent.symm.trans hstats
      unrefused := h.unrefused_after hstep hw }

/-- Whatever happens next, what is known of a dump stays true. -/
theorem Kept.step (h : d.Kept limit s) (hmade : s.Made) (hstep : Step limit d d') :
    d'.Kept limit s := by
  have hw := Life.Run.sound h.reachable (Life.sound_of_made hmade)
  cases hstep with
  | bus hstep hold hgoes => exact h.bus hw hstep hold hgoes
  | connected hpoint hends => exact h.connected hw hpoint hends
  | frame hpoint hwaits hnext =>
    refine h.woken hpoint hwaits (fun received heq => ?_) fun reason heq => ?_
    · cases heq
      exact hnext
    · cases heq
  | state hpoint hwaits hlt hle =>
    refine h.woken hpoint hwaits (fun received heq => ?_) fun reason heq => ?_
    · cases heq
    · exact mem_published_of_state (Wake.state.inj heq)
  | closed hpoint hwaits | shutdown hpoint hwaits =>
    refine h.woken hpoint hwaits (fun received heq => ?_) fun reason heq => ?_
    · cases heq
    · cases heq
  | returned hpoint hresult => exact h.returned hpoint hresult
  | disconnected hpoint hends => exact h.disconnected hw hpoint hends
  | printed hpoint =>
    cases h.calls with
    | connecting hother | following hother | disconnecting hother =>
      cases hpoint.symm.trans hother
    | ended hended hoperations hresult hbare =>
      cases hpoint.symm.trans hended
      refine { h with calls := .ended hended hoperations hresult hbare ?_ ?_ }
      · exact fun hnot => absurd rfl hnot
      · exact fun stats hstats => (Option.some.inj hstats).symm

theorem kept_begun (limit : Option Nat) (hmade : s.Made) : (begun s).Kept limit s where
  reachable := .step (.step .refl trivial (.subscribe _)) trivial (.start _)
  followed := followed_nil limit
  taken_handed := List.nil_prefix
  failed := nofun
  quiet _ := rfl
  calls := .connecting rfl (congrArg (· ++ _) hmade.operations_eq) rfl rfl rfl
    (fun _ => ⟨rfl, Or.inl ⟨hmade.connection_eq, rfl⟩⟩) rfl
  unrefused _ := rfl

theorem Run.kept (hrun : Run limit (begun s) d) (hmade : s.Made) : d.Kept limit s := by
  induction hrun with
  | refl => exact kept_begun limit hmade
  | step _ hstep ih => exact ih.step hmade hstep

/-! ## What a dump prints and when it returns -/

/-- What is true at every moment of a dump that was given a limit or none. -/
structure Faithful (limit : Option Nat) (d : Dumping) : Prop where
  /-- What was printed is what the listener was handed first, in its order. -/
  lines_handed : d.lines limit <+: d.handed
  /-- Nothing that was taken from the queue is missing. -/
  lines_eq : d.lines limit = taken d.wakes
  length_le : ∀ n, limit = some n → (d.lines limit).length ≤ max n 1
  /-- The limit is kept unless it is zero, and then until the first frame comes. -/
  within_iff : ∀ n, limit = some n →
    ((d.lines limit).length ≤ n ↔ 0 < n ∨ d.lines limit = [])
  returned_iff : d.connected = some (.ok ()) → ∀ ending, d.result? limit = some (.ok ending) ↔
    ending = .done ∧ ((∃ n, limit = some n ∧ (d.lines limit).length = max n 1) ∨
        .closed ∈ d.wakes ∨ .shutdown ∈ d.wakes) ∨
      ∃ reason, ending = .failed reason ∧ .state (.failed reason) ∈ d.wakes
  /-- Only a failure that the bus has published ends a dump as one. -/
  failed : ∀ reason, .state (.failed reason) ∈ d.wakes →
    .failed reason ∈ d.life.site.bus.reception.published
  refused : ∀ e, d.connected = some (.error e) →
    d.result? limit = some (.error e) ∧ d.lines limit = []
  /-- The disconnect begins after the dump has returned. -/
  returned : d.result? limit = none → d.point = .connecting ∨ d.point = .following
  /-- When the counters are printed the bus is disconnected, and they are what it counted. -/
  printed : ∀ stats, d.statistics = some stats → d.point = .ended (.ok ()) ∧
    d.life.site.bus.isConnected = false ∧ d.life.site.bus.Bare ∧
    d.life.site.bus.operations = [] ∧ stats = d.life.site.bus.reception.stats

theorem result?_eq_some_iff (hconnected : d.connected = some (.ok ())) (ending : Ending) :
    d.result? limit = some (.ok ending) ↔
      (follow limit 0 d.wakes).2 = ending ∧ ending ≠ .pending := by
  rw [result?, hconnected]
  cases (follow limit 0 d.wakes).2 with
  | pending => exact ⟨nofun, fun ⟨heq, hne⟩ => absurd heq.symm hne⟩
  | done | failed =>
    simp only [Option.some.injEq, Except.ok.injEq]
    refine ⟨?_, fun h => h.1⟩
    rintro rfl
    exact ⟨rfl, nofun⟩

theorem Kept.faithful (h : d.Kept limit s) (hw : d.life.Sound) : d.Faithful limit := by
  have hlines : d.lines limit = taken d.wakes := h.followed.lines_eq
  refine {
    lines_handed := hlines ▸ h.taken_handed
    lines_eq := hlines
    length_le := hlines ▸ h.followed.length_le
    within_iff := fun n hlimit => ?_
    returned_iff := fun hconnected ending => ?_
    failed := h.failed
    refused := fun e hconnected => ?_
    returned := fun hnone => ?_
    printed := fun stats hstats => ?_ }
  · have hle := h.followed.length_le n hlimit
    rw [hlines, ← List.length_eq_zero_iff]
    omega
  · rw [result?_eq_some_iff hconnected, hlines, ← h.followed.done_iff]
    cases ending with
    | done => simp
    | failed reason => simp [h.followed.failed_iff]
    | pending => simp
  · have hwakes : d.wakes = [] := h.quiet (by rw [hconnected]; exact nofun)
    refine ⟨by rw [result?, hconnected], ?_⟩
    rw [lines, hwakes]
    rfl
  · cases h.calls with
    | connecting hpoint => exact Or.inl hpoint
    | following hpoint => exact Or.inr hpoint
    | disconnecting _ _ _ _ hresult | ended _ _ hresult =>
      rw [hnone] at hresult
      cases hresult
  · cases h.calls with
    | connecting _ _ _ _ _ _ hsilent | following _ _ _ hsilent
    | disconnecting _ _ _ _ _ _ hsilent => cases hsilent.symm.trans hstats
    | @ended outcome hpoint hoperations _ hbare hsilent hprinted =>
      have hok : outcome = .ok () := by
        by_contra hnot
        cases (hsilent hnot).symm.trans hstats
      exact ⟨hok ▸ hpoint, hbare.isConnected hw h.unrefused, hbare, hoperations,
        hprinted stats hstats⟩

end Dumping

end CanTransport.Probe
