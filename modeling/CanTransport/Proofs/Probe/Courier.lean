import CanTransport.Proofs.Bus.Dispatch
import CanTransport.Proofs.Bus.Solo
import CanTransport.Proofs.Probe.Errands
import CanTransport.Proofs.Probe.Sessions
/-!
# An errand beside its bus

A courier runs an errand on a bus of its own. Between its calls, and while one is under way, the
reception task and others act as they like. Each of its calls is noted when it returns, with what
has left the bus by then. As long as nothing but sends has come behind a connect that succeeded,
each send has handed its record over once, and reports how that was answered.
-/

namespace CanTransport.Probe

/-- Where a courier is. -/
inductive Place where
  /-- No call is under way, and this is still to be done. -/
  | between (e : Errand)
  | calling (id : OperationId) (request : Request) (next : Except Error Unit → Errand)

/-- An errand and its bus. -/
structure Courier where
  life : Life
  place : Place
  /-- The calls that have returned, in order. -/
  calls : List Call := []
  /-- What has left the bus since the last call returned. -/
  left : List Parcel := []

/-- A send that handed its record over, and reports how that was answered. -/
def Call.Hands (c : Call) (transport : Transport) (frame : Frame) : Prop :=
  ∃ p, c.parcels = [p] ∧ p.raw = frame.encode ∧ p.Suits transport ∧ c.outcome = p.verdict

/-- A connect that succeeded, and nothing but sends behind it. -/
inductive Opened : List Call → Prop where
  | connected {c : Call} (hconnects : c.Connects) : Opened [c]
  | sent {calls : List Call} {c : Call} {frame : Frame} (h : Opened calls)
      (hrequest : c.request = .send frame) : Opened (calls ++ [c])

theorem Opened.of_concat {calls : List Call} {c : Call} (h : Opened (calls ++ [c])) :
    (calls = [] ∧ c.Connects) ∨ Opened calls ∧ ∃ frame, c.request = .send frame := by
  generalize hcalls : calls ++ [c] = all at h
  cases h with
  | connected hconnects =>
    rcases List.append_eq_singleton_iff.mp hcalls with ⟨hnone, hc⟩ | ⟨-, hc⟩
    · obtain rfl := List.singleton_inj.mp hc
      exact Or.inl ⟨hnone, hconnects⟩
    · cases hc
  | @sent calls' c' frame h hrequest =>
    obtain ⟨rfl, hc⟩ := List.append_inj' hcalls rfl
    obtain rfl := List.singleton_inj.mp hc
    exact Or.inr ⟨h, frame, hrequest⟩

/-- Whether each send behind a connect that succeeded, with nothing but sends between, has handed its
record over. -/
def AllHand (transport : Transport) (calls : List Call) : Prop :=
  ∀ before c after frame, calls = before ++ c :: after → Opened before →
    c.request = .send frame → c.Hands transport frame

theorem AllHand.concat {transport : Transport} {calls : List Call} {c : Call}
    (h : AllHand transport calls)
    (hnew : ∀ frame, Opened calls → c.request = .send frame → c.Hands transport frame) :
    AllHand transport (calls ++ [c]) := by
  intro before c' after frame hcalls hopened hsend
  rcases List.eq_nil_or_concat after with rfl | ⟨after, last, rfl⟩
  · obtain ⟨rfl, hc⟩ := List.append_inj' hcalls rfl
    obtain rfl := List.singleton_inj.mp hc
    exact hnew frame hopened hsend
  · rw [List.concat_eq_append, ← List.cons_append, ← List.append_assoc] at hcalls
    exact h before c' after frame (List.append_inj' hcalls rfl).1 hopened hsend

namespace Courier

/-- A courier who is about to begin. -/
def setOut (s : Site) (e : Errand) : Courier := { life := { site := s }, place := .between e }

/-- Who moves. -/
inductive Mover where
  /-- The courier, or the call that is under way. -/
  | courier
  | task (id : ReceiverId)
  | others
deriving DecidableEq

/-- Whatever happens next. -/
inductive Step (d : Courier) : Mover → Courier → Prop where
  | calls {request : Request} {next : Except Error Unit → Errand}
      (hplace : d.place = .between (.call request next)) : Step d .courier { d with
        life := d.life.after (.start request)
        place := .calling d.life.site.bus.next request next }
  /-- The call that is under way performs an action, or waits. -/
  | acts {id : OperationId} {request : Request} {next : Except Error Unit → Errand}
      (hplace : d.place = .calling id request next)
      (hgoes : ∀ outcome, (d.life.site.advance id).1 ≠ .ends outcome) : Step d .courier { d with
        life := d.life.act id
        left := d.left ++ (d.life.site.parcel? id).toList }
  | returns {id : OperationId} {request : Request} {next : Except Error Unit → Errand}
      {outcome : Except Error Unit} (hplace : d.place = .calling id request next)
      (hends : (d.life.site.advance id).1 = .ends outcome) : Step d .courier {
        life := d.life.act id
        place := .between (next outcome)
        calls := d.calls ++ [⟨request, d.left ++ (d.life.site.parcel? id).toList, outcome⟩] }
  | pauses {ms : Nat} {next : Errand} (hplace : d.place = .between (.pause ms next)) :
      Step d .courier { d with place := .between next }
  | task (id : ReceiverId) : Step d (.task id) { d with life := d.life.run id }
  | others {w : Life} (hstep : Life.Step .outside d.life w) : Step d .others { d with life := w }

/-- Any number of steps of those who are allowed. -/
inductive Run (allowed : Mover → Prop) (d : Courier) : Courier → Prop where
  | refl : Run allowed d d
  | step {d' d'' : Courier} {mover : Mover} (hrun : Run allowed d d') (hallowed : allowed mover)
      (hstep : Step d' mover d'') : Run allowed d d''

/-- Where a courier and the bus can get to. -/
def Reachable (s : Site) (e : Errand) (d : Courier) : Prop := Run (fun _ => True) (setOut s e) d

variable {s : Site} {d d' : Courier} {w w' : Life} {event : Life.Event} {id : OperationId}
  {log : List Outbox.Entry} {e : Errand} {o : Operation} {mover : Mover} {allowed : Mover → Prop}

theorem Run.trans {d'' : Courier} (h : Run allowed d d') (h' : Run allowed d' d'') :
    Run allowed d d'' := by
  induction h' with
  | refl => exact h
  | step _ hallowed hstep ih => exact .step ih hallowed hstep

theorem Reachable.step (h : Reachable s e d) (hstep : Step d mover d') : Reachable s e d' :=
  Run.step h trivial hstep

/-- What the courier does next, if there is anything. -/
def go? (d : Courier) : Option Courier :=
  match d.place with
  | .between (.call request next) => some { d with
      life := d.life.after (.start request)
      place := .calling d.life.site.bus.next request next }
  | .between (.pause _ next) => some { d with place := .between next }
  | .between _ => none
  | .calling id request next =>
    let left := d.left ++ (d.life.site.parcel? id).toList
    match (d.life.site.advance id).1 with
    | .ends outcome => some {
        life := d.life.act id
        place := .between (next outcome)
        calls := d.calls ++ [⟨request, left, outcome⟩] }
    | _ => some { d with
        life := d.life.act id
        left := left }

theorem step_of_go? (h : d.go? = some d') : Step d .courier d' := by
  unfold go? at h
  split at h
  · rename_i hplace
    obtain rfl := Option.some.inj h
    exact .calls hplace
  · rename_i hplace
    obtain rfl := Option.some.inj h
    exact .pauses hplace
  · cases h
  · rename_i hplace
    simp only at h
    split at h
    · rename_i hends
      obtain rfl := Option.some.inj h
      exact .returns hplace hends
    · rename_i hgoes
      obtain rfl := Option.some.inj h
      exact .acts hplace hgoes

/-- What an errand has come to, if it has ended. -/
def result? (d : Courier) : Option Result :=
  match d.place with
  | .between (.ended result) => some result
  | _ => none

theorem place_of_result? {result : Result} (h : d.result? = some result) :
    d.place = .between (.ended result) := by
  unfold result? at h
  split at h
  · rename_i hplace
    rw [← Option.some.inj h]
    exact hplace
  · cases h

/-- The moves of some movers one after the other, while nothing happens elsewhere. -/
def follow (d : Courier) (movers : List Mover) : Courier :=
  movers.foldl (fun d mover =>
    match mover with
    | .courier => d.go?.getD d
    | .task id => { d with life := d.life.run id }
    | .others => d) d

theorem reachable_follow (s : Site) (e : Errand) (movers : List Mover) :
    Reachable s e ((setOut s e).follow movers) := by
  have hall : ∀ d, Reachable s e d → Reachable s e (d.follow movers) := by
    induction movers with
    | nil => exact fun d h => h
    | cons mover rest ih =>
      refine fun d h => ih _ ?_
      cases mover with
      | others => exact h
      | task id => exact h.step (.task id)
      | courier =>
        show Reachable s e (d.go?.getD d)
        cases hgo : d.go? with
        | none => exact h
        | some d' => exact h.step (step_of_go? hgo)
  exact hall _ .refl

/-! ## The course of the errand -/

/-- What is still to be done is what the calls so far lead to. -/
theorem Reachable.leads (hreach : Reachable s e d) :
    (∀ e', d.place = .between e' → e.Leads d.calls e') ∧
      ∀ id request next, d.place = .calling id request next →
        e.Leads d.calls (.call request next) := by
  induction hreach with
  | refl =>
    refine ⟨fun e' hplace => ?_, nofun⟩
    cases hplace
    exact .nothing
  | step _ _ hstep ih =>
    obtain ⟨hbetween, hcalling⟩ := ih
    cases hstep with
    | acts | task | others => exact ⟨hbetween, hcalling⟩
    | calls hplace =>
      refine ⟨nofun, fun id request next hnew => ?_⟩
      cases hnew
      exact hbetween _ hplace
    | returns hplace hends =>
      refine ⟨fun e' hnew => ?_, nofun⟩
      cases hnew
      exact .called (c := ⟨_, _, _⟩) (hcalling _ _ _ hplace) rfl
    | pauses hplace =>
      refine ⟨fun e' hnew => ?_, fun _ _ _ hnew => nomatch hnew⟩
      cases hnew
      exact .paused (hbetween _ hplace)

/-! ## An errand in a session -/

theorem run_others (h : Life.Run Life.Event.ofOthers d.life w) :
    Run (fun _ => True) d { d with life := w } := by
  induction h with
  | refl => exact .refl
  | @step w _ event _ hothers hstep ih =>
    cases hstep with
    | run task => exact .step ih trivial (.task task)
    | outside hspares =>
      exact .step ih trivial (Step.others (d := { d with life := w }) (.outside hspares))
    | start | act | subscribe => cases hothers

theorem run_advances {request : Request} {next : Except Error Unit → Errand}
    (hplace : d.place = .calling id request next) (h : Life.Advances id d.life w) :
    ∃ left, Run (fun _ => True) d { d with life := w, left := left } := by
  induction h with
  | refl => exact ⟨d.left, .refl⟩
  | @act w _ hgoes ih =>
    obtain ⟨left, hrun⟩ := ih
    exact ⟨_, .step hrun trivial
      (Step.acts (d := { d with life := w, left := left }) hplace hgoes)⟩
  | @others w _ _ _ hothers hstep ih =>
    obtain ⟨left, hrun⟩ := ih
    exact ⟨left, hrun.trans
      (run_others (d := { d with life := w, left := left }) (.step .refl hothers hstep))⟩

/-- An errand in a session that sees its calls through is one that a courier can run. -/
theorem exists_run_of_inSession {m : Member} (hname : m.name = probed) (e' : Errand) :
    ∀ {d : Courier} {result : Result}, Reachable s e d → d.place = .between e' →
      e'.Completes (sessionOf m d.life.site) →
      e'.inSession (sessionOf m d.life.site) = some result →
      ∃ d', Reachable s e d' ∧ d'.place = .between (.ended result) := by
  induction e' with
  | ended =>
    intro d result hreach hplace _ hresult
    obtain rfl := Option.some.inj hresult
    exact ⟨d, hreach, hplace⟩
  | overflow => exact fun _ _ _ hresult => nomatch hresult
  | pause ms next ih =>
    intro d result hreach hplace hcompletes hresult
    obtain ⟨w, hothers, hsettled⟩ := exists_run_settle (m := m) ms d.life
    rw [Errand.inSession, hsettled] at hresult
    rw [Errand.Completes, hsettled] at hcompletes
    have hreach' := hreach.step (.pauses hplace)
    exact ih (Run.trans hreach' (run_others (d := { d with place := .between next }) hothers)) rfl
      hcompletes hresult
  | call request next ih =>
    intro d result hreach hplace hcompletes hresult
    rcases hrequest : (sessionOf m d.life.site).request probed request with ⟨outcome, t⟩
    rw [Errand.inSession, hrequest] at hresult
    rw [Errand.Completes, hrequest] at hcompletes
    obtain ⟨hreported, hcompletes⟩ := hcompletes
    obtain ⟨w, w', hadvances, hends, hothers, rfl⟩ :=
      advances_request (w := d.life.after (.start request)) hname rfl hrequest hreported
    have hcalling := hreach.step (.calls hplace)
    obtain ⟨left, hrun⟩ := run_advances (d := { d with
      life := d.life.after (.start request)
      place := .calling d.life.site.bus.next request next }) rfl hadvances
    have hreturned := Reachable.step (Run.trans hcalling hrun) (.returns rfl hends)
    exact ih outcome (Run.trans hreturned (run_others hothers)) rfl hcompletes hresult

/-! ## What leaves the bus -/

/-- What leaves a bus with an event. -/
def leaving (event : Life.Event) (w : Life) : List Parcel :=
  match event with
  | .act id => (w.site.parcel? id).toList
  | _ => []

theorem parcels_endings (id other : OperationId) (s : Site) :
    Outbox.parcels id (Outbox.endings s other) = [] := by
  unfold Outbox.endings
  split
  · split <;> rfl
  · rfl

theorem parcels_changes (id other : OperationId) (before after : Stats) :
    Outbox.parcels id (Outbox.changes other before after) = [] := by
  unfold Outbox.changes
  split <;> rfl

/-- With one call at most, whatever leaves the bus leaves with that call. -/
theorem parcels_notes (hsole : ∀ other, other ≠ id → w.site.operation? other = none) :
    Outbox.parcels id (Outbox.notes event w w') = leaving event w := by
  cases event with
  | start | run | subscribe | outside => rfl
  | act other =>
    rw [Outbox.notes, Outbox.parcels_append, Outbox.parcels_append, parcels_endings,
      parcels_changes, List.append_nil, List.append_nil, leaving, Outbox.parcels,
      List.filterMap_map]
    by_cases hother : other = id
    · have hall : Outbox.Entry.parcel? id ∘ Outbox.Entry.left other = some :=
        funext fun p => if_pos hother
      rw [hall, List.filterMap_some]
    · rw [Site.parcel?_of_none (hsole other hother)]
      rfl

theorem operation?_of_single (h : w.site.bus.operations = [o]) (hid : o.id = id)
    (other : OperationId) (hother : other ≠ id) : w.site.operation? other = none := by
  rw [Site.operation?, h, List.find?_cons_of_neg (by simpa [hid] using hother.symm)]
  rfl

theorem operation?_of_nil (h : w.site.bus.operations = []) (id : OperationId) :
    w.site.operation? id = none := by
  rw [Site.operation?, h]
  rfl

/-- Nothing leaves with a call that is no send. -/
theorem leaving_eq_nil (h : w.site.bus.operations = [o]) (hrequest : o.request.wire? = none) :
    leaving event w = [] := by
  cases event with
  | start | run | subscribe | outside => rfl
  | act other =>
    rw [leaving]
    cases hfind : w.site.operation? other with
    | none => rw [Site.parcel?_of_none hfind]; rfl
    | some o' =>
      have hmem := (Site.operation?_mem hfind).1
      rw [h, List.mem_singleton] at hmem
      subst hmem
      cases htodo : o'.todo with
      | nil => rw [Site.parcel?_of_nil hfind htodo]; rfl
      | cons action rest =>
        rw [Site.parcel?_of_cons hfind htodo, Outbox.parcel?_eq_none hrequest]
        rfl

/-! ## What is known of a courier -/

/-- The call that is under way, if there is one. -/
inductive Calls (log : List Outbox.Entry) (d : Courier) : Prop where
  | between {e : Errand} (hplace : d.place = .between e)
      (hoperations : d.life.site.bus.operations = []) (hleft : d.left = [])
  | calling {id : OperationId} {request : Request} {next : Except Error Unit → Errand}
      {o : Operation} (hplace : d.place = .calling id request next)
      (hoperations : d.life.site.bus.operations = [o]) (hid : o.id = id)
      (hrequest : o.request = request) (hleft : d.left = Outbox.parcels id log)
      (hsilent : request.wire? = none → d.left = [])
      (hopen : request = .connect → o.todo = [] → o.failure = none →
        d.life.site.bus.lock = none ∧ d.life.site.bus.connection.isSome = true)

/-- Whether no call is under way but, possibly, a send. -/
def OnlySends (d : Courier) : Prop :=
  ∀ id request next, d.place = .calling id request next → request.wire? ≠ none

/-- What is known of a courier at every moment. -/
structure Kept (s : Site) (log : List Outbox.Entry) (d : Courier) : Prop where
  noted : Life.Noted Outbox.notes { site := s } log d.life
  underway : d.Calls log
  silent : ∀ c ∈ d.calls, c.request.wire? = none → c.parcels = []
  hands : AllHand s.bus.transport d.calls
  /-- What is known since the connect has returned. -/
  opened : Opened d.calls → d.OnlySends → ∃ u log₀ log', log = log₀ ++ log' ∧
    Outbox.Unmoved u log' d.life ∧ u.site.bus.isConnected = true ∧
    ∀ id request next, d.place = .calling id request next → u.site.bus.next ≤ id

/-- A bus with a connection that is not being made or taken down answers so. -/
theorem isConnected_of_connection (hw : w.Sound) (hlock : w.site.bus.lock = none)
    (hconnection : w.site.bus.connection.isSome = true) : w.site.bus.isConnected = true := by
  by_cases hvirtual : w.site.bus.transport = .virtual
  · rw [(hw.flag_eq hvirtual hlock).1, hconnection]
    rfl
  · rw [Bus.isConnected_of_ne_virtual hvirtual]
    exact (hw.handle_iff hvirtual hlock).mpr hconnection

theorem Kept.sound (h : d.Kept s log) (hmade : s.Made) : d.life.Sound :=
  h.noted.sound (Life.sound_of_made hmade)

theorem Kept.reachable (h : d.Kept s log) : Life.Reachable s d.life := h.noted.run

theorem kept_setOut (hmade : s.Made) (e : Errand) : (setOut s e).Kept s [] where
  noted := .refl
  underway := .between rfl hmade.operations_eq rfl
  silent _ hc := absurd hc List.not_mem_nil
  hands before c after frame hcalls := by
    cases before <;> cases hcalls
  opened h := by
    generalize hcalls : (setOut s e).calls = calls at h
    cases h with
    | connected => cases hcalls
    | sent => cases (List.append_ne_nil_of_right_ne_nil _ (List.cons_ne_nil _ _)) hcalls.symm

/-- Where no call is under way none begins by itself. -/
theorem operations_eq_nil (hw : w.Sound) (hstep : Life.Step event w w')
    (hold : event.isNew = false) (h : w.site.bus.operations = []) :
    w'.site.bus.operations = [] := by
  cases hstep with
  | start | subscribe => cases hold
  | outside => exact h
  | run id => exact (Site.aside_run hw.stocked hw.held id).2.1.trans h
  | act id =>
    rw [Life.act_of_none (operation?_of_nil h id)]
    exact h

/-- What happens on the bus leaves the call what it is. -/
theorem Calls.bus (h : d.Calls log) (hw : d.life.Sound) (hreach : Life.Reachable s w)
    (hstep : Life.Step event d.life w) (hold : event.isNew = false)
    (hgoes : ∀ id request next outcome, d.place = .calling id request next → event = .act id →
      (d.life.site.advance id).1 ≠ .ends outcome) :
    { d with life := w, left := d.left ++ leaving event d.life }.Calls
      (log ++ Outbox.notes event d.life w) := by
  cases h with
  | between hplace hoperations hleft =>
    refine .between hplace (operations_eq_nil hw hstep hold hoperations) ?_
    have hnone : leaving event d.life = [] := by
      cases event with
      | start | run | subscribe | outside => rfl
      | act other => rw [leaving, Site.parcel?_of_none (operation?_of_nil hoperations other)]; rfl
    show d.left ++ leaving event d.life = []
    rw [hleft, hnone]
    rfl
  | @calling id request next o hplace hoperations hid hrequest hleft hsilent hopen =>
    have hleft' : d.left ++ leaving event d.life =
        Outbox.parcels id (log ++ Outbox.notes event d.life w) := by
      rw [Outbox.parcels_append, ← hleft, parcels_notes (operation?_of_single hoperations hid)]
    have hsilent' : request.wire? = none → d.left ++ leaving event d.life = [] := by
      intro hwire
      rw [hsilent hwire, leaving_eq_nil hoperations (hrequest ▸ hwire)]
      rfl
    rcases hstep.single hold hw hoperations hid fun outcome => hgoes id request next outcome hplace
      with ⟨hsame, hlock, hconnection, -⟩ |
        ⟨action, rest, s', o', hact, htodo, -, -, hsame, hid', hrequest'⟩
    · refine .calling hplace hsame hid hrequest hleft' hsilent' fun hconnect hdone hfine => ?_
      rw [hlock, hconnection]
      exact hopen hconnect hdone hfine
    · refine .calling hplace hsame hid' (hrequest'.trans hrequest) hleft' hsilent'
        fun hconnect hdone hfine => ?_
      -- A call that has come to its end with this action has given back the lock with it.
      have hfind := Life.operation?_single hsame hid'
      have hsend : o'.request = .connect := hrequest'.trans (hrequest.trans hconnect)
      rcases (hact ▸ hw.acted id).left hreach hfind (by rw [hsend]; rfl) hdone with hidle | hleft
      · rw [hidle, hoperations] at hsame
        cases hsame
        rw [htodo] at hdone
        cases hdone
      · exact ⟨hleft.lock_eq, hleft.stored (by rw [hsend]; rfl) hfine⟩

theorem sendsOnly_of_old (hold : event.isNew = false) : event.sendsOnly := by
  cases event with
  | start => cases hold
  | act | run | subscribe | outside => trivial

theorem Kept.bus (h : d.Kept s log) (hmade : s.Made) (hstep : Life.Step event d.life w)
    (hold : event.isNew = false)
    (hgoes : ∀ id request next outcome, d.place = .calling id request next → event = .act id →
      (d.life.site.advance id).1 ≠ .ends outcome) :
    { d with life := w, left := d.left ++ leaving event d.life }.Kept s
      (log ++ Outbox.notes event d.life w) where
  noted := .step h.noted hstep
  underway := h.underway.bus (h.sound hmade) (.step h.reachable trivial hstep) hstep hold hgoes
  silent := h.silent
  hands := h.hands
  opened hopened honly := by
    obtain ⟨u, log₀, log', rfl, hunmoved, hconnected, hle⟩ := h.opened hopened honly
    exact ⟨u, log₀, log' ++ Outbox.notes event d.life w, List.append_assoc _ _ _,
      hunmoved.step (h.sound hmade) hstep (sendsOnly_of_old hold), hconnected, hle⟩

/-- A call begins. -/
theorem Kept.calls (h : d.Kept s log) (hmade : s.Made) {request : Request}
    {next : Except Error Unit → Errand} (hplace : d.place = .between (.call request next)) :
    Kept s (log ++ [Outbox.Entry.began d.life.site.bus.next request]) { d with
      life := d.life.after (.start request)
      place := .calling d.life.site.bus.next request next } := by
  have hw := h.sound hmade
  have hstep := Life.Step.start (w := d.life) request
  have hkept := Outbox.kept_of_noted hmade h.noted
  obtain ⟨hoperations, hleft⟩ : d.life.site.bus.operations = [] ∧ d.left = [] := by
    cases h.underway with
    | between _ hoperations hleft => exact ⟨hoperations, hleft⟩
    | calling hother => cases hplace.symm.trans hother
  have hnever : ∀ entry ∈ log, entry.id ≠ d.life.site.bus.next :=
    fun entry hentry => Nat.ne_of_lt (hkept.numbered entry hentry)
  refine ⟨.step h.noted hstep, .calling rfl (congrArg (· ++ _) hoperations) rfl rfl ?_
    (fun _ => hleft) ?_, h.silent, h.hands, fun hopened honly => ?_⟩
  · show d.left = _
    rw [hleft, Outbox.parcels_append, (Outbox.eq_nil_of_ne hnever).1]
    rfl
  · rintro rfl hdone
    cases hdone
  · have hsend : request.wire? ≠ none := honly _ _ _ rfl
    have hidle : d.OnlySends := fun _ _ _ hother => nomatch hplace.symm.trans hother
    obtain ⟨u, log₀, log', rfl, hunmoved, hconnected, -⟩ := h.opened hopened hidle
    refine ⟨u, log₀, _, List.append_assoc _ _ _, hunmoved.step hw hstep hsend, hconnected, ?_⟩
    intro id request' next' hnew
    cases hnew
    exact hunmoved.next_le

/-- What a send that returns has come to. -/
theorem hands_of_ended {u : Life} {log₀ log' : List Outbox.Entry} {frame : Frame} {c : Call}
    (hmade : s.Made) (hnoted : Life.Noted Outbox.notes { site := s } (log₀ ++ log') w)
    (hunmoved : Outbox.Unmoved u log' w) (hconnected : u.site.bus.isConnected = true)
    (hle : u.site.bus.next ≤ id) (hended : .ended id (.send frame) c.outcome ∈ log')
    (hparcels : c.parcels = Outbox.parcels id (log₀ ++ log')) :
    c.Hands s.bus.transport frame := by
  have hconcluded := (Outbox.kept_of_noted hmade hnoted).concluded id frame c.outcome
    (List.mem_append_right _ hended)
  rw [Life.Run.transport_eq hnoted.run (Life.sound_of_made hmade)] at hconcluded
  have hanswered := Outbox.answered_of_concluded hconcluded
    (hunmoved.answered id _ c.outcome hle hended)
  obtain ⟨p, hp, hraw, hsuits, houtcome⟩ := hanswered.admitted hconnected
  exact ⟨p, hparcels.trans hp, hraw, hsuits, houtcome⟩

theorem ended_mem_notes (hfind : w.site.operation? id = some o) (htodo : o.todo = [])
    (w' : Life) : .ended id o.request o.outcome ∈ Outbox.notes (.act id) w w' := by
  refine List.mem_append_left _ (List.mem_append_right _ ?_)
  rw [Outbox.endings, hfind]
  simp [htodo]

/-- A call that is about to return. -/
structure Returning (log : List Outbox.Entry) (d : Courier) (id : OperationId) (request : Request)
    (outcome : Except Error Unit) : Prop where
  gone : (d.life.act id).site.bus.operations = []
  ended : .ended id request outcome ∈ Outbox.notes (.act id) d.life (d.life.act id)
  parcels_eq : d.left ++ leaving (.act id) d.life =
    Outbox.parcels id (log ++ Outbox.notes (.act id) d.life (d.life.act id))
  silent : request.wire? = none → d.left ++ leaving (.act id) d.life = []
  connected : request = .connect → outcome = .ok () → (d.life.act id).site.bus.lock = none ∧
    (d.life.act id).site.bus.connection.isSome = true

theorem Kept.returning (h : d.Kept s log) {request : Request}
    {next : Except Error Unit → Errand} {outcome : Except Error Unit}
    (hplace : d.place = .calling id request next)
    (hends : (d.life.site.advance id).1 = .ends outcome) : Returning log d id request outcome := by
  cases h.underway with
  | between hother => cases hplace.symm.trans hother
  | @calling id' request' next' o hcalling hoperations hid hrequest hleft hsilent hopen =>
    cases hplace.symm.trans hcalling
    have hfind := Life.operation?_single hoperations hid
    obtain ⟨htodo, hact, hgone⟩ := Life.act_ends hoperations hid hends
    obtain ⟨-, houtcome⟩ := Life.advance_eq_ends hfind hends
    refine ⟨hgone, ?_, ?_, fun hwire => ?_, fun hconnect hok => ?_⟩
    · rw [houtcome, ← hrequest]
      exact ended_mem_notes hfind htodo _
    · rw [Outbox.parcels_append, ← hleft, parcels_notes (operation?_of_single hoperations hid)]
    · rw [hsilent hwire, leaving_eq_nil hoperations (hrequest ▸ hwire)]
      rfl
    · have hfine := Operation.outcome_eq_ok_iff.mp (houtcome.symm.trans hok)
      rw [hact, Site.finish_bus]
      exact hopen hconnect htodo hfine

/-- A send that returns was made since the bus was connected. -/
theorem Kept.unmoved_act (h : d.Kept s log) (hmade : s.Made) {request : Request}
    {next : Except Error Unit → Errand} {outcome : Except Error Unit}
    (hplace : d.place = .calling id request next) (hreturning : Returning log d id request outcome)
    (hopened : Opened d.calls) (hsend : request.wire? ≠ none) : ∃ u log₀ log',
      log ++ Outbox.notes (.act id) d.life (d.life.act id) = log₀ ++ log' ∧
      Outbox.Unmoved u log' (d.life.act id) ∧ u.site.bus.isConnected = true ∧
      u.site.bus.next ≤ id ∧ .ended id request outcome ∈ log' := by
  have honly : d.OnlySends := by
    intro id' request' next' hother
    cases hplace.symm.trans hother
    exact hsend
  obtain ⟨u, log₀, log', rfl, hunmoved, hconnected, hle⟩ := h.opened hopened honly
  exact ⟨u, log₀, _, List.append_assoc _ _ _,
    hunmoved.step (h.sound hmade) (.act id) trivial, hconnected, hle _ _ _ hplace,
    List.mem_append_right _ hreturning.ended⟩

/-- Since a connect returned that succeeded the bus is connected. -/
theorem Returning.unmoved (h : Returning log d id .connect (.ok ())) (hw : d.life.Sound) :
    Outbox.Unmoved (d.life.act id) [] (d.life.act id) ∧
      (d.life.act id).site.bus.isConnected = true := by
  have hw' : (d.life.act id).Sound := (Life.Step.act id).sound hw
  have hsends : (d.life.act id).SendsOnly := fun o ho => absurd (h.gone ▸ ho) List.not_mem_nil
  obtain ⟨hlock, hconnection⟩ := h.connected rfl rfl
  exact ⟨Outbox.unmoved_refl hw' hsends, isConnected_of_connection hw' hlock hconnection⟩

/-- A call returns. -/
theorem Kept.returns (h : d.Kept s log) (hmade : s.Made) {request : Request}
    {next : Except Error Unit → Errand} {outcome : Except Error Unit}
    (hplace : d.place = .calling id request next)
    (hends : (d.life.site.advance id).1 = .ends outcome) :
    Kept s (log ++ Outbox.notes (.act id) d.life (d.life.act id)) {
      life := d.life.act id
      place := .between (next outcome)
      calls := d.calls ++ [⟨request, d.left ++ leaving (.act id) d.life, outcome⟩] } := by
  have hreturning := h.returning hplace hends
  have hnoted : Life.Noted Outbox.notes { site := s }
      (log ++ Outbox.notes (.act id) d.life (d.life.act id)) (d.life.act id) :=
    .step h.noted (.act id)
  refine ⟨hnoted, .between rfl hreturning.gone rfl, ?_, h.hands.concat ?_, ?_⟩
  · intro c hc hwire
    rcases List.mem_append.mp hc with hold | hnew
    · exact h.silent c hold hwire
    · obtain rfl := List.mem_singleton.mp hnew
      exact hreturning.silent hwire
  · rintro frame hopened (rfl : request = .send frame)
    obtain ⟨u, log₀, log', hlog, hunmoved, hconnected, hle, hended⟩ :=
      h.unmoved_act hmade hplace hreturning hopened nofun
    exact hands_of_ended hmade (hlog ▸ hnoted) hunmoved hconnected hle hended
      (hlog ▸ hreturning.parcels_eq)
  · intro hopened _
    rcases hopened.of_concat with ⟨-, hconnects⟩ | ⟨hbefore, frame, hsend⟩
    · obtain ⟨rfl, rfl⟩ : request = .connect ∧ outcome = .ok () := hconnects
      obtain ⟨hunmoved, hconnected⟩ := hreturning.unmoved (h.sound hmade)
      exact ⟨d.life.act id, _, [], (List.append_nil _).symm, hunmoved, hconnected,
        fun _ _ _ hother => nomatch hother⟩
    · obtain rfl : request = .send frame := hsend
      obtain ⟨u, log₀, log', hlog, hunmoved, hconnected, -⟩ :=
        h.unmoved_act hmade hplace hreturning hbefore nofun
      exact ⟨u, log₀, log', hlog, hunmoved, hconnected, fun _ _ _ hother => nomatch hother⟩

theorem Kept.step (h : d.Kept s log) (hmade : s.Made) (hstep : Step d mover d') :
    ∃ log', d'.Kept s log' := by
  have haside : ∀ {event : Life.Event} {w : Life}, Life.Step event d.life w →
      event.isNew = false → (∀ id, event ≠ .act id) → ∃ log', Kept s log' { d with life := w } := by
    intro event w hstep hold hother
    have hkept := h.bus hmade hstep hold fun id _ _ _ _ heq => absurd heq (hother id)
    have hnone : leaving event d.life = [] := by
      cases event with
      | act id => exact absurd rfl (hother id)
      | start | run | subscribe | outside => rfl
    rw [hnone, List.append_nil] at hkept
    exact ⟨_, hkept⟩
  cases hstep with
  | calls hplace => exact ⟨_, h.calls hmade hplace⟩
  | returns hplace hends => exact ⟨_, h.returns hmade hplace hends⟩
  | task id => exact haside (.run id) rfl nofun
  | others hstep => exact haside hstep rfl nofun
  | @acts id _ _ hplace hgoes =>
    refine ⟨_, h.bus hmade (.act id) rfl fun id' _ _ outcome hplace' _ => ?_⟩
    cases hplace.symm.trans hplace'
    exact hgoes outcome
  | @pauses ms next hplace =>
    have hunderway : Calls log { d with place := .between next } := by
      cases h.underway with
      | between _ hoperations hleft => exact .between rfl hoperations hleft
      | calling hother => cases hplace.symm.trans hother
    have hidle : d.OnlySends := fun _ _ _ hother => nomatch hplace.symm.trans hother
    refine ⟨log, h.noted, hunderway, h.silent, h.hands, fun hopened _ => ?_⟩
    obtain ⟨u, log₀, log', hlog, hunmoved, hconnected, -⟩ := h.opened hopened hidle
    exact ⟨u, log₀, log', hlog, hunmoved, hconnected, fun _ _ _ hother => nomatch hother⟩

theorem Reachable.exists_kept (hreach : Reachable s e d) (hmade : s.Made) :
    ∃ log, d.Kept s log := by
  induction hreach with
  | refl => exact ⟨[], kept_setOut hmade e⟩
  | step _ _ hstep ih =>
    obtain ⟨log, h⟩ := ih
    exact h.step hmade hstep

end Courier

end CanTransport.Probe
