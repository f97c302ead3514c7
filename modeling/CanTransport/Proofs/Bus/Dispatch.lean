import CanTransport.Proofs.Bus.Outbox
import CanTransport.Proofs.Frame.Codec
import CanTransport.Proofs.Virtual.Beside
import CanTransport.Proofs.Virtual.Hub
/-!
# Sends on every transport

A send returns, hands over the record of its frame and nothing else, reports what it was answered
and counts what was taken. The queue of a virtual channel holds what was handed over to it behind
all that it held. While no connect and no disconnect is under way the bus answers once and for all
whether it is connected; a send that finds it is not leaves no trace.
-/

namespace CanTransport

namespace Site

variable {s t : Site}

theorem releaseAll_medium (h : s.medium = t.medium) (resources : List Resource) :
    (s.releaseAll resources).medium = (t.releaseAll resources).medium := by
  induction resources generalizing s t with
  | nil => exact h
  | cons r rest ih =>
    refine ih ?_
    show { s.medium with kernel := (r.release.run s.medium.kernel).2 } = _
    rw [h]
    rfl

/-- What buses share, behind whatever is given back. -/
theorem exists_collect_medium (s : Site) :
    ∃ resources, s.collect.medium = (s.releaseAll resources).medium := by
  unfold collect
  simp only [List.partition_eq_filter_filter]
  split
  · exact ⟨[], rfl⟩
  · refine ⟨s.bus.resources.filter (not ∘ fun r => s.bus.holds r.key), ?_⟩
    apply releaseAll_medium
    rfl

/-- An action of an operation sends what leaves with it, and does nothing else to the hub. -/
theorem hub_advance (s : Site) (id : OperationId) :
    (s.advance id).2.medium.hub = (s.medium.after (s.parcel? id)).hub := by
  cases hfind : s.operation? id with
  | none =>
    have hsame : (s.advance id).2 = s :=
      congrArg Life.site (Life.act_of_none (w := { site := s }) hfind)
    rw [hsame, parcel?_of_none hfind]
    rfl
  | some o =>
    cases htodo : o.todo with
    | nil =>
      rw [advance_ends hfind htodo, parcel?_of_nil hfind htodo]
      exact hub_collect _
    | cons action rest =>
      rw [parcel?_of_cons hfind htodo]
      cases hperform : { o with todo := rest }.perform s action with
      | some result =>
        obtain ⟨s', o'⟩ := result
        have hhub := Operation.hub_perform hperform
        rw [advance_goesOn hfind htodo hperform, hub_collect]
        exact hhub
      | none =>
        have hhub := Operation.hub_parcel?_of_waits hperform
        rw [advance_waits_of_none hfind htodo hperform]
        exact hhub.symm

end Site

namespace Outbox

variable {log log' : List Entry} {u w w' : Life} {event : Life.Event} {id : OperationId}
  {o o' : Operation} {s' : Site} {action : Action} {rest : List Action} {frame : Frame}

/-! ## Sends that return -/

/-- An action of an operation does nothing to what buses share but to hand its parcel over, and to
give back what nobody refers to any longer. -/
def Gives (id : OperationId) (s s' : Site) : Prop :=
  ∃ resources, s'.medium =
    (({ s with medium := s.medium.after (s.parcel? id) } : Site).releaseAll resources).medium

theorem gives_ends (hfind : w.site.operation? id = some o) (htodo : o.todo = []) :
    Gives id w.site (w.act id).site := by
  obtain ⟨resources, heq⟩ := (w.site.setBus { w.site.bus with
    operations := w.site.bus.operations.filter (·.id != o.id) }).exists_collect_medium
  refine ⟨resources, ?_⟩
  rw [Life.site_act, Site.advance_ends hfind htodo, Site.parcel?_of_nil hfind htodo]
  refine heq.trans ?_
  apply Site.releaseAll_medium
  rfl

theorem gives_goesOn (hfind : w.site.operation? id = some o) (htodo : o.todo = action :: rest)
    (hperform : { o with todo := rest }.perform w.site action = some (s', o'))
    (hmedium : s'.medium = w.site.medium.after (o.parcel? w.site action)) :
    Gives id w.site (w.act id).site := by
  obtain ⟨resources, heq⟩ := (s'.setBus (s'.bus.setOperation o')).exists_collect_medium
  refine ⟨resources, ?_⟩
  rw [Life.site_act, Site.advance_goesOn hfind htodo hperform, Site.parcel?_of_cons hfind htodo]
  exact heq.trans (Site.releaseAll_medium hmedium resources)

/-- A send returns whatever else happens. -/
theorem returns_of_course {parcels : List Parcel} {changes : List (Stats × Stats)} (hw : w.Sound)
    (hfind : w.site.operation? id = some o) (hrequest : o.request = .send frame)
    (hcourse : o.Course w.site.bus.transport frame parcels changes) :
    Life.Returns (fun _ => True) id (Gives id) (fun _ => True) w := by
  apply Life.returns_of (I := fun todo v => v.Sound ∧ ∃ o, v.site.operation? id = some o ∧
    o.todo = todo ∧ o.request = .send frame ∧
    ∃ parcels changes, o.Course v.site.bus.transport frame parcels changes)
  · rintro todo v v' event ⟨hv, o, hfind, htodo, hrequest, hcourse⟩ ⟨-, hne⟩ hstep
    refine ⟨hstep.sound hv, o, hstep.operation?_eq hv hne hfind, htodo, hrequest, ?_⟩
    rw [hstep.transport_eq hv]
    exact hcourse
  · rintro v ⟨hv, o, hfind, htodo, -⟩
    exact ⟨gives_ends hfind htodo, o.outcome, Life.outcome_advance hfind htodo, trivial⟩
  · rintro action rest v ⟨hv, o, hfind, htodo, hrequest, parcels, changes, hcourse⟩
    obtain ⟨s', o', hperform, hproceeding⟩ := hcourse.exists_proceeding hrequest htodo
    have hfind' : (v.act id).site.operation? id = some o' := by
      rw [Life.site_act, Site.advance_goesOn hfind htodo hperform]
      exact Site.operation?_acted hfind hperform
    refine ⟨gives_goesOn hfind htodo hperform hproceeding.medium_eq,
      by rw [Site.advance_goesOn hfind htodo hperform], o'.todo, hproceeding.length_le,
      (hv.acted id).sound hv, o', hfind', rfl, hproceeding.request_eq.trans hrequest, ?_⟩
    rw [(Life.Step.act id).transport_eq hv]
    exact ⟨_, _, hproceeding.course⟩
  · exact ⟨hw, o, hfind, rfl, hrequest, parcels, changes, hcourse⟩

/-! ## Sends that are refused -/

/-- A send that finds its bus not connected. -/
theorem returns_of_refused (hw : w.Sound) (hfind : w.site.operation? id = some o)
    (htodo : o.todo = []) (hfailure : o.failure = some .notConnected) (hhandle : o.handle = none) :
    Life.Returns (fun _ => True) id Site.Idles (· = .error .notConnected) w := by
  apply Life.returns_of (I := fun todo v => v.Sound ∧ todo = [] ∧ v.site.operation? id = some o)
  · rintro todo v v' event ⟨hv, htodo, hfind⟩ ⟨-, hne⟩ hstep
    exact ⟨hstep.sound hv, htodo, hstep.operation?_eq hv hne hfind⟩
  · rintro v ⟨hv, -, hfind⟩
    refine ⟨Life.idles_finish hv hfind htodo hhandle, o.outcome, Life.outcome_advance hfind htodo, ?_⟩
    rw [Operation.outcome, hfailure]
  · rintro action rest v ⟨-, hnil, -⟩
    cases hnil
  · exact ⟨hw, rfl, hfind⟩

/-- The question of a send on a bus that is not connected. -/
theorem perform_refused (hask : action :: rest = w.site.bus.transport.transmission)
    (hanswer : w.site.bus.isConnected = false) :
    { o with todo := rest }.perform w.site action =
      some (w.site, { o with todo := rest }.giveUp .notConnected []) := by
  cases htransport : w.site.bus.transport with
  | virtual =>
    rw [htransport] at hask
    cases hask
    have hflag : w.site.bus.flag = false := by
      rw [← hanswer, Bus.isConnected, htransport]
    simp [Operation.perform, hflag]
  | blocking | cancellable | batched | ring =>
    have hpublished : w.site.bus.published = none := by
      rw [Bus.isConnected_of_ne_virtual (by rw [htransport]; decide)] at hanswer
      simpa using hanswer
    rw [htransport] at hask
    cases hask
    simp [Operation.perform, hpublished]

/-! ## Sends that overlap only sends -/

/-- What is known of the sends that began since a moment, while no connect and no disconnect was
under way. -/
structure Unmoved (u : Life) (log : List Entry) (w : Life) : Prop where
  sendsOnly : w.SendsOnly
  answer_eq : w.site.bus.isConnected = u.site.bus.isConnected
  next_le : u.site.bus.next ≤ w.site.bus.next
  recent : ∀ id request, .began id request ∈ log → u.site.bus.next ≤ id
  asks : ∀ id o, u.site.bus.next ≤ id → w.site.operation? id = some o → o.Asks w.site.bus
  answered : ∀ id request outcome, u.site.bus.next ≤ id → .ended id request outcome ∈ log →
    (outcome = .error .notConnected ↔ u.site.bus.isConnected = false)

theorem unmoved_refl (hw : w.Sound) (hsends : w.SendsOnly) : Unmoved w [] w where
  sendsOnly := hsends
  answer_eq := rfl
  next_le := Nat.le_refl _
  recent _ _ hentry := absurd hentry List.not_mem_nil
  asks id o hle hfind := by
    obtain ⟨hmem, rfl⟩ := Site.operation?_mem hfind
    exact absurd (hw.numbered o hmem).1 (Nat.not_lt_of_le hle)
  answered _ _ _ _ hentry := absurd hentry List.not_mem_nil

/-- What is noted of an action of an operation. -/
theorem mem_notes_act {entry : Entry} (h : entry ∈ notes (.act id) w w') :
    (∃ p, w.site.parcel? id = some p ∧ entry = .left id p) ∨
    (∃ o, w.site.operation? id = some o ∧ o.todo = [] ∧ entry = .ended id o.request o.outcome) ∨
    ∃ before after, entry = .changed id before after := by
  rcases List.mem_append.mp h with h | h
  · rcases List.mem_append.mp h with h | h
    · obtain ⟨p, hp, rfl⟩ := List.mem_map.mp h
      exact Or.inl ⟨p, Option.mem_toList.mp hp, rfl⟩
    · unfold endings at h
      split at h
      · rename_i o hfind
        split at h
        · rename_i htodo
          exact Or.inr (Or.inl ⟨o, hfind, htodo, List.mem_singleton.mp h⟩)
        · cases h
      · cases h
  · unfold changes at h
    split at h
    · cases h
    · exact Or.inr (Or.inr ⟨_, _, List.mem_singleton.mp h⟩)

theorem ended_mem_notes {request : Request} {outcome : Except Error Unit}
    (h : .ended id request outcome ∈ notes event w w') :
    ∃ o, w.site.operation? id = some o ∧ o.todo = [] ∧ outcome = o.outcome := by
  cases event with
  | start request => cases List.mem_singleton.mp h
  | run | subscribe | outside => cases h
  | act other =>
    rcases mem_notes_act h with ⟨p, -, heq⟩ | ⟨o, hfind, htodo, heq⟩ | ⟨before, after, heq⟩
    · cases heq
    · cases heq
      exact ⟨o, hfind, htodo, rfl⟩
    · cases heq

theorem began_mem_notes {request : Request} (h : .began id request ∈ notes event w w') :
    event = .start request ∧ id = w.site.bus.next := by
  cases event with
  | start request =>
    cases List.mem_singleton.mp h
    exact ⟨rfl, rfl⟩
  | run | subscribe | outside => cases h
  | act other =>
    rcases mem_notes_act h with ⟨p, -, heq⟩ | ⟨o, -, -, heq⟩ | ⟨before, after, heq⟩ <;> cases heq

theorem parcel?_of_left {p : Parcel} (h : .left id p ∈ notes event w w') :
    event = .act id ∧ w.site.parcel? id = some p := by
  cases event with
  | start request => cases List.mem_singleton.mp h
  | run | subscribe | outside => cases h
  | act other =>
    rcases mem_notes_act h with ⟨q, hparcel, heq⟩ | ⟨o, -, -, heq⟩ | ⟨before, after, heq⟩
    · cases heq
      exact ⟨rfl, hparcel⟩
    · cases heq
    · cases heq

/-- What becomes of a send after its own action. -/
theorem asks_act (hw : w.Sound) (hsends : w.SendsOnly) (hfind : w.site.operation? id = some o)
    (hasks : o.Asks w.site.bus) (hfind' : (w.act id).site.operation? id = some o') :
    o'.Asks (w.act id).site.bus := by
  obtain ⟨haside, -⟩ := (Life.Step.act id).aside hw hsends trivial
  cases htodo : o.todo with
  | nil =>
    rw [Life.site_act, Site.advance_ends hfind htodo, Site.operation?_finish,
      if_pos (Site.operation?_mem hfind).2.symm] at hfind'
    cases hfind'
  | cons action rest =>
    cases hrequest : o.request with
    | connect | disconnect =>
      have hwire := hsends o (Site.operation?_mem hfind).1
      rw [hrequest] at hwire
      exact absurd rfl hwire
    | send frame =>
      obtain ⟨s', o₁, hperform, hmoves⟩ := hasks.exists_moves hw.stocked hrequest htodo
      have hacted : (w.act id).site.operation? id = some o₁ := by
        rw [Life.site_act, Site.advance_goesOn hfind htodo hperform]
        exact Site.operation?_acted hfind hperform
      cases hacted.symm.trans hfind'
      exact hmoves.asks.aside haside hfind'

theorem Unmoved.asks_step (h : Unmoved u log w) (hw : w.Sound) (hstep : Life.Step event w w')
    (hevent : event.sendsOnly) (hle : u.site.bus.next ≤ id)
    (hfind : w'.site.operation? id = some o) : o.Asks w'.site.bus := by
  obtain ⟨haside, hsends⟩ := hstep.aside hw h.sendsOnly hevent
  by_cases hact : event = .act id
  · subst hact
    cases hstep
    cases hbefore : w.site.operation? id with
    | none =>
      rw [Life.act_of_none hbefore, hbefore] at hfind
      cases hfind
    | some o₀ => exact asks_act hw h.sendsOnly hbefore (h.asks id o₀ hle hbefore) hfind
  · rcases hstep.operation?_or hw hact with heq | ⟨-, request, hnew⟩
    · exact (h.asks id o hle (heq.symm.trans hfind)).aside haside hfind
    · cases hnew.symm.trans hfind
      cases request with
      | connect | disconnect => exact absurd rfl (hsends _ (Site.operation?_mem hfind).1)
      | send frame =>
        refine .asking ?_ rfl
        rw [haside.transport_eq]
        rfl

theorem Unmoved.step (h : Unmoved u log w) (hw : w.Sound) (hstep : Life.Step event w w')
    (hevent : event.sendsOnly) : Unmoved u (log ++ notes event w w') w' := by
  obtain ⟨haside, hsends⟩ := hstep.aside hw h.sendsOnly hevent
  refine ⟨hsends, haside.isConnected_eq.trans h.answer_eq,
    Nat.le_trans h.next_le (hstep.next_le hw), ?_, fun id o hle hfind =>
      h.asks_step hw hstep hevent hle hfind, ?_⟩
  · intro id request hentry
    rcases List.mem_append.mp hentry with hold | hnew
    · exact h.recent id request hold
    · obtain ⟨-, rfl⟩ := began_mem_notes hnew
      exact h.next_le
  · intro id request outcome hle hentry
    rcases List.mem_append.mp hentry with hold | hnew
    · exact h.answered id request outcome hle hold
    · obtain ⟨o, hfind, htodo, rfl⟩ := ended_mem_notes hnew
      rw [← h.answer_eq]
      exact (h.asks id o hle hfind).outcome_iff htodo

theorem unmoved_of_noted (hu : u.Sound) (hsends : u.SendsOnly)
    (hrun : Life.Noted notes u log w)
    (hbegan : ∀ id request, .began id request ∈ log → request.wire? ≠ none) : Unmoved u log w := by
  induction hrun with
  | refl => exact unmoved_refl hu hsends
  | @step log w w' event hrun hstep ih =>
    refine (ih fun id request hentry => hbegan id request (List.mem_append_left _ hentry)).step
      (hrun.sound hu) hstep ?_
    cases event with
    | start request =>
      exact hbegan w.site.bus.next request (List.mem_append_right _ List.mem_cons_self)
    | act | run | subscribe | outside => trivial

/-! ## Queues of virtual channels -/

/-- What leaves for a queue. -/
def Entry.envelope? (queue : QueueId) : Entry → Option Envelope
  | left _ (.toQueue other envelope) => if other = queue then some envelope else none
  | _ => none

/-- What has left for a queue, in order. -/
def envelopes (queue : QueueId) (log : List Entry) : List Envelope :=
  log.filterMap (Entry.envelope? queue)

variable {queue : QueueId} {envelope : Envelope}

theorem envelopes_append (queue : QueueId) (log log' : List Entry) :
    envelopes queue (log ++ log') = envelopes queue log ++ envelopes queue log' :=
  List.filterMap_append

/-- Of the notes of an action, only that of its parcel is about a queue. -/
theorem envelopes_act (queue : QueueId) (id : OperationId) (w w' : Life) :
    envelopes queue (notes (.act id) w w') =
      envelopes queue ((w.site.parcel? id).toList.map (.left id)) := by
  have hendings : envelopes queue (endings w.site id) = [] := by
    unfold endings
    split
    · split <;> rfl
    · rfl
  have hchanges : ∀ before after, envelopes queue (changes id before after) = [] := by
    intro before after
    unfold changes
    split <;> rfl
  rw [notes, envelopes_append, envelopes_append, hendings, hchanges, List.append_nil,
    List.append_nil]

/-- A parcel is added to the queue that it leaves for, and to no other. -/
theorem sent_parcel (m : Medium) (parcel : Option Parcel) (id : OperationId) (queue : QueueId) :
    ((m.after parcel).hub.queue? queue).map (·.sent.toList) =
      (m.hub.queue? queue).map
        (·.sent.toList ++ envelopes queue (parcel.toList.map (.left id))) := by
  have hnone : (m.hub.queue? queue).map (·.sent.toList) =
      (m.hub.queue? queue).map (·.sent.toList ++ []) := by simp
  cases parcel with
  | none => exact hnone
  | some p =>
    cases p with
    | toKernel fd raw answer => exact hnone
    | toQueue other envelope =>
      have hleft : envelopes queue ((some (Parcel.toQueue other envelope)).toList.map (.left id)) =
          if queue = other then [envelope] else [] := by
        by_cases hqueue : other = queue
        · simp [envelopes, Entry.envelope?, hqueue]
        · simp [envelopes, Entry.envelope?, hqueue, Ne.symm hqueue]
      rw [hleft, Medium.after, Hub.queue?_send]
      by_cases hqueue : queue = other
      · subst hqueue
        rw [if_pos rfl, if_pos rfl, Option.map_map]
        congr 1
        funext q
        exact Array.toList_push
      · rw [if_neg hqueue, if_neg hqueue]
        exact hnone

/-- A step adds to a queue what leaves for it. -/
theorem sent_after (w : Life) (event : Life.Event) (queue : QueueId) :
    ((w.after event).site.medium.hub.queue? queue).map (·.sent.toList) =
      (w.site.medium.hub.queue? queue).map
        (·.sent.toList ++ envelopes queue (notes event w (w.after event))) := by
  have hsame : ∀ {h : Hub}, h = w.site.medium.hub → (h.queue? queue).map (·.sent.toList) =
      (w.site.medium.hub.queue? queue).map (·.sent.toList ++ []) := by
    rintro h rfl
    simp
  cases event with
  | start | subscribe | outside => exact hsame rfl
  | run id => exact hsame (Site.hub_run w.site id)
  | act id =>
    rw [envelopes_act, ← sent_parcel, ← Site.hub_advance]
    rfl

/-- A run adds to a queue what leaves for it, in order. -/
theorem sent_foldl_after (events : List Life.Event) (u : Life) (queue : QueueId) :
    ((events.foldl Life.after u).site.medium.hub.queue? queue).map (·.sent.toList) =
      (u.site.medium.hub.queue? queue).map
        (·.sent.toList ++ envelopes queue (Life.taken notes u events)) := by
  induction events generalizing u with
  | nil => simp [Life.taken, envelopes]
  | cons event rest ih =>
    have hstep := congrArg
      (Option.map (· ++ envelopes queue (Life.taken notes (u.after event) rest)))
      (sent_after u event queue)
    rw [Option.map_map, Option.map_map] at hstep
    rw [List.foldl_cons, ih, Life.taken, envelopes_append]
    refine hstep.trans ?_
    congr 1
    funext q
    exact List.append_assoc _ _ _

/-- What leaves for a queue leaves for that of the bus, under its number. -/
theorem addressed_of_noted {s : Site} (hrun : Life.Noted notes { site := s } log w)
    (hleft : .left id (.toQueue queue envelope) ∈ log) :
    queue = s.bus.queue ∧ envelope.origin = s.bus.origin := by
  induction hrun with
  | refl => cases hleft
  | @step log w w' event hrun hstep ih =>
    rcases List.mem_append.mp hleft with hold | hnew
    · exact ih hold
    · obtain ⟨-, hparcel⟩ := parcel?_of_left hnew
      obtain ⟨o, -, hhead⟩ := Option.bind_eq_some_iff.mp hparcel
      obtain ⟨action, -, hparcel⟩ := Option.bind_eq_some_iff.mp hhead
      obtain ⟨-, frame, -, rfl, rfl⟩ := Operation.parcel?_eq_toQueue_iff.mp hparcel
      have haddress := hrun.run.address_eq
      exact ⟨congrArg Prod.fst haddress, congrArg Prod.snd haddress⟩

/-! ## The law of sends -/

/-- What the notes of a run say of the sends of a bus. -/
structure Honest (log : List Entry) (w : Life) : Prop where
  /-- Whatever leaves a bus is the record of the frame of its send. -/
  left : ∀ id p, .left id p ∈ log → ∃ frame, .began id (.send frame) ∈ log ∧ p.raw = frame.encode
  /-- A send that has not returned yet. -/
  underway : ∀ o ∈ w.site.bus.operations, ∀ frame, o.request = .send frame →
    (parcels o.id log).length ≤ 1
  /-- A send that has returned. -/
  concluded : ∀ id frame outcome, .ended id (.send frame) outcome ∈ log →
    Operation.Concluded w.site.bus.transport frame (parcels id log) (counts id log) outcome
  sent_eq : w.site.bus.reception.stats.sent = UInt64.ofNat (successes log + pending w.site)
  /-- Between sends the counter tells how many have reported success. -/
  settled : (∀ o ∈ w.site.bus.operations, o.request.wire? = none) →
    w.site.bus.reception.stats.sent = UInt64.ofNat (successes log)

/-- What a send comes to during which the bus gave one answer. -/
structure Answered (connected : Bool) (transport : Transport) (frame : Frame)
    (parcels : List Parcel) (outcome : Except Error Unit) : Prop where
  refused : connected = false → parcels = [] ∧ outcome = .error .notConnected
  admitted : connected = true → ∃ p, parcels = [p] ∧ p.raw = frame.encode ∧ p.Suits transport ∧
    outcome = p.verdict
  ok_iff : outcome = .ok () ↔ connected = true ∧
    ∀ fd raw answer, .toKernel fd raw answer ∈ parcels → answer = .ok wireSize

/-- What holds of the sends of a bus. -/
structure Lawful (s : Site) : Prop where
  honest : ∀ log w, Life.Noted notes { site := s } log w → Honest log w
  /-- A send while no connect and no disconnect is under way. -/
  answered : ∀ log u log' w, Life.Noted notes { site := s } log u → Life.Noted notes u log' w →
    u.SendsOnly → (∀ id request, .began id request ∈ log' → request.wire? ≠ none) →
    w.site.bus.isConnected = u.site.bus.isConnected ∧
      ∀ id frame outcome, .began id (.send frame) ∈ log' → .ended id (.send frame) outcome ∈ log' →
        Answered u.site.bus.isConnected u.site.bus.transport frame (parcels id log') outcome
  /-- Every send returns, whatever else is under way. -/
  returns : ∀ w, Life.Reachable s w → ∀ id o frame, w.site.operation? id = some o →
    o.request = .send frame → Life.Returns (fun _ => True) id (Gives id) (fun _ => True) w
  /-- A send that asks while the bus is not connected changes nothing but itself. -/
  refused : ∀ w, Life.Reachable s w → ∀ id o frame, w.site.operation? id = some o →
    o.request = .send frame → o.todo = w.site.bus.transport.transmission →
    w.site.bus.isConnected = false →
    (w.site.advance id).1 = .goesOn ∧ w.site.Idles (w.act id).site ∧
      Life.Returns (fun _ => True) id Site.Idles (· = .error .notConnected) (w.act id)
  /-- What leaves for a queue leaves for that of the bus, under the number of the bus. -/
  addressed : ∀ log w, Life.Noted notes { site := s } log w → ∀ id queue envelope,
    .left id (.toQueue queue envelope) ∈ log → ∃ frame, .began id (.send frame) ∈ log ∧
      queue = s.bus.queue ∧ envelope = { origin := s.bus.origin, raw := frame.encode }
  /-- The queue of a virtual bus is there when the bus is made. -/
  reaches : s.bus.transport = .virtual → (s.medium.hub.queue? s.bus.queue).isSome = true
  /-- As long as nothing happens outside, every queue holds what has left for it, in order, behind
  all that it held. -/
  queued : ∀ u, Life.Reachable s u → ∀ events queue,
    ((events.foldl Life.after u).site.medium.hub.queue? queue).map (·.sent.toList) =
      (u.site.medium.hub.queue? queue).map
        (·.sent.toList ++ envelopes queue (Life.taken notes u events))
  /-- Whoever reads what has left reads the frame that was sent. -/
  decodes : ∀ log w, Life.Noted notes { site := s } log w → ∀ id p, .left id p ∈ log →
    ∃ frame, .began id (.send frame) ∈ log ∧ Frame.decode p.raw.toList = .ok frame ∧
      (∀ r : Reception, r.deliverWire p.raw = r.deliver frame) ∧
      ∀ (t : Site) (r : Receiver) rest, (r.handleRecord t p.raw.toList rest).1.bus.reception =
        (t.bus.reception.deliver frame).2

theorem Kept.honest (h : Kept log w) : Honest log w where
  left := h.left
  underway o ho frame hrequest := (h.courses o ho frame hrequest).raw_eq.1
  concluded := h.concluded
  sent_eq := h.sent_eq
  settled hnone := by
    have hpending : pending w.site = 0 := by
      rw [pending, List.countP_eq_zero]
      intro o ho hcounted
      simp [Operation.isCounted, hnone o ho] at hcounted
    rw [h.sent_eq, hpending, Nat.add_zero]

/-- What a send reports follows from the answer of its bus and from that of the kernel. -/
theorem answered_of_concluded {connected : Bool} {transport : Transport} {ps : List Parcel}
    {changes : List (Stats × Stats)} {outcome : Except Error Unit}
    (h : Operation.Concluded transport frame ps changes outcome)
    (hiff : outcome = .error .notConnected ↔ connected = false) :
    Answered connected transport frame ps outcome := by
  cases h with
  | refused =>
    have hnot : connected = false := hiff.mp rfl
    subst hnot
    exact ⟨fun _ => ⟨rfl, rfl⟩, nofun, by simp⟩
  | @rejected p e hraw hsuits hverdict =>
    have hconnected : connected = true := by
      by_contra hnot
      have hsame := hiff.mpr (by simpa using hnot)
      exact p.verdict_ne_notConnected (hverdict.trans hsame)
    subst hconnected
    refine ⟨nofun, fun _ => ⟨p, rfl, hraw, hsuits, hverdict.symm⟩, ?_⟩
    have hnot : p.verdict ≠ .ok () := by rw [hverdict]; exact nofun
    rw [ne_eq, p.verdict_eq_ok_iff] at hnot
    simpa [eq_comm] using hnot
  | @accepted p stats hraw hsuits hverdict =>
    have hconnected : connected = true := by
      by_contra hnot
      cases hiff.mpr (by simpa using hnot)
    subst hconnected
    refine ⟨nofun, fun _ => ⟨p, rfl, hraw, hsuits, hverdict.symm⟩, ?_⟩
    rw [p.verdict_eq_ok_iff] at hverdict
    simpa [eq_comm] using hverdict

theorem exists_noted {s : Site} (h : Life.Reachable s w) :
    ∃ log, Life.Noted notes { site := s } log w := by
  induction h with
  | refl => exact ⟨[], .refl⟩
  | step _ _ hstep ih =>
    obtain ⟨log, hnoted⟩ := ih
    exact ⟨_, .step hnoted hstep⟩

/-- On every transport a send hands over the record of its frame, once, and nothing else; what is
handed over to a queue is what the queue then holds last. While no connect and no disconnect is
under way a send succeeds exactly if the bus is connected and, where the kernel is asked, took the
whole record; the counter of sent frames counts the sends that succeeded. A send on a bus that is
not connected calls no kernel. -/
theorem lawful_of_make {transport : Transport} {channel : String} {c : BusConfig} {m m' : Medium}
    {b : Bus} (hfresh : m.kernel.Fresh)
    (hmake : (Bus.make transport channel c).run m = (.ok b, m')) : Lawful ⟨b, m'⟩ := by
  obtain ⟨htransport, hmade⟩ := Bus.made_of_make hfresh hmake
  have hsound := Life.sound_of_made hmade
  have hcourse : ∀ w, Life.Reachable ⟨b, m'⟩ w → ∀ id o frame, w.site.operation? id = some o →
      o.request = .send frame →
      w.Sound ∧ ∃ ps changes, o.Course w.site.bus.transport frame ps changes := by
    intro w hreach id o frame hfind hrequest
    obtain ⟨log, hnoted⟩ := exists_noted hreach
    exact ⟨hreach.sound hsound, _, _,
      (kept_of_noted hmade hnoted).courses o (Site.operation?_mem hfind).1 frame hrequest⟩
  refine ⟨fun log w hnoted => (kept_of_noted hmade hnoted).honest, ?_, ?_, ?_, ?_, ?_,
    fun u _ events queue => sent_foldl_after events u queue, ?_⟩
  · intro log u log' w hbefore hafter hsends hbegan
    have hu := hbefore.sound hsound
    have hunmoved := unmoved_of_noted hu hsends hafter hbegan
    refine ⟨hunmoved.answer_eq, fun id frame outcome hstarted hended => ?_⟩
    have hle := hunmoved.recent id _ hstarted
    have hnever : ∀ entry ∈ log, entry.id ≠ id := fun entry hentry => Nat.ne_of_lt
      (Nat.lt_of_lt_of_le ((kept_of_noted hmade hbefore).numbered entry hentry) hle)
    have hconcluded := (kept_of_noted hmade (hbefore.append hafter)).concluded id frame outcome
      (List.mem_append_right _ hended)
    rw [parcels_append, (eq_nil_of_ne hnever).1, List.nil_append, hafter.run.transport_eq hu]
      at hconcluded
    exact answered_of_concluded hconcluded (hunmoved.answered id _ outcome hle hended)
  · intro w hreach id o frame hfind hrequest
    obtain ⟨hw, ps, changes, hcourse⟩ := hcourse w hreach id o frame hfind hrequest
    exact returns_of_course hw hfind hrequest hcourse
  · intro w hreach id o frame hfind hrequest htodo hanswer
    obtain ⟨hw, ps, changes, hcourse⟩ := hcourse w hreach id o frame hfind hrequest
    obtain ⟨-, hhandle⟩ := hcourse.of_asking htodo
    obtain ⟨action, rest, hcons⟩ : ∃ action rest, o.todo = action :: rest := by
      rw [htodo]
      cases w.site.bus.transport <;> exact ⟨_, _, rfl⟩
    have hperform := perform_refused (o := o) (hcons.symm.trans htodo) hanswer
    have hfind' : (w.act id).site.operation? id =
        some ({ o with todo := rest }.giveUp .notConnected []) := by
      rw [Life.site_act, Site.advance_goesOn hfind hcons hperform]
      exact Site.operation?_acted hfind hperform
    refine ⟨by rw [Site.advance_goesOn hfind hcons hperform],
      Life.idles_act hw hfind hcons hperform rfl rfl, ?_⟩
    exact returns_of_refused ((hw.acted id).sound hw) hfind' rfl rfl hhandle
  · intro log w hnoted id queue envelope hleft
    obtain ⟨frame, hbegan, hraw⟩ := (kept_of_noted hmade hnoted).left id _ hleft
    obtain ⟨hqueue, horigin⟩ := addressed_of_noted hnoted hleft
    refine ⟨frame, hbegan, hqueue, ?_⟩
    rw [← horigin, ← hraw]
    rfl
  · intro hvirtual
    cases htransport.symm.trans hvirtual
    obtain ⟨rfl, rfl⟩ := Bus.make_virtual hmake
    exact Hub.isSome_queue?_attach m.hub channel _
  · intro log w hnoted id p hleft
    obtain ⟨frame, hbegan, hraw⟩ := (kept_of_noted hmade hnoted).left id p hleft
    have hdeliver : ∀ r : Reception, r.deliverWire frame.encode = r.deliver frame := by
      intro r
      rw [Reception.deliverWire, Frame.ofWire_encode]
    refine ⟨frame, hbegan, ?_, ?_, ?_⟩
    · rw [hraw]
      exact Frame.decode_encode frame
    · rw [hraw]
      exact hdeliver
    · intro t r rest
      have hsize : frame.encode.toList.toArray.size = 16 := by simp
      rw [hraw, Receiver.handleRecord, dif_pos hsize]
      exact congrArg Prod.snd (hdeliver t.bus.reception)

/-- What the sends reported, in order. -/
def reports (log : List Entry) : List (OperationId × Except Error Unit) :=
  log.filterMap fun
    | .ended id (.send _) outcome => some (id, outcome)
    | _ => none

/-- A send before the first connect, and four behind it. -/
def fiveSends (frame : Frame) : List Life.Event :=
  Life.calling 0 (.send frame) ++ Life.calling 1 .connect ++ Life.calling 3 (.send frame) ++
    Life.calling 4 (.send frame) ++ Life.calling 5 (.send frame) ++ Life.calling 6 (.send frame)

/-- The kernel takes the first record, a part of the second, nothing of the third and the last. -/
theorem lawful_of_partial_write : ∃ frame b m',
    (Bus.make .ring "can0" {}).run
      { kernel := { replies := [.accepted 16, .accepted 8, .refused .notPermitted] } } =
        (.ok b, m') ∧
    (let log := Life.taken notes { site := ⟨b, m'⟩ } (fiveSends frame)
     let w := Life.replay ⟨b, m'⟩ (fiveSends frame)
     reports log = [(0, .error .notConnected), (3, .ok ()), (4, .error (.shortWrite 8 16)),
        (5, .error (.io (.os .notPermitted))), (6, .ok ())] ∧
      w.site.medium.kernel.sent = [(2, frame.encode)] ∧
      w.site.bus.reception.stats = { sent := 2 } ∧ Honest log w) ∧
    Lawful ⟨b, m'⟩ := by
  obtain ⟨frame, m, b, m', hm, hfresh, hmake, hreports, hsent, hstats⟩ :
      ∃ (frame : Frame) (m : Medium) (b : Bus) (m' : Medium),
        m = { kernel := { replies := [.accepted 16, .accepted 8, .refused .notPermitted] } } ∧
        m.kernel.Fresh ∧ (Bus.make .ring "can0" {}).run m = (.ok b, m') ∧
        (let log := Life.taken notes { site := ⟨b, m'⟩ } (fiveSends frame)
         let w := Life.replay ⟨b, m'⟩ (fiveSends frame)
         reports log = [(0, .error .notConnected), (3, .ok ()), (4, .error (.shortWrite 8 16)),
            (5, .error (.io (.os .notPermitted))), (6, .ok ())] ∧
          w.site.medium.kernel.sent = [(2, frame.encode)] ∧
          w.site.bus.reception.stats = { sent := 2 }) :=
    ⟨⟨0x101, 0, 1, #v[1, 0, 0, 0, 0, 0, 0, 0], by decide⟩, _, _, _, rfl, fun _ _ => rfl, rfl,
      by decide +kernel, by decide +kernel, by decide +kernel⟩
  have hlawful := lawful_of_make hfresh hmake
  exact ⟨frame, b, m', hm ▸ hmake, ⟨hreports, hsent, hstats,
    hlawful.honest _ _ (Life.noted_taken notes { site := ⟨b, m'⟩ } (fiveSends frame))⟩, hlawful⟩

end Outbox

end CanTransport
