import CanTransport.Proofs.Bus.Accounts
import CanTransport.Proofs.Bus.Callers
import CanTransport.Proofs.Bus.Counters
import CanTransport.Proofs.Bus.Courses
import CanTransport.Proofs.Bus.Turns
/-!
# Callers beside the reception task

What the actions of callers leave to the reception tasks and to the channel: a task is started and
taken away by them, but what it has at hand and how far it has read is its own affair. Of the hub
they change nothing but that what leaves with them is sent, and tasks change nothing of it at all.
On a virtual bus a task is started right after its position was taken.
-/

namespace CanTransport

namespace Operation

/-- What an action leaves to the tasks and to the channel, unless it is one that is about them. -/
structure Beside (action : Action) (s : Site) (o : Operation) (s' : Site) (o' : Operation) :
    Prop where
  origin_eq : s'.bus.origin = s.bus.origin
  queue_eq : s'.bus.queue = s.bus.queue
  hub_eq : action ≠ .transmit → s'.medium.hub = s.medium.hub
  frames_eq : s'.bus.reception.frames = s.bus.reception.frames
  dropped_eq : s'.bus.reception.stats.dropped = s.bus.reception.stats.dropped
  receivers : ∀ r' ∈ s'.bus.receivers,
    (∃ r ∈ s.bus.receivers, r' = { r with cancelled := r'.cancelled }) ∨
      action = .spawn ∧ r' = { id := s.bus.next, handle := o.handle, position := o.position }

variable {s s' : Site} {o o' : Operation} {action : Action} {rest : List Action}

/-- An action that changes neither the tasks nor what they share with the bus. -/
theorem Beside.of_bus_eq
    (hbus : s'.bus = { s.bus with
      resources := s'.bus.resources, idle := s'.bus.idle, published := s'.bus.published
      flag := s'.bus.flag, connection := s'.bus.connection, lock := s'.bus.lock
      echoes := s'.bus.echoes })
    (hhub : action ≠ .transmit → s'.medium.hub = s.medium.hub) : Beside action s o s' o' where
  origin_eq := by rw [hbus]
  queue_eq := by rw [hbus]
  hub_eq := hhub
  frames_eq := by rw [hbus]
  dropped_eq := by rw [hbus]
  receivers r' hr' := by
    rw [hbus] at hr'
    exact Or.inl ⟨r', hr', rfl⟩

theorem beside_cancel (h : o.perform s .cancel = some (s', o')) : Beside .cancel s o s' o' := by
  simp only [perform] at h
  split at h
  · cases h
    exact .of_bus_eq rfl fun _ => rfl
  · rename_i r hr
    cases h
    have hmem : r ∈ s.bus.receivers := by
      obtain ⟨id, -, hfind⟩ := Option.bind_eq_some_iff.mp hr
      exact List.mem_of_find?_eq_some hfind
    refine ⟨rfl, rfl, fun _ => rfl, rfl, rfl, fun r' hr' => Or.inl ?_⟩
    rcases Bus.mem_setReceiver hr' with rfl | ⟨hold, -⟩
    · exact ⟨r, hmem, rfl⟩
    · exact ⟨r', hold, rfl⟩

theorem beside_join (h : o.join s = some (s', o')) : Beside .join s o s' o' := by
  unfold join at h
  split at h
  · cases h
    exact .of_bus_eq rfl fun _ => rfl
  · split at h <;> cases h
    refine ⟨rfl, rfl, fun _ => rfl, rfl, rfl, fun r hr => Or.inl ?_⟩
    exact ⟨r, (List.mem_filter.mp hr).1, rfl⟩

theorem beside_enter (h : o.enter s = some (s', o')) : Beside .enter s o s' o' := by
  unfold enter at h
  simp only at h
  split at h
  · cases h
  split at h
  · cases h
    exact .of_bus_eq rfl fun _ => rfl
  · rcases ite_eq_iff.mp h with ⟨-, h⟩ | ⟨-, h⟩
    · cases h
      exact .of_bus_eq rfl fun _ => rfl
    · cases h
      exact .of_bus_eq rfl fun _ => rfl

theorem onKernel_beside {ε α : Type} {op : Kernel.Op ε α} {r : Except ε α} {t : Site}
    (h : s.onKernel op.run = (r, t)) : t.bus = s.bus ∧ t.medium.hub = s.medium.hub := by
  have ht : (s.onKernel op.run).2 = t := congrArg Prod.snd h
  subst ht
  exact ⟨rfl, rfl⟩

theorem beside_acquire (h : o.acquire s = (s', o')) : Beside .acquire s o s' o' := by
  unfold acquire at h
  simp only at h
  split at h
  · cases h
    exact .of_bus_eq rfl fun _ => rfl
  · split at h
    all_goals
      rename_i hrun
      obtain ⟨hbus, hhub⟩ := onKernel_beside hrun
      cases h
      refine .of_bus_eq ?_ fun _ => hhub
      simp [Site.setBus, hbus]

theorem beside_write (h : o.write s = (s', o')) : Beside .write s o s' o' := by
  unfold write at h
  split at h
  · split at h
    all_goals
      rename_i hrun
      obtain ⟨hbus, hhub⟩ := onKernel_beside hrun
      cases h
      exact .of_bus_eq (by rw [hbus]) fun _ => hhub
  · cases h
    exact .of_bus_eq rfl fun _ => rfl

theorem beside_perform (h : o.perform s action = some (s', o')) : Beside action s o s' o' := by
  cases action with
  | enter => exact beside_enter h
  | join => exact beside_join h
  | cancel => exact beside_cancel h
  | acquire => exact beside_acquire (Option.some.inj h)
  | write => exact beside_write (Option.some.inj h)
  | spawn =>
    cases h
    refine ⟨rfl, rfl, fun _ => rfl, rfl, rfl, fun r hr => ?_⟩
    rcases List.mem_append.mp hr with hold | hnew
    · exact Or.inl ⟨r, hold, rfl⟩
    · exact Or.inr ⟨rfl, List.mem_singleton.mp hnew⟩
  | transmit =>
    simp only [perform] at h
    split at h <;> cases h <;> exact .of_bus_eq rfl fun hne => absurd rfl hne
  | countSent =>
    cases h
    exact ⟨rfl, rfl, fun _ => rfl, rfl, rfl, fun r hr => Or.inl ⟨r, hr, rfl⟩⟩
  | closeSocket | borrow | remember | forget =>
    simp only [perform] at h
    split at h <;> cases h <;> exact .of_bus_eq rfl fun _ => rfl
  | leave | unpublish | letGo | clearEchoes | check | register | listen | publish | store
  | raiseFlag | lowerFlag | dropIdle | checkFlag =>
    cases h
    exact .of_bus_eq rfl fun _ => rfl

/-- An action sends what leaves with it, and does nothing else to the hub. -/
theorem hub_perform (h : o.perform s action = some (s', o')) :
    s'.medium.hub = (s.medium.after (o.parcel? s action)).hub := by
  by_cases htransmit : action = .transmit
  · subst htransmit
    cases hwire : o.request.wire? with
    | none =>
      simp only [perform, hwire, Option.some.injEq, Prod.mk.injEq] at h
      rw [parcel?, hwire, ← h.1]
      rfl
    | some raw =>
      simp only [perform, hwire, Option.some.injEq, Prod.mk.injEq] at h
      rw [parcel?, hwire, ← h.1]
      rfl
  · rw [(beside_perform h).hub_eq htransmit]
    cases hparcel : o.parcel? s action with
    | none => rfl
    | some p =>
      cases p with
      | toKernel fd raw answer => rfl
      | toQueue queue envelope => exact absurd (parcel?_eq_toQueue_iff.mp hparcel).1 htransmit

/-- Nothing is sent by an action that waits. -/
theorem hub_parcel?_of_waits (h : o.perform s action = none) :
    (s.medium.after (o.parcel? s action)).hub = s.medium.hub := by
  cases hparcel : o.parcel? s action with
  | none => rfl
  | some p =>
    cases p with
    | toKernel fd raw answer => rfl
    | toQueue queue envelope =>
      obtain ⟨rfl, frame, hrequest, -⟩ := parcel?_eq_toQueue_iff.mp hparcel
      simp [perform, hrequest, Request.wire?] at h

theorem spares_perform (hfresh : s.medium.kernel.Fresh) (h : o.perform s action = some (s', o')) :
    Kernel.Spares (fun _ => False) s.medium.kernel s'.medium.kernel := by
  by_cases hacquire : action = .acquire
  · subst hacquire
    have hacquired := Resource.acquired s.bus.transport s.bus.channel s.bus.config hfresh
    simp only [perform, acquire] at h
    split at h
    · cases h
      exact Kernel.Spares.refl _
    · split at h
      all_goals
        rename_i hrun
        have hspares := (Site.onKernel_sparing hacquired hrun).2.1
        cases h
        exact hspares
  · exact (quiet_perform hacquire h).1.spares fun _ hfalse => hfalse.elim

end Operation

namespace Site

theorem hub_releaseAll (s : Site) (l : List Resource) :
    (s.releaseAll l).medium.hub = s.medium.hub := by
  induction l generalizing s with
  | nil => rfl
  | cons r l ih =>
    rw [releaseAll, ih]
    rfl

@[simp] theorem hub_collect (s : Site) : s.collect.medium.hub = s.medium.hub := by
  unfold collect
  split
  split
  · rfl
  · rw [hub_releaseAll]
    rfl

/-- A task sends nothing. -/
theorem hub_run (s : Site) (id : ReceiverId) : (s.run id).medium.hub = s.medium.hub := by
  rcases run_eq s id with ⟨-, heq⟩ | ⟨r, -, heq⟩
  · rw [heq]
  · rw [heq, hub_collect]
    exact (Receiver.leaves_step s r).hub_eq

theorem spares_setBus_collect (s : Site) (b : Bus) :
    Kernel.Spares (fun _ => False) s.medium.kernel (s.setBus b).collect.medium.kernel :=
  (spares_collect (s.setBus b)).mono fun _ hfalse => hfalse.elim

/-- Whatever a caller does, what others have of the kernel stays. -/
theorem spares_advance {s : Site} (hfresh : s.medium.kernel.Fresh) (id : OperationId) :
    Kernel.Spares (fun _ => False) s.medium.kernel (s.advance id).2.medium.kernel := by
  rcases advance_eq s id with heq | ⟨o, -, -, -, heq⟩ |
    ⟨o, -, action, rest, s', o', -, -, hperform, heq⟩
  · rw [heq]
    exact Kernel.Spares.refl _
  · rw [heq]
    exact spares_setBus_collect s _
  · rw [heq]
    exact (Operation.spares_perform hfresh hperform).trans (spares_setBus_collect s' _)

theorem spares_run (s : Site) (id : ReceiverId) :
    Kernel.Spares (fun _ => False) s.medium.kernel (s.run id).medium.kernel := by
  rcases run_eq s id with ⟨-, heq⟩ | ⟨r, -, heq⟩
  · rw [heq]
    exact Kernel.Spares.refl _
  · rw [heq]
    exact (Receiver.acts_step s r).spares.trans (spares_setBus_collect (r.step s).1 _)

end Site

theorem Life.spares_after {w : Life} (hfresh : w.site.medium.kernel.Fresh) (event : Life.Event) :
    Kernel.Spares (fun _ => False) w.site.medium.kernel (w.after event).site.medium.kernel := by
  cases event with
  | act id => exact Site.spares_advance hfresh id
  | run id => exact Site.spares_run w.site id
  | start | subscribe | outside => exact Kernel.Spares.refl _

/-! ## Where a bus sends to -/

/-- The queue that a virtual bus sends through, and the number that it sends under. -/
def Bus.address (b : Bus) : QueueId × Nat := (b.queue, b.origin)

namespace Site

theorem address_advance (s : Site) (id : OperationId) :
    (s.advance id).2.bus.address = s.bus.address := by
  rcases advance_eq s id with heq | ⟨o, -, -, -, heq⟩ |
    ⟨o, -, action, rest, s', o', -, -, hperform, heq⟩
  · rw [heq]
  · rw [heq, finish_bus]
    rfl
  · have hbeside := Operation.beside_perform hperform
    rw [heq, collect_bus]
    exact congrArg₂ Prod.mk hbeside.queue_eq hbeside.origin_eq

theorem address_run (s : Site) (id : ReceiverId) : (s.run id).bus.address = s.bus.address := by
  rcases run_eq s id with ⟨-, heq⟩ | ⟨r, -, heq⟩
  · rw [heq]
  · have hbus := (Receiver.acts_step s r).bus_eq
    rw [heq, collect_bus]
    show (r.step s).1.bus.address = _
    rw [hbus]
    rfl

end Site

namespace Life

variable {w w' : Life} {event : Event}

theorem Step.address_eq (hstep : Step event w w') :
    w'.site.bus.address = w.site.bus.address := by
  cases hstep with
  | start | subscribe | outside => rfl
  | act id => exact w.site.address_advance id
  | run id => exact w.site.address_run id

/-- A bus sends to one queue and under one number all its life. -/
theorem Run.address_eq {allowed : Event → Prop} (hrun : Run allowed w w') :
    w'.site.bus.address = w.site.bus.address := by
  induction hrun with
  | refl => rfl
  | step _ _ hstep ih => exact hstep.address_eq.trans ih

end Life

/-! ## When a task is started -/

/-- A task is started right after its position was taken. -/
def Prompt (todo : List Action) : Prop :=
  todo.IsChain fun first second => second = .spawn → first = .listen

instance (todo : List Action) : Decidable (Prompt todo) :=
  inferInstanceAs (Decidable (todo.IsChain fun first second => second = .spawn → first = .listen))

namespace Prompt

theorem tail {action : Action} {rest : List Action} (h : Prompt (action :: rest)) : Prompt rest :=
  h.of_cons

theorem listen_of_spawn {action : Action} {rest : List Action} (h : Prompt (action :: rest))
    (hspawn : rest.head? = some .spawn) : action = .listen := by
  rw [Prompt, List.isChain_cons] at h
  exact h.1 _ hspawn rfl

end Prompt

/-- Actions that do not begin with the start of a task. -/
def Deferred (todo : List Action) : Prop := Prompt todo ∧ todo.head? ≠ some .spawn

instance (todo : List Action) : Decidable (Deferred todo) := inferInstanceAs (Decidable (_ ∧ _))

namespace Deferred

theorem start (request : Request) : Deferred (request.start .virtual) := by
  cases request with
  | connect => decide
  | disconnect => decide
  | send frame =>
    show Deferred [.checkFlag, .transmit, .countSent]
    decide

theorem remainder (request : Request) : Deferred (request.remainder .virtual) := by
  cases request with
  | connect => decide
  | disconnect => decide
  | send frame =>
    show Deferred []
    decide

theorem teardown (request : Request) (reconnecting : Bool) :
    Deferred (Transport.teardown .virtual reconnecting ++ request.remainder .virtual) := by
  cases request with
  | connect => cases reconnecting <;> decide
  | disconnect => cases reconnecting <;> decide
  | send frame =>
    show Deferred (Transport.teardown .virtual reconnecting ++ [])
    cases reconnecting <;> decide

end Deferred

namespace Operation

variable {s s' : Site} {o o' : Operation} {action : Action} {rest : List Action}

theorem deferred_enter (hvirtual : s.bus.transport = .virtual)
    (h : { o with todo := rest }.enter s = some (s', o')) : Deferred o'.todo := by
  obtain ⟨-, -, -, -, htodo⟩ := enter_eq_some h
  rw [hvirtual] at htodo
  rcases htodo with htodo | htodo | ⟨reconnecting, htodo⟩
  · rw [htodo]
    exact Deferred.remainder _
  · rw [htodo]
    decide
  · rw [htodo]
    exact Deferred.teardown _ _

/-- Only a position that was just taken is followed by the start of a task. -/
theorem prompt_perform (hvirtual : s.bus.transport = .virtual) (htodo : o.todo = action :: rest)
    (hprompt : Prompt o.todo) (h : { o with todo := rest }.perform s action = some (s', o')) :
    Prompt o'.todo ∧ (o'.todo.head? = some .spawn → action = .listen) := by
  rw [htodo] at hprompt
  have hdeferred : Deferred o'.todo → Prompt o'.todo ∧ (o'.todo.head? = some .spawn →
      action = .listen) := fun hplan => ⟨hplan.1, fun hspawn => absurd hspawn hplan.2⟩
  by_cases henter : action = .enter
  · subst henter
    exact hdeferred (deferred_enter hvirtual h)
  · rcases todo_perform h henter with heq | ⟨-, hremnant⟩
    · rw [heq]
      exact ⟨hprompt.tail, hprompt.listen_of_spawn⟩
    · have hremnants : ∀ todo ∈ remnants, Deferred todo := by decide
      exact hdeferred (hremnants _ hremnant)

end Operation

end CanTransport
