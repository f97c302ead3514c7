import CanTransport.Proofs.Bus.Actions
import CanTransport.Proofs.Bus.Users
/-!
# What tasks leave to callers

The counter of sent frames belongs to the sends, and so do the queues of virtual channels: no task
touches them. Of the actions of callers only the last one of a send touches a counter, and only this
one.
-/

namespace CanTransport

namespace Reception

theorem sent_deliverWire (raw : Wire) (reception : Reception) :
    (reception.deliverWire raw).2.stats.sent = reception.stats.sent := by
  unfold deliverWire
  split <;> rfl

theorem sent_finish (outcome : Except Error Unit) (reception : Reception) :
    (reception.finish outcome).stats.sent = reception.stats.sent := by
  cases outcome <;> rfl

end Reception

namespace Receiver

/-- What no action of a task touches. -/
structure Leaves (s s' : Site) : Prop where
  sent_eq : s'.bus.reception.stats.sent = s.bus.reception.stats.sent
  hub_eq : s'.medium.hub = s.medium.hub

variable {s : Site} {r : Receiver}

theorem Leaves.refl (s : Site) : Leaves s s := ⟨rfl, rfl⟩

theorem leaves_ask : Leaves s (r.ask s).1 := by
  unfold ask
  split
  · simp only
    split
    · exact .refl s
    · exact .refl s
  · exact ⟨rfl, rfl⟩
  · exact .refl s
  · exact .refl s

theorem leaves_atTop : Leaves s (r.atTop s).1 := by
  unfold atTop
  cases s.bus.transport with
  | virtual =>
    simp only
    split
    · exact .refl s
    · exact leaves_ask
  | cancellable =>
    simp only
    split
    · exact .refl s
    · split
      · exact .refl s
      · exact .refl s
  | blocking | batched | ring =>
    simp only
    split
    · exact .refl s
    · exact .refl s

theorem leaves_fail (f : Failure) : Leaves s (r.fail s f).1 := by
  unfold fail
  split
  · exact .refl s
  · simp only
    split
    · exact ⟨rfl, rfl⟩
    · exact .refl s

/-- A call of the kernel touches nothing of this. -/
theorem leaves_onKernel {α : Type} {op : StateM Kernel α} {a : α} {s' t : Site}
    (h : s.onKernel op = (a, s')) (hleaves : Leaves s' t) : Leaves s t := by
  have hs' : (s.onKernel op).2 = s' := congrArg Prod.snd h
  subst hs'
  exact ⟨hleaves.sent_eq, hleaves.hub_eq⟩

theorem leaves_receive : Leaves s (r.receive s).1 := by
  unfold receive
  split
  · exact .refl s
  · simp only
    split
    all_goals
      split
      all_goals
        rename_i hrun
        apply leaves_onKernel hrun
    · exact ⟨rfl, rfl⟩
    · exact .refl _
    · exact leaves_fail _
    · exact .refl _
    · exact leaves_fail _

theorem leaves_handOn (raw : Wire) (next : Stage) : Leaves s (r.handOn s raw next).1 :=
  ⟨Reception.sent_deliverWire raw s.bus.reception, rfl⟩

theorem leaves_handleRecord (bytes : List UInt8) (rest : List (List UInt8)) :
    Leaves s (r.handleRecord s bytes rest).1 := by
  unfold handleRecord
  split
  · exact leaves_handOn _ _
  · exact ⟨rfl, rfl⟩

theorem leaves_look {g : Geometry} {m : Memory} {sweep : Sweep} :
    Leaves s (r.look s g m sweep).1 := by
  unfold look
  split
  · exact .refl s
  · simp only
    split
    · exact ⟨rfl, rfl⟩
    · exact ⟨rfl, rfl⟩
    · exact ⟨rfl, rfl⟩
    · exact ⟨(leaves_handOn _ _).sent_eq, rfl⟩

theorem leaves_countLost : Leaves s (countLost s) := by
  unfold countLost
  split
  all_goals
    rename_i hrun
    apply leaves_onKernel hrun
  · exact ⟨rfl, rfl⟩
  · exact .refl _

theorem leaves_endSweep {g : Geometry} {sweep : Sweep} : Leaves s (r.endSweep s g sweep).1 := by
  have hlost : Leaves s (if sweep.losing then countLost s else s) := by
    split
    · exact leaves_countLost
    · exact .refl s
  unfold endSweep
  simp only
  split
  · exact hlost
  · exact ⟨hlost.sent_eq, hlost.hub_eq⟩

theorem leaves_onRing {action : Descriptor → Geometry → Memory → Site × Receiver}
    (h : ∀ fd g m, Leaves s (action fd g m).1) : Leaves s (r.onRing s action).1 := by
  unfold onRing
  split
  · exact .refl s
  · exact h _ _ _

/-- No task counts what was sent or changes a queue. -/
theorem leaves_step (s : Site) (r : Receiver) : Leaves s (r.step s).1 := by
  unfold step
  cases r.stage with
  | top => exact leaves_atTop
  | receiving => exact leaves_receive
  | holding records =>
    cases records with
    | nil => exact .refl s
    | cons bytes rest => exact leaves_handleRecord bytes rest
  | looking sweep => exact leaves_onRing fun _ _ _ => leaves_look
  | releasing sweep => exact leaves_onRing fun _ _ _ => ⟨rfl, rfl⟩
  | advancing sweep => exact leaves_onRing fun _ _ _ => .refl s
  | swept sweep => exact leaves_onRing fun _ _ _ => leaves_endSweep
  | sleeping deadline order =>
    simp only
    split
    · exact .refl s
    · split
      · exact .refl s
      · exact .refl s
  | returned outcome => exact ⟨Reception.sent_finish outcome s.bus.reception, rfl⟩
  | published | exited => exact .refl s

end Receiver

/-- What a reception is after an action of a caller. Only the start of a task is published, and only
a send that was accepted is counted. -/
def Reception.performed (r : Reception) : Action → Reception
  | .spawn => r.publish .running
  | .countSent => r.count Stats.countSent
  | _ => r

namespace Operation

variable {s s' : Site} {o o' : Operation} {action : Action}

theorem reception_perform (h : o.perform s action = some (s', o')) :
    s'.bus.reception = s.bus.reception.performed action := by
  cases action with
  | enter =>
    obtain ⟨connection, rfl, -⟩ := enter_eq_some h
    rfl
  | join =>
    simp only [perform, join] at h
    split at h
    · cases h
      rfl
    · split at h <;> cases h
      rfl
  | acquire =>
    simp only [perform, acquire] at h
    split at h
    · cases h
      rfl
    · split at h
      all_goals
        rename_i hrun
        have hbus : s.bus = _ := congrArg (·.2.bus) hrun
        cases h
        rw [hbus]
        rfl
  | write =>
    simp only [perform, write] at h
    split at h
    · split at h
      all_goals
        rename_i hrun
        have hbus : s.bus = _ := congrArg (·.2.bus) hrun
        cases h
        rw [hbus]
        rfl
    · cases h
      rfl
  | cancel | closeSocket | borrow | transmit | remember | forget =>
    simp only [perform] at h
    split at h <;> cases h <;> rfl
  | leave | spawn | check | checkFlag | register | unpublish | letGo | clearEchoes | listen | publish
  | store | raiseFlag | lowerFlag | dropIdle | countSent =>
    cases h
    rfl

/-- Only a send that was accepted changes a counter. -/
theorem stats_perform (haction : action ≠ .countSent) (h : o.perform s action = some (s', o')) :
    s'.bus.reception.stats = s.bus.reception.stats := by
  rw [reception_perform h]
  cases action with
  | countSent => exact absurd rfl haction
  | _ => rfl

end Operation

end CanTransport
