import CanTransport.Proofs.Bus.Strides
/-!
# What tasks take in

One action of a reception task takes in nothing, a frame, the news that records were lost, or a
receive call that failed. Which of these it is can be told beforehand, on every transport, and it
is all that the action does to what the bus shares with its tasks, unless the action publishes the
end of the loop.
-/

namespace CanTransport

/-- What one action of a task takes in. -/
inductive Taking where
  | nothing
  /-- A frame for the listener. -/
  | frame (frame : Frame)
  /-- Records that are no frames, or that never came. -/
  | lost (count : Nat)
  /-- A receive call that counts as an error. -/
  | failure
deriving DecidableEq, Repr

namespace Taking

def ofWire (raw : Wire) : Taking :=
  match Frame.ofWire raw with
  | .ok found => .frame found
  | .error _ => .lost 1

/-- A record of a socket, of which only whole ones are handed on. -/
def ofRecord (bytes : List UInt8) : Taking :=
  if h : bytes.toArray.size = 16 then ofWire ⟨bytes.toArray, h⟩ else .failure

def ofVerdict : Verdict → Taking
  | .outgoing | .echo => .nothing
  | .unusable => .lost 1
  | .arrival raw => ofWire raw

def ofReceipt : Queue.Receipt → Taking
  | .missed count => .lost count
  | _ => .nothing

def ofFailure (f : Failure) : Taking :=
  if (Receiver.afterFailure f).1 then .failure else .nothing

/-- The answer of a kernel that was asked how many packets were lost. -/
def ofAnswer : Except Errno Nat → Taking
  | .ok count => .lost count
  | .error _ => .nothing

end Taking

namespace Reception

/-- Counts what was taken in, and hands a frame to the listener. -/
def take (r : Reception) : Taking → Reception
  | .nothing => r
  | .frame frame => (r.deliver frame).2
  | .lost count => r.count (Stats.countDropped count)
  | .failure => r.count Stats.countError

theorem deliverWire_snd (raw : Wire) (r : Reception) :
    (r.deliverWire raw).2 = r.take (.ofWire raw) := by
  unfold deliverWire Taking.ofWire
  cases Frame.ofWire raw with
  | ok frame => rfl
  | error fault => rfl

end Reception

theorem Verdict.settle_snd (verdict : Verdict) (r : Reception) :
    (verdict.settle r).2 = r.take (.ofVerdict verdict) := by
  cases verdict with
  | outgoing | echo | unusable => rfl
  | arrival raw => exact Reception.deliverWire_snd raw r

namespace Receiver

/-- What the next action of a task takes in. -/
def taking (s : Site) (r : Receiver) : Taking :=
  match r.stage with
  | .top =>
    if s.bus.transport = .virtual ∧ r.cancelled = false then
      .ofReceipt (s.medium.hub.receive s.bus.queue r.position).1
    else .nothing
  | .receiving =>
    match r.resource? s with
    | none => .nothing
    | some resource =>
      match ((call s resource).run s.medium.kernel).1 with
      | .ok [] => .failure
      | .ok _ => .nothing
      | .error f =>
        -- A blocking read whose socket was closed ends whatever its call says.
        if s.bus.transport = .blocking ∧ r.isClosed s then .nothing else .ofFailure f
  | .holding (bytes :: _) => .ofRecord bytes
  | .looking sweep =>
    match r.ring? s with
    | none => .nothing
    | some (fd, g) =>
      match sweep.look g (s.medium.kernel.memory fd) with
      | none => .nothing
      | some (packet, _) => .ofVerdict (s.bus.echoes.judge packet).1
  | .swept sweep =>
    if sweep.losing = true ∧ (r.ring? s).isSome = true then
      .ofAnswer (Kernel.statistics.run s.medium.kernel).1
    else .nothing
  | _ => .nothing

variable {s : Site} {r : Receiver} {sweep : Sweep}

theorem reception_ask :
    (r.ask s).1.bus.reception =
      s.bus.reception.take (.ofReceipt (s.medium.hub.receive s.bus.queue r.position).1) := by
  unfold ask
  rcases s.medium.hub.receive s.bus.queue r.position with ⟨receipt, position⟩
  cases receipt with
  | message envelope =>
    simp only
    split <;> rfl
  | missed count | closed | nothing => rfl

theorem reception_atTop (hstage : r.stage = .top) :
    (r.atTop s).1.bus.reception = s.bus.reception.take (r.taking s) := by
  unfold taking atTop
  simp only [hstage]
  cases s.bus.transport with
  | virtual =>
    cases r.cancelled with
    | true => rfl
    | false => exact reception_ask
  | cancellable =>
    simp only
    split
    · rfl
    · split <;> rfl
  | blocking | batched | ring =>
    simp only
    split <;> rfl

theorem reception_fail (k : Kernel) (f : Failure) :
    (r.fail (s.withKernel k) f).1.bus.reception =
      s.bus.reception.take
        (if s.bus.transport = .blocking ∧ r.isClosed s then .nothing else .ofFailure f) := by
  unfold fail
  split
  · rename_i hclosed
    rw [if_pos (show s.bus.transport = .blocking ∧ r.isClosed s = true from hclosed)]
    rfl
  · rename_i hclosed
    rw [if_neg (show ¬(s.bus.transport = .blocking ∧ r.isClosed s = true) from hclosed),
      Taking.ofFailure]
    rcases afterFailure f with ⟨counts, stage⟩
    cases counts <;> rfl

theorem reception_receive (hstage : r.stage = .receiving) :
    (r.receive s).1.bus.reception = s.bus.reception.take (r.taking s) := by
  unfold taking
  simp only [hstage]
  cases hresource : r.resource? s with
  | none =>
    unfold receive
    rw [hresource]
    rfl
  | some resource =>
    rw [receive_eq hresource]
    simp only
    have hcall : s.onKernel (call s resource).run =
        (((call s resource).run s.medium.kernel).1,
          s.withKernel ((call s resource).run s.medium.kernel).2) := rfl
    rw [hcall]
    rcases ((call s resource).run s.medium.kernel : Except Failure (List (List UInt8)) × Kernel)
      with ⟨f | records, k⟩
    · exact reception_fail k f
    · cases records with
      | nil => rfl
      | cons bytes rest => rfl

theorem reception_handleRecord (bytes : List UInt8) (rest : List (List UInt8)) :
    (r.handleRecord s bytes rest).1.bus.reception =
      s.bus.reception.take (.ofRecord bytes) := by
  unfold handleRecord Taking.ofRecord
  split
  · exact Reception.deliverWire_snd _ _
  · rfl

theorem reception_look {fd : Descriptor} {g : Geometry} (hstage : r.stage = .looking sweep)
    (hring : r.ring? s = some (fd, g)) :
    (r.look s g (s.medium.kernel.memory fd) sweep).1.bus.reception =
      s.bus.reception.take (r.taking s) := by
  unfold taking
  simp only [hstage, hring]
  cases hlook : sweep.look g (s.medium.kernel.memory fd) with
  | none =>
    unfold look
    rw [hlook]
    rfl
  | some found =>
    obtain ⟨packet, sweep'⟩ := found
    rw [(look_eq hlook).1]
    exact Verdict.settle_snd _ _

theorem reception_countLost (s : Site) :
    (countLost s).bus.reception =
      s.bus.reception.take (.ofAnswer (Kernel.statistics.run s.medium.kernel).1) := by
  have hanswer : s.onKernel Kernel.statistics.run =
      ((Kernel.statistics.run s.medium.kernel).1,
        s.withKernel (Kernel.statistics.run s.medium.kernel).2) := rfl
  unfold countLost
  rw [hanswer]
  rcases (Kernel.statistics.run s.medium.kernel : Except Errno Nat × Kernel) with ⟨_ | _, k⟩
  · rfl
  · rfl

theorem reception_endSweep (g : Geometry) (hstage : r.stage = .swept sweep)
    (hring : (r.ring? s).isSome = true) :
    (r.endSweep s g sweep).1.bus.reception = s.bus.reception.take (r.taking s) := by
  have hlost : (if sweep.losing then countLost s else s).bus.reception =
      s.bus.reception.take (r.taking s) := by
    unfold taking
    simp only [hstage, hring, and_true]
    split
    · exact reception_countLost s
    · rfl
  unfold endSweep
  simp only
  split
  · exact hlost
  · exact hlost

/-- An action on a ring, for a task that has one; a task without one takes in nothing. -/
theorem reception_onRing {action : Descriptor → Geometry → Memory → Site × Receiver}
    (hnone : r.ring? s = none → r.taking s = .nothing)
    (h : ∀ fd g, r.ring? s = some (fd, g) →
      (action fd g (s.medium.kernel.memory fd)).1.bus.reception =
        s.bus.reception.take (r.taking s)) :
    (r.onRing s action).1.bus.reception = s.bus.reception.take (r.taking s) := by
  unfold onRing
  cases hring : (r.resource? s).bind Resource.ring with
  | none =>
    rw [hnone hring]
    rfl
  | some ring => exact h ring.1 ring.2 hring

/-- What one action of a task does to what the bus shares with its tasks. -/
theorem reception_step (s : Site) (r : Receiver) :
    (r.step s).1.bus.reception =
      match r.stage with
      | .returned outcome => s.bus.reception.finish outcome
      | _ => s.bus.reception.take (r.taking s) := by
  unfold step
  cases hstage : r.stage with
  | top => exact reception_atTop hstage
  | receiving => exact reception_receive hstage
  | holding records =>
    cases records with
    | nil => simp only [taking, hstage, Reception.take]
    | cons bytes rest =>
      simp only [taking, hstage]
      exact reception_handleRecord bytes rest
  | looking sweep =>
    refine reception_onRing (fun hring => ?_) fun fd g hring => reception_look hstage hring
    simp only [taking, hstage, hring]
  | releasing sweep | advancing sweep =>
    have hnothing : r.taking s = .nothing := by simp only [taking, hstage]
    refine reception_onRing (fun _ => hnothing) fun fd g _ => ?_
    rw [hnothing]
    rfl
  | swept sweep =>
    refine reception_onRing (fun hring => ?_) fun fd g hring => ?_
    · simp [taking, hstage, hring]
    · exact reception_endSweep g hstage (by rw [hring]; rfl)
  | sleeping deadline order =>
    simp only [taking, hstage]
    split
    · rfl
    · split <;> rfl
  | returned outcome => rfl
  | published | exited died =>
    simp only [taking, hstage]
    rfl

end Receiver

end CanTransport
