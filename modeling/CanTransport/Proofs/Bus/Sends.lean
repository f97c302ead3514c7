import CanTransport.Proofs.Bus.Observed
import CanTransport.Proofs.Ring.Echoes
/-!
# Sends through a ring

What single actions do to the queue of own echoes and to what listeners got. A send remembers its
record, writes it, and forgets it again if the write fails; a task hands on what the echoes leave.
-/

namespace CanTransport

namespace Operation

/-- The record that a write hands over, if the system takes it. -/
def accepted? (s : Site) (o : Operation) : Option Wire :=
  match o.handle.bind s.bus.resource?, o.request.wire? with
  | some resource, some raw =>
    match (s.onKernel (resource.socket.writeWire raw).run).1 with
    | .ok () => some raw
    | .error _ => none
  | _, _ => none

/-- The places at which a send can be. -/
def sendPoints : List (List Action) := [
  [.borrow, .remember, .write, .countSent],
  [.remember, .write, .countSent],
  [.write, .countSent],
  [.countSent],
  [.forget],
  []]

/-- Whether an operation is the send of a frame. -/
def Sends (frame : Frame) (o : Operation) : Prop :=
  o.request = .send frame ∧ o.todo ∈ sendPoints

/-- Whether the record of a send is remembered, but neither accepted nor forgotten. -/
def Open (o : Operation) : Prop := o.todo = [.write, .countSent] ∨ o.todo = [.forget]

instance (o : Operation) : Decidable o.Open :=
  inferInstanceAs (Decidable (o.todo = _ ∨ o.todo = _))

/-- What one action of a send can come to: the echoes and the actions left after it. -/
inductive Sending (s : Site) (o : Operation) (raw : Wire) : Echoes → List Action → Prop where
  | borrow (htodo : o.todo = [.borrow, .remember, .write, .countSent]) :
      Sending s o raw s.bus.echoes [.remember, .write, .countSent]
  | disconnected (htodo : o.todo = [.borrow, .remember, .write, .countSent]) :
      Sending s o raw s.bus.echoes []
  | remember (htodo : o.todo = [.remember, .write, .countSent]) :
      Sending s o raw (s.bus.echoes.record raw) [.write, .countSent]
  | accept (htodo : o.todo = [.write, .countSent]) (haccepted : o.accepted? s = some raw) :
      Sending s o raw s.bus.echoes [.countSent]
  | refuse (htodo : o.todo = [.write, .countSent]) (haccepted : o.accepted? s = none) :
      Sending s o raw s.bus.echoes [.forget]
  | lose (htodo : o.todo = [.write, .countSent]) (haccepted : o.accepted? s = none) :
      Sending s o raw s.bus.echoes []
  | forget (htodo : o.todo = [.forget]) : Sending s o raw (s.bus.echoes.forget raw) []
  | count (htodo : o.todo = [.countSent]) : Sending s o raw s.bus.echoes []

/-- What a send leaves as it is. -/
structure Sparing (s : Site) (o : Operation) (s' : Site) (o' : Operation) : Prop where
  bus_eq : s'.bus = { s.bus with reception := s'.bus.reception, echoes := s'.bus.echoes }
  frames_eq : s'.bus.reception.frames = s.bus.reception.frames
  id_eq : o'.id = o.id
  request_eq : o'.request = o.request

variable {s s' : Site} {o o' : Operation} {frame : Frame} {action : Action} {rest : List Action}

theorem sending_write (hring : s.bus.transport = .ring) (hrequest : o.request = .send frame)
    (htodo : o.todo = [.write, .countSent]) :
    Sparing s o ({ o with todo := [.countSent] }.write s).1
        ({ o with todo := [.countSent] }.write s).2 ∧
      Sending s o frame.encode ({ o with todo := [.countSent] }.write s).1.bus.echoes
        ({ o with todo := [.countSent] }.write s).2.todo := by
  have hwire : o.request.wire? = some frame.encode := by rw [hrequest]; rfl
  have hcleanup : o.request.cleanup s.bus.transport = [.forget] := by rw [hrequest, hring]; rfl
  cases hfind : o.handle.bind s.bus.resource? with
  | none =>
    have haccepted : o.accepted? s = none := by
      unfold accepted?
      rw [hfind]
    have hwrite : { o with todo := [.countSent] }.write s =
        (s, { o with todo := [.countSent] }.giveUp .notConnected []) := by
      unfold write
      simp only [hfind]
    rw [hwrite]
    exact ⟨⟨rfl, rfl, rfl, rfl⟩, .lose htodo haccepted⟩
  | some resource =>
    rcases hrun : s.onKernel (resource.socket.writeWire frame.encode).run with ⟨result, s₁⟩
    have hbus : s₁.bus = s.bus := by
      have hsnd := congrArg (fun p => p.2.bus) hrun
      exact hsnd.symm
    cases result with
    | ok done =>
      have haccepted : o.accepted? s = some frame.encode := by
        unfold accepted?
        simp only [hfind, hwire, hrun]
      have hwrite : { o with todo := [.countSent] }.write s =
          (s₁, { o with todo := [.countSent] }) := by
        unfold write
        simp only [hfind, hwire, hrun]
      rw [hwrite]
      refine ⟨⟨by rw [hbus], by rw [hbus], rfl, rfl⟩, ?_⟩
      rw [show s₁.bus.echoes = s.bus.echoes by rw [hbus]]
      exact .accept htodo haccepted
    | error e =>
      have haccepted : o.accepted? s = none := by
        unfold accepted?
        simp only [hfind, hwire, hrun]
      have hwrite : { o with todo := [.countSent] }.write s =
          (s₁, { o with todo := [.countSent] }.giveUp e [.forget]) := by
        unfold write
        simp only [hfind, hwire, hrun, hbus, hcleanup]
      rw [hwrite]
      refine ⟨⟨by rw [hbus], by rw [hbus], rfl, rfl⟩, ?_⟩
      rw [show s₁.bus.echoes = s.bus.echoes by rw [hbus]]
      exact .refuse htodo haccepted

/-- A send never waits. -/
theorem sending_perform (hring : s.bus.transport = .ring) (hsends : o.Sends frame)
    (htodo : o.todo = action :: rest) :
    ∃ s' o', { o with todo := rest }.perform s action = some (s', o') ∧ Sparing s o s' o' ∧
      Sending s o frame.encode s'.bus.echoes o'.todo := by
  obtain ⟨hrequest, hpoint⟩ := hsends
  have hwire : o.request.wire? = some frame.encode := by rw [hrequest]; rfl
  rw [htodo] at hpoint
  simp only [sendPoints, List.mem_cons, List.cons.injEq, List.not_mem_nil, or_false,
    reduceCtorEq] at hpoint
  rcases hpoint with ⟨rfl, rfl⟩ | ⟨rfl, rfl⟩ | ⟨rfl, rfl⟩ | ⟨rfl, rfl⟩ | ⟨rfl, rfl⟩
  · cases hpublished : s.bus.published with
    | none =>
      exact ⟨s, { o with todo := [.remember, .write, .countSent] }.giveUp .notConnected [],
        by simp only [perform, hpublished], ⟨rfl, rfl, rfl, rfl⟩, .disconnected htodo⟩
    | some key =>
      exact ⟨s, { o with todo := [.remember, .write, .countSent], handle := some key },
        by simp only [perform, hpublished], ⟨rfl, rfl, rfl, rfl⟩, .borrow htodo⟩
  · exact ⟨s.setBus { s.bus with echoes := s.bus.echoes.record frame.encode },
      { o with todo := [.write, .countSent] }, by simp only [perform, hwire],
      ⟨rfl, rfl, rfl, rfl⟩, .remember htodo⟩
  · obtain ⟨hsparing, hsending⟩ := sending_write hring hrequest htodo
    exact ⟨_, _, rfl, hsparing, hsending⟩
  · exact ⟨_, _, rfl, ⟨rfl, rfl, rfl, rfl⟩, .count htodo⟩
  · exact ⟨s.setBus { s.bus with echoes := s.bus.echoes.forget frame.encode },
      { o with todo := [] }, by simp only [perform, hwire], ⟨rfl, rfl, rfl, rfl⟩, .forget htodo⟩

theorem not_open_of_accepted (h : o.todo = [.countSent]) : ¬ o.Open := by
  rw [Open, h]
  decide

theorem not_open_of_ended (h : o.todo = []) : ¬ o.Open := by
  rw [Open, h]
  decide

theorem Sending.point {raw : Wire} {e : Echoes} {todo : List Action} (h : Sending s o raw e todo) :
    todo ∈ sendPoints := by
  cases h <;> decide

end Operation

namespace Site

/-- The record that the next action of an operation remembers. -/
def remembering? (s : Site) (id : OperationId) : Option Wire :=
  (s.acting? id .remember).bind fun o => o.request.wire?

/-- The record that the next action of an operation hands over, if the system takes it. -/
def accepting? (s : Site) (id : OperationId) : Option Wire :=
  (s.acting? id .write).bind fun o => o.accepted? s

/-- The record that the next action of an operation forgets. -/
def forgetting? (s : Site) (id : OperationId) : Option Wire :=
  (s.acting? id .forget).bind fun o => o.request.wire?

variable {s : Site} {o : Operation} {id : OperationId} {frame : Frame}

/-- One action of a send. -/
theorem advance_of_sends (hring : s.bus.transport = .ring) (h : s.operation? id = some o)
    (hsends : o.Sends frame) (htodo : o.todo ≠ []) :
    ∃ s' o', (s.advance id).2 = (s'.setBus (s'.bus.setOperation o')).collect ∧
      o.Sparing s s' o' ∧ o.Sending s frame.encode s'.bus.echoes o'.todo := by
  obtain ⟨action, rest, hcons⟩ := List.exists_cons_of_ne_nil htodo
  obtain ⟨s', o', hperform, hsparing, hsending⟩ :=
    Operation.sending_perform hring hsends hcons
  refine ⟨s', o', ?_, hsparing, hsending⟩
  unfold advance
  rw [show s.bus.operations.find? (·.id == id) = some o from h]
  simp only [hcons, hperform]

/-! ## What a task hands on -/

/-- An action of a task that hands nothing on. -/
theorem run_of_none {id : ReceiverId} (hring : s.bus.transport = .ring)
    (hsweeps : ∀ r ∈ s.bus.receivers, r.Sweeps) (h : s.handing? id = none) :
    (s.run id).bus.echoes = s.bus.echoes ∧
      (s.run id).bus.reception.frames = s.bus.reception.frames := by
  rcases run_eq s id with ⟨-, heq⟩ | ⟨r, hfind, heq⟩
  · rw [heq]
    exact ⟨rfl, rfl⟩
  · rw [handing?, hfind, Option.bind_some] at h
    have hturn := Receiver.turn_step hring (hsweeps r (Bus.receiver?_mem hfind).1)
    rcases hturn.judged with ⟨-, hbus, hframes⟩ | ⟨fd, p, hsome, -⟩
    · rw [heq, collect_bus]
      refine ⟨?_, hframes⟩
      show (r.step s).1.bus.echoes = _
      rw [hbus]
    · rw [h] at hsome
      cases hsome

/-- The echoes judge a packet that is handed on, and listeners get what they leave of it. -/
theorem run_of_some {id : ReceiverId} {fd : Descriptor} {p : Option Slot.Packet}
    (hring : s.bus.transport = .ring) (hsweeps : ∀ r ∈ s.bus.receivers, r.Sweeps)
    (h : s.handing? id = some (fd, p)) :
    (s.run id).bus.echoes = (s.bus.echoes.judge p).2 ∧
      (s.run id).bus.reception.frames =
        s.bus.reception.frames ++ (s.bus.echoes.judge p).1.frames := by
  rcases run_eq s id with ⟨hnone, -⟩ | ⟨r, hfind, heq⟩
  · rw [handing?, hnone] at h
    cases h
  · rw [handing?, hfind, Option.bind_some] at h
    have hturn := Receiver.turn_step hring (hsweeps r (Bus.receiver?_mem hfind).1)
    rcases hturn.judged with ⟨hnone, -⟩ | ⟨fd', p', hsome, hbus, hframes⟩
    · rw [hnone] at h
      cases h
    · rw [h] at hsome
      cases hsome
      rw [heq, collect_bus]
      refine ⟨?_, hframes⟩
      show (r.step s).1.bus.echoes = _
      rw [hbus]

/-- A task leaves the callers alone and stays on its ring. -/
theorem run_kept (hring : s.bus.transport = .ring) (hsweeps : ∀ r ∈ s.bus.receivers, r.Sweeps)
    (id : ReceiverId) :
    (s.run id).bus = { s.bus with
      reception := (s.run id).bus.reception, echoes := (s.run id).bus.echoes
      resources := (s.run id).bus.resources, receivers := (s.run id).bus.receivers } ∧
    (s.run id).bus.echoes.enabled = s.bus.echoes.enabled ∧
    ∀ r ∈ (s.run id).bus.receivers, r.Sweeps := by
  rcases run_eq s id with ⟨-, heq⟩ | ⟨r, hfind, heq⟩
  · rw [heq]
    exact ⟨rfl, rfl, hsweeps⟩
  · have hmem := (Bus.receiver?_mem hfind).1
    have hkept := Receiver.kept_step hring (hsweeps r hmem)
    have hbus : (r.step s).1.bus = { s.bus with
        reception := (r.step s).1.bus.reception, echoes := (r.step s).1.bus.echoes } ∧
        (r.step s).1.bus.echoes.enabled = s.bus.echoes.enabled := by
      rcases (Receiver.turn_step hring (hsweeps r hmem)).judged with
        ⟨-, hbus, -⟩ | ⟨fd, p, -, hbus, -⟩
      · rw [hbus]
        exact ⟨rfl, rfl⟩
      · rw [hbus]
        exact ⟨rfl, Echoes.judge_enabled p s.bus.echoes⟩
    rw [heq, collect_bus]
    refine ⟨?_, hbus.2, ?_⟩
    · simp only [setBus, Bus.setReceiver]
      rw [hbus.1]
    · intro other hother
      rcases Bus.mem_setReceiver hother with rfl | ⟨hold, -⟩
      · exact hkept.2
      · rw [hbus.1] at hold
        exact hsweeps other hold

end Site

end CanTransport
