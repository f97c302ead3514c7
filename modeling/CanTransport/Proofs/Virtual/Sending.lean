import CanTransport.Proofs.Virtual.Peers
/-!
# Sends on a channel

A send that is admitted puts its frame into the queue once, and one that is refused never does. What
a send reports is settled by that.
-/

namespace CanTransport

/-- The frames that a send of a bus has put into the queue. -/
def spoken (said : List Said) (i : Nat) (id : OperationId) : List Frame :=
  (said.filter fun s => s.sender == i && s.call == id).map Said.frame

/-- A send of a frame, and what it has put into the queue. -/
inductive Operation.Speaks (frame : Frame) (o : Operation) : List Frame → Prop where
  | asking (htodo : o.todo = [.checkFlag, .transmit, .countSent]) (hfailure : o.failure = none) :
      Speaks frame o []
  | admitted (htodo : o.todo = [.transmit, .countSent]) (hfailure : o.failure = none) :
      Speaks frame o []
  | sent (htodo : o.todo = [.countSent] ∨ o.todo = []) (hfailure : o.failure = none) :
      Speaks frame o [frame]
  | refused (htodo : o.todo = []) (hfailure : o.failure = some .notConnected) : Speaks frame o []

/-- What is known of the sends of a bus. -/
structure Peer.Speaks (i : Nat) (said : List Said) (p : Peer) : Prop where
  calls_lt : ∀ s ∈ said, s.sender = i → s.call < p.bus.next
  sends : ∀ o ∈ p.bus.operations, ∀ frame, o.request = .send frame →
    o.Speaks frame (spoken said i o.id)

section

variable {i : Nat} {queue : QueueId} {m : Medium} {said more : List Said} {p : Peer}
  {id : OperationId} {o o' : Operation} {s' : Site} {action : Action} {rest : List Action}
  {absent : List Nat} {frame : Frame} {frames : List Frame}

theorem spoken_append : spoken (said ++ more) i id = spoken said i id ++ spoken more i id := by
  rw [spoken, List.filter_append, List.map_append]
  rfl

theorem spoken_eq_nil (h : ∀ s ∈ said, s.sender = i → s.call ≠ id) : spoken said i id = [] := by
  rw [spoken, List.map_eq_nil_iff, List.filter_eq_nil_iff]
  intro s hs
  simpa using h s hs

/-! ## One action of a send -/

/-- An action of a send puts its frame into the queue if it is the one to do so. -/
theorem Operation.Speaks.perform {s : Site} (h : o.Speaks frame frames)
    (htodo : o.todo = action :: rest)
    (hperform : { o with todo := rest }.perform s action = some (s', o')) :
    o'.Speaks frame (frames ++ if action = .transmit then [frame] else []) := by
  cases h with
  | asking hpoint hfailure =>
    rw [htodo] at hpoint
    cases hpoint
    simp only [Operation.perform] at hperform
    cases hperform
    split
    · exact .admitted rfl hfailure
    · exact .refused rfl rfl
  | admitted hpoint hfailure =>
    rw [htodo] at hpoint
    cases hpoint
    simp only [Operation.perform] at hperform
    split at hperform <;> cases hperform <;> exact .sent (Or.inl rfl) hfailure
  | sent hpoint hfailure =>
    rw [htodo] at hpoint
    rcases hpoint with hpoint | hpoint
    · cases hpoint
      cases hperform
      exact .sent (Or.inr rfl) hfailure
    · cases hpoint
  | refused hpoint =>
    rw [htodo] at hpoint
    cases hpoint

/-- What a send has put into the queue when it reports. -/
theorem Operation.Speaks.outcome_iff (h : o.Speaks frame frames) (htodo : o.todo = []) :
    (o.outcome = .ok () ∧ frames = [frame]) ∨
      (o.outcome = .error .notConnected ∧ frames = []) := by
  cases h with
  | asking hpoint | admitted hpoint =>
    rw [htodo] at hpoint
    cases hpoint
  | sent _ hfailure => exact Or.inl ⟨by rw [Operation.outcome, hfailure], rfl⟩
  | refused _ hfailure => exact Or.inr ⟨by rw [Operation.outcome, hfailure], rfl⟩

namespace Peer

theorem saying_of_none (hnone : (p.site m).acting? id .transmit = none) :
    p.saying i m absent (.act id) = [] := by
  rw [saying, hnone]
  rfl

theorem saying_of_ne (event : Life.Event) (hne : ∀ id, event ≠ .act id) :
    p.saying i m absent event = [] := by
  unfold saying
  split
  · exact absurd rfl (hne _)
  · rfl

/-- What is said with an event, and by whom. -/
theorem mem_saying {event : Life.Event} {s : Said} (h : s ∈ p.saying i m absent event) :
    ∃ id o, event = .act id ∧ (p.site m).acting? id .transmit = some o ∧
      o.request = .send s.frame ∧ s.sender = i ∧ s.call = id ∧ s.origin = p.bus.origin ∧
      s.absent = absent := by
  cases event with
  | act id =>
    obtain ⟨frame, hframe, rfl⟩ := List.mem_map.mp h
    rw [Option.mem_toList, Option.bind_eq_some_iff] at hframe
    obtain ⟨o, hacting, hrequest⟩ := hframe
    refine ⟨id, o, rfl, hacting, ?_, rfl, rfl, rfl, rfl⟩
    cases hcase : o.request with
    | send other =>
      rw [hcase] at hrequest
      cases hrequest
      rfl
    | connect | disconnect =>
      rw [hcase] at hrequest
      cases hrequest
  | start | run | subscribe | outside => cases h

/-- What others say is not said by this bus. -/
theorem Speaks.append (h : p.Speaks i said) (hmore : ∀ s ∈ more, s.sender ≠ i) :
    p.Speaks i (said ++ more) where
  calls_lt s hs hsender := by
    rcases List.mem_append.mp hs with hold | hnew
    · exact h.calls_lt s hold hsender
    · exact absurd hsender (hmore s hnew)
  sends o ho frame hrequest := by
    rw [spoken_append, spoken_eq_nil fun s hs hsender => absurd hsender (hmore s hs), List.append_nil]
    exact h.sends o ho frame hrequest

theorem saying_acting (absent : List Nat) (hfind : (p.site m).operation? id = some o)
    (htodo : o.todo = action :: rest) : p.saying i m absent (.act id) =
      if action = .transmit then o.request.frame?.toList.map fun frame =>
        { sender := i, call := id, origin := p.bus.origin, frame := frame, absent := absent }
      else [] := by
  split
  · rename_i htransmit
    rw [saying, Site.acting?_eq hfind (by rw [htodo, htransmit]; rfl)]
    rfl
  · rename_i hne
    exact saying_of_none (Site.acting?_ne hfind (by simpa [htodo] using hne))

/-- What a send says is said under its own number. -/
theorem spoken_saying (absent : List Nat) (hfind : (p.site m).operation? id = some o)
    (htodo : o.todo = action :: rest) (hrequest : o.request = .send frame) :
    spoken (p.saying i m absent (.act id)) i id = if action = .transmit then [frame] else [] := by
  rw [saying_acting absent hfind htodo, hrequest]
  split
  · simp [spoken, Request.frame?]
  · rfl

theorem next_le_after (h : p.Kept i queue m said) (now : Nat) (event : Life.Event) :
    p.bus.next ≤ (p.after m now event).bus.next := by
  cases event with
  | start request => exact Nat.le_succ _
  | subscribe | outside => exact Nat.le_refl _
  | run id =>
    exact (Site.aside_run h.sound.stocked h.sound.held id).2.2.ge
  | act id =>
    show _ ≤ ((p.site m).advance id).2.bus.next
    rcases Site.advance_eq (p.site m) id with heq | ⟨o, -, -, -, heq⟩ |
      ⟨o, -, action, rest, s', o', -, -, hperform, heq⟩
    · rw [heq]
      exact Nat.le_refl _
    · rw [heq, Site.finish_bus]
      exact Nat.le_refl _
    · rw [heq, Site.collect_bus]
      exact (Operation.keeps_perform hperform).next_le

theorem Speaks.calls_lt_after (h : p.Speaks i said) (hkept : p.Kept i queue m said) (now : Nat)
    (absent : List Nat) (event : Life.Event) :
    ∀ s ∈ said ++ p.saying i m absent event, s.sender = i →
      s.call < (p.after m now event).bus.next := by
  intro s hs hsender
  refine Nat.lt_of_lt_of_le ?_ (next_le_after hkept now event)
  rcases List.mem_append.mp hs with hold | hnew
  · exact h.calls_lt s hold hsender
  · obtain ⟨id, o, -, hacting, -, -, rfl, -⟩ := mem_saying hnew
    obtain ⟨hfind, -⟩ := Option.filter_eq_some_iff.mp hacting
    obtain ⟨hmem, hid⟩ := Site.operation?_mem hfind
    rw [← hid]
    exact (hkept.sound.numbered o hmem).1

theorem Speaks.act (h : p.Speaks i said) (hkept : p.Kept i queue m said) (now : Nat)
    (absent : List Nat) (id : OperationId) :
    (p.after m now (.act id)).Speaks i (said ++ p.saying i m absent (.act id)) := by
  refine ⟨h.calls_lt_after hkept now absent _, ?_⟩
  have hbus : (p.after m now (.act id)).bus = ((p.life m).act id).site.bus := rfl
  cases (p.life m).moves id with
  | idle hsame hnone =>
    rw [saying_of_none (hnone _ (by decide)), List.append_nil, hbus, hsame]
    exact h.sends
  | @ends o hfind htodo =>
    have hnone : (p.site m).acting? id .transmit = none :=
      Site.acting?_ne hfind (by rw [htodo]; exact nofun)
    rw [saying_of_none hnone, List.append_nil, hbus, Life.act_of_nil hfind htodo]
    intro other hother
    rw [Site.finish_operations] at hother
    exact h.sends other (List.mem_filter.mp hother).1
  | @acts o o' action rest s' hfind htodo hperform =>
    obtain ⟨hmem, hid⟩ := Site.operation?_mem hfind
    have hframed := Operation.framed_perform hperform
    rw [hbus, Life.site_goesOn hfind htodo hperform, Site.collect_bus]
    intro other hother frame hrequest
    rw [spoken_append]
    rcases Bus.mem_setOperation hother with rfl | ⟨hold, hne⟩
    · have hrequest' : o.request = .send frame := hframed.request_eq.symm.trans hrequest
      rw [hframed.id_eq.trans hid, spoken_saying absent hfind htodo hrequest']
      have hspeaks := h.sends o hmem frame hrequest'
      rw [hid] at hspeaks
      exact hspeaks.perform htodo hperform
    · have hnil : spoken (p.saying i m absent (.act id)) i other.id = [] := by
        apply spoken_eq_nil
        intro s hs _
        obtain ⟨_, _, hevent, -, -, -, hcall, -⟩ := mem_saying hs
        cases hevent
        rw [hcall]
        rw [hframed.id_eq.trans hid] at hne
        exact hne.symm
      rw [hnil, List.append_nil]
      rw [hframed.operations_eq] at hold
      exact h.sends other hold frame hrequest

theorem Speaks.start (h : p.Speaks i said) (hkept : p.Kept i queue m said) (now : Nat)
    (absent : List Nat) (request : Request) :
    (p.after m now (.start request)).Speaks i (said ++ p.saying i m absent (.start request)) := by
  refine ⟨h.calls_lt_after hkept now absent _, fun o ho frame hrequest => ?_⟩
  rw [saying_of_ne (.start request) nofun, List.append_nil]
  rcases List.mem_append.mp ho with hold | hnew
  · exact h.sends o hold frame hrequest
  · cases List.mem_singleton.mp hnew
    obtain rfl : request = .send frame := hrequest
    have hnil : spoken said i p.bus.next = [] := by
      apply spoken_eq_nil
      intro s hs hsender
      exact Nat.ne_of_lt (h.calls_lt s hs hsender)
    show Operation.Speaks frame _ (spoken said i p.bus.next)
    rw [hnil]
    refine .asking ?_ rfl
    show p.bus.transport.transmission = _
    rw [hkept.virtual]
    rfl

theorem Speaks.after (h : p.Speaks i said) (hkept : p.Kept i queue m said) (now : Nat)
    (absent : List Nat) (event : Life.Event) :
    (p.after m now event).Speaks i (said ++ p.saying i m absent event) := by
  cases event with
  | start request => exact h.start hkept now absent request
  | act id => exact h.act hkept now absent id
  | run id =>
    refine ⟨h.calls_lt_after hkept now absent _, fun o ho => ?_⟩
    rw [saying_of_ne (.run id) nofun, List.append_nil]
    rw [show (p.after m now (.run id)).bus.operations = p.bus.operations from
      (Site.aside_run hkept.sound.stocked hkept.sound.held id).2.1] at ho
    exact h.sends o ho
  | subscribe listener =>
    refine ⟨h.calls_lt_after hkept now absent _, ?_⟩
    rw [saying_of_ne (.subscribe listener) nofun, List.append_nil]
    exact h.sends
  | outside =>
    refine ⟨h.calls_lt_after hkept now absent _, ?_⟩
    rw [saying_of_ne .outside nofun, List.append_nil]
    exact h.sends

end Peer

end

end CanTransport
