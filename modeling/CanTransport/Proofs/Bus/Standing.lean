import CanTransport.Proofs.Bus.Watching
import CanTransport.Proofs.Virtual.Fleet
/-!
# A task while others act

Whatever callers, other tasks and the kernel do, a task that has not exited stays where it is: it
keeps its place and its resource. It may be cancelled and the socket of its resource may be closed,
and neither is ever taken back.
-/

namespace CanTransport

namespace Bus

variable {b : Bus} {id : ReceiverId} {key : Descriptor} {r t : Receiver} {resource : Resource}

theorem receiver?_setReceiver (t : Receiver) (id : ReceiverId) :
    (b.setReceiver t).receiver? id =
      (b.receiver? id).map fun r => if r.id = t.id then t else r := by
  have hcomp : ((fun other : Receiver => other.id == id) ∘ fun r : Receiver =>
      if r.id = t.id then t else r) = fun r => r.id == id := by
    funext r
    rw [Function.comp_apply]
    split
    · rename_i hid
      rw [hid]
    · rfl
  rw [receiver?, setReceiver, List.find?_map, hcomp, receiver?]

/-- A socket that is marked closed belongs to the same resource as before. -/
theorem resource?_closeSocket_or (key' : Descriptor) (h : b.resource? key = some resource) :
    ∃ resource', (b.closeSocket key').resource? key = some resource' ∧
      resource'.ring = resource.ring ∧
      (resource.socket.closed = true → resource'.socket.closed = true) := by
  by_cases hkey : key = key'
  · subst hkey
    exact ⟨_, resource?_closeSocket h, rfl, fun _ => rfl⟩
  · refine ⟨resource, ?_, rfl, id⟩
    have hcomp : ((fun other : Resource => other.key == key) ∘ fun r : Resource =>
        if r.key = key' then { r with socket := r.socket.close } else r) =
          fun r => r.key == key := by
      funext other
      rw [Function.comp_apply]
      split <;> rfl
    have hsame : (if resource.key = key' then { resource with socket := resource.socket.close }
        else resource) = resource := if_neg fun heq => hkey ((resource?_mem h).2.symm.trans heq)
    rw [resource?] at h
    rw [resource?, closeSocket, List.find?_map, hcomp, h, Option.map_some, hsame]

theorem holds_of_receiver (hr : r ∈ b.receivers) (hkey : r.handle = some key) :
    b.holds key = true := (Uses.receiver hr hkey).holds

end Bus

namespace Receiver

/-- What becomes of a task and of its resource while others act. -/
structure Stands (s : Site) (r : Receiver) (s' : Site) (r' : Receiver) : Prop where
  task_eq : r' = { r with cancelled := r'.cancelled }
  cancelled : r.cancelled = true → r'.cancelled = true
  resource : ∀ resource, r.resource? s = some resource → ∃ resource',
    r'.resource? s' = some resource' ∧ resource'.ring = resource.ring ∧
      (resource.socket.closed = true → resource'.socket.closed = true)
  keeps : s.bus.Keeps s'.bus

variable {s s' : Site} {r r' : Receiver}

theorem Stands.of_resources_eq (hresources : s'.bus.resources = s.bus.resources)
    (hkeeps : s.bus.Keeps s'.bus) : Stands s r s' r where
  task_eq := rfl
  cancelled h := h
  resource resource h := by
    refine ⟨resource, ?_, rfl, fun hclosed => hclosed⟩
    obtain ⟨key, hkey, hfind⟩ := Option.bind_eq_some_iff.mp h
    rw [resource?, hkey, Option.bind_some, Bus.resource?, hresources]
    exact hfind
  keeps := hkeeps

theorem Stands.stage_eq (h : Stands s r s' r') : r'.stage = r.stage := by rw [h.task_eq]

/-- What is given back is no task's resource. -/
theorem Stands.collect (h : Stands s r s' r') (hr : r' ∈ s'.bus.receivers) :
    Stands s r s'.collect r' where
  task_eq := h.task_eq
  cancelled := h.cancelled
  resource resource hresource := by
    obtain ⟨resource', hfind, hrest⟩ := h.resource resource hresource
    refine ⟨resource', ?_, hrest⟩
    obtain ⟨key, hkey, hfind⟩ := Option.bind_eq_some_iff.mp hfind
    rw [resource?, hkey, Option.bind_some, Site.resource?_collect (Bus.holds_of_receiver hr hkey)]
    exact hfind
  keeps := by
    rw [Site.collect_bus]
    exact ⟨h.keeps.transport_eq, h.keeps.channel_eq, h.keeps.config_eq, h.keeps.queue_eq⟩

end Receiver

namespace Operation

variable {s s' : Site} {o o' : Operation} {action : Action} {id : ReceiverId} {r : Receiver}
  {key : Descriptor} {resource : Resource}

theorem receiver?_cancel (h : o.perform s .cancel = some (s', o'))
    (hfind : s.bus.receiver? id = some r) :
    ∃ c, s'.bus.receiver? id = some { r with cancelled := r.cancelled || c } := by
  simp only [perform] at h
  split at h
  · cases h
    exact ⟨false, by rw [hfind, Bool.or_false]⟩
  · rename_i t ht
    obtain ⟨task, -, ht⟩ := Option.bind_eq_some_iff.mp ht
    cases h
    show ∃ c, (s.bus.setReceiver { t with cancelled := true }).receiver? id = _
    rw [Bus.receiver?_setReceiver, hfind, Option.map_some]
    by_cases hid : r.id = t.id
    · have htask : task = id :=
        (Bus.receiver?_mem ht).2.symm.trans (hid.symm.trans (Bus.receiver?_mem hfind).2)
      rw [htask, hfind] at ht
      cases ht
      exact ⟨true, by rw [if_pos rfl, Bool.or_true]⟩
    · exact ⟨false, by rw [if_neg hid, Bool.or_false]⟩

/-- Only a task that has exited is taken away by whoever waits for it. -/
theorem receiver?_join (h : o.join s = some (s', o')) (hfind : s.bus.receiver? id = some r)
    (hexited : r.hasExited = false) : s'.bus.receiver? id = some r := by
  unfold join at h
  split at h
  · cases h
    exact hfind
  · rename_i t ht
    obtain ⟨task, -, ht⟩ := Option.bind_eq_some_iff.mp ht
    split at h
    · rename_i died hstage
      cases h
      have hne : id ≠ t.id := by
        rintro rfl
        rw [(Bus.receiver?_mem ht).2, ht] at hfind
        cases hfind
        rw [Receiver.hasExited, hstage] at hexited
        cases hexited
      show (s.bus.receivers.filter (·.id != t.id)).find? (·.id == id) = some r
      rw [List.find?_filter]
      have hpredicate : (fun a : Receiver => decide ((a.id != t.id) = true ∧ (a.id == id) = true)) =
          fun a => a.id == id := by
        funext a
        by_cases ha : a.id = id
        · simp [ha, hne]
        · simp [ha]
      rw [hpredicate]
      exact hfind
    · cases h

/-- No action of a caller moves a task that has not exited. -/
theorem receiver?_perform (h : o.perform s action = some (s', o'))
    (hfind : s.bus.receiver? id = some r) (hexited : r.hasExited = false) :
    ∃ c, s'.bus.receiver? id = some { r with cancelled := r.cancelled || c } := by
  by_cases hcancel : action = .cancel
  · subst hcancel
    exact receiver?_cancel h hfind
  refine ⟨false, ?_⟩
  rw [Bool.or_false]
  by_cases hjoin : action = .join
  · subst hjoin
    exact receiver?_join h hfind hexited
  by_cases hspawn : action = .spawn
  · subst hspawn
    cases h
    rw [Bus.receiver?] at hfind
    show (s.bus.receivers ++ [_]).find? (·.id == id) = some r
    rw [List.find?_append, hfind]
    rfl
  · rw [Bus.receiver?, (keeps_perform h).receivers_eq hspawn hjoin hcancel]
    exact hfind

theorem resource?_acquire (h : o.acquire s = (s', o')) (hfind : s.bus.resource? key = some resource) :
    s'.bus.resource? key = some resource := by
  unfold acquire at h
  simp only at h
  split at h
  · cases h
    exact hfind
  · split at h
    all_goals
      rename_i hrun
      have hbus := (onKernel_beside hrun).1
      cases h
      rw [← hbus] at hfind
    · rw [Bus.resource?] at hfind
      show (_ ++ [_]).find? (·.key == key) = some resource
      rw [List.find?_append, hfind]
      rfl
    · exact hfind

theorem resource?_write (h : o.write s = (s', o')) (hfind : s.bus.resource? key = some resource) :
    s'.bus.resource? key = some resource := by
  unfold write at h
  split at h
  · split at h
    all_goals
      rename_i hrun
      have hbus := (onKernel_beside hrun).1
      cases h
      rw [hbus]
      exact hfind
  · cases h
    exact hfind

/-- An action of a caller may close the socket of a resource, and does nothing else to it. -/
theorem resource?_perform (h : o.perform s action = some (s', o'))
    (hfind : s.bus.resource? key = some resource) :
    ∃ resource', s'.bus.resource? key = some resource' ∧ resource'.ring = resource.ring ∧
      (resource.socket.closed = true → resource'.socket.closed = true) := by
  cases action with
  | closeSocket =>
    simp only [perform] at h
    split at h
    · cases h
      exact ⟨resource, hfind, rfl, fun hclosed => hclosed⟩
    · cases h
      exact Bus.resource?_closeSocket_or _ hfind
  | acquire =>
    exact ⟨resource, resource?_acquire (Option.some.inj h) hfind, rfl, fun hclosed => hclosed⟩
  | write =>
    exact ⟨resource, resource?_write (Option.some.inj h) hfind, rfl, fun hclosed => hclosed⟩
  | enter =>
    obtain ⟨connection, rfl, -⟩ := enter_eq_some h
    exact ⟨resource, hfind, rfl, fun hclosed => hclosed⟩
  | join =>
    simp only [perform, join] at h
    split at h
    · cases h
      exact ⟨resource, hfind, rfl, fun hclosed => hclosed⟩
    · split at h <;> cases h
      exact ⟨resource, hfind, rfl, fun hclosed => hclosed⟩
  | cancel | borrow | remember | forget | transmit =>
    simp only [perform] at h
    split at h <;> cases h <;> exact ⟨resource, hfind, rfl, fun hclosed => hclosed⟩
  | leave | unpublish | letGo | clearEchoes | check | register | listen | spawn | publish | store
  | raiseFlag | lowerFlag | dropIdle | checkFlag | countSent =>
    cases h
    exact ⟨resource, hfind, rfl, fun hclosed => hclosed⟩

theorem stands_perform (h : o.perform s action = some (s', o'))
    (hfind : s.bus.receiver? id = some r) (hexited : r.hasExited = false) :
    ∃ r', s'.bus.receiver? id = some r' ∧ r.Stands s s' r' := by
  obtain ⟨c, hfind'⟩ := receiver?_perform h hfind hexited
  refine ⟨_, hfind', rfl, fun hcancelled => by simp [hcancelled], ?_, bus_keeps_perform h⟩
  intro resource hresource
  obtain ⟨key, hkey, hresource⟩ := Option.bind_eq_some_iff.mp hresource
  obtain ⟨resource', hfind'', hrest⟩ := resource?_perform h hresource
  refine ⟨resource', ?_, hrest⟩
  rw [Receiver.resource?, hkey, Option.bind_some]
  exact hfind''

end Operation

namespace Site

variable {s : Site} {id : ReceiverId} {r : Receiver}

theorem stands_advance (o : OperationId) (hfind : s.bus.receiver? id = some r)
    (hexited : r.hasExited = false) :
    ∃ r', (s.advance o).2.bus.receiver? id = some r' ∧ r.Stands s (s.advance o).2 r' := by
  rcases advance_eq s o with heq | ⟨o, -, -, -, heq⟩ |
    ⟨o, -, action, rest, s', o', -, -, hperform, heq⟩
  · rw [heq]
    exact ⟨r, hfind, .of_resources_eq rfl (.refl _)⟩
  · have hfinished : r.Stands s (s.setBus { s.bus with
        operations := s.bus.operations.filter (·.id != o.id) }) r :=
      .of_resources_eq rfl ⟨rfl, rfl, rfl, rfl⟩
    rw [heq, finish]
    refine ⟨r, ?_, hfinished.collect (Bus.receiver?_mem hfind).1⟩
    rw [collect_bus]
    exact hfind
  · obtain ⟨r', hfind', hstands⟩ := Operation.stands_perform hperform hfind hexited
    have hset : r.Stands s (s'.setBus (s'.bus.setOperation o')) r' :=
      ⟨hstands.task_eq, hstands.cancelled, hstands.resource, hstands.keeps.transport_eq,
        hstands.keeps.channel_eq, hstands.keeps.config_eq, hstands.keeps.queue_eq⟩
    rw [heq]
    refine ⟨r', ?_, hset.collect (Bus.receiver?_mem hfind').1⟩
    rw [collect_bus]
    exact hfind'

/-- A task does nothing about another. -/
theorem stands_run {other : ReceiverId} (hne : other ≠ id) (hfind : s.bus.receiver? id = some r) :
    (s.run other).bus.receiver? id = some r ∧ r.Stands s (s.run other) r := by
  rcases run_eq s other with ⟨-, heq⟩ | ⟨t, ht, heq⟩
  · rw [heq]
    exact ⟨hfind, .of_resources_eq rfl (.refl _)⟩
  · have hacts := Receiver.acts_step s t
    have hkeeps := Receiver.keeps_step s t
    rw [heq]
    generalize t.step s = stepped at hacts hkeeps
    obtain ⟨s', t'⟩ := stepped
    have hbus := hacts.bus_eq
    have hsame : (s'.bus.setReceiver t').receiver? id = some r := by
      rw [Bus.receiver?_setReceiver]
      have hold : s'.bus.receiver? id = some r := by
        rw [hbus]
        exact hfind
      have hdistinct : r.id ≠ t'.id := by
        rw [(Bus.receiver?_mem hfind).2, hacts.id_eq, (Bus.receiver?_mem ht).2]
        exact hne.symm
      rw [hold, Option.map_some, if_neg hdistinct]
    have hresources : s'.bus.resources = s.bus.resources := by rw [hbus]
    have hset : r.Stands s (s'.setBus (s'.bus.setReceiver t')) r :=
      .of_resources_eq hresources
        ⟨hkeeps.transport_eq, hkeeps.channel_eq, hkeeps.config_eq, hkeeps.queue_eq⟩
    refine ⟨?_, hset.collect (Bus.receiver?_mem hsame).1⟩
    rw [collect_bus]
    exact hsame

end Site

/-- Whatever happens, a task that has not exited moves only by its own actions. -/
theorem Life.Step.stands {w w' : Life} {event : Life.Event} {id : ReceiverId} {r : Receiver}
    (hstep : Life.Step event w w') (hne : event ≠ .run id)
    (hfind : w.site.bus.receiver? id = some r) (hexited : r.hasExited = false) :
    ∃ r', w'.site.bus.receiver? id = some r' ∧ r.Stands w.site w'.site r' := by
  cases hstep with
  | start | subscribe | outside => exact ⟨r, hfind, .of_resources_eq rfl ⟨rfl, rfl, rfl, rfl⟩⟩
  | act o => exact Site.stands_advance o hfind hexited
  | run other =>
    have hother : other ≠ id := by
      rintro rfl
      exact hne rfl
    exact ⟨r, Site.stands_run hother hfind⟩

end CanTransport
