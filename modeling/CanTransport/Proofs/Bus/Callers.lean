import CanTransport.Proofs.Bus.Stock
import CanTransport.Proofs.Bus.Users
/-!
# Callers among each other

An action of one operation leaves every other operation as it is. A send also leaves the connection
and the lock as they are, on every transport.
-/

namespace CanTransport

/-- Whether an operation may give up with an action. -/
def Action.mayGiveUp : Action → Bool
  | .check | .acquire | .register | .borrow | .checkFlag | .write => true
  | _ => false

namespace Operation

variable {s s' : Site} {o o' : Operation} {action : Action}

/-- What an action leaves as it is, unless it is one that is about it. -/
structure Keeps (action : Action) (s s' : Site) : Prop where
  next_le : s.bus.next ≤ s'.bus.next
  lock_eq : action ≠ .enter → action ≠ .leave → s'.bus.lock = s.bus.lock
  published_eq : action ≠ .spawn → s'.bus.reception.published = s.bus.reception.published
  deliveries_eq : s'.bus.reception.deliveries = s.bus.reception.deliveries
  stats_eq : s'.bus.reception.stats =
    { s.bus.reception.stats with sent := s'.bus.reception.stats.sent }
  receivers_eq : action ≠ .spawn → action ≠ .join → action ≠ .cancel →
    s'.bus.receivers = s.bus.receivers

theorem Keeps.state_eq (h : Keeps action s s') (hspawn : action ≠ .spawn) :
    s'.bus.reception.state = s.bus.reception.state := by
  rw [Reception.state, Reception.state, h.published_eq hspawn]

theorem Keeps.of_bus_eq (hbus : s'.bus = { s.bus with resources := s'.bus.resources }) :
    Keeps action s s' where
  next_le := by rw [hbus]
  lock_eq _ _ := by rw [hbus]
  published_eq _ := by rw [hbus]
  deliveries_eq := by rw [hbus]
  stats_eq := by rw [hbus]
  receivers_eq _ _ _ := by rw [hbus]

theorem keeps_perform (h : o.perform s action = some (s', o')) : Keeps action s s' := by
  cases action with
  | enter =>
    obtain ⟨connection, rfl, -⟩ := enter_eq_some h
    exact ⟨Nat.le_refl _, fun hne => absurd rfl hne, fun _ => rfl, rfl, rfl, fun _ _ _ => rfl⟩
  | leave =>
    cases h
    exact ⟨Nat.le_refl _, fun _ hne => absurd rfl hne, fun _ => rfl, rfl, rfl, fun _ _ _ => rfl⟩
  | join =>
    simp only [perform, join] at h
    split at h
    · cases h
      exact .of_bus_eq rfl
    · split at h <;> cases h
      exact ⟨Nat.le_refl _, fun _ _ => rfl, fun _ => rfl, rfl, rfl, fun _ hne => absurd rfl hne⟩
  | acquire =>
    simp only [perform, acquire] at h
    split at h
    · cases h
      exact ⟨Nat.le_refl _, fun _ _ => rfl, fun _ => rfl, rfl, rfl, fun _ _ _ => rfl⟩
    · split at h
      all_goals
        rename_i hrun
        have hbus := congrArg (·.2.bus) hrun
        simp only [Site.onKernel_bus] at hbus
        cases h
        exact .of_bus_eq (by simp [Site.setBus, ← hbus])
  | write =>
    simp only [perform, write] at h
    split at h
    · split at h
      all_goals
        rename_i hrun
        have hbus := congrArg (·.2.bus) hrun
        simp only [Site.onKernel_bus] at hbus
        cases h
        exact .of_bus_eq (by simp [← hbus])
    · cases h
      exact .of_bus_eq rfl
  | spawn =>
    cases h
    exact ⟨Nat.le_succ _, fun _ _ => rfl, fun hne => absurd rfl hne, rfl, rfl,
      fun hne => absurd rfl hne⟩
  | cancel =>
    simp only [perform] at h
    split at h <;> cases h
    · exact .of_bus_eq rfl
    · exact ⟨Nat.le_refl _, fun _ _ => rfl, fun _ => rfl, rfl, rfl,
        fun _ _ hne => absurd rfl hne⟩
  | closeSocket | borrow | transmit | remember | forget =>
    simp only [perform] at h
    split at h <;> cases h <;>
      exact ⟨Nat.le_refl _, fun _ _ => rfl, fun _ => rfl, rfl, rfl, fun _ _ _ => rfl⟩
  | check | checkFlag | register | unpublish | letGo | clearEchoes | listen | publish | store
  | raiseFlag | lowerFlag | dropIdle | countSent =>
    cases h
    exact ⟨Nat.le_refl _, fun _ _ => rfl, fun _ => rfl, rfl, rfl, fun _ _ _ => rfl⟩

/-- What can be left to do for an operation that gives up. -/
def remnants : List (List Action) := [[], [.leave], [.letGo, .leave], [.forget]]

theorem cleanup_mem_remnants (transport : Transport) (request : Request) :
    request.cleanup transport ∈ remnants := by
  cases request with
  | connect | disconnect => exact .tail _ (.tail _ (.head _))
  | send frame =>
    show (if transport = .ring then [.forget] else []) ∈ remnants
    split <;> decide

/-- Behind an action that is not the entrance there is left to do what was, unless the operation
gives up. -/
theorem todo_perform (h : o.perform s action = some (s', o')) (henter : action ≠ .enter) :
    o'.todo = o.todo ∨ action.mayGiveUp = true ∧ o'.todo ∈ remnants := by
  have hcleanup := cleanup_mem_remnants s.bus.transport o.request
  cases action with
  | enter => exact absurd rfl henter
  | join =>
    simp only [perform, join] at h
    split at h
    · cases h
      exact Or.inl rfl
    · split at h <;> cases h
      exact Or.inl rfl
  | check =>
    cases h
    split
    · exact Or.inr ⟨rfl, .tail _ (.head _)⟩
    · exact Or.inl rfl
  | acquire =>
    simp only [perform, acquire] at h
    split at h
    · cases h
      exact Or.inl rfl
    · split at h <;> cases h
      · exact Or.inl rfl
      · exact Or.inr ⟨rfl, hcleanup⟩
  | register =>
    cases h
    unfold register
    split
    · exact Or.inl rfl
    · exact Or.inr ⟨rfl, hcleanup⟩
  | borrow =>
    simp only [perform] at h
    split at h <;> cases h
    · exact Or.inr ⟨rfl, .head _⟩
    · exact Or.inl rfl
  | checkFlag =>
    cases h
    split
    · exact Or.inl rfl
    · exact Or.inr ⟨rfl, .head _⟩
  | write =>
    simp only [perform, write] at h
    split at h
    · split at h <;> cases h
      · exact Or.inl rfl
      · exact Or.inr ⟨rfl, cleanup_mem_remnants _ _⟩
    · cases h
      exact Or.inr ⟨rfl, .head _⟩
  | cancel | closeSocket | remember | forget | transmit =>
    simp only [perform] at h
    split at h <;> cases h <;> exact Or.inl rfl
  | leave | unpublish | letGo | clearEchoes | listen | spawn | publish | store | raiseFlag
  | lowerFlag | dropIdle | countSent =>
    cases h
    exact Or.inl rfl

end Operation

/-- The place of an operation among those of a bus, all of which have numbers of their own. -/
theorem Bus.operations_split {b : Bus} {o o' : Operation}
    (hids : (b.operations.map Operation.id).Nodup) (hmem : o ∈ b.operations) (hid : o'.id = o.id) :
    ∃ before behind, b.operations = before ++ o :: behind ∧
      (b.setOperation o').operations = before ++ o' :: behind ∧
      b.operations.filter (·.id != o.id) = before ++ behind := by
  obtain ⟨before, behind, hsplit⟩ := List.append_of_mem hmem
  rw [hsplit, List.map_append, List.map_cons, List.nodup_append] at hids
  obtain ⟨-, hbehind, hapart⟩ := hids
  have hne : ∀ other, other ∈ before ∨ other ∈ behind → other.id ≠ o.id := by
    rintro other (hother | hother) heq
    · exact hapart other.id (List.mem_map.mpr ⟨other, hother, rfl⟩) o.id List.mem_cons_self heq
    · rw [List.nodup_cons] at hbehind
      exact hbehind.1 (List.mem_map.mpr ⟨other, hother, heq⟩)
  have hmap : ∀ others : List Operation, (∀ other ∈ others, other.id ≠ o.id) →
      (others.map fun other => if other.id = o'.id then o' else other) = others := by
    intro others hothers
    have hsame : ∀ other ∈ others, (if other.id = o'.id then o' else other) = id other :=
      fun other hother => if_neg (hid ▸ hothers other hother)
    rw [List.map_congr_left hsame, List.map_id]
  have hfilter : ∀ others : List Operation, (∀ other ∈ others, other.id ≠ o.id) →
      others.filter (·.id != o.id) = others := by
    intro others hothers
    rw [List.filter_eq_self]
    exact fun other hother => bne_iff_ne.mpr (hothers other hother)
  refine ⟨before, behind, hsplit, ?_, ?_⟩
  · show b.operations.map _ = _
    rw [hsplit, List.map_append, List.map_cons, if_pos hid.symm,
      hmap before fun other hother => hne other (Or.inl hother),
      hmap behind fun other hother => hne other (Or.inr hother)]
  · rw [hsplit, List.filter_append, List.filter_cons_of_neg (by simp),
      hfilter before fun other hother => hne other (Or.inl hother),
      hfilter behind fun other hother => hne other (Or.inr hother)]

namespace Site

variable {s s' : Site} {o o' : Operation} {id other : OperationId} {action : Action}
  {rest : List Action}

theorem operation?_collect (s : Site) (id : OperationId) :
    s.collect.operation? id = s.operation? id := by
  rw [operation?, collect_bus]
  rfl

theorem holds_collect (s : Site) (key : Descriptor) :
    s.collect.bus.holds key = s.bus.holds key := by
  rw [collect_bus]
  rfl

/-- What is left is referred to. -/
theorem held_collect (s : Site) : ∀ r ∈ s.collect.bus.resources, s.collect.bus.holds r.key = true := by
  intro r hr
  rw [holds_collect]
  rw [collect_bus] at hr
  exact (List.mem_filter.mp hr).2

/-- Where everything is referred to, nothing is given back. -/
theorem collect_eq_self (h : ∀ r ∈ s.bus.resources, s.bus.holds r.key = true) : s.collect = s := by
  unfold collect
  simp only [List.partition_eq_filter_filter]
  rw [if_pos]
  rw [List.isEmpty_iff, List.filter_eq_nil_iff]
  intro r hr
  simp [h r hr]

theorem operation?_setOperation (s : Site) (o : Operation) (id : OperationId) :
    (s.setBus (s.bus.setOperation o)).operation? id =
      (s.operation? id).map fun found => if found.id = o.id then o else found := by
  have hcomp : ((fun found : Operation => found.id == id) ∘ fun found : Operation =>
      if found.id = o.id then o else found) = fun found => found.id == id := by
    funext found
    rw [Function.comp_apply]
    split
    · rename_i heq
      rw [heq]
    · rfl
  simp only [operation?, setBus, Bus.setOperation, List.find?_map, hcomp]

theorem operation?_setOperation_self (h : s.operation? o'.id = some o) :
    (s.setBus (s.bus.setOperation o')).operation? o'.id = some o' := by
  rw [operation?_setOperation, h, Option.map_some, if_pos (operation?_mem h).2]

theorem operation?_setOperation_ne (hne : id ≠ o.id) :
    (s.setBus (s.bus.setOperation o)).operation? id = s.operation? id := by
  rw [operation?_setOperation]
  cases h : s.operation? id with
  | none => rfl
  | some found => rw [Option.map_some, if_neg ((operation?_mem h).2 ▸ hne)]

theorem operation?_finish (s : Site) (o : Operation) (id : OperationId) :
    (s.finish o).operation? id = if id = o.id then none else s.operation? id := by
  rw [operation?, finish_operations, List.find?_filter]
  split
  · rename_i heq
    rw [List.find?_eq_none]
    intro found _
    simp [heq]
  · rename_i hne
    unfold operation?
    congr 1
    funext found
    by_cases hid : found.id = id
    · simp [hid, hne]
    · simp [hid]

/-- A new operation is found under its own number. -/
theorem operation?_start (request : Request) (h : ∀ o ∈ s.bus.operations, o.id < s.bus.next)
    (id : OperationId) : (s.start request).2.operation? id =
      if id = s.bus.next then some { id := s.bus.next, request := request,
                                     todo := request.start s.bus.transport }
      else s.operation? id := by
  show (s.bus.operations ++ [_]).find? _ = _
  rw [List.find?_append]
  split
  · rename_i heq
    have hnone : s.bus.operations.find? (·.id == id) = none := by
      rw [List.find?_eq_none]
      intro o ho
      have hne : o.id ≠ s.bus.next := Nat.ne_of_lt (h o ho)
      simpa [heq] using hne
    rw [hnone]
    simp [heq]
  · rename_i hne
    cases hfind : s.operation? id with
    | some o =>
      rw [operation?] at hfind
      rw [hfind]
      rfl
    | none =>
      rw [operation?] at hfind
      rw [hfind]
      simpa using fun heq => hne heq.symm

theorem advance_ends (h : s.operation? id = some o) (htodo : o.todo = []) :
    s.advance id = (.ends o.outcome, s.finish o) := by
  unfold advance
  rw [show s.bus.operations.find? (·.id == id) = some o from h]
  simp only [htodo]

theorem advance_waits_of_none (h : s.operation? id = some o) (htodo : o.todo = action :: rest)
    (hperform : { o with todo := rest }.perform s action = none) :
    s.advance id = (.waits, s) := by
  unfold advance
  rw [show s.bus.operations.find? (·.id == id) = some o from h]
  simp only [htodo, hperform]

theorem advance_goesOn (h : s.operation? id = some o) (htodo : o.todo = action :: rest)
    (hperform : { o with todo := rest }.perform s action = some (s', o')) :
    s.advance id = (.goesOn, (s'.setBus (s'.bus.setOperation o')).collect) := by
  unfold advance
  rw [show s.bus.operations.find? (·.id == id) = some o from h]
  simp only [htodo, hperform]

/-- The operation that acted, as it is afterwards. -/
theorem operation?_acted (h : s.operation? id = some o)
    (hperform : { o with todo := rest }.perform s action = some (s', o')) :
    (s'.setBus (s'.bus.setOperation o')).collect.operation? id = some o' := by
  have hframed := Operation.framed_perform hperform
  have hid : o'.id = id := hframed.id_eq.trans (operation?_mem h).2
  have hfind : s'.operation? o'.id = some o := by
    rw [hid, operation?, hframed.operations_eq]
    exact h
  rw [operation?_collect, ← hid]
  exact operation?_setOperation_self hfind

theorem operation?_acted_ne (h : s.operation? id = some o)
    (hperform : { o with todo := rest }.perform s action = some (s', o')) (hne : other ≠ id) :
    (s'.setBus (s'.bus.setOperation o')).collect.operation? other = s.operation? other := by
  have hframed := Operation.framed_perform hperform
  have hid : o'.id = id := hframed.id_eq.trans (operation?_mem h).2
  rw [operation?_collect, operation?_setOperation_ne (hid ▸ hne), operation?, hframed.operations_eq]
  rfl

/-- An operation is changed by its own actions only. -/
theorem operation?_advance_ne (s : Site) (hne : other ≠ id) :
    (s.advance id).2.operation? other = s.operation? other := by
  cases hfind : s.operation? id with
  | none => rw [advance_of_none hfind]
  | some o =>
    cases htodo : o.todo with
    | nil =>
      rw [advance_ends hfind htodo, operation?_finish, if_neg ((operation?_mem hfind).2 ▸ hne)]
    | cons action rest =>
      cases hperform : { o with todo := rest }.perform s action with
      | none => rw [advance_waits_of_none hfind htodo hperform]
      | some result =>
        rw [advance_goesOn hfind htodo hperform]
        exact operation?_acted_ne hfind hperform hne

/-- Every operation has a number of its own, and what comes next has none yet. -/
def Numbered (s : Site) : Prop :=
  ∀ o ∈ s.bus.operations, o.id < s.bus.next ∧ s.operation? o.id = some o

theorem Numbered.congr {t : Site} (h : s.Numbered) (hoperations : t.bus.operations = s.bus.operations)
    (hnext : t.bus.next = s.bus.next) : t.Numbered := by
  intro o ho
  rw [hoperations] at ho
  rw [operation?, hoperations, hnext]
  exact h o ho

theorem Numbered.start (h : s.Numbered) (request : Request) : (s.start request).2.Numbered := by
  have hlt : ∀ o ∈ s.bus.operations, o.id < s.bus.next := fun o ho => (h o ho).1
  intro o ho
  rw [operation?_start request hlt]
  rcases List.mem_append.mp ho with hold | hnew
  · rw [if_neg (Nat.ne_of_lt (hlt o hold))]
    exact ⟨Nat.lt_succ_of_lt (hlt o hold), (h o hold).2⟩
  · cases List.mem_singleton.mp hnew
    exact ⟨Nat.lt_succ_self _, if_pos rfl⟩

theorem Numbered.acted (h : s.Numbered) (hfind : s.operation? id = some o)
    (hperform : { o with todo := rest }.perform s action = some (s', o')) :
    (s'.setBus (s'.bus.setOperation o')).collect.Numbered := by
  have hnext := (Operation.keeps_perform hperform).next_le
  have hframed := Operation.framed_perform hperform
  obtain ⟨hmem, hid⟩ := operation?_mem hfind
  have hid' : o'.id = id := hframed.id_eq.trans hid
  have hnext' : (s'.setBus (s'.bus.setOperation o')).collect.bus.next = s'.bus.next := by
    rw [collect_bus]
    rfl
  intro other hother
  rw [collect_bus] at hother
  rw [hnext']
  rcases Bus.mem_setOperation hother with rfl | ⟨hold, hne⟩
  · refine ⟨Nat.lt_of_lt_of_le ?_ hnext, ?_⟩
    · rw [hid', ← hid]
      exact (h o hmem).1
    · rw [hid']
      exact operation?_acted hfind hperform
  · rw [hframed.operations_eq] at hold
    refine ⟨Nat.lt_of_lt_of_le (h other hold).1 hnext, ?_⟩
    rw [operation?_acted_ne hfind hperform (hid' ▸ hne)]
    exact (h other hold).2

theorem Numbered.finish (h : s.Numbered) (o : Operation) : (s.finish o).Numbered := by
  have hnext : (s.finish o).bus.next = s.bus.next := by rw [finish_bus]
  intro other hother
  rw [finish_operations, List.mem_filter] at hother
  rw [operation?_finish, if_neg (by simpa using hother.2), hnext]
  exact h other hother.1

end Site

/-- Whether an action is one of a send. -/
def Action.sends : Action → Bool
  | .borrow | .checkFlag | .remember | .write | .forget | .transmit | .countSent => true
  | _ => false

namespace Operation

variable {s s' : Site} {o o' : Operation} {action : Action} {rest : List Action} {frame : Frame}

/-- What an action of a send leaves as it is. -/
structure Passes (s : Site) (o : Operation) (s' : Site) (o' : Operation) : Prop where
  bus_eq : s'.bus = { s.bus with reception := s'.bus.reception, echoes := s'.bus.echoes }
  state_eq : s'.bus.reception.state = s.bus.reception.state
  spares : Kernel.Spares (fun _ => False) s.medium.kernel s'.medium.kernel
  request_eq : o'.request = o.request
  todo : ∀ action ∈ o'.todo, action.sends = true

theorem sends_start (transport : Transport) (frame : Frame) :
    ∀ action ∈ Request.start transport (.send frame), action.sends = true := by
  show ∀ action ∈ transport.transmission, _
  cases transport <;> decide

theorem sends_cleanup (transport : Transport) (frame : Frame) :
    ∀ action ∈ Request.cleanup transport (.send frame), action.sends = true := by
  show ∀ action ∈ if transport = .ring then [Action.forget] else [], _
  cases transport <;> decide

theorem passes_write (hrequest : o.request = .send frame)
    (hrest : ∀ action ∈ rest, action.sends = true)
    (h : { o with todo := rest }.write s = (s', o')) : Passes s o s' o' := by
  unfold write at h
  split at h
  · rename_i resource raw _ _
    have hwrite : (resource.socket.writeWire raw).Sparing (fun _ => False)
        s.medium.kernel fun _ _ => True := CanSocket.sparing_writeWire _ _ _
    split at h
    all_goals
      rename_i hrun
      obtain ⟨hbus, hspares, -⟩ := Site.onKernel_sparing hwrite hrun
      cases h
    · exact ⟨by rw [hbus], by rw [hbus], hspares, rfl, hrest⟩
    · refine ⟨by rw [hbus], by rw [hbus], hspares, rfl, ?_⟩
      rw [giveUp, hrequest]
      exact sends_cleanup _ frame
  · cases h
    exact ⟨rfl, rfl, Kernel.Spares.refl _, rfl, nofun⟩

/-- On every transport a send leaves the connection and the lock alone. -/
theorem passes_perform (hrequest : o.request = .send frame) (htodo : o.todo = action :: rest)
    (hsends : ∀ action ∈ o.todo, action.sends = true)
    (h : { o with todo := rest }.perform s action = some (s', o')) : Passes s o s' o' := by
  rw [htodo] at hsends
  have hrest : ∀ action ∈ rest, action.sends = true :=
    fun action hmem => hsends action (List.mem_cons_of_mem _ hmem)
  have haction := hsends action List.mem_cons_self
  have hdone : ∀ action ∈ ([] : List Action), action.sends = true :=
    fun _ hmem => absurd hmem List.not_mem_nil
  cases action with
  | borrow | remember | forget | transmit =>
    simp only [perform] at h
    split at h <;> cases h
    all_goals first
      | exact ⟨rfl, rfl, Kernel.Spares.refl _, rfl, hrest⟩
      | exact ⟨rfl, rfl, Kernel.Spares.refl _, rfl, hdone⟩
  | checkFlag =>
    simp only [perform] at h
    split at h <;> cases h
    · exact ⟨rfl, rfl, Kernel.Spares.refl _, rfl, hrest⟩
    · exact ⟨rfl, rfl, Kernel.Spares.refl _, rfl, hdone⟩
  | write => exact passes_write hrequest hrest (Option.some.inj h)
  | countSent =>
    cases h
    exact ⟨rfl, rfl, Kernel.Spares.refl _, rfl, hrest⟩
  | enter | leave | cancel | join | unpublish | closeSocket | letGo | clearEchoes | check | acquire
  | register | listen | spawn | publish | store | raiseFlag | lowerFlag | dropIdle => cases haction

end Operation

end CanTransport
