import CanTransport.Bus.Lifetime
import CanTransport.Bus.Operation
import CanTransport.Proofs.Kernel.Queues
/-!
# Single actions

What one action of an operation or of a task comes to, and what is given back behind it: resources
that nothing on the bus refers to any longer, and nothing else.
-/

namespace CanTransport

namespace Site

/-! ## Giving resources back -/

@[simp] theorem onKernel_bus {α : Type} (s : Site) (op : StateM Kernel α) :
    (s.onKernel op).2.bus = s.bus := rfl

def withKernel (s : Site) (k : Kernel) : Site :=
  { s with medium := { s.medium with kernel := k } }

/-- A system call as the part of a task, with its failures as such. -/
theorem onKernel_adapt {α : Type} {op : Kernel.Op Errno α} {s : Site} {r : Except Errno α}
    {k : Kernel} (h : op.run s.medium.kernel = (r, k)) :
    s.onKernel (ExceptT.adapt Failure.os op).run = (r.mapError Failure.os, s.withKernel k) := by
  show ((op.run s.medium.kernel).1.mapError Failure.os,
    s.withKernel (op.run s.medium.kernel).2) = _
  rw [h]

/-- A kernel operation leaves the bus alone, and the kernel as it says. -/
theorem onKernel_sparing {ε α : Type} {s s' : Site} {op : Kernel.Op ε α} {r : Except ε α}
    {keep : Descriptor → Prop} {P : α → Kernel → Prop} (hop : op.Sparing keep s.medium.kernel P)
    (h : s.onKernel op.run = (r, s')) :
    s'.bus = s.bus ∧ Kernel.Spares keep s.medium.kernel s'.medium.kernel ∧
      ∀ a, r = .ok a → P a s'.medium.kernel := by
  have hr : (s.onKernel op.run).1 = r := congrArg Prod.fst h
  have hs : (s.onKernel op.run).2 = s' := congrArg Prod.snd h
  subst hr hs
  exact ⟨rfl, hop⟩

@[simp] theorem releaseAll_bus (s : Site) (l : List Resource) : (s.releaseAll l).bus = s.bus := by
  induction l generalizing s with
  | nil => rfl
  | cons r l ih => rw [releaseAll, ih, onKernel_bus]

/-- What nothing refers to is given back, and nothing else of the bus changes. -/
@[simp] theorem collect_bus (s : Site) :
    s.collect.bus =
      { s.bus with resources := s.bus.resources.filter fun r => s.bus.holds r.key } := by
  unfold collect
  simp only [List.partition_eq_filter_filter]
  split
  · rename_i hnone
    rw [List.isEmpty_iff, List.filter_eq_nil_iff] at hnone
    have hall : s.bus.resources.filter (fun r => s.bus.holds r.key) = s.bus.resources := by
      rw [List.filter_eq_self]
      intro r hr
      simpa using hnone r hr
    rw [hall]
  · rw [releaseAll_bus]
    rfl

theorem spares_release (r : Resource) (k : Kernel) :
    Kernel.Spares (fun fd => ∀ g, r.ring ≠ some (fd, g)) k (r.release.run k).2 := by
  obtain ⟨socket, ring⟩ := r
  cases ring with
  | none => exact Kernel.spares_closeRaw _ k
  | some ring =>
    obtain ⟨packet, g⟩ := ring
    have hpacket : ∀ fd, (∀ g', some (packet, g) ≠ some (fd, g')) → fd ≠ packet := by
      intro fd hfd heq
      exact hfd g (by rw [heq])
    refine ((Kernel.spares_unmap packet k).trans ?_).trans (Kernel.spares_closeRaw _ _)
    exact (Kernel.spares_closePacket packet _).mono hpacket

theorem spares_releaseAll (s : Site) (l : List Resource) :
    Kernel.Spares (fun fd => ∀ r ∈ l, ∀ g, r.ring ≠ some (fd, g)) s.medium.kernel
      (s.releaseAll l).medium.kernel := by
  induction l generalizing s with
  | nil => exact Kernel.Spares.refl _
  | cons r l ih =>
    refine Kernel.Spares.trans ?_ ((ih _).mono fun fd hfd r' hr' => hfd r' (List.mem_cons_of_mem _ hr'))
    exact (spares_release r s.medium.kernel).mono fun fd hfd => hfd r List.mem_cons_self

/-- Only regions of resources that nothing refers to are given back. -/
theorem spares_collect (s : Site) :
    Kernel.Spares
      (fun fd => ∀ r ∈ s.bus.resources, s.bus.holds r.key = false → ∀ g, r.ring ≠ some (fd, g))
      s.medium.kernel s.collect.medium.kernel := by
  unfold collect
  simp only [List.partition_eq_filter_filter]
  split
  · exact Kernel.Spares.refl _
  · have hspares := spares_releaseAll
      (s.setBus { s.bus with resources := s.bus.resources.filter fun r => s.bus.holds r.key })
      (s.bus.resources.filter (not ∘ fun r => s.bus.holds r.key))
    refine hspares.mono fun fd hfd r hr => ?_
    rw [List.mem_filter] at hr
    exact hfd r hr.1 (by simpa using hr.2)

/-- What is referred to stays. -/
theorem resource?_collect {s : Site} {key : Descriptor} (hholds : s.bus.holds key = true) :
    s.collect.bus.resource? key = s.bus.resource? key := by
  rw [collect_bus]
  simp only [Bus.resource?, List.find?_filter]
  congr 1
  funext r
  by_cases hkey : r.key = key
  · simp [hkey, hholds]
  · simp [hkey]

theorem arrivals_release {r : Resource} {key : Descriptor} (k : Kernel) (h : r.key ≠ key) :
    (r.release.run k).2.arrivals key = k.arrivals key := by
  obtain ⟨socket, ring⟩ := r
  have hne : key ≠ socket.descriptor := fun heq => h heq.symm
  cases ring with
  | none => exact Kernel.arrivals_closeRaw k hne
  | some ring => exact Kernel.arrivals_closeRaw _ hne

theorem arrivals_releaseAll {key : Descriptor} (s : Site) (l : List Resource)
    (h : ∀ r ∈ l, r.key ≠ key) :
    (s.releaseAll l).medium.kernel.arrivals key = s.medium.kernel.arrivals key := by
  induction l generalizing s with
  | nil => rfl
  | cons r l ih =>
    rw [releaseAll, ih _ fun r' hr' => h r' (List.mem_cons_of_mem _ hr')]
    exact arrivals_release s.medium.kernel (h r List.mem_cons_self)

/-- What waits for a resource that is referred to stays in its queue. -/
theorem arrivals_collect {s : Site} {key : Descriptor} (hholds : s.bus.holds key = true) :
    s.collect.medium.kernel.arrivals key = s.medium.kernel.arrivals key := by
  unfold collect
  simp only [List.partition_eq_filter_filter]
  split
  · rfl
  · apply arrivals_releaseAll
    intro r hr hkey
    rw [List.mem_filter] at hr
    have hnot := hr.2
    simp only [Function.comp_apply, hkey, hholds] at hnot
    cases hnot

/-! ## What one action comes to -/

/-- What one action of an operation comes to. -/
theorem advance_eq (s : Site) (id : OperationId) :
    (s.advance id).2 = s ∨
    (∃ o ∈ s.bus.operations, o.id = id ∧ o.todo = [] ∧ (s.advance id).2 = s.finish o) ∨
    ∃ o ∈ s.bus.operations, ∃ action rest s' o', o.id = id ∧ o.todo = action :: rest ∧
      { o with todo := rest }.perform s action = some (s', o') ∧
      (s.advance id).2 = (s'.setBus (s'.bus.setOperation o')).collect := by
  unfold advance
  cases hfind : s.bus.operations.find? (·.id == id) with
  | none => exact Or.inl rfl
  | some o =>
    have hmem := List.mem_of_find?_eq_some hfind
    have hid : o.id = id := by simpa using List.find?_some hfind
    cases htodo : o.todo with
    | nil => exact Or.inr (Or.inl ⟨o, hmem, hid, htodo, by simp [htodo]⟩)
    | cons action rest =>
      cases hperform : { o with todo := rest }.perform s action with
      | none => exact Or.inl (by simp [htodo, hperform])
      | some result =>
        obtain ⟨s', o'⟩ := result
        refine Or.inr (Or.inr ⟨o, hmem, action, rest, s', o', hid, htodo, hperform, ?_⟩)
        simp [htodo, hperform]

/-- The end of an operation changes nothing else that anybody notices. -/
theorem finish_bus (s : Site) (o : Operation) : (s.finish o).bus = { s.bus with
    operations := s.bus.operations.filter (·.id != o.id)
    resources := (s.finish o).bus.resources } := by
  unfold finish
  rw [collect_bus]
  rfl

theorem finish_operations (s : Site) (o : Operation) :
    (s.finish o).bus.operations = s.bus.operations.filter (·.id != o.id) := by
  rw [finish_bus]

/-- What one action of a reception task comes to. -/
theorem run_eq (s : Site) (id : ReceiverId) :
    (s.bus.receiver? id = none ∧ s.run id = s) ∨
    ∃ r, s.bus.receiver? id = some r ∧ s.run id =
      ((r.step s).1.setBus ((r.step s).1.bus.setReceiver (r.step s).2)).collect := by
  unfold run
  cases hfind : s.bus.receiver? id with
  | none => exact Or.inl ⟨rfl, rfl⟩
  | some r => exact Or.inr ⟨r, rfl, rfl⟩

/-! ## What the next action is about -/

def operation? (s : Site) (id : OperationId) : Option Operation :=
  s.bus.operations.find? (·.id == id)

/-- The operation with a number, if an action is its next one. -/
def acting? (s : Site) (id : OperationId) (action : Action) : Option Operation :=
  (s.operation? id).filter fun o => o.todo.head? == some action

variable {s : Site} {o : Operation} {id : OperationId} {action : Action}

theorem operation?_mem (h : s.operation? id = some o) : o ∈ s.bus.operations ∧ o.id = id :=
  ⟨List.mem_of_find?_eq_some h, by simpa using List.find?_some h⟩

theorem advance_of_none (h : s.operation? id = none) : (s.advance id).2 = s := by
  unfold advance
  rw [show s.bus.operations.find? (·.id == id) = none from h]

theorem advance_of_nil (h : s.operation? id = some o) (htodo : o.todo = []) :
    (s.advance id).2 = s.finish o := by
  unfold advance
  rw [show s.bus.operations.find? (·.id == id) = some o from h]
  simp only [htodo]

theorem acting?_eq (h : s.operation? id = some o)
    (haction : o.todo.head? = some action) : s.acting? id action = some o := by
  rw [acting?, h, Option.filter_some, haction]
  simp

theorem acting?_ne (h : s.operation? id = some o)
    (haction : o.todo.head? ≠ some action) : s.acting? id action = none := by
  rw [acting?, h, Option.filter_some]
  simp [haction]

end Site

namespace Bus

variable {b : Bus}

theorem mem_setOperation {o o' : Operation} (h : o' ∈ (b.setOperation o).operations) :
    o' = o ∨ (o' ∈ b.operations ∧ o'.id ≠ o.id) := by
  simp only [setOperation, List.mem_map] at h
  obtain ⟨other, hmem, heq⟩ := h
  split at heq
  · exact Or.inl heq.symm
  · rename_i hne
    subst heq
    exact Or.inr ⟨hmem, hne⟩

theorem mem_setReceiver {t t' : Receiver} (h : t' ∈ (b.setReceiver t).receivers) :
    t' = t ∨ (t' ∈ b.receivers ∧ t'.id ≠ t.id) := by
  simp only [setReceiver, List.mem_map] at h
  obtain ⟨other, hmem, heq⟩ := h
  split at heq
  · exact Or.inl heq.symm
  · rename_i hne
    subst heq
    exact Or.inr ⟨hmem, hne⟩

theorem receiver?_mem {id : ReceiverId} {r : Receiver} (h : b.receiver? id = some r) :
    r ∈ b.receivers ∧ r.id = id :=
  ⟨List.mem_of_find?_eq_some h, by simpa using List.find?_some h⟩

theorem resource?_mem {key : Descriptor} {r : Resource} (h : b.resource? key = some r) :
    r ∈ b.resources ∧ r.key = key :=
  ⟨List.mem_of_find?_eq_some h, by simpa using List.find?_some h⟩

/-- The mark of a closed socket. -/
theorem resource?_closeSocket {key : Descriptor} {r : Resource} (h : b.resource? key = some r) :
    (b.closeSocket key).resource? key = some { r with socket := r.socket.close } := by
  obtain ⟨-, hkey⟩ := resource?_mem h
  unfold resource? at h
  have hcomp : ((fun other : Resource => other.key == key) ∘ fun r : Resource =>
      if r.key = key then { r with socket := r.socket.close } else r) = fun r => r.key == key := by
    funext other
    rw [Function.comp_apply]
    split <;> rfl
  simp only [resource?, closeSocket, List.find?_map, hcomp, h, Option.map_some, if_pos hkey]

end Bus

end CanTransport
