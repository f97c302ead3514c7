import CanTransport.CanSocket
/-!
# Outcomes of kernel operations

What a kernel operation reports and leaves behind, said by a predicate on both, and the rules by
which such predicates pass through sequences, renamed errors and releases after a failure.
-/

namespace CanTransport.Kernel.Op

variable {ε α β : Type}

/-- The result of an operation and the kernel that it leaves satisfy `Q`. -/
def Yields (op : Kernel.Op ε α) (k : Kernel) (Q : Except ε α → Kernel → Prop) : Prop :=
  Q (op.run k).1 (op.run k).2

theorem Yields.mono {op : Kernel.Op ε α} {k : Kernel} {Q R : Except ε α → Kernel → Prop}
    (h : op.Yields k Q) (himp : ∀ r k', Q r k' → R r k') : op.Yields k R :=
  himp _ _ h

theorem run_bind (x : Kernel.Op ε α) (f : α → Kernel.Op ε β) (k : Kernel) :
    ((x >>= f).run k : Except ε β × Kernel) =
      match (x.run k : Except ε α × Kernel) with
      | (.ok a, k') => (f a).run k'
      | (.error e, k') => (.error e, k') := by
  show (match x.run k with | (r, k') => ExceptT.bindCont f r k') = _
  rcases x.run k with ⟨_ | _, _⟩ <;> rfl

theorem yields_bind {x : Kernel.Op ε α} {f : α → Kernel.Op ε β} {k : Kernel}
    {Q : Except ε β → Kernel → Prop} :
    (x >>= f).Yields k Q ↔ x.Yields k fun r k' =>
      match r with
      | .ok a => (f a).Yields k' Q
      | .error e => Q (.error e) k' := by
  unfold Yields
  rw [run_bind]
  rcases (x.run k : Except ε α × Kernel) with ⟨_ | _, _⟩ <;> rfl

theorem yields_orError {wrap : Failure → Error} {op : Kernel.Op Errno α} {k : Kernel}
    {Q : Except Error α → Kernel → Prop} :
    (op.orError wrap).Yields k Q ↔
      op.Yields k fun r k' => Q (r.mapError fun number => wrap (.os number)) k' := Iff.rfl

theorem yields_orRelease {op : Kernel.Op ε α} {release : StateM Kernel Unit} {k : Kernel}
    {Q : Except ε α → Kernel → Prop} :
    (op.orRelease release).Yields k Q ↔ op.Yields k fun r k' =>
      match r with
      | .ok a => Q (.ok a) k'
      | .error e => Q (.error e) (release.run k').2 := by
  unfold Yields
  have hrun : ((op.orRelease release).run k : Except ε α × Kernel) =
      match (op.run k : Except ε α × Kernel) with
      | (.ok a, k') => (.ok a, k')
      | (.error e, k') => (.error e, (release.run k').2) := by
    show (match op.run k with
      | (r, k') => ((match r with
        | .ok a => pure (Except.ok a)
        | .error e => ((do release; throw e : Kernel.Op ε α) : StateM Kernel (Except ε α)) :
          StateM Kernel (Except ε α)) k' : Except ε α × Kernel)) = _
    rcases op.run k with ⟨_ | _, _⟩ <;> rfl
  rw [hrun]
  rcases (op.run k : Except ε α × Kernel) with ⟨_ | _, _⟩ <;> rfl

theorem yields_liftExcept {r : Except ε α} {k : Kernel} {Q : Except ε α → Kernel → Prop} :
    (liftM r : Kernel.Op ε α).Yields k Q ↔ Q r k := by
  cases r <;> rfl

end CanTransport.Kernel.Op
