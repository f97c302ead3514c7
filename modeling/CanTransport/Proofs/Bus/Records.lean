import CanTransport.Proofs.Bus.Callers
import CanTransport.Proofs.Bus.Exchange
/-!
# Records and writes

Every send remembers its record before it writes it, and operations have numbers of their own. So
there are never more writes and forgotten records than records.
-/

namespace CanTransport

namespace Exchange

variable {s : Site} {w w' : Exchange} {event : Event} {allowed : Exchange → Event → Prop}

theorem Effect.grown (heffect : Effect w event w') :
    w.recorded <+: w'.recorded ∧ w.accepted <+: w'.accepted ∧ w.forgotten <+: w'.forgotten := by
  cases heffect with
  | act hacted =>
    cases hacted with
    | idle | finish | quiet | refuse =>
      exact ⟨List.prefix_rfl, List.prefix_rfl, List.prefix_rfl⟩
    | remember => exact ⟨List.prefix_append _ _, List.prefix_rfl, List.prefix_rfl⟩
    | accept => exact ⟨List.prefix_rfl, List.prefix_append _ _, List.prefix_rfl⟩
    | forget => exact ⟨List.prefix_rfl, List.prefix_rfl, List.prefix_append _ _⟩
  | send | heldBack | leak | hear | other =>
    exact ⟨List.prefix_rfl, List.prefix_rfl, List.prefix_rfl⟩

/-- Records of sends under way that are remembered, but neither accepted nor forgotten. -/
def opened (site : Site) : Nat := site.bus.operations.countP fun o => decide o.Open

/-- Writes and forgotten records are no more than the records that were remembered. -/
structure Counted (w : Exchange) : Prop where
  ids : (w.site.bus.operations.map Operation.id).Nodup
  fresh : ∀ o ∈ w.site.bus.operations, o.id < w.site.bus.next
  count : w.accepted.length + w.forgotten.length + opened w.site ≤ w.recorded.length

theorem Replaced.split {o o' : Operation} {site : Site} (h : Replaced w o o' site)
    (hids : (w.site.bus.operations.map Operation.id).Nodup) :
    ∃ before behind, w.site.bus.operations = before ++ o :: behind ∧
      site.bus.operations = before ++ o' :: behind := by
  obtain ⟨before, behind, hbefore, hafter, -⟩ := Bus.operations_split hids h.mem h.id_eq
  exact ⟨before, behind, hbefore, h.operations_eq.trans hafter⟩

theorem opened_split {o : Operation} {before behind : List Operation} {site : Site}
    (h : site.bus.operations = before ++ o :: behind) :
    opened site = before.countP (fun o => decide o.Open) +
      behind.countP (fun o => decide o.Open) + if o.Open then 1 else 0 := by
  rw [opened, h, List.countP_append, List.countP_cons, Nat.add_assoc]
  simp only [decide_eq_true_eq]

/-- One operation takes the place of another of the same number. -/
theorem Counted.replaced {o o' : Operation} {site : Site} (h : Counted w)
    (hreplaced : Replaced w o o' site) :
    (site.bus.operations.map Operation.id).Nodup ∧
      (∀ o ∈ site.bus.operations, o.id < site.bus.next) ∧
      opened site + (if o.Open then 1 else 0) = opened w.site + if o'.Open then 1 else 0 := by
  obtain ⟨before, behind, hbefore, hafter⟩ := hreplaced.split h.ids
  have hids := h.ids
  have hfresh := h.fresh
  rw [hbefore] at hfresh
  rw [hbefore, List.map_append, List.map_cons, ← hreplaced.id_eq, ← List.map_cons,
    ← List.map_append, ← hafter] at hids
  refine ⟨hids, ?_, ?_⟩
  · intro other hother
    rw [hafter, List.mem_append, List.mem_cons] at hother
    rw [hreplaced.next_eq]
    rcases hother with hin | rfl | hin
    · exact hfresh other (List.mem_append_left _ hin)
    · rw [hreplaced.id_eq]
      exact hfresh o (List.mem_append_right _ List.mem_cons_self)
    · exact hfresh other (List.mem_append_right _ (List.mem_cons_of_mem _ hin))
  · rw [opened_split hbefore, opened_split hafter]
    omega

theorem Acted.counted (hacted : Acted w w') (h : Counted w) : Counted w' := by
  have hcount := h.count
  cases hacted with
  | idle => exact h
  | @finish o hmem htodo =>
    have hoperations := Site.finish_operations w.site o
    have hnext : (w.site.finish o).bus.next = w.site.bus.next := by rw [Site.finish_bus]
    refine ⟨?_, ?_, ?_⟩
    · show ((w.site.finish o).bus.operations.map Operation.id).Nodup
      rw [hoperations]
      exact (List.filter_sublist.map Operation.id).nodup h.ids
    · intro other hother
      rw [hoperations] at hother
      rw [hnext]
      exact h.fresh other (List.mem_filter.mp hother).1
    · show w.accepted.length + w.forgotten.length + opened (w.site.finish o) ≤ w.recorded.length
      have hless : opened (w.site.finish o) ≤ opened w.site := by
        rw [opened, hoperations]
        exact List.filter_sublist.countP_le
      omega
  | @quiet o o' site hreplaced hechoes hthen =>
    obtain ⟨hids, hfresh, hopen⟩ := h.replaced hreplaced
    rw [if_neg (show ¬ o'.Open from fun hopen => hopen.elim hthen.1 hthen.2)] at hopen
    refine ⟨hids, hfresh, ?_⟩
    show w.accepted.length + w.forgotten.length + opened site ≤ w.recorded.length
    omega
  | @remember o o' site raw hreplaced hechoes hwire hthen =>
    obtain ⟨hids, hfresh, hopen⟩ := h.replaced hreplaced
    rw [if_pos (show o'.Open from Or.inl hthen)] at hopen
    refine ⟨hids, hfresh, ?_⟩
    show w.accepted.length + w.forgotten.length + opened site ≤ (w.recorded ++ [raw]).length
    rw [List.length_append, List.length_singleton]
    omega
  | @accept o o' site raw hreplaced hechoes hwire hnow hthen =>
    obtain ⟨hids, hfresh, hopen⟩ := h.replaced hreplaced
    rw [if_pos (show o.Open from Or.inl hnow)] at hopen
    rw [if_neg (Operation.not_open_of_accepted hthen)] at hopen
    refine ⟨hids, hfresh, ?_⟩
    show (w.accepted ++ [raw]).length + w.forgotten.length + opened site ≤ w.recorded.length
    rw [List.length_append, List.length_singleton]
    omega
  | @refuse o o' site hreplaced hechoes hwire hnow hthen =>
    obtain ⟨hids, hfresh, hopen⟩ := h.replaced hreplaced
    rw [if_pos (show o.Open from Or.inl hnow),
      if_pos (show o'.Open from Or.inr hthen)] at hopen
    refine ⟨hids, hfresh, ?_⟩
    show w.accepted.length + w.forgotten.length + opened site ≤ w.recorded.length
    omega
  | @forget o o' site raw hreplaced hechoes hwire hnow hthen =>
    obtain ⟨hids, hfresh, hopen⟩ := h.replaced hreplaced
    rw [if_pos (show o.Open from Or.inr hnow)] at hopen
    rw [if_neg (Operation.not_open_of_ended hthen)] at hopen
    refine ⟨hids, hfresh, ?_⟩
    show w.accepted.length + (w.forgotten ++ [raw]).length + opened site ≤ w.recorded.length
    rw [List.length_append, List.length_singleton]
    omega

theorem Counted.of_kept {site : Site} (h : Counted w) (hkept : Kept w site) :
    Counted { w with site := site } := by
  refine ⟨?_, ?_, ?_⟩
  · show (site.bus.operations.map Operation.id).Nodup
    rw [hkept.operations_eq]
    exact h.ids
  · show ∀ o ∈ site.bus.operations, o.id < site.bus.next
    rw [hkept.operations_eq, hkept.next_eq]
    exact h.fresh
  · show w.accepted.length + w.forgotten.length + opened site ≤ w.recorded.length
    rw [opened, hkept.operations_eq]
    exact h.count

theorem Effect.counted (heffect : Effect w event w') (hsteady : Steady w) (h : Counted w) :
    Counted w' := by
  cases heffect with
  | send frame =>
    have hoperations : (w.site.start (.send frame)).2.bus.operations = w.site.bus.operations ++
        [{ id := w.site.bus.next, request := .send frame
           todo := w.site.bus.transport.transmission }] := rfl
    refine ⟨?_, ?_, ?_⟩
    · show ((w.site.start (.send frame)).2.bus.operations.map Operation.id).Nodup
      rw [hoperations, List.map_append, List.nodup_append]
      refine ⟨h.ids, List.nodup_cons.mpr ⟨List.not_mem_nil, List.nodup_nil⟩, ?_⟩
      intro id hold id' hnew heq
      obtain ⟨o, hmem, rfl⟩ := List.mem_map.mp hold
      have hlt := h.fresh o hmem
      rw [heq, List.mem_singleton.mp hnew] at hlt
      exact Nat.lt_irrefl _ hlt
    · intro o ho
      rcases List.mem_append.mp ho with hold | hnew
      · exact Nat.lt_succ_of_lt (h.fresh o hold)
      · rw [List.mem_singleton.mp hnew]
        exact Nat.lt_succ_self _
    · show w.accepted.length + w.forgotten.length + opened (w.site.start (.send frame)).2 ≤ _
      rw [opened, hoperations, List.countP_append, hsteady.transport_eq]
      exact h.count
  | act hacted => exact hacted.counted h
  | heldBack hkept | leak hkept | hear hkept | other hkept =>
    have hsame := h.of_kept hkept
    exact ⟨hsame.ids, hsame.fresh, hsame.count⟩

theorem Run.counted (hrun : Run allowed { site := s } w) (hquiet : s.Quiet) : Counted w := by
  have hsteady := steady_start hquiet
  induction hrun with
  | refl =>
    refine ⟨?_, ?_, ?_⟩
    · rw [hquiet.operations_eq]
      exact List.nodup_nil
    · rw [hquiet.operations_eq]
      intro o ho
      cases ho
    · show 0 + 0 + opened s ≤ 0
      rw [opened, hquiet.operations_eq]
      exact Nat.le_refl 0
  | step hrun _ hstep ih =>
    have hsteady' := hrun.steady hsteady
    exact (hstep.effect hsteady').counted hsteady' ih

end Exchange

end CanTransport
