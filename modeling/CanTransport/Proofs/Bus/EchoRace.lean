import CanTransport.Bus.Lifetime
import CanTransport.Bus.Run
import CanTransport.Proofs.Bus.Orders
import CanTransport.Proofs.Bus.Records
/-!
# The echoes of sends that overlap

Sends that overlap may write in another order than they remembered their records, and echoes come
in the order of the writes. The echo of a later record then gives the earlier ones up, and theirs
reach the listener. Nothing else goes wrong: listeners get exactly what peers sent while the awaited
echoes are remembered in their order.
-/

namespace CanTransport

namespace Exchange

variable {s : Site} {w w' : Exchange} {event : Event} {allowed : Exchange → Event → Prop}

/-- Every accepted record has its echo. -/
def Faithful (_ : Exchange) : Event → Prop
  | .echo lost => lost = []
  | _ => True

/-- Tasks sweep, and nobody sends. -/
def Swept (_ : Exchange) : Event → Prop
  | .send | .act _ => False
  | .echo lost => lost = []
  | .hear | .other => True

instance (w : Exchange) (event : Event) : Decidable (Faithful w event) :=
  match event with
  | .echo lost => inferInstanceAs (Decidable (lost = []))
  | .send | .act _ | .hear | .other => .isTrue trivial

instance (w : Exchange) (event : Event) : Decidable (Swept w event) :=
  match event with
  | .echo lost => inferInstanceAs (Decidable (lost = []))
  | .send | .act _ => .isFalse id
  | .hear | .other => .isTrue trivial

/-! ## What listeners got at least -/

/-- Listeners got everything that peers sent. -/
def Covered (s : Site) (w : Exchange) : Prop :=
  s.bus.reception.frames.length + (readable w.peers).length ≤ w.frames.length

theorem Effect.covered (heffect : Effect w event w') (h : Covered s w) : Covered s w' := by
  unfold Covered at h ⊢
  rcases heffect.heard with ⟨came, hpeers, hframes⟩ | ⟨frame, hpeers, hframes, -⟩
  · rw [hpeers, hframes, readable_append, List.length_append, List.length_append]
    omega
  · rw [hpeers, hframes, List.length_append]
    omega

theorem Run.covered (hrun : Run allowed w w') (hsteady : Steady w) (h : Covered s w) :
    Covered s w' := by
  induction hrun with
  | refl => exact h
  | step hrun _ hstep ih => exact (hstep.effect (hrun.steady hsteady)).covered ih

/-- An own frame that reached the listener is too many for good. -/
theorem not_exact_of_leak {frame : Frame} (hcovered : Covered s w) (hpeers : w'.peers = w.peers)
    (hframes : w'.frames = w.frames ++ [frame]) : ¬ Exact s w' := by
  intro hexact
  have hlength := congrArg List.length hexact
  rw [hframes, hpeers, List.length_append, List.length_append, List.length_singleton] at hlength
  unfold Covered at hcovered
  omega

theorem Effect.exact_before (heffect : Effect w event w') (hcovered : Covered s w)
    (h : Exact s w') : Exact s w := by
  rcases heffect.heard with ⟨came, hpeers, hframes⟩ | ⟨frame, hpeers, hframes, -⟩
  · unfold Exact at h ⊢
    rw [hpeers, hframes, readable_append, ← List.append_assoc] at h
    exact List.append_cancel_right h
  · exact absurd h (not_exact_of_leak hcovered hpeers hframes)

/-! ## Sweeps alone -/

theorem Effect.kept_after (heffect : Effect w event w') (hswept : Swept w event)
    (h : w.awaited.Sublist w.pending) : w'.awaited.Sublist w'.pending := by
  cases heffect with
  | send | act => exact hswept.elim
  | @heldBack site raw lost rest before behind hkept hawaited hpending hbefore hbehind hframes =>
    have hnone : lost = [] := hswept
    rw [hawaited, hnone, hpending] at h
    show rest.Sublist site.bus.echoes.pending
    rw [hbehind]
    exact Echoes.sublist_behind h hbefore
  | leak _ hawaited hnew => exact absurd (h.subset (mem_awaited hawaited)) hnew
  | hear _ hpending | other _ hpending =>
    show w.awaited.Sublist _
    rw [pending, hpending]
    exact h

theorem Effect.kept_before (heffect : Effect w event w') (hswept : Swept w event)
    (hcovered : Covered s w) (hexact : Exact s w') (h : w'.awaited.Sublist w'.pending) :
    w.awaited.Sublist w.pending := by
  cases heffect with
  | send | act => exact hswept.elim
  | @heldBack site raw lost rest before behind hkept hawaited hpending hbefore hbehind hframes =>
    have hnone : lost = [] := hswept
    have hrest : rest.Sublist behind := hbehind ▸ h
    rw [hawaited, hnone, hpending]
    exact (hrest.cons_cons raw).trans (List.sublist_append_right _ _)
  | leak _ _ _ _ hframes => exact absurd hexact (not_exact_of_leak hcovered rfl hframes)
  | hear _ hpending | other _ hpending => exact hpending ▸ h

theorem Run.kept_after (hrun : Run Swept w w') (hsteady : Steady w) (hexact : Exact s w)
    (h : w.awaited.Sublist w.pending) : Exact s w' ∧ w'.awaited.Sublist w'.pending := by
  induction hrun with
  | refl => exact ⟨hexact, h⟩
  | step hrun hswept hstep ih =>
    have heffect := hstep.effect (hrun.steady hsteady)
    exact ⟨heffect.exact ih.2 ih.1, heffect.kept_after hswept ih.2⟩

theorem Run.kept_before (hrun : Run Swept w w') (hsteady : Steady w) (hcovered : Covered s w)
    (hexact : Exact s w') (h : w'.awaited.Sublist w'.pending) : w.awaited.Sublist w.pending := by
  induction hrun with
  | refl => exact h
  | step hrun hswept hstep ih =>
    have heffect := hstep.effect (hrun.steady hsteady)
    have hcovered' := hrun.covered hsteady hcovered
    exact ih (heffect.exact_before hcovered' hexact)
      (heffect.kept_before hswept hcovered' hexact h)

/-! ## Echoes that meet their record at the front -/

/-- An action of a send leaves the queue of echoes as it is, remembers a record, or forgets one. -/
theorem Acted.queue (hacted : Acted w w') (hsteady : Steady w) : w'.echoed = w.echoed ∧
    ((w'.pending = w.pending ∧ w'.recorded = w.recorded ∧ w'.crowded = w.crowded) ∨
    (∃ raw, w'.pending = (if w.pending.length = Echoes.capacity then w.pending.drop 1
        else w.pending) ++ [raw] ∧
      w'.recorded = w.recorded ++ [raw] ∧
      w'.crowded = (w.crowded || w.pending.length == Echoes.capacity)) ∨
    (∃ raw, w'.pending = Echoes.eraseLast raw w.pending ∧ w'.recorded = w.recorded ∧
      w'.crowded = w.crowded ∧ w'.forgotten = w.forgotten ++ [raw])) := by
  cases hacted with
  | idle => exact ⟨rfl, Or.inl ⟨rfl, rfl, rfl⟩⟩
  | @finish o =>
    refine ⟨rfl, Or.inl ⟨?_, rfl, rfl⟩⟩
    show (w.site.finish o).bus.echoes.pending = w.site.bus.echoes.pending
    rw [Site.finish_bus]
  | quiet _ hechoes | accept _ hechoes | refuse _ hechoes =>
    exact ⟨rfl, Or.inl ⟨congrArg Echoes.pending hechoes, rfl, rfl⟩⟩
  | @remember o o' site raw hreplaced hechoes =>
    refine ⟨rfl, Or.inr (Or.inl ⟨raw, ?_, rfl, rfl⟩)⟩
    exact (congrArg Echoes.pending hechoes).trans (Echoes.record_pending hsteady.enabled raw)
  | @forget o o' site raw hreplaced hechoes =>
    refine ⟨rfl, Or.inr (Or.inr ⟨raw, ?_, rfl, rfl, rfl⟩)⟩
    exact (congrArg Echoes.pending hechoes).trans (Echoes.forget_pending hsteady.enabled raw)

theorem Effect.accounted (heffect : Effect w event w') (hfaithful : Faithful w event)
    (h : w.accepted = w.echoed ++ w.awaited) : w'.accepted = w'.echoed ++ w'.awaited := by
  cases heffect with
  | act hacted =>
    cases hacted with
    | accept =>
      show w.accepted ++ [_] = w.echoed ++ (w.awaited ++ [_])
      rw [h, List.append_assoc]
    | idle | finish | quiet | remember | refuse | forget => exact h
  | @heldBack _ raw lost rest _ _ _ hawaited | @leak _ raw _ lost rest _ hawaited =>
    have hnone : lost = [] := hfaithful
    show w.accepted = w.echoed ++ [raw] ++ rest
    rw [h, hawaited, hnone, List.nil_append, List.append_assoc, List.singleton_append]
  | send | hear | other => exact h

theorem Run.accounted (hrun : Run Faithful { site := s } w) (hquiet : s.Quiet) :
    w.accepted = w.echoed ++ w.awaited := by
  have hsteady := steady_start hquiet
  induction hrun with
  | refl => rfl
  | step hrun hfaithful hstep ih =>
    exact (hstep.effect (hrun.steady hsteady)).accounted hfaithful ih

/-- Every echo took one record at least out of the queue, and just one if none is missing. -/
structure Matched (w : Exchange) : Prop where
  count : w.echoed.length + w.pending.length ≤ w.recorded.length
  same : w.echoed.length + w.pending.length = w.recorded.length →
    w.recorded = w.echoed ++ w.pending ∧ w.crowded = false

theorem Matched.of_eq (h : Matched w) (hechoed : w'.echoed = w.echoed)
    (hpending : w'.pending = w.pending) (hrecorded : w'.recorded = w.recorded)
    (hcrowded : w'.crowded = w.crowded) : Matched w' := by
  refine ⟨?_, ?_⟩
  · rw [hechoed, hpending, hrecorded]
    exact h.count
  · rw [hechoed, hpending, hrecorded, hcrowded]
    exact h.same

theorem matched_of_lt (h : w.echoed.length + w.pending.length < w.recorded.length) : Matched w :=
  ⟨Nat.le_of_lt h, fun heq => absurd heq (Nat.ne_of_lt h)⟩

theorem Acted.matched (hacted : Acted w w') (hsteady : Steady w) (h : Matched w) :
    Matched w' := by
  have hcount := h.count
  obtain ⟨hechoed, hqueue⟩ := hacted.queue hsteady
  rcases hqueue with ⟨hpending, hrecorded, hcrowded⟩ |
    ⟨raw, hpending, hrecorded, hcrowded⟩ | ⟨raw, hpending, hrecorded, hcrowded, -⟩
  · exact h.of_eq hechoed hpending hrecorded hcrowded
  · by_cases hfull : w.pending.length = Echoes.capacity
    · -- The oldest record goes, and nothing ever makes up for it.
      rw [if_pos hfull] at hpending
      have hpos : 0 < w.pending.length := by rw [hfull]; decide
      apply matched_of_lt
      rw [hechoed, hpending, hrecorded, List.length_append, List.length_append, List.length_drop,
        List.length_singleton]
      omega
    · rw [if_neg hfull] at hpending
      refine ⟨?_, fun heq => ?_⟩
      · rw [hechoed, hpending, hrecorded, List.length_append, List.length_append]
        omega
      · rw [hechoed, hpending, hrecorded, List.length_append, List.length_append] at heq
        obtain ⟨hsame, hroom⟩ := h.same (by omega)
        refine ⟨?_, ?_⟩
        · rw [hechoed, hpending, hrecorded, hsame, List.append_assoc]
        · rw [hcrowded, hroom, Bool.false_or]
          exact beq_false_of_ne hfull
  · by_cases hmem : raw ∈ w.pending
    · have hless := Echoes.length_eraseLast_of_mem hmem
      apply matched_of_lt
      rw [hechoed, hpending, hrecorded]
      omega
    · rw [Echoes.eraseLast_of_not_mem hmem] at hpending
      exact h.of_eq hechoed hpending hrecorded hcrowded

theorem Effect.matched (heffect : Effect w event w') (hsteady : Steady w)
    (hcovered : Covered s w) (hexact : Exact s w') (h : Matched w) : Matched w' := by
  cases heffect with
  | send => exact h.of_eq rfl rfl rfl rfl
  | act hacted => exact hacted.matched hsteady h
  | @heldBack site raw lost rest before behind hkept hawaited hpending hbefore hbehind hframes =>
    have hcount := h.count
    rw [hpending, List.length_append, List.length_cons] at hcount
    cases before with
    | nil =>
      refine ⟨?_, ?_⟩
      · show (w.echoed ++ [raw]).length + site.bus.echoes.pending.length ≤ w.recorded.length
        rw [hbehind, List.length_append, List.length_singleton]
        omega
      · intro heq
        change (w.echoed ++ [raw]).length + site.bus.echoes.pending.length =
          w.recorded.length at heq
        rw [hbehind, List.length_append, List.length_singleton] at heq
        obtain ⟨hrecorded, hroom⟩ := h.same (by
          rw [hpending, List.nil_append, List.length_cons]
          omega)
        refine ⟨?_, hroom⟩
        show w.recorded = w.echoed ++ [raw] ++ site.bus.echoes.pending
        rw [hrecorded, hpending, hbehind, List.nil_append, List.append_assoc,
          List.singleton_append]
    | cons first before =>
      apply matched_of_lt
      show (w.echoed ++ [raw]).length + site.bus.echoes.pending.length < w.recorded.length
      rw [List.length_cons] at hcount
      rw [hbehind, List.length_append, List.length_singleton]
      omega
  | leak _ _ _ _ hframes => exact absurd hexact (not_exact_of_leak hcovered rfl hframes)
  | hear _ hpending | other _ hpending => exact h.of_eq rfl hpending rfl rfl

theorem Run.matched (hrun : Run allowed { site := s } w) (hquiet : s.Quiet)
    (hexact : Exact s w) : Matched w := by
  have hsteady := steady_start hquiet
  have hcovered : Covered s { site := s } := Nat.le_refl _
  induction hrun with
  | refl =>
    have hnone : ({ site := s } : Exchange).pending = [] := by
      rw [pending, hquiet.echoes_eq]
      rfl
    refine ⟨?_, fun _ => ⟨?_, rfl⟩⟩
    · rw [hnone]
      exact Nat.le_refl 0
    · rw [hnone]
      rfl
  | step hrun _ hstep ih =>
    have hsteady' := hrun.steady hsteady
    have hcovered' := hrun.covered hsteady hcovered
    have heffect := hstep.effect hsteady'
    exact heffect.matched hsteady' hcovered' hexact (ih (heffect.exact_before hcovered' hexact))

/-! ## Writes in the order of their records -/

/-- The queue of echoes holds what was recorded and did not come back yet. -/
def Aligned (w : Exchange) : Prop := w.recorded = w.echoed ++ w.pending

theorem Acted.aligned (hacted : Acted w w') (hsteady : Steady w) (hroom : w'.crowded = false)
    (hforgotten : w'.forgotten = []) (h : Aligned w) : Aligned w' := by
  unfold Aligned at h ⊢
  obtain ⟨hechoed, hqueue⟩ := hacted.queue hsteady
  rcases hqueue with ⟨hpending, hrecorded, -⟩ | ⟨raw, hpending, hrecorded, hcrowded⟩ |
    ⟨raw, -, -, -, hforgot⟩
  · rw [hechoed, hpending, hrecorded]
    exact h
  · have hfree : w.pending.length ≠ Echoes.capacity := by
      rw [hcrowded] at hroom
      exact ne_of_beq_false (Bool.or_eq_false_iff.mp hroom).2
    rw [hechoed, hpending, hrecorded, if_neg hfree, h, List.append_assoc]
  · rw [hforgot] at hforgotten
    exact absurd hforgotten (List.append_ne_nil_of_right_ne_nil _ (List.cons_ne_nil _ _))

theorem Effect.aligned (heffect : Effect w event w') (hsteady : Steady w)
    (hfaithful : Faithful w event) (hroom : w'.crowded = false) (hforgotten : w'.forgotten = [])
    (hfront : w.awaited <+: w.pending) (h : Aligned w) : Aligned w' := by
  cases heffect with
  | send => exact h
  | act hacted => exact hacted.aligned hsteady hroom hforgotten h
  | @heldBack site raw lost rest before behind hkept hawaited hpending hbefore hbehind hframes =>
    have hnone : lost = [] := hfaithful
    rw [hawaited, hnone, hpending] at hfront
    -- The first echo awaited is that of the first record, so none lies before it.
    have hempty : before = [] := by
      cases before with
      | nil => rfl
      | cons first before =>
        obtain ⟨hhead, -⟩ := List.cons_prefix_cons.mp hfront
        exact absurd (hhead ▸ List.mem_cons_self) hbefore
    unfold Aligned at h ⊢
    show w.recorded = w.echoed ++ [raw] ++ site.bus.echoes.pending
    rw [h, hpending, hempty, hbehind, List.nil_append, List.append_assoc, List.singleton_append]
  | leak _ hawaited hnew => exact absurd (hfront.subset (mem_awaited hawaited)) hnew
  | @hear site raw hkept hpending | @other site hkept hpending =>
    unfold Aligned at h ⊢
    show w.recorded = w.echoed ++ site.bus.echoes.pending
    rw [hpending]
    exact h

/-- Writes in the order of their records wait for the echoes at the front of the queue. -/
theorem awaited_prefix {all : List Wire} (hcounted : Counted w)
    (haccounted : w.accepted = w.echoed ++ w.awaited) (haligned : Aligned w)
    (hrecorded : w.recorded <+: all) (haccepted : w.accepted <+: all) :
    w.awaited <+: w.pending := by
  have hcount := hcounted.count
  have hprefix : w.accepted <+: w.recorded :=
    List.prefix_of_prefix_length_le haccepted hrecorded (by omega)
  rw [haccounted, haligned] at hprefix
  exact (List.prefix_append_right_inj w.echoed).mp hprefix

theorem Run.aligned {all : List Wire} (hrun : Run Faithful { site := s } w) (hquiet : s.Quiet)
    (hrecorded : w.recorded <+: all) (haccepted : w.accepted <+: all) (hroom : w.crowded = false)
    (hforgotten : w.forgotten = []) : Exact s w ∧ Aligned w := by
  have hsteady := steady_start hquiet
  induction hrun with
  | refl =>
    refine ⟨(List.append_nil _).symm, ?_⟩
    show [] = [] ++ s.bus.echoes.pending
    rw [hquiet.echoes_eq]
    rfl
  | @step w w' event hrun hfaithful hstep ih =>
    have hsteady' := hrun.steady hsteady
    have heffect := hstep.effect hsteady'
    obtain ⟨hrecorded', haccepted', hforgotten'⟩ := heffect.grown
    obtain ⟨hexact, haligned⟩ := ih (hrecorded'.trans hrecorded) (haccepted'.trans haccepted)
      (heffect.room hroom) (List.prefix_nil.mp (hforgotten ▸ hforgotten'))
    have hfront := awaited_prefix (hrun.counted hquiet) (hrun.accounted hquiet) haligned
      (hrecorded'.trans hrecorded) (haccepted'.trans haccepted)
    exact ⟨heffect.exact hfront.sublist hexact,
      heffect.aligned hsteady' hfaithful hroom hforgotten hfront haligned⟩

/-- Listeners get what peers sent and nothing else as long as all awaited echoes are remembered in
their order; if they are not once the sends are over, an own frame gets through. If all writes are
accepted and all echoes have come, that means that the writes came in the order of their records,
and that the queue of echoes had room for each. -/
theorem exact_iff (hquiet : s.Quiet) :
    (∀ w, Run (fun w _ => w.awaited.Sublist w.pending) { site := s } w → Exact s w) ∧
    (∀ w w', Run Faithful { site := s } w → Exact s w → Run Swept w w' → w'.awaited = [] →
      (Exact s w' ↔ w.awaited.Sublist w.pending)) ∧
    (∀ w, Run Faithful { site := s } w → w.awaited = [] →
      w.recorded.length = w.accepted.length →
      (Exact s w ↔ w.accepted = w.recorded ∧ w.crowded = false)) := by
  have hsteady := steady_start hquiet
  refine ⟨?_, ?_, ?_⟩
  · intro w hrun
    induction hrun with
    | refl => exact (List.append_nil _).symm
    | step hrun hkept hstep ih => exact (hstep.effect (hrun.steady hsteady)).exact hkept ih
  · intro w w' hbefore hexact hrun hawaited
    have hsteady' := hbefore.steady hsteady
    have hcovered := hbefore.covered hsteady (Nat.le_refl _ : Covered s { site := s })
    refine ⟨fun hexact' => ?_, fun hkept => (hrun.kept_after hsteady' hexact hkept).1⟩
    refine hrun.kept_before hsteady' hcovered hexact' ?_
    rw [hawaited]
    exact List.nil_sublist _
  · intro w hrun hawaited hlength
    have haccounted := hrun.accounted hquiet
    rw [hawaited, List.append_nil] at haccounted
    constructor
    · intro hexact
      have hmatched := hrun.matched hquiet hexact
      have hcount := hmatched.count
      have hnone : w.pending = [] := by
        apply List.eq_nil_of_length_eq_zero
        rw [← haccounted, ← hlength] at hcount
        omega
      obtain ⟨hrecorded, hroom⟩ := hmatched.same (by
        rw [← haccounted, ← hlength, hnone]
        rfl)
      rw [hnone, List.append_nil] at hrecorded
      exact ⟨haccounted.trans hrecorded.symm, hroom⟩
    · rintro ⟨hsame, hroom⟩
      have hcount := (hrun.counted hquiet).count
      have hforgotten : w.forgotten = [] := by
        apply List.eq_nil_of_length_eq_zero
        omega
      exact (hrun.aligned hquiet (hsame ▸ List.prefix_rfl) List.prefix_rfl hroom hforgotten).1

/-- A ring bus is made and connected. Two sends remember their records one after the other, write
them in the same order, and both echoes are held back. -/
theorem exact_iff_ordered_writes : ∃ b m s w w', ∃ first second : Frame,
    (Bus.make .ring "can0" {}).run {} = (.ok b, m) ∧
    (Site.advanceFar 0 Site.actions (Site.start ⟨b, m⟩ .connect).2).2 = s ∧ s.Quiet ∧
    Run Faithful { site := s } w ∧ w.awaited = [first.encode, second.encode] ∧ w.frames = [] ∧
    Run Swept w w' ∧ w'.awaited = [] ∧ w'.frames = [] ∧ w'.accepted = w'.recorded := by
  obtain ⟨first, hfirst⟩ : ∃ first : Frame, first =
    ⟨0x101, 0, 1, #v[1, 0, 0, 0, 0, 0, 0, 0], by decide⟩ := ⟨_, rfl⟩
  obtain ⟨second, hsecond⟩ : ∃ second : Frame, second =
    ⟨0x102, 0, 1, #v[2, 0, 0, 0, 0, 0, 0, 0], by decide⟩ := ⟨_, rfl⟩
  have hfollow : ∃ b m s, (Bus.make .ring "can0" {}).run {} = (.ok b, m) ∧
      (Site.advanceFar 0 Site.actions (Site.start ⟨b, m⟩ .connect).2).2 = s ∧ s.Quiet ∧
      s.bus.reception.frames = [] ∧
      (follow (fun w event => Faithful w event ∧ w.awaited.Sublist w.pending) { site := s }
        [.send first, .send second, .act 2, .act 3, .act 2, .act 3, .act 2, .act 3]).any (fun w =>
          w.awaited == [first.encode, second.encode] && w.pending == w.awaited && w.peers == [] &&
          (follow Swept w [.fill 0 ⟨4096, 128, 32, 2048⟩ [first.encode, second.encode],
            .run 1, .echo 1 0, .run 1, .run 1, .echo 1 0]).any (fun w' =>
              w'.awaited == [] && w'.peers == [] &&
              w'.recorded.length == w'.accepted.length)) = true := by
    subst hfirst hsecond
    refine ⟨_, _, _, rfl, rfl, ⟨rfl, rfl, rfl, rfl, rfl, ?_⟩, rfl, ?_⟩
    · exact List.forall_mem_singleton.mpr trivial
    · decide +kernel
  obtain ⟨b, m, s, hmake, hconnect, hquiet, hnone, hfollow⟩ := hfollow
  obtain ⟨w, hrun, hproperty⟩ := exists_run_of_follow hfollow
  simp only [Bool.and_eq_true, beq_iff_eq] at hproperty
  obtain ⟨⟨⟨hawaited, hpending⟩, hpeers⟩, hsweeps⟩ := hproperty
  obtain ⟨w', hswept, hproperty'⟩ := exists_run_of_follow hsweeps
  simp only [Bool.and_eq_true, beq_iff_eq] at hproperty'
  obtain ⟨⟨hawaited', hpeers'⟩, hlength⟩ := hproperty'
  have hfaithful : Run Faithful { site := s } w := hrun.mono fun _ _ hallowed => hallowed.1
  have hfaithful' : Run Faithful { site := s } w' := by
    refine hfaithful.trans (hswept.mono fun w event hallowed => ?_)
    cases event with
    | send | act => exact hallowed.elim
    | echo => exact hallowed
    | hear | other => trivial
  obtain ⟨hkept, hsettled, hordered⟩ := exact_iff hquiet
  have hexact := hkept w (hrun.mono fun _ _ hallowed => hallowed.2)
  have hexact' := (hsettled w w' hfaithful hexact hswept hawaited').mpr (by rw [hpending])
  have hsame := ((hordered w' hfaithful' hawaited' hlength).mp hexact').1
  refine ⟨b, m, s, w, w', first, second, hmake, hconnect, hquiet, hfaithful, hawaited, ?_,
    hswept, hawaited', ?_, hsame⟩
  · rw [hexact, hnone, hpeers]
    rfl
  · rw [hexact', hnone, hpeers']
    rfl

/-- A ring bus is made and connected. Two sends remember their records one after the other, and
write them the other way round: the first frame comes back to the bus's own listener. -/
theorem not_exact_of_overtaking : ∃ b m s w, ∃ first second : Frame,
    (Bus.make .ring "can0" {}).run {} = (.ok b, m) ∧
    (Site.advanceFar 0 Site.actions (Site.start ⟨b, m⟩ .connect).2).2 = s ∧ s.Quiet ∧
    Run Faithful { site := s } w ∧ w.recorded = [first.encode, second.encode] ∧
    w.accepted = [second.encode, first.encode] ∧ w.echoed = w.accepted ∧ w.peers = [] ∧
    w.crowded = false ∧ w.frames = [first] := by
  obtain ⟨first, hfirst⟩ : ∃ first : Frame, first =
    ⟨0x101, 0, 1, #v[1, 0, 0, 0, 0, 0, 0, 0], by decide⟩ := ⟨_, rfl⟩
  obtain ⟨second, hsecond⟩ : ∃ second : Frame, second =
    ⟨0x102, 0, 1, #v[2, 0, 0, 0, 0, 0, 0, 0], by decide⟩ := ⟨_, rfl⟩
  have hfollow : ∃ b m s, (Bus.make .ring "can0" {}).run {} = (.ok b, m) ∧
      (Site.advanceFar 0 Site.actions (Site.start ⟨b, m⟩ .connect).2).2 = s ∧ s.Quiet ∧
      (follow Faithful { site := s } [.send first, .send second, .act 2, .act 3, .act 2, .act 3,
        .act 3, .act 2, .fill 0 ⟨4096, 128, 32, 2048⟩ [second.encode, first.encode],
        .run 1, .echo 1 0, .run 1, .run 1, .echo 1 0]).any (fun w =>
          w.recorded == [first.encode, second.encode] &&
          w.accepted == [second.encode, first.encode] && w.echoed == w.accepted &&
          w.peers == [] && w.crowded == false && w.frames == [first]) = true := by
    subst hfirst hsecond
    refine ⟨_, _, _, rfl, rfl, ⟨rfl, rfl, rfl, rfl, rfl, ?_⟩, ?_⟩
    · exact List.forall_mem_singleton.mpr trivial
    · decide +kernel
  obtain ⟨b, m, s, hmake, hconnect, hquiet, hfollow⟩ := hfollow
  obtain ⟨w, hrun, hproperty⟩ := exists_run_of_follow hfollow
  simp only [Bool.and_eq_true, beq_iff_eq] at hproperty
  obtain ⟨⟨⟨⟨⟨hrecorded, haccepted⟩, hechoed⟩, hpeers⟩, hroom⟩, hframes⟩ := hproperty
  exact ⟨b, m, s, w, first, second, hmake, hconnect, hquiet, hrun, hrecorded, haccepted, hechoed,
    hpeers, hroom, hframes⟩

end Exchange

end CanTransport
