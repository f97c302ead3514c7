import CanTransport.Proofs.Ring.Handover
import CanTransport.Proofs.Ring.Tiling
import Mathlib.Data.Nat.Find
/-!
# What a sweep does

A sweep takes the slots of the reader in a row from its cursor on, and gives them back. A slot that
was given back is not met again, because a sweep goes round at most once; so everything that the
sweep hands on and remembers can be told from the region as it was before. What it wrote are the
status words of these slots, and what it looked at is no more than these slots and the status word
of the next.
-/

namespace CanTransport

namespace Memory

theorem read_writeNumber_zero (m : Memory) (a width x : Nat) (h : a + width ≤ m.size) :
    (m.writeNumber a width 0).read x = if a ≤ x ∧ x < a + width then 0 else m.read x := by
  induction width generalizing m a with
  | zero => rw [if_neg (by omega), writeNumber]
  | succ width ih =>
    rw [writeNumber, Nat.zero_div, ih _ _ (by rw [size_write]; omega)]
    by_cases hx : a = x
    · subst hx
      rw [if_neg (by omega), if_pos (by omega), read_write_same _ _ (by omega)]
      rfl
    · rw [read_write_ne _ _ hx]
      exact if_congr (by omega) rfl rfl

theorem readNumber_eq_zero {m : Memory} {a width : Nat}
    (h : ∀ x, a ≤ x → x < a + width → m.read x = 0) : m.readNumber a width = 0 := by
  induction width generalizing a with
  | zero => rfl
  | succ width ih =>
    rw [readNumber, h a (by omega) (by omega), ih fun x hx hlt => h x (by omega) (by omega)]
    rfl

end Memory

namespace Geometry

variable {g : Geometry} {m m' : Memory} {cursor n i : Nat}

/-- The slots of a region of exact size lie inside it. -/
theorem fits_of_ofRegion {ring : RingConfig} {base length : Nat}
    (h : ofRegion base length ring = .ok g) (hbytes : ring.bytes < 2 ^ 64)
    (hcount : 0 < g.slotCount) : g.Fits length := by
  have hconfig := ofConfig_of_ofRegion h
  unfold ofConfig at hconfig
  split at hconfig
  · cases hconfig
  rename_i hfit
  simp only [not_or, Nat.not_lt, headerSize] at hfit
  obtain ⟨hslot, hper, hlength⟩ := hfit
  injection hconfig with hg
  subst hg
  have hregion : ring.regionSize.toNat = ring.bytes := by
    rw [RingConfig.bytes] at hbytes ⊢
    rw [RingConfig.regionSize, UInt64.toNat_mul, Nat.mod_eq_of_lt hbytes]
  have hslots : ring.framesPerBlock.toNat * ring.blockCount.toNat < 2 ^ 64 := by
    rw [RingConfig.framesPerBlock_toNat]
    exact (Nat.mul_le_mul_right _ (Nat.div_le_self _ _)).trans_lt hbytes
  refine ⟨Nat.pos_of_ne_zero fun h0 => hper (UInt64.toNat.inj h0), hcount, hslot, ?_,
    ring.blockCount.toNat, ?_, ?_⟩
  · show ring.framesPerBlock.toNat * ring.frameSize.toNat ≤ ring.blockSize.toNat
    rw [RingConfig.framesPerBlock_toNat]
    exact Nat.div_mul_le_self _ _
  · show ring.frameCount.toNat = _
    rw [RingConfig.frameCount, UInt64.toNat_mul, Nat.mod_eq_of_lt hslots]
  · rw [hregion] at hlength
    exact hlength

/-! ## The slots in a row -/

/-- Whether a slot says that packets were lost before it. -/
def losing (g : Geometry) (m : Memory) (i : Nat) : Bool :=
  Slot.hasBit (Slot.status m (g.offset i)) Slot.losingBit

/-- How many slots in a row belong to the reader, from a cursor on; at most all of them. -/
def ready (g : Geometry) (m : Memory) (cursor : Nat) : Nat :=
  Nat.findGreatest (fun n => ∀ i < n, g.owned m (cursor + i) = true) g.slotCount

theorem ready_le (g : Geometry) (m : Memory) (cursor : Nat) : g.ready m cursor ≤ g.slotCount :=
  Nat.findGreatest_le _

theorem ready_eq_iff : g.ready m cursor = n ↔ n ≤ g.slotCount ∧
    (∀ i < n, g.owned m (cursor + i) = true) ∧
    (n < g.slotCount → g.owned m (cursor + n) = false) := by
  rw [ready, Nat.findGreatest_eq_iff]
  refine and_congr_right fun hle => ⟨fun ⟨howned, hmore⟩ => ?_, fun ⟨howned, hnext⟩ => ?_⟩
  · have hrow : ∀ i < n, g.owned m (cursor + i) = true := by
      intro i hi
      exact howned (by omega) i hi
    refine ⟨hrow, fun hlt => ?_⟩
    by_contra hnext
    refine hmore (Nat.lt_succ_self n) hlt fun i hi => ?_
    rcases Nat.lt_or_eq_of_le (Nat.le_of_lt_succ hi) with hlt' | rfl
    · exact hrow i hlt'
    · simpa using hnext
  · refine ⟨fun _ => howned, fun k hk hkle hrow => ?_⟩
    have hfree := hnext (Nat.lt_of_lt_of_le hk hkle)
    rw [hrow n hk] at hfree
    cases hfree

theorem owned_of_lt_ready (h : i < g.ready m cursor) : g.owned m (cursor + i) = true :=
  (ready_eq_iff.mp rfl).2.1 i h

theorem owned_ready (h : g.ready m cursor < g.slotCount) :
    g.owned m (cursor + g.ready m cursor) = false :=
  (ready_eq_iff.mp rfl).2.2 h

theorem losing_mod (g : Geometry) (m : Memory) (i : Nat) :
    g.losing m (i % g.slotCount) = g.losing m i := by
  simp only [losing, offset_mod]

theorem losing_setStatus_ne (h : g.Fits m.size) {i j : Nat} (status : Nat)
    (hne : i % g.slotCount ≠ j % g.slotCount) :
    g.losing (Slot.setStatus m (g.offset i) status) j = g.losing m j := by
  have hslot := h.slot_ge
  have hdis := offset_disjoint h hne
  rw [losing, losing, Slot.status_congr]
  intro x hx hlt
  exact read_setStatus_of_outside h i status x (by omega)

/-! ## Slots that are given back -/

/-- The bytes of a status word. -/
def statusWord (g : Geometry) (i : Nat) : Set Nat := Set.Ico (g.offset i) (g.offset i + 4)

theorem statusWord_subset_slot {size : Nat} (h : g.Fits size) (i : Nat) :
    g.statusWord i ⊆ g.slot i := by
  have hslot := h.slot_ge
  exact Set.Ico_subset_Ico_right (by omega)

/-- The region after some slots in a row were given back. -/
def giveBack (g : Geometry) (m : Memory) (cursor : Nat) : Nat → Memory
  | 0 => m
  | n + 1 => giveBack g (Slot.setStatus m (g.offset cursor) 0) (cursor + 1) n

theorem size_giveBack (g : Geometry) (m : Memory) (cursor n : Nat) :
    (g.giveBack m cursor n).size = m.size := by
  induction n generalizing m cursor with
  | zero => rfl
  | succ n ih => rw [giveBack, ih, Slot.setStatus, Memory.size_writeNumber]

theorem read_giveBack_of_not_mem (h : g.Fits m.size) {x : Nat}
    (hx : ∀ i < n, x ∉ g.statusWord (cursor + i)) : (g.giveBack m cursor n).read x = m.read x := by
  induction n generalizing m cursor with
  | zero => rfl
  | succ n ih =>
    have hsize : (Slot.setStatus m (g.offset cursor) 0).size = m.size := Memory.size_writeNumber ..
    have hfirst := hx 0 (Nat.succ_pos n)
    rw [giveBack, ih (by rw [hsize]; exact h)]
    · apply Memory.read_writeNumber_of_outside
      rw [statusWord, Set.mem_Ico, Nat.add_zero] at hfirst
      omega
    · intro i hi
      rw [Nat.add_assoc, Nat.add_comm 1 i]
      exact hx (i + 1) (by omega)

theorem read_giveBack_of_mem (h : g.Fits m.size) {x : Nat} (hi : i < n)
    (hx : x ∈ g.statusWord (cursor + i)) : (g.giveBack m cursor n).read x = 0 := by
  induction n generalizing m cursor i with
  | zero => exact absurd hi (Nat.not_lt_zero i)
  | succ n ih =>
    have hsize : (Slot.setStatus m (g.offset cursor) 0).size = m.size := Memory.size_writeNumber ..
    have hfits : g.Fits (Slot.setStatus m (g.offset cursor) 0).size := by rw [hsize]; exact h
    rw [giveBack]
    by_cases hlater : ∃ j < n, x ∈ g.statusWord (cursor + 1 + j)
    · obtain ⟨j, hj, hx'⟩ := hlater
      exact ih hfits hj hx'
    · rw [read_giveBack_of_not_mem hfits fun j hj hx' => hlater ⟨j, hj, hx'⟩]
      cases i with
      | zero =>
        have hslot := h.slot_ge
        have hend := offset_add_le h cursor
        rw [Nat.add_zero, statusWord, Set.mem_Ico] at hx
        rw [Slot.setStatus, Memory.read_writeNumber_zero _ _ _ _ (by omega), if_pos hx]
      | succ i =>
        refine absurd ⟨i, by omega, ?_⟩ hlater
        rw [Nat.add_assoc, Nat.add_comm 1 i]
        exact hx

theorem status_giveBack (h : g.Fits m.size) (hi : i < n) :
    Slot.status (g.giveBack m cursor n) (g.offset (cursor + i)) = 0 :=
  Memory.readNumber_eq_zero fun _ hx hlt => read_giveBack_of_mem h hi ⟨hx, hlt⟩

/-- A slot that was not given back belongs to whom it did. -/
theorem owned_giveBack_of_ne (h : g.Fits m.size) {j : Nat}
    (hne : ∀ i < n, (cursor + i) % g.slotCount ≠ j % g.slotCount) :
    g.owned (g.giveBack m cursor n) j = g.owned m j := by
  have hslot := h.slot_ge
  rw [owned, owned, Slot.status_congr]
  intro x hx hlt
  apply read_giveBack_of_not_mem h
  intro i hi
  have hdis := offset_disjoint h (hne i hi)
  rw [statusWord, Set.mem_Ico]
  omega

theorem owned_giveBack (h : g.Fits m.size) (hi : i < n) :
    g.owned (g.giveBack m cursor n) (cursor + i) = false := by
  rw [owned, status_giveBack h hi]
  rfl

/-- Behind a sweep lies a slot of the other side, be it the one at which the sweep stopped or the
first one that it gave back. -/
theorem owned_behind (h : g.Fits m.size) :
    g.owned (g.giveBack m cursor (g.ready m cursor)) (cursor + g.ready m cursor) = false := by
  rcases Nat.lt_or_eq_of_le (g.ready_le m cursor) with hlt | heq
  · rw [owned_giveBack_of_ne h, owned_ready hlt]
    intro i hi
    exact Pending.add_mod_ne cursor (hi.trans hlt) hlt hi.ne
  · have hfirst : g.owned (g.giveBack m cursor g.slotCount) (cursor + 0) = false :=
      owned_giveBack h h.count_pos
    rw [heq, ← owned_mod, Nat.add_mod_right, owned_mod]
    exact hfirst

end Geometry

namespace Sweep

variable {g : Geometry} {m : Memory} {s : Sweep} {cursor n steps : Nat}

theorem look_of_owned (hturn : s.consumed < g.slotCount) (howned : g.owned m s.cursor = true) :
    s.look g m = some (g.packetAt m s.cursor,
      { s with losing := s.losing || g.losing m s.cursor }) := by
  rw [look, if_pos hturn]
  exact if_pos howned

theorem look_of_free (hfree : g.owned m s.cursor = false) : s.look g m = none := by
  unfold look
  split
  · apply if_neg
    show ¬ g.owned m s.cursor = true
    rw [hfree]
    exact Bool.false_ne_true
  · rfl

theorem consumed_look {s' : Sweep} {p : Option Slot.Packet} (h : s.look g m = some (p, s')) :
    s'.consumed = s.consumed := by
  unfold look at h
  split at h
  · simp only at h
    split at h
    · cases h
      rfl
    · cases h
  · cases h

/-- A sweep that has gone round, or that finds a slot of the other side, stops. -/
theorem run_of_free (hfree : 0 < steps → g.owned m s.cursor = false) :
    run g steps m s = ([], m, s) := by
  cases steps with
  | zero => rfl
  | succ steps => rw [run, look_of_free (hfree (Nat.succ_pos steps))]

theorem any_losing_congr {cursor' : Nat} {m' : Memory}
    (h : ∀ i < n, g.losing m' (cursor' + i) = g.losing m (cursor + i)) :
    ((List.range n).any fun i => g.losing m' (cursor' + i)) =
      (List.range n).any fun i => g.losing m (cursor + i) := by
  rw [Bool.eq_iff_iff, List.any_eq_true, List.any_eq_true]
  refine exists_congr fun i => and_congr_right fun hi => ?_
  rw [h i (List.mem_range.mp hi)]

/-- A sweep over slots in a row of the reader, behind which it has gone round or finds a slot of
the other side. The slots that it meets are as they were before the first of them was given back. -/
theorem run_eq (hfits : g.Fits m.size) (hcursor : s.cursor = cursor % g.slotCount)
    (hn : n ≤ steps) (hsteps : s.consumed + steps = g.slotCount)
    (howned : ∀ i < n, g.owned m (cursor + i) = true)
    (hfree : n < steps → g.owned m (cursor + n) = false) :
    run g steps m s = ((List.range n).map fun i => g.packetAt m (cursor + i),
      g.giveBack m cursor n,
      { cursor := (cursor + n) % g.slotCount
        consumed := s.consumed + n
        losing := s.losing || (List.range n).any fun i => g.losing m (cursor + i) }) := by
  induction n generalizing steps m s cursor with
  | zero =>
    have hsame : s = ⟨(cursor + 0) % g.slotCount, s.consumed + 0, s.losing || false⟩ := by
      rw [Nat.add_zero, ← hcursor, Nat.add_zero, Bool.or_false]
    rw [run_of_free]
    · exact Prod.ext rfl (Prod.ext rfl hsame)
    · rw [hcursor, Geometry.owned_mod]
      exact hfree
  | succ n ih =>
    obtain ⟨steps, rfl⟩ : ∃ k, steps = k + 1 := ⟨steps - 1, by omega⟩
    have hlook := look_of_owned (m := m) (s := s) (g := g) (by omega) (by
      rw [hcursor, Geometry.owned_mod]
      exact howned 0 (Nat.succ_pos n))
    -- the slots that are still to come are others than the one that is given back
    have hne : ∀ i < n, cursor % g.slotCount ≠ (cursor + 1 + i) % g.slotCount := by
      intro i hi
      rw [Nat.add_assoc, Nat.add_comm 1 i]
      exact Pending.add_mod_ne (i := 0) cursor (by omega) (by omega) (by omega)
    have hrest : ∀ i, cursor + 1 + i = cursor + (i + 1) := by
      intro i
      omega
    have hsize : (Slot.setStatus m (g.offset cursor) 0).size = m.size := Memory.size_writeNumber ..
    have hlosing : ((List.range n).any fun i =>
          g.losing (Slot.setStatus m (g.offset cursor) 0) (cursor + 1 + i)) =
        (List.range n).any fun i => g.losing m (cursor + 1 + i) :=
      any_losing_congr fun i hi => Geometry.losing_setStatus_ne hfits 0 (hne i hi)
    rw [run, hlook]
    simp only
    rw [release, base, hcursor, Geometry.offset_mod,
      @ih _ _ (cursor + 1) steps (by rw [hsize]; exact hfits)]
    · refine Prod.ext ?_ (Prod.ext rfl ?_)
      · simp only [List.range_succ_eq_map, List.map_cons, List.map_map, Geometry.packetAt_mod,
          Geometry.packetAt_setStatus hfits]
        simp only [Function.comp_def, hrest, Nat.succ_eq_add_one, Nat.add_zero]
      · simp only [advance, Geometry.losing_mod, hlosing, List.range_succ_eq_map, List.any_cons,
          List.any_map, Function.comp_def, Nat.succ_eq_add_one, Nat.add_zero, Bool.or_assoc]
        simp only [hrest]
        rw [Nat.add_assoc, Nat.add_comm 1 n]
    · simp only [advance, Nat.mod_add_mod]
    · omega
    · simp only [advance]
      omega
    · intro i hi
      rw [Geometry.owned_setStatus_ne hfits cursor 0 (hne i hi), hrest]
      exact howned (i + 1) (by omega)
    · intro hlt
      rw [Geometry.owned_setStatus_ne hfits cursor 0, hrest]
      · exact hfree (by omega)
      · rw [hrest]
        exact Pending.add_mod_ne (i := 0) cursor (by omega) (by omega) (by omega)

end Sweep

/-- A whole sweep, told from the region as it was before. -/
theorem sweep_eq {g : Geometry} {m : Memory} {cursor : Nat} (hfits : g.Fits m.size)
    (hcursor : cursor < g.slotCount) :
    sweep g m cursor =
      ((List.range (g.ready m cursor)).map fun i => g.packetAt m (cursor + i),
        g.giveBack m cursor (g.ready m cursor),
        { cursor := (cursor + g.ready m cursor) % g.slotCount
          consumed := g.ready m cursor
          losing := (List.range (g.ready m cursor)).any fun i => g.losing m (cursor + i) }) := by
  have hrun := Sweep.run_eq (s := { cursor }) hfits (Nat.mod_eq_of_lt hcursor).symm
    (g.ready_le m cursor) (Nat.zero_add _) (fun i hi => Geometry.owned_of_lt_ready hi)
    (fun hlt => Geometry.owned_ready hlt)
  rw [Nat.zero_add, Bool.false_or] at hrun
  exact hrun

namespace Geometry

variable {g : Geometry} {m m' : Memory} {cursor : Nat}

/-- What a sweep from a cursor makes of a region: it hands on the packets of the slots in a row of
the reader, writes their status words and nothing else, and comes to rest behind them. -/
structure Swept (g : Geometry) (m : Memory) (cursor : Nat) (packets : List (Option Slot.Packet))
    (m' : Memory) (s : Sweep) : Prop where
  packets_eq : packets = (List.range (g.ready m cursor)).map fun i => g.packetAt m (cursor + i)
  size_eq : m'.size = m.size
  status_eq : ∀ i < g.ready m cursor, Slot.status m' (g.offset (cursor + i)) = 0
  read_eq : ∀ a, (∀ i < g.ready m cursor, a ∉ g.statusWord (cursor + i)) → m'.read a = m.read a
  cursor_eq : s.cursor = (cursor + g.ready m cursor) % g.slotCount
  consumed_eq : s.consumed = g.ready m cursor
  losing_iff : s.losing = true ↔ ∃ i < g.ready m cursor, g.losing m (cursor + i) = true

theorem swept (hfits : g.Fits m.size) (hcursor : cursor < g.slotCount) :
    g.Swept m cursor (sweep g m cursor).1 (sweep g m cursor).2.1 (sweep g m cursor).2.2 := by
  rw [sweep_eq hfits hcursor]
  refine ⟨rfl, size_giveBack .., fun i hi => status_giveBack hfits hi,
    fun a ha => read_giveBack_of_not_mem hfits ha, rfl, rfl, ?_⟩
  simp only [List.any_eq_true, List.mem_range]

/-- Another sweep at once finds nothing. -/
theorem sweep_again (hfits : g.Fits m.size) (hcursor : cursor < g.slotCount) :
    sweep g (sweep g m cursor).2.1 (sweep g m cursor).2.2.cursor =
      ([], (sweep g m cursor).2.1, { cursor := (sweep g m cursor).2.2.cursor }) := by
  rw [sweep_eq hfits hcursor]
  simp only
  have hfits' : g.Fits (g.giveBack m cursor (g.ready m cursor)).size := by
    rw [size_giveBack]
    exact hfits
  have hcursor' := Nat.mod_lt (cursor + g.ready m cursor) hfits.count_pos
  have hnone : g.ready (g.giveBack m cursor (g.ready m cursor))
      ((cursor + g.ready m cursor) % g.slotCount) = 0 := by
    refine ready_eq_iff.mpr ⟨Nat.zero_le _, fun i hi => absurd hi (Nat.not_lt_zero i), fun _ => ?_⟩
    rw [Nat.add_zero, owned_mod]
    exact owned_behind hfits
  rw [sweep_eq hfits' hcursor', hnone]
  simp only [List.range_zero, List.map_nil, List.any_nil, giveBack, Nat.add_zero, Nat.mod_mod]

/-! ## What a sweep looks at -/

/-- The bytes that a sweep looks at: its slots, and the status word of the slot at which it
stops. -/
def visible (g : Geometry) (m : Memory) (cursor : Nat) : Set Nat :=
  (⋃ i ∈ Set.Iio (g.ready m cursor), g.slot (cursor + i)) ∪
    {a | g.ready m cursor < g.slotCount ∧ a ∈ g.statusWord (cursor + g.ready m cursor)}

theorem slot_subset_visible {i : Nat} (hi : i < g.ready m cursor) :
    g.slot (cursor + i) ⊆ g.visible m cursor :=
  fun _ ha => Or.inl (Set.mem_biUnion (Set.mem_Iio.mpr hi) ha)

theorem status_congr {i : Nat} (h : Set.EqOn m'.read m.read (g.statusWord i)) :
    Slot.status m' (g.offset i) = Slot.status m (g.offset i) :=
  Slot.status_congr fun _ hx hlt => h ⟨hx, hlt⟩

section EqOn

variable (hfits : g.Fits m.size) (h : Set.EqOn m'.read m.read (g.visible m cursor))
include hfits h

theorem status_eq_of_eqOn {i : Nat} (hi : i < g.ready m cursor) :
    Slot.status m' (g.offset (cursor + i)) = Slot.status m (g.offset (cursor + i)) :=
  status_congr (h.mono ((statusWord_subset_slot hfits _).trans (slot_subset_visible hi)))

theorem packetAt_eq_of_eqOn {i : Nat} (hi : i < g.ready m cursor) :
    g.packetAt m' (cursor + i) = g.packetAt m (cursor + i) :=
  Slot.packet?_congr hfits.slot_ge fun _ hx hlt =>
    h (slot_subset_visible hi ⟨by omega, hlt⟩)

theorem ready_eq_of_eqOn : g.ready m' cursor = g.ready m cursor := by
  refine ready_eq_iff.mpr ⟨g.ready_le m cursor, fun i hi => ?_, fun hlt => ?_⟩
  · rw [owned, status_eq_of_eqOn hfits h hi]
    exact owned_of_lt_ready hi
  · have hstatus : Slot.status m' (g.offset (cursor + g.ready m cursor)) =
        Slot.status m (g.offset (cursor + g.ready m cursor)) :=
      status_congr (h.mono fun a ha => Or.inr ⟨hlt, ha⟩)
    rw [owned, hstatus]
    exact owned_ready hlt

/-- Whatever else lies in a region, a sweep hands on and remembers the same. -/
theorem sweep_eq_of_eqOn (hsize : m'.size = m.size) (hcursor : cursor < g.slotCount) :
    (sweep g m' cursor).1 = (sweep g m cursor).1 ∧
      (sweep g m' cursor).2.2 = (sweep g m cursor).2.2 := by
  have hready := ready_eq_of_eqOn hfits h
  rw [sweep_eq hfits hcursor, sweep_eq (by rw [hsize]; exact hfits) hcursor, hready]
  refine ⟨List.map_congr_left fun i hi => ?_, ?_⟩
  · exact packetAt_eq_of_eqOn hfits h (List.mem_range.mp hi)
  · have hlosing : ((List.range (g.ready m cursor)).any fun i => g.losing m' (cursor + i)) =
        (List.range (g.ready m cursor)).any fun i => g.losing m (cursor + i) := by
      refine Sweep.any_losing_congr fun i hi => ?_
      rw [losing, status_eq_of_eqOn hfits h hi, losing]
    rw [hlosing]

end EqOn

end Geometry

end CanTransport
