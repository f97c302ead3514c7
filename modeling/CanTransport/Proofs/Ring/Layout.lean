import CanTransport.Ring.Geometry
import Mathlib.Tactic.Ring
import Mathlib.Tactic.SplitIfs
/-!
# Slots of a region

A configuration that passes validation and fits a ring request is cut into slots that lie inside
the region and apart from each other. The numbers are words of 64 bits, but nothing overflows:
each side of every product fits the 32 bits of the request.
-/

namespace CanTransport

/-- The slots of a geometry lie inside `size` bytes, block by block. -/
structure Geometry.Fits (g : Geometry) (size : Nat) : Prop where
  perBlock_pos : 0 < g.slotsPerBlock
  count_pos : 0 < g.slotCount
  slot_ge : 48 ≤ g.slotSize
  block_le : g.slotsPerBlock * g.slotSize ≤ g.blockSize
  blocks : ∃ n, g.slotCount = g.slotsPerBlock * n ∧ g.blockSize * n ≤ size

namespace Geometry

variable {g : Geometry} {size : Nat}

theorem offset_mod (g : Geometry) (i : Nat) : g.offset (i % g.slotCount) = g.offset i := by
  simp only [offset, Nat.mod_mod]

/-- A slot ends before the next one of its block starts, and before the block ends. -/
theorem slot_le_block (h : g.Fits size) (i : Nat) :
    i % g.slotsPerBlock * g.slotSize + g.slotSize ≤ g.blockSize := by
  have hlt : i % g.slotsPerBlock < g.slotsPerBlock := Nat.mod_lt _ h.perBlock_pos
  calc i % g.slotsPerBlock * g.slotSize + g.slotSize
      = (i % g.slotsPerBlock + 1) * g.slotSize := by ring
    _ ≤ g.slotsPerBlock * g.slotSize := Nat.mul_le_mul_right _ hlt
    _ ≤ g.blockSize := h.block_le

theorem offset_add_le (h : g.Fits size) (i : Nat) : g.offset i + g.slotSize ≤ size := by
  obtain ⟨n, hcount, hsize⟩ := h.blocks
  have hi : i % g.slotCount < g.slotsPerBlock * n := hcount ▸ Nat.mod_lt i h.count_pos
  have hq : i % g.slotCount / g.slotsPerBlock < n := Nat.div_lt_of_lt_mul hi
  have hslot := slot_le_block h (i % g.slotCount)
  have hblock : (i % g.slotCount / g.slotsPerBlock + 1) * g.blockSize ≤ n * g.blockSize :=
    Nat.mul_le_mul_right _ hq
  rw [Nat.mul_comm n, Nat.add_mul] at hblock
  simp only [offset]
  omega

theorem offset_lt_of_lt (h : g.Fits size) {i j : Nat} (hlt : i < j) (hj : j < g.slotCount) :
    g.offset i + g.slotSize ≤ g.offset j := by
  have hi := slot_le_block h i
  simp only [offset, Nat.mod_eq_of_lt hj, Nat.mod_eq_of_lt (Nat.lt_trans hlt hj)]
  have hdi := Nat.div_add_mod i g.slotsPerBlock
  have hdj := Nat.div_add_mod j g.slotsPerBlock
  rcases Nat.lt_or_ge (i / g.slotsPerBlock) (j / g.slotsPerBlock) with hq | hq
  · have hblock : (i / g.slotsPerBlock + 1) * g.blockSize ≤ j / g.slotsPerBlock * g.blockSize :=
      Nat.mul_le_mul_right _ hq
    rw [Nat.add_mul] at hblock
    omega
  · have heq : i / g.slotsPerBlock = j / g.slotsPerBlock :=
      Nat.le_antisymm (Nat.div_le_div_right hlt.le) hq
    have hr : i % g.slotsPerBlock + 1 ≤ j % g.slotsPerBlock := by
      rw [heq] at hdi
      omega
    have hslots : (i % g.slotsPerBlock + 1) * g.slotSize ≤ j % g.slotsPerBlock * g.slotSize :=
      Nat.mul_le_mul_right _ hr
    rw [heq]
    rw [Nat.add_mul] at hslots
    omega

/-- Different slots share no byte. -/
theorem offset_disjoint (h : g.Fits size) {i j : Nat}
    (hne : i % g.slotCount ≠ j % g.slotCount) :
    g.offset i + g.slotSize ≤ g.offset j ∨ g.offset j + g.slotSize ≤ g.offset i := by
  rw [← offset_mod g i, ← offset_mod g j]
  have hi := Nat.mod_lt i h.count_pos
  have hj := Nat.mod_lt j h.count_pos
  rcases Nat.lt_or_gt_of_ne hne with hlt | hgt
  · exact Or.inl (offset_lt_of_lt h hlt hj)
  · exact Or.inr (offset_lt_of_lt h hgt hi)

end Geometry

theorem RingRequest.field_eq_ok {name : String} {n : UInt64} {w : UInt32}
    (h : RingRequest.field name n = .ok w) : n.toNat < 2 ^ 32 ∧ w.toNat = n.toNat := by
  unfold RingRequest.field at h
  split at h
  · rename_i hlt
    injection h with h
    subst h
    exact ⟨hlt, UInt32.toNat_ofNat_of_lt' hlt⟩
  · cases h

namespace RingConfig

/-- What a request that is made says about the configuration. -/
theorem request_eq_ok {ring : RingConfig} {req : RingRequest} (h : ring.request = .ok req) :
    (ring.blockSize.toNat < 2 ^ 32 ∧ req.blockSize.toNat = ring.blockSize.toNat) ∧
    (ring.blockCount.toNat < 2 ^ 32 ∧ req.blockCount.toNat = ring.blockCount.toNat) ∧
    (ring.frameSize.toNat < 2 ^ 32 ∧ req.slotSize.toNat = ring.frameSize.toNat) ∧
    (ring.frameCount.toNat < 2 ^ 32 ∧ req.slotCount.toNat = ring.frameCount.toNat) := by
  unfold request at h
  cases hb : RingRequest.field "block_size" ring.blockSize with
  | error e => rw [hb] at h; cases h
  | ok b =>
  cases hn : RingRequest.field "block_count" ring.blockCount with
  | error e => rw [hb, hn] at h; cases h
  | ok n =>
  cases hf : RingRequest.field "frame_size" ring.frameSize with
  | error e => rw [hb, hn, hf] at h; cases h
  | ok f =>
  cases hc : RingRequest.field "frame_count" ring.frameCount with
  | error e => rw [hb, hn, hf, hc] at h; cases h
  | ok c =>
  rw [hb, hn, hf, hc] at h
  cases h
  exact ⟨RingRequest.field_eq_ok hb, RingRequest.field_eq_ok hn, RingRequest.field_eq_ok hf,
    RingRequest.field_eq_ok hc⟩

/-- What validation says about the sizes. -/
theorem validate_eq_ok {ring : RingConfig} (h : ring.validate = .ok ()) :
    0 < ring.blockSize.toNat ∧ 0 < ring.blockCount.toNat ∧ 96 ≤ ring.frameSize.toNat ∧
      ring.frameSize.toNat ∣ ring.blockSize.toNat := by
  unfold validate at h
  split at h
  · cases h
  rename_i hblock
  split at h
  · cases h
  rename_i hcount
  split at h
  · cases h
  rename_i hslot
  split at h
  · cases h
  rename_i hdvd
  have hmod : ring.blockSize.toNat % ring.frameSize.toNat = 0 := by
    rw [← UInt64.toNat_mod, not_not.mp hdvd]
    rfl
  have hge : ¬ ring.frameSize < minSlotSize := fun hlt => hslot (Or.inl hlt)
  have hge' : 96 ≤ ring.frameSize.toNat := by
    have := UInt64.lt_iff_toNat_lt.not.mp hge
    simpa [minSlotSize] using this
  refine ⟨Nat.pos_of_ne_zero fun h0 => ?_, Nat.pos_of_ne_zero fun h0 => ?_, hge',
    Nat.dvd_of_mod_eq_zero hmod⟩
  · exact hblock (Or.inl (UInt64.toNat.inj h0))
  · exact hcount (UInt64.toNat.inj h0)

theorem validate_of_valid {c : BusConfig} (h : c.validate = .ok ()) : c.ring.validate = .ok () := by
  unfold BusConfig.validate at h
  split_ifs at h
  exact h

variable {ring : RingConfig} {req : RingRequest}

theorem framesPerBlock_toNat (ring : RingConfig) :
    ring.framesPerBlock.toNat = ring.blockSize.toNat / ring.frameSize.toNat := by
  rw [framesPerBlock, UInt64.toNat_div]

/-- Factors of 32 bits have a product of 64 bits. -/
theorem mul_lt_of_lt {a b : Nat} (ha : a < 2 ^ 32) (hb : b < 2 ^ 32) : a * b < 2 ^ 64 :=
  calc a * b < 2 ^ 32 * 2 ^ 32 := Nat.mul_lt_mul'' ha hb
    _ = 2 ^ 64 := by norm_num

theorem frameCount_toNat (hblock : ring.blockSize.toNat < 2 ^ 32)
    (hcount : ring.blockCount.toNat < 2 ^ 32) :
    ring.frameCount.toNat = ring.framesPerBlock.toNat * ring.blockCount.toNat := by
  have hper : ring.framesPerBlock.toNat < 2 ^ 32 := by
    rw [framesPerBlock_toNat]
    exact (Nat.div_le_self _ _).trans_lt hblock
  rw [frameCount, UInt64.toNat_mul, Nat.mod_eq_of_lt (mul_lt_of_lt hper hcount)]

end RingConfig

namespace Geometry

variable {ring : RingConfig} {req : RingRequest} {g : Geometry} {base length : Nat}

/-- Where a region lies does not change its geometry. -/
theorem ofConfig_of_ofRegion (h : ofRegion base length ring = .ok g) :
    ofConfig ring length = .ok g := by
  unfold ofRegion at h
  split_ifs at h
  exact h

/-- The slots of a valid configuration lie inside the region that is requested for it. -/
theorem fits_of_ofConfig (hvalid : ring.validate = .ok ()) (hreq : ring.request = .ok req)
    (h : ofConfig ring length = .ok g) :
    g.Fits (req.blockSize.toNat * req.blockCount.toNat) := by
  obtain ⟨hblock, hcount, hslot, hdvd⟩ := RingConfig.validate_eq_ok hvalid
  obtain ⟨⟨hblock', hb⟩, ⟨hcount', hn⟩, -, -⟩ := RingConfig.request_eq_ok hreq
  have hframes := RingConfig.frameCount_toNat hblock' hcount'
  have hper : 0 < ring.framesPerBlock.toNat := by
    rw [RingConfig.framesPerBlock_toNat]
    exact Nat.div_pos (Nat.le_of_dvd hblock hdvd) (by omega)
  unfold ofConfig at h
  split at h
  · cases h
  injection h with h
  subst h
  refine ⟨hper, ?_, by show 48 ≤ ring.frameSize.toNat; omega, ?_,
    ring.blockCount.toNat, hframes, ?_⟩
  · show 0 < ring.frameCount.toNat
    rw [hframes]
    exact Nat.mul_pos hper hcount
  · show ring.framesPerBlock.toNat * ring.frameSize.toNat ≤ ring.blockSize.toNat
    rw [RingConfig.framesPerBlock_toNat]
    exact Nat.div_mul_le_self _ _
  · rw [hb, hn]

/-- A valid configuration that can be requested has a geometry. -/
theorem exists_ofConfig (hvalid : ring.validate = .ok ()) (hreq : ring.request = .ok req) :
    ∃ g, ofConfig ring ring.regionSize.toNat = .ok g ∧
      g.Fits (req.blockSize.toNat * req.blockCount.toNat) := by
  obtain ⟨hblock, -, hslot, hdvd⟩ := RingConfig.validate_eq_ok hvalid
  have hper : ring.framesPerBlock ≠ 0 := by
    intro h0
    have hpos : 0 < ring.framesPerBlock.toNat := by
      rw [RingConfig.framesPerBlock_toNat]
      exact Nat.div_pos (Nat.le_of_dvd hblock hdvd) (by omega)
    rw [h0] at hpos
    exact absurd hpos (by decide)
  have hok : ¬ (ring.frameSize.toNat < headerSize + 16 ∨ ring.framesPerBlock = 0
      ∨ ring.regionSize.toNat < ring.regionSize.toNat) := by
    rintro (h | h | h)
    · have : headerSize = 32 := rfl
      omega
    · exact hper h
    · exact Nat.lt_irrefl _ h
  refine ⟨_, if_neg hok, fits_of_ofConfig hvalid hreq (if_neg hok)⟩

end Geometry

end CanTransport
