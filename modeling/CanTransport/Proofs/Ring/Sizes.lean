import CanTransport.Proofs.Ring.Tiling
/-!
# Derived sizes

The number of slots and the number of bytes of a ring are products of two words, and a product
wraps. Validation looks at the factors one by one and for divisibility, never at a product: which
block count it is given makes no difference to it, as long as there is a block at all. So a valid
configuration has the sizes it says exactly when its bytes can be counted in a word, and every
valid configuration becomes one with wrong sizes when it is given enough blocks. What can be
requested is never among those.
-/

namespace CanTransport

namespace RingConfig

variable {ring : RingConfig} {req : RingRequest}

/-- There is a slot in every block, the derived sizes are the true ones, and they agree. -/
structure Exact (ring : RingConfig) : Prop where
  framesPerBlock_pos : 1 ≤ ring.framesPerBlock.toNat
  slots_lt : ring.slots < 2 ^ 64
  bytes_lt : ring.bytes < 2 ^ 64
  frameCount_eq : ring.frameCount.toNat = ring.slots
  regionSize_eq : ring.regionSize.toNat = ring.bytes
  slots_bytes : ring.regionSize.toNat = ring.frameCount.toNat * ring.frameSize.toNat

theorem frameCount_toNat_mod (ring : RingConfig) : ring.frameCount.toNat = ring.slots % 2 ^ 64 := by
  rw [frameCount, UInt64.toNat_mul, framesPerBlock_toNat, slots]

theorem regionSize_toNat_mod (ring : RingConfig) : ring.regionSize.toNat = ring.bytes % 2 ^ 64 := by
  rw [regionSize, UInt64.toNat_mul, bytes]

theorem frameCount_eq_slots_iff : ring.frameCount.toNat = ring.slots ↔ ring.slots < 2 ^ 64 := by
  rw [frameCount_toNat_mod, Nat.mod_eq_iff_lt (by norm_num)]

theorem regionSize_eq_bytes_iff : ring.regionSize.toNat = ring.bytes ↔ ring.bytes < 2 ^ 64 := by
  rw [regionSize_toNat_mod, Nat.mod_eq_iff_lt (by norm_num)]

/-- A valid ring has a slot in every block. -/
theorem one_le_framesPerBlock (hvalid : ring.validate = .ok ()) :
    1 ≤ ring.framesPerBlock.toNat := by
  obtain ⟨hblock, -, hslot, hdvd⟩ := validate_eq_ok hvalid
  rw [framesPerBlock_toNat]
  exact Nat.div_pos (Nat.le_of_dvd hblock hdvd) (by omega)

/-- The derived sizes of a valid ring agree as words, also when both have wrapped. -/
theorem regionSize_eq_mul (hvalid : ring.validate = .ok ()) :
    ring.regionSize = ring.frameCount * ring.frameSize := by
  obtain ⟨-, -, -, hdvd⟩ := validate_eq_ok hvalid
  apply UInt64.toNat.inj
  calc ring.regionSize.toNat = ring.slots * ring.frameSize.toNat % 2 ^ 64 := by
        rw [regionSize_toNat_mod, slots_mul hdvd]
    _ = ring.slots % 2 ^ 64 * ring.frameSize.toNat % 2 ^ 64 := (Nat.mod_mul_mod _ _ _).symm
    _ = (ring.frameCount * ring.frameSize).toNat := by
        rw [UInt64.toNat_mul, frameCount_toNat_mod]

/-- A region has no more slots than bytes. -/
theorem slots_le_bytes (ring : RingConfig) : ring.slots ≤ ring.bytes :=
  Nat.mul_le_mul_right _ (Nat.div_le_self _ _)

/-- The sizes of a valid ring are exact when its bytes can be counted in a word. -/
theorem exact_iff_bytes_lt (hvalid : ring.validate = .ok ()) :
    ring.Exact ↔ ring.bytes < 2 ^ 64 := by
  refine ⟨Exact.bytes_lt, fun hbytes => ?_⟩
  obtain ⟨-, -, -, hdvd⟩ := validate_eq_ok hvalid
  have hslots : ring.slots < 2 ^ 64 := ring.slots_le_bytes.trans_lt hbytes
  have hframes := frameCount_eq_slots_iff.mpr hslots
  have hregion := regionSize_eq_bytes_iff.mpr hbytes
  refine ⟨one_le_framesPerBlock hvalid, hslots, hbytes, hframes, hregion, ?_⟩
  rw [hregion, hframes, slots_mul hdvd]

/-- What is requested from the kernel has exact sizes. -/
theorem Requested.exact (h : ring.Requested req) (hvalid : ring.validate = .ok ()) : ring.Exact :=
  (exact_iff_bytes_lt hvalid).mpr h.bytes_lt

/-- Validation does not look at the block count, but for there being one. -/
theorem validate_blockCount (hvalid : ring.validate = .ok ()) {n : UInt64} (hn : n ≠ 0) :
    { ring with blockCount := n }.validate = .ok () := by
  unfold validate at hvalid ⊢
  split_ifs at hvalid with hblock hcount hslot hdvd hinterval
  simp only [if_neg hblock, if_neg hn, if_neg hslot, if_neg hdvd, if_neg hinterval]

/-- A block has at least a slot's 96 bytes, so that this many of them are too many. -/
theorem not_exact_blockCount (hvalid : ring.validate = .ok ()) :
    ¬ { ring with blockCount := 0xFFFFFFFFFFFFFFFF }.Exact := by
  obtain ⟨hblock, -, hslot, hdvd⟩ := validate_eq_ok hvalid
  have hge : 96 ≤ ring.blockSize.toNat := hslot.trans (Nat.le_of_dvd hblock hdvd)
  intro hexact
  have hlt := hexact.bytes_lt
  have hmul : 96 * 0xFFFFFFFFFFFFFFFF ≤ ring.blockSize.toNat * 0xFFFFFFFFFFFFFFFF :=
    Nat.mul_le_mul_right _ hge
  exact absurd (hmul.trans_lt hlt) (by decide)

end RingConfig

/-- A valid configuration has the sizes it says exactly when its region is smaller than a word can
count, as it is for every region that can be requested; each valid one becomes wrong with more
blocks, and stays valid. -/
theorem RingConfig.exact_iff_of_valid (c : BusConfig) (hvalid : c.validate = .ok ()) :
    1 ≤ c.ring.framesPerBlock.toNat ∧
    c.ring.framesPerBlock.toNat = c.ring.blockSize.toNat / c.ring.frameSize.toNat ∧
    c.ring.regionSize = c.ring.frameCount * c.ring.frameSize ∧
    (c.ring.frameCount.toNat = c.ring.slots ↔ c.ring.slots < 2 ^ 64) ∧
    (c.ring.regionSize.toNat = c.ring.bytes ↔ c.ring.bytes < 2 ^ 64) ∧
    (c.ring.Exact ↔ c.ring.bytes < 2 ^ 64) ∧
    (∀ req, c.ring.request = .ok req → c.ring.Exact) ∧
    ∃ n, { c with ring := { c.ring with blockCount := n } }.validate = .ok () ∧
      ¬ { c.ring with blockCount := n }.Exact := by
  have hring := validate_of_valid hvalid
  refine ⟨one_le_framesPerBlock hring, framesPerBlock_toNat _, regionSize_eq_mul hring,
    frameCount_eq_slots_iff, regionSize_eq_bytes_iff, exact_iff_bytes_lt hring, ?_,
    0xFFFFFFFFFFFFFFFF, ?_, not_exact_blockCount hring⟩
  · intro req hreq
    exact (requested hring hreq).exact hring
  · unfold BusConfig.validate at hvalid ⊢
    split_ifs at hvalid with hread hsize htimeout hcapacity
    simp only [if_neg hread, if_neg hsize, if_neg htimeout, if_neg hcapacity]
    exact validate_blockCount hring (by decide)

/-- The default configuration has the 262144 bytes it says. -/
theorem RingConfig.exact_by_default : ({} : BusConfig).validate = .ok () ∧
    ({} : BusConfig).ring.Exact ∧ ({} : BusConfig).ring.regionSize.toNat = 262144 := by
  obtain ⟨-, -, -, -, hregion, hexact, -⟩ := exact_iff_of_valid {} (by decide)
  exact ⟨by decide, hexact.mpr (by decide), hregion.mpr (by decide)⟩

/-- With 2 ^ 59 blocks the default configuration is valid, and has no slots and no bytes. -/
theorem RingConfig.empty_of_many_blocks :
    let c : BusConfig := { ring := { blockCount := 576460752303423488 } }
    c.validate = .ok () ∧ c.ring.frameCount = 0 ∧ c.ring.slots = 2 ^ 64 ∧
      c.ring.regionSize = 0 ∧ c.ring.bytes = 2 ^ 71 ∧ ¬ c.ring.Exact := by
  refine ⟨by decide, by decide, by decide, by decide, by decide, ?_⟩
  intro hexact
  exact absurd hexact.bytes_lt (by decide)

end CanTransport
