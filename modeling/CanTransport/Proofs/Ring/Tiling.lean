import CanTransport.Proofs.Ring.Layout
import Mathlib.Data.Set.Function
import Mathlib.Data.Set.Lattice
import Mathlib.Data.Set.Pairwise.Basic
import Mathlib.Order.CompletePartialOrder
import Mathlib.Order.Interval.Set.Basic
/-!
# Requests and tilings

A ring is requested with four numbers, each of which must fit 32 bits. They are looked at in an
order in which no product is formed before its factors are known to be small, so that a request is
refused exactly when one of the true numbers is too large. A request that is made cuts its region
into slots without a gap.
-/

namespace CanTransport

namespace RingConfig

/-- The slots of a region, without a bound on their number. -/
def slots (ring : RingConfig) : Nat :=
  ring.blockSize.toNat / ring.frameSize.toNat * ring.blockCount.toNat

/-- The bytes of a region, without a bound on their number. -/
def bytes (ring : RingConfig) : Nat := ring.blockSize.toNat * ring.blockCount.toNat

/-- What the fields of a request should say, in the order in which they are looked at. -/
def asked (ring : RingConfig) : List (String × Nat) := [
  ("block_size", ring.blockSize.toNat),
  ("block_count", ring.blockCount.toNat),
  ("frame_size", ring.frameSize.toNat),
  ("frame_count", ring.slots)]

end RingConfig

/-- The error of a field that is too large. -/
def RingRequest.excess (name : String) (n : Nat) : Error :=
  .config ("ring." ++ name ++ " " ++ Text.decimal n ++ " is too large")

theorem RingRequest.field_of_lt {name : String} {n : UInt64} (h : n.toNat < 2 ^ 32) :
    RingRequest.field name n = .ok (UInt32.ofNat n.toNat) :=
  if_pos h

theorem RingRequest.field_of_le {name : String} {n : UInt64} (h : 2 ^ 32 ≤ n.toNat) :
    RingRequest.field name n = .error (excess name n.toNat) :=
  if_neg (Nat.not_lt.mpr h)

namespace RingConfig

variable {ring : RingConfig} {req : RingRequest}

theorem slots_lt (hblock : ring.blockSize.toNat < 2 ^ 32) (hcount : ring.blockCount.toNat < 2 ^ 32) :
    ring.slots < 2 ^ 64 :=
  mul_lt_of_lt ((Nat.div_le_self _ _).trans_lt hblock) hcount

theorem frameCount_eq_slots (hblock : ring.blockSize.toNat < 2 ^ 32)
    (hcount : ring.blockCount.toNat < 2 ^ 32) : ring.frameCount.toNat = ring.slots := by
  rw [frameCount_toNat hblock hcount, framesPerBlock_toNat, slots]

theorem regionSize_eq_bytes (hblock : ring.blockSize.toNat < 2 ^ 32)
    (hcount : ring.blockCount.toNat < 2 ^ 32) : ring.regionSize.toNat = ring.bytes := by
  rw [regionSize, UInt64.toNat_mul, Nat.mod_eq_of_lt (mul_lt_of_lt hblock hcount), bytes]

/-- A request reports the first of the true numbers that does not fit, or says them all. -/
theorem request_eq (ring : RingConfig) :
    ring.request = match ring.asked.find? (2 ^ 32 ≤ ·.2) with
      | some (name, n) => .error (RingRequest.excess name n)
      | none => .ok {
          blockSize := UInt32.ofNat ring.blockSize.toNat
          blockCount := UInt32.ofNat ring.blockCount.toNat
          slotSize := UInt32.ofNat ring.frameSize.toNat
          slotCount := UInt32.ofNat ring.slots } := by
  unfold request asked
  rcases Nat.lt_or_ge ring.blockSize.toNat (2 ^ 32) with hblock | hblock
  swap
  · rw [RingRequest.field_of_le hblock, List.find?_cons_of_pos (by simpa using hblock)]
    rfl
  rw [RingRequest.field_of_lt hblock, List.find?_cons_of_neg (by simpa using hblock)]
  rcases Nat.lt_or_ge ring.blockCount.toNat (2 ^ 32) with hcount | hcount
  swap
  · rw [RingRequest.field_of_le hcount, List.find?_cons_of_pos (by simpa using hcount)]
    rfl
  rw [RingRequest.field_of_lt hcount, List.find?_cons_of_neg (by simpa using hcount)]
  rcases Nat.lt_or_ge ring.frameSize.toNat (2 ^ 32) with hslot | hslot
  swap
  · rw [RingRequest.field_of_le hslot, List.find?_cons_of_pos (by simpa using hslot)]
    rfl
  rw [RingRequest.field_of_lt hslot, List.find?_cons_of_neg (by simpa using hslot)]
  -- only now is the number of slots formed, and it did not wrap
  have hslots := frameCount_eq_slots hblock hcount
  rcases Nat.lt_or_ge ring.slots (2 ^ 32) with hnumber | hnumber
  · rw [RingRequest.field_of_lt (hslots ▸ hnumber), List.find?_cons_of_neg (by simpa using hnumber),
      hslots]
    rfl
  · rw [RingRequest.field_of_le (hslots ▸ hnumber), List.find?_cons_of_pos (by simpa using hnumber),
      hslots]
    rfl

theorem request_eq_ok_iff : (∃ req, ring.request = .ok req) ↔ ∀ x ∈ ring.asked, x.2 < 2 ^ 32 := by
  rw [request_eq]
  cases hfind : ring.asked.find? (2 ^ 32 ≤ ·.2) with
  | none =>
    have hall := List.find?_eq_none.mp hfind
    refine ⟨fun _ x hx => ?_, fun _ => ⟨_, rfl⟩⟩
    simpa using hall x hx
  | some x =>
    have hle : 2 ^ 32 ≤ x.2 := by simpa using List.find?_some hfind
    refine ⟨nofun, fun hall => ?_⟩
    exact absurd (hall x (List.mem_of_find?_eq_some hfind)) (Nat.not_lt.mpr hle)

theorem request_eq_error_iff :
    (∃ text, ring.request = .error (.config text)) ↔ ∃ x ∈ ring.asked, 2 ^ 32 ≤ x.2 := by
  rw [request_eq]
  cases hfind : ring.asked.find? (2 ^ 32 ≤ ·.2) with
  | none =>
    have hall := List.find?_eq_none.mp hfind
    refine ⟨nofun, fun ⟨x, hx, hle⟩ => ?_⟩
    exact absurd (decide_eq_true hle) (hall x hx)
  | some x =>
    have hle : 2 ^ 32 ≤ x.2 := by simpa using List.find?_some hfind
    exact ⟨fun _ => ⟨x, List.mem_of_find?_eq_some hfind, hle⟩, fun _ => ⟨_, rfl⟩⟩

/-- The numbers of a request, and of everything derived on the way to it, are the true ones. -/
structure Requested (ring : RingConfig) (req : RingRequest) : Prop where
  divisor_pos : 0 < ring.frameSize.toNat
  slots_lt : ring.slots < 2 ^ 64
  bytes_lt : ring.bytes < 2 ^ 64
  framesPerBlock_eq : ring.framesPerBlock.toNat = ring.blockSize.toNat / ring.frameSize.toNat
  frameCount_eq : ring.frameCount.toNat = ring.slots
  regionSize_eq : ring.regionSize.toNat = ring.bytes
  blockSize_eq : req.blockSize.toNat = ring.blockSize.toNat
  blockCount_eq : req.blockCount.toNat = ring.blockCount.toNat
  slotSize_eq : req.slotSize.toNat = ring.frameSize.toNat
  slotCount_eq : req.slotCount.toNat = ring.slots
  slots_bytes : req.slotCount.toNat * req.slotSize.toNat = ring.regionSize.toNat
  blocks_bytes : req.blockSize.toNat * req.blockCount.toNat = ring.regionSize.toNat

/-- Slots that divide a block fill all blocks. -/
theorem slots_mul (hdvd : ring.frameSize.toNat ∣ ring.blockSize.toNat) :
    ring.slots * ring.frameSize.toNat = ring.bytes := by
  unfold slots bytes
  calc ring.blockSize.toNat / ring.frameSize.toNat * ring.blockCount.toNat * ring.frameSize.toNat
      = ring.blockSize.toNat / ring.frameSize.toNat * ring.frameSize.toNat
          * ring.blockCount.toNat := by ring
    _ = ring.blockSize.toNat * ring.blockCount.toNat := by rw [Nat.div_mul_cancel hdvd]

theorem requested (hvalid : ring.validate = .ok ()) (hreq : ring.request = .ok req) :
    ring.Requested req := by
  obtain ⟨-, -, hslot, hdvd⟩ := validate_eq_ok hvalid
  obtain ⟨⟨hblock, hb⟩, ⟨hcount, hn⟩, ⟨-, hs⟩, ⟨-, hc⟩⟩ := request_eq_ok hreq
  have hslots := frameCount_eq_slots hblock hcount
  have hbytes := regionSize_eq_bytes hblock hcount
  refine ⟨by omega, slots_lt hblock hcount, mul_lt_of_lt hblock hcount, framesPerBlock_toNat ring,
    hslots, hbytes, hb, hn, hs, hc.trans hslots, ?_, ?_⟩
  · rw [hc, hs, hslots, hbytes, slots_mul hdvd]
  · rw [hb, hn, hbytes, bytes]

end RingConfig

namespace Geometry

/-- The bytes of a slot. -/
def slot (g : Geometry) (i : Nat) : Set Nat := Set.Ico (g.offset i) (g.offset i + g.slotSize)

/-- The slots of a geometry fill its blocks, and the blocks fill `size` bytes. -/
structure Gapless (g : Geometry) (size : Nat) : Prop where
  count_pos : 0 < g.slotCount
  slot_pos : 0 < g.slotSize
  aligned : 16 ∣ g.slotSize
  block_eq : g.blockSize = g.slotsPerBlock * g.slotSize
  size_eq : size = g.slotCount * g.slotSize

/-- The slots of a geometry lie in `size` bytes in order, apart from each other and without a
gap. -/
structure Tiles (g : Geometry) (size : Nat) : Prop where
  offset_eq : ∀ i, g.offset i = i % g.slotCount * g.slotSize
  bijOn : Set.BijOn g.offset (Set.Iio g.slotCount) {a | a < size ∧ g.slotSize ∣ a}
  aligned : ∀ i, 16 ∣ g.offset i
  end_le : ∀ i, g.offset i + g.slotSize ≤ size
  disjoint : (Set.Iio g.slotCount).PairwiseDisjoint g.slot
  cover : ⋃ i ∈ Set.Iio g.slotCount, g.slot i = Set.Iio size

namespace Gapless

variable {g : Geometry} {size : Nat}

/-- Blocks and slots within a block amount to slots in a row. -/
theorem offset_eq (h : g.Gapless size) (i : Nat) : g.offset i = i % g.slotCount * g.slotSize := by
  simp only [offset, h.block_eq]
  generalize i % g.slotCount = n
  calc n / g.slotsPerBlock * (g.slotsPerBlock * g.slotSize) + n % g.slotsPerBlock * g.slotSize
      = (g.slotsPerBlock * (n / g.slotsPerBlock) + n % g.slotsPerBlock) * g.slotSize := by ring
    _ = n * g.slotSize := by rw [Nat.div_add_mod]

theorem offset_eq_of_lt (h : g.Gapless size) {i : Nat} (hi : i < g.slotCount) :
    g.offset i = i * g.slotSize := by
  rw [h.offset_eq, Nat.mod_eq_of_lt hi]

theorem end_le (h : g.Gapless size) (i : Nat) : g.offset i + g.slotSize ≤ size := by
  have hi : i % g.slotCount + 1 ≤ g.slotCount := Nat.mod_lt i h.count_pos
  calc g.offset i + g.slotSize = (i % g.slotCount + 1) * g.slotSize := by rw [h.offset_eq]; ring
    _ ≤ g.slotCount * g.slotSize := Nat.mul_le_mul_right _ hi
    _ = size := h.size_eq.symm

/-- A byte lies in the slot whose number is the quotient by the size of slots. -/
theorem mem_slot_iff (h : g.Gapless size) {i a : Nat} (hi : i < g.slotCount) :
    a ∈ g.slot i ↔ a / g.slotSize = i := by
  rw [slot, Set.mem_Ico, h.offset_eq_of_lt hi]
  constructor
  · rintro ⟨hge, hlt⟩
    apply Nat.div_eq_of_lt_le hge
    calc a < i * g.slotSize + g.slotSize := hlt
      _ = (i + 1) * g.slotSize := by ring
  · rintro rfl
    have hmod := Nat.mod_lt a h.slot_pos
    have hsum := Nat.div_add_mod' a g.slotSize
    omega

theorem div_lt_iff (h : g.Gapless size) {a : Nat} : a / g.slotSize < g.slotCount ↔ a < size := by
  rw [Nat.div_lt_iff_lt_mul h.slot_pos, h.size_eq]

theorem bijOn (h : g.Gapless size) :
    Set.BijOn g.offset (Set.Iio g.slotCount) {a | a < size ∧ g.slotSize ∣ a} := by
  refine ⟨fun i hi => ?_, fun i hi j hj heq => ?_, fun a ha => ?_⟩
  · have hend := h.end_le i
    have hpos := h.slot_pos
    refine ⟨by omega, ?_⟩
    rw [h.offset_eq]
    exact Nat.dvd_mul_left _ _
  · rw [h.offset_eq_of_lt hi, h.offset_eq_of_lt hj] at heq
    exact Nat.eq_of_mul_eq_mul_right h.slot_pos heq
  · obtain ⟨hlt, hdvd⟩ := ha
    have hi := h.div_lt_iff.mpr hlt
    refine ⟨a / g.slotSize, hi, ?_⟩
    rw [h.offset_eq_of_lt hi, Nat.div_mul_cancel hdvd]

theorem disjoint (h : g.Gapless size) : (Set.Iio g.slotCount).PairwiseDisjoint g.slot := by
  intro i hi j hj hne
  apply Set.disjoint_left.mpr
  intro a hai haj
  rw [h.mem_slot_iff hi] at hai
  rw [h.mem_slot_iff hj] at haj
  exact hne (hai.symm.trans haj)

theorem cover (h : g.Gapless size) : ⋃ i ∈ Set.Iio g.slotCount, g.slot i = Set.Iio size := by
  ext a
  simp only [Set.mem_iUnion, Set.mem_Iio, exists_prop]
  constructor
  · rintro ⟨i, hi, ha⟩
    rw [h.mem_slot_iff hi] at ha
    exact h.div_lt_iff.mp (ha ▸ hi)
  · intro ha
    have hi := h.div_lt_iff.mpr ha
    exact ⟨a / g.slotSize, hi, (h.mem_slot_iff hi).mpr rfl⟩

theorem tiles (h : g.Gapless size) : g.Tiles size where
  offset_eq := h.offset_eq
  bijOn := h.bijOn
  aligned i := by
    rw [h.offset_eq]
    exact h.aligned.mul_left _
  end_le := h.end_le
  disjoint := h.disjoint
  cover := h.cover

end Gapless

end Geometry

namespace RingConfig

variable {ring : RingConfig} {req : RingRequest}

/-- The geometry of a configuration, in true numbers. -/
def geometry (ring : RingConfig) : Geometry where
  blockSize := ring.blockSize.toNat
  slotSize := ring.frameSize.toNat
  slotsPerBlock := ring.blockSize.toNat / ring.frameSize.toNat
  slotCount := ring.slots

theorem aligned_of_validate (h : ring.validate = .ok ()) : 16 ∣ ring.frameSize.toNat := by
  unfold validate at h
  split_ifs at h with hblock hcount hslot hdvd hinterval
  have hmod : ring.frameSize % slotAlignment = 0 := by
    by_contra hne
    exact hslot (Or.inr hne)
  apply Nat.dvd_of_mod_eq_zero
  calc ring.frameSize.toNat % 16 = (ring.frameSize % slotAlignment).toNat := by
        rw [UInt64.toNat_mod]
        rfl
    _ = 0 := by rw [hmod]; rfl

theorem gapless (hvalid : ring.validate = .ok ()) : ring.geometry.Gapless ring.bytes := by
  obtain ⟨hblock, hcount, hslot, hdvd⟩ := validate_eq_ok hvalid
  have hpos : 0 < ring.frameSize.toNat := by omega
  refine ⟨?_, hpos, aligned_of_validate hvalid, (Nat.div_mul_cancel hdvd).symm,
    (slots_mul hdvd).symm⟩
  exact Nat.mul_pos (Nat.div_pos (Nat.le_of_dvd hblock hdvd) hpos) hcount

/-- Any aligned region of the requested size can be used, with the true geometry. -/
theorem ofRegion_eq (hvalid : ring.validate = .ok ()) (hreq : ring.request = .ok req) {base : Nat}
    (hbase : base ≠ 0) (haligned : 4 ∣ base) :
    Geometry.ofRegion base ring.regionSize.toNat ring = .ok ring.geometry := by
  obtain ⟨g, hg, -⟩ := Geometry.exists_ofConfig hvalid hreq
  rw [Geometry.ofRegion, if_neg hbase, if_neg (not_not.mpr (Nat.mod_eq_zero_of_dvd haligned)), hg]
  unfold Geometry.ofConfig at hg
  split_ifs at hg
  have hrequested := requested hvalid hreq
  cases hg
  rw [geometry, hrequested.framesPerBlock_eq, hrequested.frameCount_eq]

/-- A request is refused exactly when a true number does not fit; one that is made says the true
numbers, and its region is tiled by slots wherever it lies. -/
theorem requested_or_refused (c : BusConfig) (hvalid : c.validate = .ok ()) :
    ((∃ text, c.ring.request = .error (.config text)) ↔ ∃ x ∈ c.ring.asked, 2 ^ 32 ≤ x.2) ∧
    ((∃ req, c.ring.request = .ok req) ↔ ∀ x ∈ c.ring.asked, x.2 < 2 ^ 32) ∧
    ∀ req, c.ring.request = .ok req → c.ring.Requested req ∧
      ∀ base, base ≠ 0 → 4 ∣ base →
        Geometry.ofRegion base c.ring.regionSize.toNat c.ring = .ok c.ring.geometry ∧
        c.ring.geometry.Tiles c.ring.regionSize.toNat := by
  have hring := validate_of_valid hvalid
  refine ⟨request_eq_error_iff, request_eq_ok_iff, fun req hreq => ?_⟩
  have hrequested := requested hring hreq
  refine ⟨hrequested, fun base hbase haligned => ⟨ofRegion_eq hring hreq hbase haligned, ?_⟩⟩
  rw [hrequested.regionSize_eq]
  exact (gapless hring).tiles

/-- The default configuration asks for 2048 slots of 128 bytes. -/
theorem requested_by_default : (∃ req, ({} : BusConfig).ring.request = .ok req ∧
    req.slotCount.toNat = 2048) ∧
    ({} : BusConfig).ring.geometry.Tiles ({} : BusConfig).ring.regionSize.toNat := by
  obtain ⟨-, hok, hmade⟩ := requested_or_refused {} (by decide)
  obtain ⟨req, hreq⟩ := hok.mpr (by decide)
  obtain ⟨hrequested, htiles⟩ := hmade req hreq
  exact ⟨⟨req, hreq, hrequested.slotCount_eq⟩, (htiles 4096 (by decide) (by decide)).2⟩

end RingConfig

end CanTransport
