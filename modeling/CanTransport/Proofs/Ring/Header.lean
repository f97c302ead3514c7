import CanTransport.Proofs.Ring.Contents
import CanTransport.Proofs.Ring.Fates
import Mathlib.Order.Interval.Set.Basic
/-!
# Slot headers

The header of a slot tells where its packet lies, how much of it was captured, how long it was
before that, and what kind of sender it had. The reader looks at place and captured length for
bounds, and at nothing but the captured length for what is a record. Two things follow. A longer
packet of which just a record's length was captured passes for a record; among packets that were
cut at the end of their slot those are the ones with a record's length of room. And a packet that
starts on the byte of its kind, the first place that is let through, has that byte for its first.
-/

namespace CanTransport

namespace Slot

/-- Where the length lies that a packet had before it was captured. -/
def originalField : Nat := 4

/-- What the other side says of a packet. -/
structure Header where
  /-- Length before it was captured. -/
  original : Nat
  captured : Nat
  place : Nat
  kind : UInt8
deriving DecidableEq, Repr

def header (m : Memory) (base : Nat) : Header where
  original := m.readNumber (base + originalField) 4
  captured := m.readNumber (base + lengthField) 4
  place := m.readNumber (base + placeField) 2
  kind := m.read (base + kindField)

namespace Header

/-- Neither in front of the kind nor behind the end of a slot of `size` bytes. -/
def Inside (h : Header) (size : Nat) : Prop := kindField ≤ h.place ∧ h.place + h.captured ≤ size

instance (h : Header) (size : Nat) : Decidable (h.Inside size) :=
  inferInstanceAs (Decidable (_ ∧ _))

/-- As much was captured as there is room for in the slot. -/
def Cut (h : Header) (size : Nat) : Prop := h.captured = min h.original (size - h.place)

instance (h : Header) (size : Nat) : Decidable (h.Cut size) :=
  inferInstanceAs (Decidable (_ = _))

/-- The bytes of a packet, counted from the start of the slot. -/
def window (h : Header) : Set Nat := Set.Ico h.place (h.place + h.captured)

/-- No byte of the packet lies in a field from `first` up to `last`. -/
def Apart (h : Header) (first last : Nat) : Prop := ∀ x ∈ h.window, x < first ∨ last ≤ x

variable {h : Header} {size : Nat}

theorem mem_window {x : Nat} : x ∈ h.window ↔ h.place ≤ x ∧ x < h.place + h.captured := Iff.rfl

/-- Fields in front of the kind lie in front of the packet. -/
theorem Inside.apart {last : Nat} (hinside : h.Inside size) (first : Nat)
    (hlast : last ≤ kindField) : h.Apart first last := by
  have hplace := hinside.1
  intro x hx
  rw [mem_window] at hx
  omega

theorem Inside.window_subset (hinside : h.Inside size) : h.window ⊆ Set.Ico 0 size :=
  Set.Ico_subset_Ico (Nat.zero_le _) hinside.2

/-- The kind lies behind the start of a packet only if it is its first byte. -/
theorem Inside.kind_not_mem_iff (hinside : h.Inside size) :
    kindField ∉ h.window ↔ h.place ≠ kindField ∨ h.captured = 0 := by
  have hplace := hinside.1
  rw [mem_window]
  omega

/-- A cut packet with a record's length was longer just if the record fills the slot up to its
end. -/
theorem Cut.original_ne_iff (hcut : h.Cut size) (hcaptured : h.captured = wireSize) :
    h.original ≠ wireSize ↔ wireSize < h.original ∧ h.place + wireSize = size := by
  unfold Cut at hcut
  unfold wireSize at hcaptured ⊢
  omega

end Header

/-- A slot by its header: the record, the length of something else, or nothing. -/
theorem packet?_eq (m : Memory) (size base : Nat) : packet? m size base =
    if (header m base).Inside size then
      if (header m base).captured = wireSize then
        some (.record (wireAt m (base + (header m base).place)) (header m base).kind)
      else some (.unsupported (header m base).captured)
    else none := by
  unfold packet?
  by_cases hinside : (header m base).Inside size
  · have hbounds : ¬ (m.readNumber (base + placeField) 2 < kindField ∨
        m.readNumber (base + placeField) 2 + m.readNumber (base + lengthField) 4 > size) := by
      have hplace := hinside.1
      have hend := hinside.2
      simp only [header] at hplace hend
      omega
    simp only [if_neg hbounds, if_pos hinside]
    exact ite_not _ _ _
  · have hbounds : m.readNumber (base + placeField) 2 < kindField ∨
        m.readNumber (base + placeField) 2 + m.readNumber (base + lengthField) 4 > size := by
      simp only [Header.Inside, header] at hinside
      omega
    simp only [if_pos hbounds, if_neg hinside]

variable {m m' : Memory} {size base : Nat}

theorem inside_of_packet? {p : Packet} (h : packet? m size base = some p) :
    (header m base).Inside size := by
  rw [packet?_eq] at h
  by_contra houtside
  rw [if_neg houtside] at h
  cases h

/-- A slot holds a record exactly when its packet lies inside and a record's length of it was
captured. -/
theorem exists_record_iff :
    (∃ raw kind, packet? m size base = some (.record raw kind)) ↔
      (header m base).Inside size ∧ (header m base).captured = wireSize := by
  rw [packet?_eq]
  by_cases hinside : (header m base).Inside size
  · by_cases hcaptured : (header m base).captured = wireSize
    · simp [hinside, hcaptured]
    · simp [hinside, hcaptured]
  · simp [hinside]

theorem wireAt_congr {address : Nat}
    (h : ∀ i < wireSize, m'.read (address + i) = m.read (address + i)) :
    wireAt m' address = wireAt m address := by
  unfold wireAt
  congr 1
  funext i
  exact h i i.isLt

/-- Two slots have the same packet if they agree in the length, the place, the kind and all that
lies behind it. -/
theorem packet?_congr_behind (hcaptured : (header m' base).captured = (header m base).captured)
    (hplace : (header m' base).place = (header m base).place)
    (h : ∀ x, base + kindField ≤ x → x < base + size → m'.read x = m.read x) :
    packet? m' size base = packet? m size base := by
  have hinside_iff : (header m' base).Inside size ↔ (header m base).Inside size := by
    simp only [Header.Inside, hcaptured, hplace]
  rw [packet?_eq, packet?_eq, hcaptured, hplace]
  simp only [hinside_iff]
  split_ifs with hinside hlength
  · have hfirst := hinside.1
    have hlast := hinside.2
    rw [hlength] at hlast
    unfold wireSize at hlast
    have hkind : (header m' base).kind = (header m base).kind := h _ (Nat.le_refl _) (by omega)
    have hraw : wireAt m' (base + (header m base).place) =
        wireAt m (base + (header m base).place) := by
      apply wireAt_congr
      unfold wireSize
      intro i hi
      exact h _ (by omega) (by omega)
    rw [hkind, hraw]
  · rfl
  · rfl

/-- The reader passes the original length over. -/
theorem packet?_writeNumber_original (m : Memory) (size base n : Nat) :
    packet? (m.writeNumber (base + originalField) 4 n) size base = packet? m size base := by
  have hbehind : ∀ x, base + lengthField ≤ x →
      (m.writeNumber (base + originalField) 4 n).read x = m.read x := by
    intro x hx
    apply Memory.read_writeNumber_of_outside
    simp only [originalField, lengthField] at hx ⊢
    omega
  apply packet?_congr_behind
  · apply Memory.readNumber_congr
    intro x hx _
    exact hbehind x hx
  · apply Memory.readNumber_congr
    intro x hx _
    simp only [placeField] at hx
    exact hbehind x (by simp only [lengthField]; omega)
  · intro x hx _
    simp only [kindField] at hx
    exact hbehind x (by simp only [lengthField]; omega)

/-- Every header can be written whose numbers fit their fields. -/
theorem exists_header (base : Nat) (h : Header) (horiginal : h.original < 256 ^ 4)
    (hcaptured : h.captured < 256 ^ 4) (hplace : h.place < 256 ^ 2) :
    ∃ m, header m base = h := by
  obtain ⟨original, captured, place, kind⟩ := h
  obtain ⟨m₁, hm₁⟩ : ∃ m₁, m₁ = (⟨base + 48, {}⟩ : Memory).write (base + kindField) kind :=
    ⟨_, rfl⟩
  obtain ⟨m₂, hm₂⟩ : ∃ m₂, m₂ = m₁.writeNumber (base + placeField) 2 place := ⟨_, rfl⟩
  obtain ⟨m₃, hm₃⟩ : ∃ m₃, m₃ = m₂.writeNumber (base + lengthField) 4 captured := ⟨_, rfl⟩
  have hsize₁ : m₁.size = base + 48 := by rw [hm₁, Memory.size_write]
  have hsize₂ : m₂.size = base + 48 := by rw [hm₂, Memory.size_writeNumber, hsize₁]
  have hsize₃ : m₃.size = base + 48 := by rw [hm₃, Memory.size_writeNumber, hsize₂]
  refine ⟨m₃.writeNumber (base + originalField) 4 original, ?_⟩
  simp only [originalField, lengthField, placeField, kindField] at hm₁ hm₂ hm₃ ⊢
  rw [header, Header.mk.injEq]
  simp only [originalField, lengthField, placeField, kindField]
  refine ⟨?_, ?_, ?_, ?_⟩
  · rw [Memory.readNumber_writeNumber _ _ _ _ (by omega), Nat.mod_eq_of_lt horiginal]
  · rw [Memory.readNumber_writeNumber_of_disjoint _ _ _ _ _ _ (by omega), hm₃,
      Memory.readNumber_writeNumber _ _ _ _ (by omega), Nat.mod_eq_of_lt hcaptured]
  · rw [Memory.readNumber_writeNumber_of_disjoint _ _ _ _ _ _ (by omega), hm₃,
      Memory.readNumber_writeNumber_of_disjoint _ _ _ _ _ _ (by omega), hm₂,
      Memory.readNumber_writeNumber _ _ _ _ (by omega), Nat.mod_eq_of_lt hplace]
  · rw [Memory.read_writeNumber_of_outside _ _ _ _ _ (by omega), hm₃,
      Memory.read_writeNumber_of_outside _ _ _ _ _ (by omega), hm₂,
      Memory.read_writeNumber_of_outside _ _ _ _ _ (by omega), hm₁,
      Memory.read_write_same _ _ (Nat.add_lt_add_left (by omega) _)]

/-- No packet at any of some places that was cut, and was no record before, is taken for one. -/
def Whole (size : Nat) (placed : Nat → Prop) : Prop :=
  ∀ m base, placed (header m base).place → (header m base).Cut size →
    (header m base).original ≠ wireSize →
      ¬ ∃ raw kind, packet? m size base = some (.record raw kind)

/-- At one place inside the slot: there is more room behind it than a record takes. -/
theorem whole_at_iff {place : Nat} (hfirst : kindField ≤ place) (hlast : place + wireSize ≤ size)
    (hplace : place < 256 ^ 2) : Whole size (· = place) ↔ place + wireSize < size := by
  constructor
  · intro hwhole
    by_contra hfull
    obtain ⟨m, hm⟩ := exists_header 0 ⟨wireSize + 1, wireSize, place, 0⟩
      (show wireSize + 1 < 256 ^ 4 by decide) (show wireSize < 256 ^ 4 by decide) hplace
    have hinside : (header m 0).Inside size := by
      rw [hm]
      exact ⟨hfirst, hlast⟩
    have hcut : (header m 0).Cut size := by
      rw [hm]
      show wireSize = min (wireSize + 1) (size - place)
      omega
    have horiginal : (header m 0).original ≠ wireSize := by
      rw [hm]
      exact Nat.succ_ne_self _
    refine hwhole m 0 (by rw [hm]) hcut horiginal ?_
    exact exists_record_iff.mpr ⟨hinside, by rw [hm]⟩
  · intro hroom m base heq hcut horiginal hrecord
    obtain ⟨-, hcaptured⟩ := exists_record_iff.mp hrecord
    have hend := ((hcut.original_ne_iff hcaptured).mp horiginal).2
    omega

/-- At every place: no record that starts where a place field can point ends with the slot. -/
theorem whole_iff (hsize : kindField + wireSize ≤ size) :
    Whole size (fun _ => True) ↔ 256 ^ 2 + wireSize ≤ size := by
  constructor
  · intro hwhole
    by_contra hsmall
    have hat : Whole size (· = size - wireSize) := fun m base _ => hwhole m base trivial
    rw [whole_at_iff (by omega) (by omega) (by omega)] at hat
    omega
  · intro hlarge m base _ hcut horiginal hrecord
    have hplace : (header m base).place < 256 ^ 2 := Memory.readNumber_lt _ _ _
    obtain ⟨-, hcaptured⟩ := exists_record_iff.mp hrecord
    have hend := ((hcut.original_ne_iff hcaptured).mp horiginal).2
    omega

/-! ## The packet and its kind -/

/-- A record with another first byte. -/
def withFirst (raw : Wire) (byte : UInt8) : Wire := raw.set 0 byte (Nat.succ_pos 15)

/-- A packet as it would be with another kind. -/
def Packet.withKind : Packet → UInt8 → Packet
  | .record raw _, kind => .record raw kind
  | .unsupported length, _ => .unsupported length

/-- Two contents of a slot that differ in the byte of the kind at most. -/
def SameButKind (m m' : Memory) (size base : Nat) : Prop :=
  ∀ x, base ≤ x → x < base + size → x ≠ base + kindField → m'.read x = m.read x

namespace SameButKind

theorem captured_eq (h : SameButKind m m' size base) (hsize : 48 ≤ size) :
    (header m' base).captured = (header m base).captured := by
  apply Memory.readNumber_congr
  intro x hx hlt
  simp only [lengthField] at hx hlt
  exact h x (by omega) (by omega) (by simp only [kindField]; omega)

theorem place_eq (h : SameButKind m m' size base) (hsize : 48 ≤ size) :
    (header m' base).place = (header m base).place := by
  apply Memory.readNumber_congr
  intro x hx hlt
  simp only [placeField] at hx hlt
  exact h x (by omega) (by omega) (by simp only [kindField]; omega)

theorem inside_iff (h : SameButKind m m' size base) (hsize : 48 ≤ size) :
    (header m' base).Inside size ↔ (header m base).Inside size := by
  rw [Header.Inside, Header.Inside, h.captured_eq hsize, h.place_eq hsize]

/-- Another kind changes nothing else of a packet that is no record or does not start on it. -/
theorem packet?_eq (h : SameButKind m m' size base) (hsize : 48 ≤ size)
    (hapart : (header m base).place ≠ kindField ∨ (header m base).captured ≠ wireSize) :
    packet? m' size base =
      (packet? m size base).map (Packet.withKind · (m'.read (base + kindField))) := by
  rw [Slot.packet?_eq, Slot.packet?_eq, h.captured_eq hsize, h.place_eq hsize]
  simp only [h.inside_iff hsize]
  split_ifs with hinside hlength
  · have hfirst := hinside.1
    have hlast := hinside.2
    have hne : (header m base).place ≠ kindField := hapart.resolve_right (not_not_intro hlength)
    rw [hlength] at hlast
    have hraw : wireAt m' (base + (header m base).place) =
        wireAt m (base + (header m base).place) := by
      apply wireAt_congr
      intro i hi
      exact h (base + (header m base).place + i) (by omega) (by omega) (by omega)
    rw [hraw]
    rfl
  · rfl
  · rfl

/-- A record that starts on its kind starts with it. -/
theorem packet?_eq_set {raw : Wire} {kind : UInt8} (h : SameButKind m m' size base)
    (hsize : 48 ≤ size) (hplace : (header m base).place = kindField)
    (hrecord : packet? m size base = some (.record raw kind)) :
    packet? m' size base = some (.record (withFirst raw (m'.read (base + kindField)))
      (m'.read (base + kindField))) := by
  have hinside := inside_of_packet? hrecord
  obtain ⟨-, hcaptured⟩ := exists_record_iff.mp ⟨raw, kind, hrecord⟩
  have hlast := hinside.2
  rw [hplace, hcaptured] at hlast
  rw [Slot.packet?_eq, if_pos hinside, if_pos hcaptured, hplace] at hrecord
  injection hrecord with hpacket
  injection hpacket with hraw
  rw [Slot.packet?_eq, if_pos ((h.inside_iff hsize).mpr hinside),
    if_pos ((h.captured_eq hsize).trans hcaptured), h.place_eq hsize, hplace]
  have hset : wireAt m' (base + kindField) = withFirst raw (m'.read (base + kindField)) := by
    rw [← hraw, withFirst]
    apply Vector.ext
    intro i hi
    rw [Vector.getElem_set]
    split_ifs with hzero
    · subst hzero
      rw [wireAt, Vector.getElem_ofFn]
      rfl
    · rw [wireAt, wireAt, Vector.getElem_ofFn, Vector.getElem_ofFn]
      unfold wireSize at hlast
      exact h (base + kindField + i) (by omega) (by omega) (by omega)
  rw [hset]
  rfl

end SameButKind

/-- Any other kind can be put into a slot. -/
theorem exists_sameButKind (m : Memory) (size base : Nat) (kind : UInt8) :
    ∃ m', SameButKind m m' size base ∧ m'.read (base + kindField) = kind := by
  refine ⟨({ m with size := base + kindField + 1 }).write (base + kindField) kind, ?_, ?_⟩
  · intro x _ _ hne
    exact Memory.read_write_ne _ _ hne.symm
  · exact Memory.read_write_same _ _ (Nat.lt_succ_self _)

end Slot

/-! ## Slots of a valid configuration -/

section Valid

open Slot

/-- The original length has no part in what a slot holds. So a packet of another length that was
cut passes for a record exactly when a record's length of it reaches the end of its slot. No packet
at a place with more room behind it does, and none at all if the slots are so large that no place
field points near their end. -/
theorem Slot.whole_iff_room (c : BusConfig) (hvalid : c.validate = .ok ()) :
    let size := c.ring.frameSize.toNat
    (∀ m base, (∃ raw kind, packet? m size base = some (.record raw kind)) ↔
      (header m base).Inside size ∧ (header m base).captured = wireSize) ∧
    (∀ m base n, packet? (m.writeNumber (base + originalField) 4 n) size base =
      packet? m size base) ∧
    (∀ m base raw kind, (header m base).Cut size → packet? m size base = some (.record raw kind) →
      ((header m base).original ≠ wireSize ↔
        wireSize < (header m base).original ∧ (header m base).place + wireSize = size)) ∧
    (∀ place, kindField ≤ place → place + wireSize ≤ size → place < 256 ^ 2 →
      (Whole size (· = place) ↔ place + wireSize < size)) ∧
    (Whole size (fun _ => True) ↔ 256 ^ 2 + wireSize ≤ size) := by
  intro size
  have hsize : 96 ≤ size := (RingConfig.validate_eq_ok (RingConfig.validate_of_valid hvalid)).2.2.1
  refine ⟨fun m base => exists_record_iff,
    fun m base n => packet?_writeNumber_original m size base n, ?_,
    fun place hfirst hlast hplace => whole_at_iff hfirst hlast hplace, whole_iff ?_⟩
  · intro m base raw kind hcut hrecord
    exact hcut.original_ne_iff (exists_record_iff.mp ⟨raw, kind, hrecord⟩).2
  · unfold kindField wireSize
    omega

/-- At the default size of 128 bytes no cut packet at byte 80 passes for a record; some at byte 112
does. -/
theorem Slot.whole_by_default : ({} : BusConfig).validate = .ok () ∧
    Whole 128 (· = 80) ∧ ¬ Whole 128 (· = 112) := by
  obtain ⟨-, -, -, hplaces, -⟩ := whole_iff_room {} (by decide)
  refine ⟨by decide, (hplaces 80 (by decide) (by decide) (by decide)).mpr (by decide), ?_⟩
  intro hwhole
  exact absurd ((hplaces 112 (by decide) (by decide) (by decide)).mp hwhole) (by decide)

/-- In a slot of 96 bytes there are 16 behind byte 80. Of a packet of 72 bytes these are taken for
a record, which is no echo and reaches the listener. -/
theorem Slot.record_of_cut_packet :
    let c : BusConfig := { ring := { blockSize := 12288, frameSize := 96 } }
    let g : Geometry := ⟨12288, 96, 128, 8192⟩
    let raw : Wire := #v[1, 1, 0, 0, 8, 4, 0, 0, 10, 11, 12, 13, 14, 15, 16, 17]
    let m := (fill ⟨786432, {}⟩ 96 0 { data := raw.toList, place := 80 }).writeNumber
      originalField 4 72
    c.validate = .ok () ∧ Geometry.ofRegion 4096 786432 c.ring = .ok g ∧
      header m 0 = ⟨72, 16, 80, 1⟩ ∧ (header m 0).Cut 96 ∧
      packet? m 96 0 = some (.record raw 1) ∧ (sweep g m 0).1 = [some (.record raw 1)] ∧
      (Echoes.ofConfig c).fate (packet? m 96 0) = .delivered := by
  decide +kernel

/-- The bytes of a packet lie in its slot and apart from status, captured length and place. They
are apart from its kind, and another kind changes nothing but the kind of the packet, exactly when
the packet does not start on that byte, or is no record. A record that does has the kind for its
first byte. -/
theorem Slot.kind_apart_iff (c : BusConfig) (hvalid : c.validate = .ok ()) (m : Memory) (base : Nat)
    (p : Packet) (hpacket : packet? m c.ring.frameSize.toNat base = some p) :
    let size := c.ring.frameSize.toNat
    (header m base).window ⊆ Set.Ico 0 size ∧
    (header m base).Apart 0 4 ∧
    (header m base).Apart lengthField (lengthField + 4) ∧
    (header m base).Apart placeField (placeField + 2) ∧
    (kindField ∉ (header m base).window ↔
      (header m base).place ≠ kindField ∨ (header m base).captured = 0) ∧
    ((∀ m', SameButKind m m' size base →
        packet? m' size base = some (p.withKind (m'.read (base + kindField)))) ↔
      (header m base).place ≠ kindField ∨ (header m base).captured ≠ wireSize) ∧
    ∀ raw kind, p = .record raw kind → (header m base).place = kindField →
      ∀ m', SameButKind m m' size base →
        packet? m' size base = some (.record (withFirst raw (m'.read (base + kindField)))
          (m'.read (base + kindField))) := by
  intro size
  have hsize : 48 ≤ size := by
    have hslot := (RingConfig.validate_eq_ok (RingConfig.validate_of_valid hvalid)).2.2.1
    omega
  have hinside := inside_of_packet? hpacket
  refine ⟨hinside.window_subset, hinside.apart 0 (by decide),
    hinside.apart lengthField (by decide), hinside.apart placeField (by decide),
    hinside.kind_not_mem_iff, ⟨?_, ?_⟩, ?_⟩
  · intro hkinds
    by_contra hon
    rw [not_or, not_not, not_not] at hon
    obtain ⟨raw, kind, hrecord⟩ := exists_record_iff.mpr ⟨hinside, hon.2⟩
    obtain ⟨m', hsame, hkind⟩ := exists_sameButKind m size base (raw[0] + 1)
    have hset := hsame.packet?_eq_set hsize hon.1 hrecord
    rw [hkinds m' hsame, hkind] at hset
    cases hpacket.symm.trans hrecord
    injection hset with hset
    injection hset with hraw
    have hbyte := congrArg (fun w : Wire => w[0]) hraw
    simp [withFirst] at hbyte
  · intro hapart m' hsame
    rw [hsame.packet?_eq hsize hapart, hpacket]
    rfl
  · rintro raw kind rfl hplace m' hsame
    exact hsame.packet?_eq_set hsize hplace hpacket

/-- The usual record starts at byte 66: another kind leaves it as it is. -/
theorem Slot.kind_apart_of_usual_place :
    let m := fill ⟨128, {}⟩ 128 0 { data := List.replicate 16 1 }
    ({} : BusConfig).validate = .ok () ∧
      packet? m 128 0 = some (.record (Vector.replicate 16 1) 1) ∧
      ∀ m', SameButKind m m' 128 0 →
        packet? m' 128 0 = some (.record (Vector.replicate 16 1) (m'.read kindField)) := by
  intro m
  have hpacket : packet? m 128 0 = some (.record (Vector.replicate 16 1) 1) := by decide +kernel
  obtain ⟨-, -, -, -, -, hkinds, -⟩ := kind_apart_iff {} (by decide) m 0 _ hpacket
  have hplace : (header m 0).place = 66 := by decide +kernel
  refine ⟨by decide, hpacket, ?_⟩
  intro m' hsame
  have hkind := hkinds.mpr (Or.inl (by rw [hplace]; decide)) m' hsame
  rw [Nat.zero_add] at hkind
  exact hkind

/-- A record that starts on its kind: with the kind 0 instead of 1, its identifier is another. -/
theorem Slot.record_of_kind :
    let raw : Wire := #v[1, 1, 0, 0, 1, 0, 0, 0, 5, 0, 0, 0, 0, 0, 0, 0]
    let m := fill ⟨262144, {}⟩ 128 0 { data := raw.toList, place := 42 }
    let m' := m.write kindField 0
    ({} : BusConfig).validate = .ok () ∧ SameButKind m m' 128 0 ∧
      kindField ∈ (header m 0).window ∧ packet? m 128 0 = some (.record raw 1) ∧
      packet? m' 128 0 = some (.record (withFirst raw 0) 0) := by
  intro raw m m'
  refine ⟨by decide, ?_, ?_, by decide +kernel, by decide +kernel⟩
  · intro x _ _ hne
    rw [Nat.zero_add] at hne
    exact Memory.read_write_ne _ _ hne.symm
  · rw [Header.mem_window]
    decide +kernel

end Valid

end CanTransport
