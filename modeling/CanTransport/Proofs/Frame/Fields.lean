import CanTransport.Frame.Value
import CanTransport.Proofs.Config.Trees
import CanTransport.Proofs.Frame.Codec
/-!
# Frames from their fields

Which values are read as frames: those that give the four fields, by name or in their order, each in
its range, with a length of at most eight. So reading a value comes to the same as decoding the
record with these fields.
-/

namespace CanTransport

open Value (find?)

namespace Value

variable {v : Value} {limit n : Nat}

theorem nat?_eq_some_iff : v.nat? limit = some n ↔ v = .ofNat n ∧ n ≤ limit := by
  constructor
  · intro h
    cases v with
    | int k =>
      rw [nat?] at h
      split at h
      · rename_i hk
        obtain rfl := Option.some.inj h
        rw [ofNat, Int.toNat_of_nonneg hk.1]
        exact ⟨rfl, by omega⟩
      · cases h
    | null | bool | real | str | list | map => cases h
  · rintro ⟨rfl, hn⟩
    rw [ofNat, nat?, if_pos ⟨by omega, by omega⟩, Int.toNat_natCast]

end Value

namespace Frame

/-! ## Reading -/

/-- What a value has for the fields of a frame: by their names, or in their order. -/
inductive Gives : Value → Value → Value → Value → Value → Prop where
  | byName {entries : List (String × Value)} {id flags dlc data : Value}
      (hid : find? "id" entries = some id) (hflags : find? "flags" entries = some flags)
      (hdlc : find? "dlc" entries = some dlc) (hdata : find? "data" entries = some data) :
      Gives (.map entries) id flags dlc data
  | inOrder {id flags dlc data : Value} : Gives (.list [id, flags, dlc, data]) id flags dlc data

/-- A value that gives all fields of a frame, each in its range. -/
def Holds (v : Value) (id : UInt32) (flags dlc : UInt8) (data : Vector UInt8 8) : Prop :=
  Gives v (.ofNat id.toNat) (.ofNat flags.toNat) (.ofNat dlc.toNat)
    (.list (data.toList.map fun b => .ofNat b.toNat))

variable {v id flags dlc data : Value} {f : Frame}

theorem fields?_eq_some_iff : v.fields? ["id", "flags", "dlc", "data"] true =
    some [some id, some flags, some dlc, some data] ↔ Gives v id flags dlc data := by
  constructor
  · intro h
    cases v with
    | map entries =>
      simp only [Value.fields?, List.map_cons, List.map_nil, Option.some.injEq, List.cons.injEq,
        and_true] at h
      obtain ⟨hid, hflags, hdlc, hdata⟩ := h
      exact .byName hid hflags hdlc hdata
    | list items =>
      rw [Value.fields?] at h
      split at h
      · cases h
      · rename_i hlength
        match items with
        | [a, b, c, d] =>
          cases h
          exact .inOrder
        | [] | [_] | [_, _] | [_, _, _] => cases h
        | _ :: _ :: _ :: _ :: _ :: _ => simp at hlength
    | null | bool | int | real | str => cases h
  · intro h
    cases h with
    | byName hid hflags hdlc hdata =>
      simp only [Value.fields?, List.map_cons, List.map_nil, hid, hflags, hdlc, hdata]
    | inOrder => rfl

theorem mapM_byte_eq_some_iff {items : List Value} {bytes : List UInt8} :
    items.mapM (fun item => (item.nat? 255).map UInt8.ofNat) = some bytes ↔
      items = bytes.map fun b => .ofNat b.toNat := by
  have hbyte : ∀ (item : Value) (b : UInt8), (item.nat? 255).map UInt8.ofNat = some b ↔
      item = .ofNat b.toNat := by
    intro item b
    simp only [Option.map_eq_some_iff, Value.nat?_eq_some_iff]
    constructor
    · rintro ⟨n, ⟨rfl, hn⟩, rfl⟩
      rw [UInt8.toNat_ofNat_of_lt' (by simp only [UInt8.size]; omega)]
    · rintro rfl
      have hb := b.toNat_lt
      exact ⟨b.toNat, ⟨rfl, by omega⟩, UInt8.ofNat_toNat⟩
  induction items generalizing bytes with
  | nil => cases bytes <;> simp
  | cons item items ih =>
    simp only [List.mapM_cons, Option.bind_eq_bind, Option.bind_eq_some_iff, Option.pure_def,
      Option.some.injEq, hbyte, ih]
    constructor
    · rintro ⟨b, rfl, bytes', rfl, rfl⟩
      rfl
    · intro h
      cases bytes with
      | nil => cases h
      | cons b bytes' =>
        obtain ⟨rfl, rfl⟩ := List.cons.inj h
        exact ⟨b, rfl, bytes', rfl, rfl⟩

theorem rawDataOf?_eq_some_iff {bytes : Vector UInt8 8} :
    rawDataOf? v = some bytes ↔ v = .list (bytes.toList.map fun b => .ofNat b.toNat) := by
  constructor
  · intro h
    cases v with
    | list items =>
      simp only [rawDataOf?, Value.list?, Option.bind_eq_bind, Option.bind_some,
        Option.bind_eq_some_iff] at h
      obtain ⟨read, hread, h⟩ := h
      split at h
      · cases h
        rw [mapM_byte_eq_some_iff.mp hread]
        rfl
      · cases h
    | null | bool | int | real | str | map => cases h
  · rintro rfl
    have hread := mapM_byte_eq_some_iff.mpr (Eq.refl (bytes.toList.map fun b => Value.ofNat b.toNat))
    simp only [rawDataOf?, Value.list?, Option.bind_eq_bind, Option.bind_some, hread]
    rw [dif_pos (by simp)]
    rfl

theorem fieldsOf?_eq_some_iff {id : UInt32} {flags : UInt8} {n : Nat} {data : Vector UInt8 8} :
    fieldsOf? v = some (id, flags, n, data) ↔
      ∃ dlc : UInt8, Holds v id flags dlc data ∧ dlc.toNat = n := by
  constructor
  · intro h
    unfold fieldsOf? at h
    split at h
    · rename_i hfields
      simp only [Option.bind_eq_bind, Option.bind_eq_some_iff, Option.pure_def, Option.some.injEq,
        Value.nat?_eq_some_iff, rawDataOf?_eq_some_iff, Prod.mk.injEq] at h
      obtain ⟨k, ⟨rfl, hk⟩, l, ⟨rfl, hl⟩, m, ⟨rfl, hm⟩, _, rfl, rfl, rfl, rfl, rfl⟩ := h
      refine ⟨UInt8.ofNat m, ?_, UInt8.toNat_ofNat_of_lt' (Nat.lt_succ_of_le hm)⟩
      rw [Holds, UInt32.toNat_ofNat_of_lt' (Nat.lt_succ_of_le hk),
        UInt8.toNat_ofNat_of_lt' (Nat.lt_succ_of_le hl),
        UInt8.toNat_ofNat_of_lt' (Nat.lt_succ_of_le hm)]
      exact fields?_eq_some_iff.mp hfields
    · cases h
  · rintro ⟨dlc, hholds, rfl⟩
    have hid := id.toNat_lt
    have hflags := flags.toNat_lt
    have hdlc := dlc.toNat_lt
    unfold fieldsOf?
    rw [fields?_eq_some_iff.mpr hholds]
    simp only [Option.bind_eq_bind, Value.nat?_eq_some_iff.mpr ⟨rfl, Nat.le_of_lt_succ hid⟩,
      Value.nat?_eq_some_iff.mpr ⟨rfl, Nat.le_of_lt_succ hflags⟩,
      Value.nat?_eq_some_iff.mpr ⟨rfl, Nat.le_of_lt_succ hdlc⟩, rawDataOf?_eq_some_iff.mpr rfl,
      Option.bind_some, UInt32.ofNat_toNat, UInt8.ofNat_toNat]
    rfl

section

variable {id : UInt32} {flags dlc : UInt8} {data : Vector UInt8 8}

theorem ofValue_of_holds (h : Holds v id flags dlc data) :
    ofValue v = (ofFields id flags dlc.toNat data).mapError .parts := by
  rw [ofValue, fieldsOf?_eq_some_iff.mpr ⟨dlc, h, rfl⟩]

/-- A frame is what gives its fields. -/
theorem ofValue_eq_ok_iff : ofValue v = .ok f ↔
    ∃ dlc : UInt8, Holds v f.rawId f.flags dlc f.rawData ∧ dlc.toNat = f.dlc := by
  constructor
  · intro h
    cases hfields : fieldsOf? v with
    | none =>
      rw [ofValue, hfields] at h
      cases h
    | some fields =>
      obtain ⟨id, flags, n, data⟩ := fields
      obtain ⟨dlc, hholds, rfl⟩ := fieldsOf?_eq_some_iff.mp hfields
      rw [ofValue_of_holds hholds, ofFields] at h
      split at h
      · cases h
        exact ⟨dlc, hholds, rfl⟩
      · cases h
  · rintro ⟨dlc, hholds, hdlc⟩
    rw [ofValue_of_holds hholds, hdlc, ofFields, dif_pos f.dlc_le]
    rfl

/-! ## Records with the same fields -/

/-- The sixteen bytes in which fields cross a transport. -/
def layout (id : UInt32) (flags dlc : UInt8) (data : Vector UInt8 8) : List UInt8 :=
  [byteOf id 0, byteOf id 1, byteOf id 2, byteOf id 3, dlc, flags, 0, 0] ++ data.toList

/-- Decoding a record says the same of its fields as reading them. -/
theorem decode_layout (id : UInt32) (flags dlc : UInt8) (data : Vector UInt8 8) :
    decode (layout id flags dlc data) =
      (ofFields id flags dlc.toNat data).mapError FrameFault.toError := by
  have hdata : #v[data[0], data[1], data[2], data[3], data[4], data[5], data[6], data[7]] =
      data := by
    refine Vector.ext fun i hi => ?_
    interval_cases i <;> rfl
  have hbytes : layout id flags dlc data = [byteOf id 0, byteOf id 1, byteOf id 2, byteOf id 3,
      dlc, flags, 0, 0, data[0], data[1], data[2], data[3], data[4], data[5], data[6], data[7]] := by
    rw [layout, ← hdata]
    rfl
  rw [hbytes, decode_recordOf (by rfl), ofWire]
  simp only [recordOf, Vector.getElem_mk, List.getElem_toArray, List.getElem_cons_zero,
    List.getElem_cons_succ, wordOf_byteOf, hdata]

/-- A value and the record with the same fields are read as the same frame. -/
theorem ofValue_eq_ok_iff_decode (h : Holds v id flags dlc data) :
    ofValue v = .ok f ↔ decode (layout id flags dlc data) = .ok f := by
  rw [ofValue_of_holds h, decode_layout]
  cases ofFields id flags dlc.toNat data with
  | ok f' =>
    constructor
    · intro hread
      cases hread
      rfl
    · intro hread
      cases hread
      rfl
  | error fault => exact ⟨nofun, nofun⟩

end

end Frame

end CanTransport
