import CanTransport.Proofs.Frame.Fields
import CanTransport.Proofs.Frame.Notation
/-!
# Where frames come from

Whatever a frame is made of states the fields that are to be stored, and each way of making one
checks the stated length by itself. All of them come to the same: a length of at most eight is
stored as it is stated, and a greater one, which would count bytes that are not stored, is refused.
-/

namespace CanTransport.Frame

open Text (Numeral)

/-! ## Stored fields -/

/-- The fields of a frame, with any length. -/
structure Fields where
  rawId : UInt32
  flags : UInt8
  dlc : Nat
  rawData : Vector UInt8 8

/-- The bytes that the length counts, if as many are stored. -/
def Fields.data? (fields : Fields) : Option (List UInt8) :=
  let stored := fields.rawData.toList
  if fields.dlc ≤ stored.length then some (stored.take fields.dlc) else none

/-- The fields that a frame has stored. -/
def fields (f : Frame) : Fields := ⟨f.rawId, f.flags, f.dlc, f.rawData⟩

variable {f g : Frame} {fields fields' : Fields} {id rawId : UInt32} {flags : UInt8} {dlc : Nat}
  {data : List UInt8} {rawData : Vector UInt8 8} {isExtended isRemote : Bool}

theorem fields_inj : f.fields = g.fields ↔ f = g := by
  constructor
  · intro h
    obtain ⟨hid, hflags, hdlc, hdata⟩ := Fields.mk.inj h
    exact eq_of_fields hid hflags hdlc hdata
  · intro h
    rw [h]

theorem dlc_le_of_fields (h : f.fields = fields) : fields.dlc ≤ 8 := h ▸ f.dlc_le

/-- The length is all that fields can have wrong. -/
theorem exists_fields_iff : (∃ f : Frame, f.fields = fields) ↔ fields.dlc ≤ 8 := by
  constructor
  · rintro ⟨f, hfields⟩
    exact dlc_le_of_fields hfields
  · intro h
    exact ⟨⟨fields.rawId, fields.flags, fields.dlc, fields.rawData, h⟩, rfl⟩

theorem Fields.data?_eq_none_iff : fields.data? = none ↔ 8 < fields.dlc := by
  rw [data?, Vector.length_toList]
  split
  · rename_i hle
    exact iff_of_false nofun (Nat.not_lt.mpr hle)
  · rename_i hlt
    exact iff_of_true rfl (Nat.not_le.mp hlt)

theorem data?_fields (f : Frame) : f.fields.data? = some f.data := by
  have hle : f.dlc ≤ f.rawData.toList.length := by
    rw [Vector.length_toList]
    exact f.dlc_le
  exact if_pos hle

/-! ## Making frames -/

/-- The one check that is left when the fields are known. -/
theorem checked_eq_ok_iff (fields : Fields) {fault : FrameFault} :
    (if h : fields.dlc ≤ 8 then
      .ok ⟨fields.rawId, fields.flags, fields.dlc, fields.rawData, h⟩
    else .error fault) = (.ok f : Except FrameFault Frame) ↔ f.fields = fields := by
  split
  · rename_i hle
    have hstored : (⟨fields.rawId, fields.flags, fields.dlc, fields.rawData, hle⟩ : Frame).fields =
        fields := rfl
    rw [Except.ok.injEq, ← fields_inj, hstored, eq_comm]
  · rename_i hlt
    refine iff_of_false (fun h => ?_) fun h => hlt (dlc_le_of_fields h)
    cases h

theorem ofRaw_eq_ok_iff :
    ofRaw rawId flags data = .ok f ↔ f.fields = ⟨rawId, flags, data.length, padded data⟩ :=
  checked_eq_ok_iff ⟨rawId, flags, data.length, padded data⟩

theorem ofFields_eq_ok_iff :
    ofFields rawId flags dlc rawData = .ok f ↔ f.fields = ⟨rawId, flags, dlc, rawData⟩ :=
  checked_eq_ok_iff ⟨rawId, flags, dlc, rawData⟩

/-- An identifier of more bits than a standard frame has. -/
def isLong (id : UInt32) : Bool := standardMask < id

theorem le_idLimit_isLong (h : id ≤ extendedMask) : id ≤ idLimit (isLong id) := by
  cases hlong : isLong id with
  | true => exact h
  | false => exact UInt32.not_lt.mp (of_decide_eq_false hlong)

theorem formatWord_isLong (id : UInt32) :
    (if id > standardMask then id ||| extendedBit else id) = formatWord id (isLong id) false := by
  cases hlong : isLong id with
  | true => rw [if_pos (of_decide_eq_true hlong), formatWord_extended]
  | false => rw [if_neg (of_decide_eq_false hlong), ← formatWord_standard]

theorem ranged_eq_ok_iff {fault : FrameFault} {word : UInt32} :
    (if id > extendedMask then .error fault else ofRaw word 0 data) = .ok f ↔
      id ≤ extendedMask ∧ f.fields = ⟨word, 0, data.length, padded data⟩ := by
  split
  · rename_i hlt
    refine iff_of_false (fun h => ?_) fun h => UInt32.not_le.mpr hlt h.1
    cases h
  · rename_i hle
    rw [and_iff_right (UInt32.not_lt.mp hle)]
    exact ofRaw_eq_ok_iff

theorem new_eq_ok_iff : new id data = .ok f ↔ id ≤ extendedMask ∧
    f.fields = ⟨formatWord id (isLong id) false, 0, data.length, padded data⟩ := by
  rw [new, formatWord_isLong]
  exact ranged_eq_ok_iff

theorem extended_eq_ok_iff : extended id data = .ok f ↔ id ≤ extendedMask ∧
    f.fields = ⟨formatWord id true false, 0, data.length, padded data⟩ := by
  rw [extended, formatWord_extended]
  exact ranged_eq_ok_iff

/-- The length of a request is set behind the making of a frame without data, and checked before. -/
theorem remote_eq_ok_iff : remote id dlc = .ok f ↔
    id ≤ extendedMask ∧ f.fields = ⟨formatWord id (isLong id) true, 0, dlc, padded []⟩ := by
  constructor
  · intro h
    unfold remote at h
    split at h
    · cases hbase : new id [] with
      | error fault =>
        rw [hbase] at h
        cases h
      | ok base =>
        obtain ⟨hid, hfields⟩ := new_eq_ok_iff.mp hbase
        obtain ⟨hword, hflags, -, hdata⟩ := Fields.mk.inj hfields
        rw [hbase] at h
        cases h
        refine ⟨hid, ?_⟩
        rw [← formatWord_remote, ← hword, ← hflags, ← hdata]
        rfl
    · cases h
  · rintro ⟨hid, hfields⟩
    have hdlc : dlc ≤ 8 := dlc_le_of_fields hfields
    -- the frame without data stores no length of its own, and has the same word but for one bit
    obtain ⟨base, hbase⟩ : ∃ base : Frame,
        base.fields = ⟨formatWord id (isLong id) false, 0, 0, padded []⟩ :=
      exists_fields_iff.mpr (Nat.zero_le 8)
    obtain ⟨hword, hflags, -, hdata⟩ := Fields.mk.inj hbase
    have hnew : new id [] = .ok base := new_eq_ok_iff.mpr ⟨hid, hbase⟩
    rw [remote, dif_pos hdlc, hnew]
    refine congrArg Except.ok (fields_inj.mp ?_)
    rw [hfields, ← formatWord_remote, ← hword, ← hflags, ← hdata]
    rfl

/-! ## Texts -/

/-- What stands behind the `#`, a request or data, with any length. -/
inductive Body : List Char → Bool → Nat → List UInt8 → Prop where
  | request : Body ['R'] true 0 []
  | requestOf {part : List Char} {dlc : Nat} (hpart : Numeral 10 part dlc) :
      Body ('R' :: part) true dlc []
  | data {part : List Char} {data : List UInt8} (hpart : Octets (part.filter (· ≠ '.')) data) :
      Body part false data.length data

theorem payload_iff {payload : List Char} : Payload payload isRemote dlc data ↔
    Body payload isRemote dlc data ∧ dlc ≤ 8 := by
  constructor
  · intro h
    cases h with
    | request => exact ⟨.request, Nat.zero_le 8⟩
    | requestOf hpart hdlc => exact ⟨.requestOf hpart, hdlc⟩
    | data hpart hdata => exact ⟨.data hpart, hdata⟩
  · rintro ⟨hbody, hdlc⟩
    cases hbody with
    | request => exact .request
    | requestOf hpart => exact .requestOf hpart hdlc
    | data hpart => exact .data hpart hdlc

/-- Data and requests are told apart by the `R`, which is no digit. -/
theorem Body.unique {payload : List Char} {isRemote' : Bool} {dlc' : Nat} {data' : List UInt8}
    (h : Body payload isRemote dlc data) (h' : Body payload isRemote' dlc' data') :
    isRemote = isRemote' ∧ dlc = dlc' ∧ data = data' := by
  have hnil : ∀ {n}, ¬ Numeral 10 [] n := by
    intro n hnumeral
    cases hnumeral with
    | plain hdigits => exact hdigits.1 rfl
  cases h with
  | request =>
    cases h' with
    | request => exact ⟨rfl, rfl, rfl⟩
    | requestOf hpart => exact absurd hpart hnil
    | data hpart => exact absurd rfl hpart.head?_ne
  | requestOf hpart =>
    cases h' with
    | request => exact absurd hpart hnil
    | requestOf hpart' => exact ⟨rfl, hpart.unique (by decide) hpart', rfl⟩
    | data hpart' => exact absurd rfl hpart'.head?_ne
  | data hpart =>
    cases h' with
    | request | requestOf => exact absurd rfl hpart.head?_ne
    | data hpart' =>
      have hsame := (pairs?_eq_some_iff.mpr hpart).symm.trans (pairs?_eq_some_iff.mpr hpart')
      obtain rfl := Option.some_inj.mp hsame
      exact ⟨rfl, rfl, rfl⟩

theorem Identifier.unique {part : List Char} {isExtended' : Bool} {n n' : Nat}
    (h : Identifier part isExtended n) (h' : Identifier part isExtended' n') :
    isExtended = isExtended' ∧ n = n' :=
  ⟨Bool.eq_iff_iff.mpr (h.format_iff.trans h'.format_iff.symm),
    h.numeral.unique (Nat.le_refl 16) h'.numeral⟩

theorem tells_iff :
    f.Tells id isExtended isRemote dlc data ↔
      f.fields = ⟨formatWord id isExtended isRemote, 0, dlc, padded data⟩ := by
  constructor
  · rintro ⟨hword, hflags, hdlc, hdata⟩
    rw [Frame.fields, hword, hflags, hdlc, hdata]
  · intro h
    obtain ⟨hword, hflags, hdlc, hdata⟩ := Fields.mk.inj h
    exact ⟨hword, hflags, hdlc, hdata⟩

/-- The texts that are read, with the length checked last. -/
theorem ofText_eq_ok_iff_fields {s : String} : ofText s = .ok f ↔
    ∃ part payload isExtended isRemote id dlc data,
      s.toList = part ++ '#' :: payload ∧ '#' ∉ part ∧ Identifier part isExtended id ∧
        Body payload isRemote dlc data ∧
        f.fields = ⟨formatWord (UInt32.ofNat id) isExtended isRemote, 0, dlc, padded data⟩ := by
  constructor
  · intro h
    have hnotates := notates_of_ofText h
    generalize s.toList = text at hnotates
    cases hnotates with
    | mk hhash hid hpayload htells =>
      exact ⟨_, _, _, _, _, _, _, rfl, hhash, hid, (payload_iff.mp hpayload).1,
        tells_iff.mp htells⟩
  · rintro ⟨part, payload, isExtended, isRemote, id, dlc, data, htext, hhash, hid, hbody, hfields⟩
    have hdlc : dlc ≤ 8 := dlc_le_of_fields hfields
    apply ofText_of_notates
    rw [htext]
    exact .mk hhash hid (payload_iff.mpr ⟨hbody, hdlc⟩) (tells_iff.mpr hfields)

/-! ## Records and values -/

theorem toNat_ofNat_dlc (f : Frame) : (UInt8.ofNat f.dlc).toNat = f.dlc :=
  UInt8.toNat_ofNat_of_lt' (Nat.lt_of_le_of_lt f.dlc_le (by decide))

theorem decode_layout_iff {dlc : UInt8} :
    decode (layout id flags dlc rawData) = .ok f ↔ f.fields = ⟨id, flags, dlc.toNat, rawData⟩ := by
  rw [decode_layout]
  constructor
  · intro h
    exact ofFields_eq_ok_iff.mp (eq_ok_of_mapError h)
  · intro h
    rw [ofFields_eq_ok_iff.mpr h]
    rfl

/-- The record of a frame has its fields, with nothing at the two bytes that say nothing. -/
theorem encode_eq_layout (f : Frame) :
    f.encode.toList = layout f.rawId f.flags (UInt8.ofNat f.dlc) f.rawData := by
  have hfields : f.fields = ⟨f.rawId, f.flags, (UInt8.ofNat f.dlc).toNat, f.rawData⟩ := by
    rw [toNat_ofNat_dlc]
    rfl
  exact encode_of_decode (decode_layout_iff.mpr hfields)

theorem layout_inj {id' : UInt32} {flags' dlc dlc' : UInt8} {rawData' : Vector UInt8 8}
    (h : layout id flags dlc rawData = layout id' flags' dlc' rawData') :
    id = id' ∧ flags = flags' ∧ dlc = dlc' ∧ rawData = rawData' := by
  obtain ⟨hhead, hdata⟩ := List.append_inj h rfl
  -- the bytes in front are the same one by one, and the word is put together from four of them
  simp only [List.cons.injEq, and_true] at hhead
  obtain ⟨h₀, h₁, h₂, h₃, hdlc, hflags⟩ := hhead
  refine ⟨?_, hflags, hdlc, Vector.toList_inj.mp hdata⟩
  rw [← wordOf_byteOf id, h₀, h₁, h₂, h₃, wordOf_byteOf]

theorem decode_eq_ok_iff {bytes : List UInt8} : decode bytes = .ok f ↔
    ∃ id flags dlc rawData, (bytes.set 6 0).set 7 0 = layout id flags dlc rawData ∧
      f.fields = ⟨id, flags, dlc.toNat, rawData⟩ := by
  constructor
  · intro h
    refine ⟨f.rawId, f.flags, UInt8.ofNat f.dlc, f.rawData, ?_, ?_⟩
    · rw [← encode_of_decode h, encode_eq_layout]
    · rw [toNat_ofNat_dlc]
      rfl
  · rintro ⟨id, flags, dlc, rawData, hbytes, hfields⟩
    have hlayout : decode (layout id flags dlc rawData) = .ok f := decode_layout_iff.mpr hfields
    have hlength : bytes.length = wireSize := by
      have hsame := congrArg List.length hbytes
      rw [List.length_set, List.length_set] at hsame
      exact hsame.trans (exists_decode_eq_ok_iff.mp ⟨f, hlayout⟩).1
    apply (decode_eq_iff hlength hlayout).mpr
    intro i h6 h7
    rw [← hbytes, List.getElem?_set_ne h7.symm, List.getElem?_set_ne h6.symm]

theorem ofValue_eq_ok_iff_fields {v : Value} : ofValue v = .ok f ↔
    ∃ id flags dlc rawData, Holds v id flags dlc rawData ∧
      f.fields = ⟨id, flags, dlc.toNat, rawData⟩ := by
  rw [ofValue_eq_ok_iff]
  constructor
  · rintro ⟨dlc, hholds, hdlc⟩
    refine ⟨f.rawId, f.flags, dlc, f.rawData, hholds, ?_⟩
    rw [hdlc]
    rfl
  · rintro ⟨id, flags, dlc, rawData, hholds, hfields⟩
    obtain ⟨rfl, rfl, hdlc, rfl⟩ := Fields.mk.inj hfields
    exact ⟨dlc, hholds, hdlc.symm⟩

theorem Holds.unique {v : Value} {id' : UInt32} {flags' dlc dlc' : UInt8}
    {rawData' : Vector UInt8 8} (h : Holds v id flags dlc rawData)
    (h' : Holds v id' flags' dlc' rawData') :
    id = id' ∧ flags = flags' ∧ dlc = dlc' ∧ rawData = rawData' := by
  have hread := fieldsOf?_eq_some_iff.mpr ⟨dlc, h, rfl⟩
  rw [fieldsOf?_eq_some_iff.mpr ⟨dlc', h', rfl⟩] at hread
  simp only [Option.some.injEq, Prod.mk.injEq, UInt8.toNat_inj] at hread
  obtain ⟨hid, hflags, hdlc, hdata⟩ := hread
  exact ⟨hid.symm, hflags.symm, hdlc.symm, hdata.symm⟩

/-! ## Origins -/

theorem toOption_eq_some_iff {ε α : Type} {made : Except ε α} {a : α} :
    made.toOption = some a ↔ made = .ok a := by
  cases made with
  | ok a' =>
    rw [Except.ok.injEq]
    exact Option.some_inj
  | error e => exact iff_of_false nofun nofun

/-- What a frame can be made of: its parts, a text, a record, a value, or whatever another frame
can be made of, with other flags. -/
inductive Origin where
  | new (id : UInt32) (data : List UInt8)
  | extended (id : UInt32) (data : List UInt8)
  | remote (id : UInt32) (dlc : Nat)
  | raw (rawId : UInt32) (flags : UInt8) (data : List UInt8)
  | text (s : String)
  | record (bytes : List UInt8)
  | value (v : Value)
  | flagged (origin : Origin) (flags : UInt8)

namespace Origin

/-- The frame that is made. -/
def frame? : Origin → Option Frame
  | .new id data => (Frame.new id data).toOption
  | .extended id data => (Frame.extended id data).toOption
  | .remote id dlc => (Frame.remote id dlc).toOption
  | .raw rawId flags data => (ofRaw rawId flags data).toOption
  | .text s => (ofText s).toOption
  | .record bytes => (decode bytes).toOption
  | .value v => (ofValue v).toOption
  | .flagged origin flags => origin.frame?.map fun f => f.withFlags flags

/-- The fields that are to be stored, whatever the length is. -/
def States : Origin → Fields → Prop
  | .new id data, fields =>
    id ≤ extendedMask ∧ fields = ⟨formatWord id (isLong id) false, 0, data.length, padded data⟩
  | .extended id data, fields =>
    id ≤ extendedMask ∧ fields = ⟨formatWord id true false, 0, data.length, padded data⟩
  | .remote id dlc, fields =>
    id ≤ extendedMask ∧ fields = ⟨formatWord id (isLong id) true, 0, dlc, padded []⟩
  | .raw rawId flags data, fields => fields = ⟨rawId, flags, data.length, padded data⟩
  | .text s, fields => ∃ part payload isExtended isRemote id dlc data,
    s.toList = part ++ '#' :: payload ∧ '#' ∉ part ∧ Identifier part isExtended id ∧
      Body payload isRemote dlc data ∧
      fields = ⟨formatWord (UInt32.ofNat id) isExtended isRemote, 0, dlc, padded data⟩
  | .record bytes, fields => ∃ id flags dlc rawData,
    (bytes.set 6 0).set 7 0 = layout id flags dlc rawData ∧
      fields = ⟨id, flags, dlc.toNat, rawData⟩
  | .value v, fields => ∃ id flags dlc rawData,
    Holds v id flags dlc rawData ∧ fields = ⟨id, flags, dlc.toNat, rawData⟩
  | .flagged origin flags, fields => ∃ under, origin.States under ∧
    fields = { under with flags := flags }

variable {origin : Origin}

/-- A frame is made exactly if its fields are those that are stated. -/
theorem frame?_eq_some_iff : origin.frame? = some f ↔ origin.States f.fields := by
  induction origin generalizing f with
  | new id data => exact toOption_eq_some_iff.trans new_eq_ok_iff
  | extended id data => exact toOption_eq_some_iff.trans extended_eq_ok_iff
  | remote id dlc => exact toOption_eq_some_iff.trans remote_eq_ok_iff
  | raw rawId flags data => exact toOption_eq_some_iff.trans ofRaw_eq_ok_iff
  | text s => exact toOption_eq_some_iff.trans ofText_eq_ok_iff_fields
  | record bytes => exact toOption_eq_some_iff.trans decode_eq_ok_iff
  | value v => exact toOption_eq_some_iff.trans ofValue_eq_ok_iff_fields
  | flagged origin flags ih =>
    rw [frame?, Option.map_eq_some_iff]
    constructor
    · rintro ⟨under, hunder, rfl⟩
      exact ⟨under.fields, ih.mp hunder, rfl⟩
    · rintro ⟨under, hstates, hfields⟩
      -- the flags have nothing to do with the length, so a frame has the fields below them as well
      have hdlc : { under with flags := flags }.dlc ≤ 8 := dlc_le_of_fields hfields
      obtain ⟨base, rfl⟩ : ∃ base : Frame, base.fields = under := exists_fields_iff.mpr hdlc
      exact ⟨base, ih.mpr hstates, fields_inj.mp hfields.symm⟩

/-- No origin states two things. -/
theorem States.unique (h : origin.States fields) (h' : origin.States fields') :
    fields = fields' := by
  induction origin generalizing fields fields' with
  | new | extended | remote => exact h.2.trans h'.2.symm
  | raw => exact h.trans h'.symm
  | text s =>
    obtain ⟨part, payload, _, _, _, _, _, htext, hhash, hid, hbody, rfl⟩ := h
    obtain ⟨part', payload', _, _, _, _, _, htext', hhash', hid', hbody', rfl⟩ := h'
    have hparts := splitAtHash?_eq_some_iff.mpr ⟨htext, hhash⟩
    rw [splitAtHash?_eq_some_iff.mpr ⟨htext', hhash'⟩] at hparts
    cases hparts
    obtain ⟨rfl, rfl⟩ := hid.unique hid'
    obtain ⟨rfl, rfl, rfl⟩ := hbody.unique hbody'
    rfl
  | record bytes =>
    obtain ⟨_, _, _, _, hbytes, rfl⟩ := h
    obtain ⟨_, _, _, _, hbytes', rfl⟩ := h'
    obtain ⟨rfl, rfl, rfl, rfl⟩ := layout_inj (hbytes.symm.trans hbytes')
    rfl
  | value v =>
    obtain ⟨_, _, _, _, hholds, rfl⟩ := h
    obtain ⟨_, _, _, _, hholds', rfl⟩ := h'
    obtain ⟨rfl, rfl, rfl, rfl⟩ := hholds.unique hholds'
    rfl
  | flagged origin flags ih =>
    obtain ⟨under, hunder, rfl⟩ := h
    obtain ⟨under', hunder', rfl⟩ := h'
    rw [ih hunder hunder']

theorem exists_frame_iff : (∃ f, origin.frame? = some f ∧ f.fields = fields) ↔
    origin.States fields ∧ fields.dlc ≤ 8 := by
  constructor
  · rintro ⟨f, hmade, rfl⟩
    exact ⟨frame?_eq_some_iff.mp hmade, f.dlc_le⟩
  · rintro ⟨hstates, hdlc⟩
    obtain ⟨f, rfl⟩ := exists_fields_iff.mpr hdlc
    exact ⟨f, frame?_eq_some_iff.mpr hstates, rfl⟩

/-- What is refused would count bytes that are not stored. -/
theorem frame?_eq_none_iff (h : origin.States fields) :
    origin.frame? = none ↔ fields.data? = none := by
  rw [Fields.data?_eq_none_iff]
  constructor
  · intro hnone
    by_contra hdlc
    obtain ⟨f, hmade, -⟩ := exists_frame_iff.mpr ⟨h, Nat.not_lt.mp hdlc⟩
    rw [hnone] at hmade
    cases hmade
  · intro hdlc
    rw [Option.eq_none_iff_forall_ne_some]
    intro f hmade
    -- the frame would have the fields that are stated, for nothing else is
    have hfields := (frame?_eq_some_iff.mp hmade).unique h
    have hle : fields.dlc ≤ 8 := dlc_le_of_fields hfields
    omega

end Origin

/-! ## Accessors -/

/-- What a frame shows of itself, and that it reports no error. -/
structure Shows (f : Frame) (id : UInt32) (isExtended isRemote : Bool) (data : List UInt8) :
    Prop where
  id_eq : f.id = id
  isExtended_eq : f.isExtended = isExtended
  isRemote_eq : f.isRemote = isRemote
  isError_eq : f.isError = false
  data_eq : f.data = data

/-- A frame shows what its word was formatted of, and the data that were padded. -/
theorem shows_of_fields {counted : List UInt8} (hid : id ≤ idLimit isExtended)
    (h : f.fields = ⟨formatWord id isExtended isRemote, 0, dlc, padded data⟩)
    (hcounted : (padded data).toList.take dlc = counted) :
    f.Shows id isExtended isRemote counted := by
  obtain ⟨hword, -, hdlc, hdata⟩ := Fields.mk.inj h
  obtain ⟨hextended, hremote, hid'⟩ := format_of_rawId hid hword
  refine ⟨hid', hextended, hremote, ?_, ?_⟩
  · rw [isError, hword, formatWord_and_errorBit hid]
    rfl
  · rw [Frame.data, hdlc, hdata, hcounted]

theorem take_padded_nil (h : dlc ≤ 8) : (padded []).toList.take dlc = List.replicate dlc 0 := by
  have hzeros : (padded []).toList = List.replicate 8 0 := rfl
  rw [hzeros, List.take_replicate, Nat.min_eq_left h]

/-- Besides its own condition, what stores stated fields has only the length to check. -/
theorem exists_ok_iff {made : Except FrameFault Frame} {p : Prop}
    (h : ∀ f, made = .ok f ↔ p ∧ f.fields = fields) :
    (∃ f, made = .ok f) ↔ p ∧ fields.dlc ≤ 8 := by
  simp only [h, exists_and_left, exists_fields_iff]

theorem new_shows (h : new id data = .ok f) : f.Shows id (isLong id) false data := by
  obtain ⟨hid, hfields⟩ := new_eq_ok_iff.mp h
  have hdata : data.length ≤ 8 := dlc_le_of_fields hfields
  exact shows_of_fields (le_idLimit_isLong hid) hfields (take_padded hdata)

theorem extended_shows (h : extended id data = .ok f) : f.Shows id true false data := by
  obtain ⟨hid, hfields⟩ := extended_eq_ok_iff.mp h
  have hlimit : id ≤ idLimit true := hid
  have hdata : data.length ≤ 8 := dlc_le_of_fields hfields
  exact shows_of_fields hlimit hfields (take_padded hdata)

theorem remote_shows (h : remote id dlc = .ok f) :
    f.Shows id (isLong id) true (List.replicate dlc 0) := by
  obtain ⟨hid, hfields⟩ := remote_eq_ok_iff.mp h
  have hdlc : dlc ≤ 8 := dlc_le_of_fields hfields
  exact shows_of_fields (le_idLimit_isLong hid) hfields (take_padded_nil hdlc)

/-! ## Flags -/

/-- Frames that nothing tells apart but the flags. -/
structure AlikeButFlags (f g : Frame) : Prop where
  rawId_eq : f.rawId = g.rawId
  id_eq : f.id = g.id
  isExtended_eq : f.isExtended = g.isExtended
  isRemote_eq : f.isRemote = g.isRemote
  isError_eq : f.isError = g.isError
  dlc_eq : f.dlc = g.dlc
  data_eq : f.data = g.data
  rawData_eq : f.rawData = g.rawData

theorem withFlags_alike (f : Frame) (flags : UInt8) : (f.withFlags flags).AlikeButFlags f :=
  ⟨rfl, rfl, rfl, rfl, rfl, rfl, rfl, rfl⟩

/-- Of flags that are given one after the other only the last stay. -/
theorem foldl_withFlags (chain : List UInt8) (f : Frame) :
    chain.foldl withFlags f = f.withFlags (chain.getLast?.getD f.flags) := by
  induction chain generalizing f with
  | nil => rfl
  | cons flags chain ih =>
    rw [List.foldl_cons, ih, List.getLast?_cons]
    rfl

/-! ## Frames -/

/-- Fields are those of a frame that an origin makes exactly if the origin states them, with a
length of at most eight. What states a greater length is refused, and that exactly because the
length would count data bytes that are not stored; so every frame that is made has as many of them
as its length says. Making a frame of an identifier fails exactly for an identifier of more than 29
bits, for more than eight bytes of data and for a request for more, and otherwise the frame shows
what it was made of. Giving it other flags, however often, leaves everything else as it was. -/
theorem made_as_stated :
    (∀ (origin : Origin) (fields : Fields), (∃ f, origin.frame? = some f ∧ f.fields = fields) ↔
      origin.States fields ∧ fields.dlc ≤ 8) ∧
    (∀ (origin : Origin) (fields : Fields), origin.States fields →
      (origin.frame? = none ↔ fields.data? = none)) ∧
    (∀ (origin : Origin) (f : Frame), origin.frame? = some f →
      f.dlc ≤ 8 ∧ f.fields.data? = some f.data ∧ f.data.length = f.dlc) ∧
    (∀ id data, ((∃ f, new id data = .ok f) ↔ id ≤ 0x1FFFFFFF ∧ data.length ≤ 8) ∧
      ∀ f, new id data = .ok f → f.Shows id (decide (0x7FF < id)) false data) ∧
    (∀ id data, ((∃ f, extended id data = .ok f) ↔ id ≤ 0x1FFFFFFF ∧ data.length ≤ 8) ∧
      ∀ f, extended id data = .ok f → f.Shows id true false data) ∧
    (∀ id dlc, ((∃ f, remote id dlc = .ok f) ↔ id ≤ 0x1FFFFFFF ∧ dlc ≤ 8) ∧
      ∀ f, remote id dlc = .ok f →
        f.Shows id (decide (0x7FF < id)) true (List.replicate dlc 0)) ∧
    ∀ (f : Frame) (chain : List UInt8),
      (chain.foldl withFlags f).flags = chain.getLast?.getD f.flags ∧
        (chain.foldl withFlags f).AlikeButFlags f := by
  refine ⟨fun _ _ => Origin.exists_frame_iff, fun _ _ => Origin.frame?_eq_none_iff,
    fun _ f _ => ⟨f.dlc_le, data?_fields f, length_data f⟩,
    fun _ _ => ⟨exists_ok_iff fun _ => new_eq_ok_iff, fun _ => new_shows⟩,
    fun _ _ => ⟨exists_ok_iff fun _ => extended_eq_ok_iff, fun _ => extended_shows⟩,
    fun _ _ => ⟨exists_ok_iff fun _ => remote_eq_ok_iff, fun _ => remote_shows⟩, ?_⟩
  intro f chain
  rw [foldl_withFlags]
  exact ⟨rfl, withFlags_alike f _⟩

/-- The longest request for the greatest identifier; a request that is read, with other flags; and a
record with a length of nine, which other flags do not help. -/
theorem made_as_stated_of_limits :
    (∃ f, remote 0x1FFFFFFF 8 = .ok f ∧ f.Shows 0x1FFFFFFF true true (List.replicate 8 0)) ∧
    (∃ f, (Origin.flagged (.text "123#R8") 5).frame? = some f ∧ f.flags = 5 ∧
      f.data.length = 8) ∧
    (Origin.flagged (.record ([1, 2, 3, 4, 9, 0, 0, 0] ++ List.replicate 8 7)) 5).frame? =
      none := by
  obtain ⟨-, hrefused, hsound, -, -, hrequest, -⟩ := made_as_stated
  refine ⟨?_, ?_, ?_⟩
  · obtain ⟨hmade, hshows⟩ := hrequest 0x1FFFFFFF 8
    obtain ⟨f, hf⟩ := hmade.mpr ⟨by decide, by decide⟩
    exact ⟨f, hf, hshows f hf⟩
  · have hread : ofText "123#R8" = .ok ⟨0x40000123, 0, 8, Vector.replicate 8 0, by decide⟩ := by
      decide +kernel
    have hmade : (Origin.flagged (.text "123#R8") 5).frame? =
        some ⟨0x40000123, 5, 8, Vector.replicate 8 0, by decide⟩ := by
      rw [Origin.frame?, Origin.frame?, hread]
      rfl
    obtain ⟨-, -, hlength⟩ := hsound _ _ hmade
    exact ⟨_, hmade, rfl, hlength⟩
  · have hstates : (Origin.flagged
        (.record ([1, 2, 3, 4, 9, 0, 0, 0] ++ List.replicate 8 7)) 5).States
          ⟨0x04030201, 5, 9, Vector.replicate 8 7⟩ :=
      ⟨⟨0x04030201, 0, 9, Vector.replicate 8 7⟩,
        ⟨0x04030201, 0, 9, Vector.replicate 8 7, by decide, rfl⟩, rfl⟩
    exact (hrefused _ _ hstates).mpr rfl

end CanTransport.Frame
