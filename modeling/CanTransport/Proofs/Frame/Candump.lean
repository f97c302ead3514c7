import CanTransport.Frame.Candump
import CanTransport.Proofs.Text.Digits
import Mathlib.Order.Basic
/-!
# Frames and their text

A text says of a frame its format, its identifier, and its data or the length that it asks for. The
frame with nothing but these is what the text reads back as, and it is what every way of making a
frame yields.
-/

namespace CanTransport

namespace Frame

/-! ## Identifier words -/

/-- The greatest identifier of a format. -/
def idLimit (isExtended : Bool) : UInt32 := if isExtended then extendedMask else standardMask

/-- An identifier with its format bits. -/
def formatWord (id : UInt32) (isExtended isRemote : Bool) : UInt32 :=
  id ||| ((if isExtended then extendedBit else 0) ||| (if isRemote then remoteBit else 0))

theorem or_and (a b m : UInt32) : (a ||| b) &&& m = (a &&& m) ||| (b &&& m) := by
  rw [← UInt32.toNat_inj]
  simp only [UInt32.toNat_and, UInt32.toNat_or]
  exact Nat.and_or_distrib_right _ _ _

theorem and_or (w a b : UInt32) : w &&& (a ||| b) = (w &&& a) ||| (w &&& b) := by
  rw [UInt32.and_comm, or_and, UInt32.and_comm a, UInt32.and_comm b]

/-- A mask of low bits leaves every number below it alone. -/
theorem and_mask_of_le {w mask : UInt32} {bits : Nat} (hmask : mask.toNat = 2 ^ bits - 1)
    (h : w ≤ mask) : w &&& mask = w := by
  have hle : w.toNat ≤ 2 ^ bits - 1 := hmask ▸ UInt32.le_iff_toNat_le.mp h
  have hpos : 0 < 2 ^ bits := Nat.two_pow_pos bits
  rw [← UInt32.toNat_inj, UInt32.toNat_and, hmask, Nat.and_two_pow_sub_one_eq_mod]
  exact Nat.mod_eq_of_lt (by omega)

theorem and_mask_le {w mask : UInt32} : w &&& mask ≤ mask := by
  rw [UInt32.le_iff_toNat_le, UInt32.toNat_and]
  exact Nat.and_le_right

theorem and_idLimit_of_le {id : UInt32} {isExtended : Bool} (h : id ≤ idLimit isExtended) :
    id &&& idLimit isExtended = id := by
  cases isExtended with
  | true =>
    have hmask : (idLimit true).toNat = 2 ^ 29 - 1 := rfl
    exact and_mask_of_le hmask h
  | false =>
    have hmask : (idLimit false).toNat = 2 ^ 11 - 1 := rfl
    exact and_mask_of_le hmask h

/-- An identifier in range has none of the bits behind its format. -/
theorem and_eq_zero_of_le {id m : UInt32} {isExtended : Bool} (h : id ≤ idLimit isExtended)
    (hm : idLimit isExtended &&& m = 0) : id &&& m = 0 := by
  rw [← and_idLimit_of_le h, UInt32.and_assoc, hm, UInt32.and_zero]

/-- A format bit is there or it is not. -/
theorem and_bit {w bit : UInt32} {i : Nat} (hbit : bit.toBitVec = BitVec.twoPow 32 i) :
    w &&& bit = if w &&& bit != 0 then bit else 0 := by
  have hand : w &&& bit = 0 ∨ w &&& bit = bit := by
    have htwo := BitVec.and_twoPow w.toBitVec i
    rw [← hbit, ← UInt32.toBitVec_and] at htwo
    split at htwo
    · exact Or.inr (UInt32.toBitVec_inj.mp htwo)
    · exact Or.inl (UInt32.toBitVec_inj.mp htwo)
  rcases hand with hzero | hone
  · rw [hzero]
    rfl
  · rw [hone]
    split
    · rfl
    · rename_i hzero
      simpa using hzero

theorem and_extendedBit (f : Frame) :
    f.rawId &&& extendedBit = if f.isExtended then extendedBit else 0 :=
  and_bit (i := 31) rfl

theorem and_remoteBit (f : Frame) : f.rawId &&& remoteBit = if f.isRemote then remoteBit else 0 :=
  and_bit (i := 30) rfl

theorem id_le (f : Frame) : f.id ≤ idLimit f.isExtended := and_mask_le

section Format

variable {id : UInt32} {isExtended isRemote : Bool}

theorem formatWord_and_extendedBit (h : id ≤ idLimit isExtended) :
    formatWord id isExtended isRemote &&& extendedBit = if isExtended then extendedBit else 0 := by
  have hid : id &&& extendedBit = 0 := and_eq_zero_of_le h (by cases isExtended <;> rfl)
  rw [formatWord, or_and, hid, UInt32.zero_or]
  cases isExtended <;> cases isRemote <;> rfl

theorem formatWord_and_remoteBit (h : id ≤ idLimit isExtended) :
    formatWord id isExtended isRemote &&& remoteBit = if isRemote then remoteBit else 0 := by
  have hid : id &&& remoteBit = 0 := and_eq_zero_of_le h (by cases isExtended <;> rfl)
  rw [formatWord, or_and, hid, UInt32.zero_or]
  cases isExtended <;> cases isRemote <;> rfl

theorem formatWord_and_errorBit (h : id ≤ idLimit isExtended) :
    formatWord id isExtended isRemote &&& errorBit = 0 := by
  have hid : id &&& errorBit = 0 := and_eq_zero_of_le h (by cases isExtended <;> rfl)
  rw [formatWord, or_and, hid, UInt32.zero_or]
  cases isExtended <;> cases isRemote <;> rfl

theorem formatWord_and_idLimit (h : id ≤ idLimit isExtended) :
    formatWord id isExtended isRemote &&& idLimit isExtended = id := by
  rw [formatWord, or_and, and_idLimit_of_le h]
  cases isExtended <;> cases isRemote <;> exact UInt32.or_zero

end Format

/-! ## Normal frames -/

/-- A frame without what its text does not say: the error bit, the flags, identifier bits outside
its format, and data bytes that do not count. -/
def normal (f : Frame) : Frame :=
  { f with
    rawId := f.rawId &&& (extendedBit ||| remoteBit) ||| f.id
    flags := 0
    rawData := padded (if f.isRemote then [] else f.data) }

/-- A frame that says nothing but its format, its identifier, and its data or its length. -/
inductive Plain : Frame → Prop where
  | data {id : UInt32} {isExtended : Bool} {data : List UInt8} (hid : id ≤ idLimit isExtended)
      (hdata : data.length ≤ 8) :
      Plain ⟨formatWord id isExtended false, 0, data.length, padded data, hdata⟩
  | remote {id : UInt32} {isExtended : Bool} {dlc : Nat} (hid : id ≤ idLimit isExtended)
      (hdlc : dlc ≤ 8) : Plain ⟨formatWord id isExtended true, 0, dlc, padded [], hdlc⟩

theorem normal_rawId (f : Frame) : f.normal.rawId = formatWord f.id f.isExtended f.isRemote := by
  show f.rawId &&& (extendedBit ||| remoteBit) ||| f.id = _
  rw [and_or, and_extendedBit, and_remoteBit, UInt32.or_comm]
  rfl

theorem length_data (f : Frame) : f.data.length = f.dlc := by
  have hle := f.dlc_le
  rw [data, List.length_take, Vector.length_toList]
  omega

theorem getElem_padded (data : List UInt8) {i : Nat} (hi : i < 8) :
    (padded data)[i] = data.getD i 0 :=
  Vector.getElem_ofFn hi

/-- The first bytes of padded data are the data. -/
theorem take_padded {data : List UInt8} (h : data.length ≤ 8) :
    (padded data).toList.take data.length = data := by
  refine List.ext_getElem ?_ fun i hi hi' => ?_
  · rw [List.length_take, Vector.length_toList]
    omega
  · rw [List.getElem_take, Vector.getElem_toList, getElem_padded]
    exact (List.getElem_eq_getD 0).symm

theorem eq_of_fields {f g : Frame} (hid : f.rawId = g.rawId) (hflags : f.flags = g.flags)
    (hdlc : f.dlc = g.dlc) (hdata : f.rawData = g.rawData) : f = g := by
  cases f
  cases g
  simp_all

theorem format_of_rawId {f : Frame} {id : UInt32} {isExtended isRemote : Bool}
    (hid : id ≤ idLimit isExtended) (h : f.rawId = formatWord id isExtended isRemote) :
    f.isExtended = isExtended ∧ f.isRemote = isRemote ∧ f.id = id := by
  have hextended : f.isExtended = isExtended := by
    rw [Frame.isExtended, h, formatWord_and_extendedBit hid]
    cases isExtended <;> rfl
  refine ⟨hextended, ?_, ?_⟩
  · rw [Frame.isRemote, h, formatWord_and_remoteBit hid]
    cases isRemote <;> rfl
  · rw [Frame.id, hextended, h]
    exact formatWord_and_idLimit hid

/-- Frames that say nothing but what their text says are normal. -/
theorem Plain.normal_eq {f : Frame} (h : Plain f) : f.normal = f := by
  cases h with
  | @data id isExtended data hid hdata =>
    have hword : (⟨formatWord id isExtended false, 0, data.length, padded data, hdata⟩ :
        Frame).rawId = formatWord id isExtended false := rfl
    obtain ⟨hextended, hremote, hid'⟩ := format_of_rawId hid hword
    refine eq_of_fields ?_ rfl rfl ?_
    · rw [normal_rawId, hextended, hremote, hid']
    · simp only [normal, hremote, Bool.false_eq_true, if_false]
      rw [Frame.data, take_padded hdata]
  | @remote id isExtended dlc hid hdlc =>
    have hword : (⟨formatWord id isExtended true, 0, dlc, padded [], hdlc⟩ :
        Frame).rawId = formatWord id isExtended true := rfl
    obtain ⟨hextended, hremote, hid'⟩ := format_of_rawId hid hword
    refine eq_of_fields ?_ rfl rfl ?_
    · rw [normal_rawId, hextended, hremote, hid']
    · simp only [normal, hremote, if_true]

/-! ## Making frames -/

section Making

variable {id : UInt32} {data : List UInt8} {dlc : Nat} {f : Frame}

theorem ofRaw_of_le {rawId : UInt32} {flags : UInt8} (h : data.length ≤ 8) :
    ofRaw rawId flags data = .ok ⟨rawId, flags, data.length, padded data, h⟩ := dif_pos h

theorem formatWord_extended (id : UInt32) : id ||| extendedBit = formatWord id true false := by
  rw [formatWord, if_pos rfl, if_neg Bool.false_ne_true, UInt32.or_zero]

theorem formatWord_standard (id : UInt32) : id = formatWord id false false := by
  rw [formatWord, if_neg Bool.false_ne_true, if_neg Bool.false_ne_true, UInt32.or_zero,
    UInt32.or_zero]

theorem formatWord_remote (id : UInt32) (isExtended : Bool) :
    formatWord id isExtended false ||| remoteBit = formatWord id isExtended true := by
  rw [formatWord, if_neg Bool.false_ne_true, UInt32.or_zero, UInt32.or_assoc]
  rfl

theorem extended_of_le (hid : id ≤ extendedMask) (hdata : data.length ≤ 8) :
    extended id data = .ok ⟨formatWord id true false, 0, data.length, padded data, hdata⟩ := by
  rw [extended, if_neg (UInt32.not_lt.mpr hid), ofRaw_of_le hdata, formatWord_extended]

theorem new_of_le (hid : id ≤ standardMask) (hdata : data.length ≤ 8) :
    new id data = .ok ⟨formatWord id false false, 0, data.length, padded data, hdata⟩ := by
  have hrange : id ≤ extendedMask := UInt32.le_trans hid (by decide)
  rw [new, if_neg (UInt32.not_lt.mpr hrange), if_neg (UInt32.not_lt.mpr hid), ofRaw_of_le hdata,
    ← formatWord_standard]

theorem new_of_lt (hid : standardMask < id) : new id data =
    if id > extendedMask then .error (.standardRange id) else extended id data := by
  rw [new, if_pos hid]
  split
  · rfl
  · rename_i hrange
    rw [extended, if_neg hrange]

theorem remote_of_le (hid : id ≤ standardMask) (hdlc : dlc ≤ 8) :
    remote id dlc = .ok ⟨formatWord id false true, 0, dlc, padded [], hdlc⟩ := by
  rw [remote, dif_pos hdlc, new_of_le hid (by decide : [].length ≤ 8), ← formatWord_remote]
  rfl

theorem extended_eq_ok (h : extended id data = .ok f) :
    ∃ hdata : data.length ≤ 8, id ≤ extendedMask ∧
      f = ⟨formatWord id true false, 0, data.length, padded data, hdata⟩ := by
  by_cases hid : id ≤ extendedMask
  · by_cases hdata : data.length ≤ 8
    · rw [extended_of_le hid hdata] at h
      cases h
      exact ⟨hdata, hid, rfl⟩
    · rw [extended, if_neg (UInt32.not_lt.mpr hid), ofRaw, dif_neg hdata] at h
      cases h
  · rw [extended, if_pos (UInt32.not_le.mp hid)] at h
    cases h

/-- Whether a frame made of an identifier is extended depends on the identifier alone. -/
theorem new_eq_ok (h : new id data = .ok f) :
    ∃ (isExtended : Bool) (hdata : data.length ≤ 8), id ≤ idLimit isExtended ∧
      f = ⟨formatWord id isExtended false, 0, data.length, padded data, hdata⟩ := by
  by_cases hid : id ≤ standardMask
  · by_cases hdata : data.length ≤ 8
    · rw [new_of_le hid hdata] at h
      cases h
      exact ⟨false, hdata, hid, rfl⟩
    · have hrange : id ≤ extendedMask := UInt32.le_trans hid (by decide)
      rw [new, if_neg (UInt32.not_lt.mpr hrange), ofRaw, dif_neg hdata] at h
      cases h
  · rw [new_of_lt (UInt32.not_le.mp hid)] at h
    split at h
    · cases h
    · obtain ⟨hdata, hrange, rfl⟩ := extended_eq_ok h
      exact ⟨true, hdata, hrange, rfl⟩

theorem Plain.of_extended (h : extended id data = .ok f) : Plain f := by
  obtain ⟨hdata, hid, rfl⟩ := extended_eq_ok h
  have hlimit : id ≤ idLimit true := hid
  exact .data hlimit hdata

theorem Plain.of_new (h : new id data = .ok f) : Plain f := by
  obtain ⟨isExtended, hdata, hid, rfl⟩ := new_eq_ok h
  exact .data hid hdata

theorem Plain.of_remote (h : Frame.remote id dlc = .ok f) : Plain f := by
  rw [Frame.remote] at h
  split at h
  · rename_i hdlc
    cases hnew : new id [] with
    | error fault =>
      rw [hnew] at h
      cases h
    | ok base =>
      obtain ⟨isExtended, hdata, hid, rfl⟩ := new_eq_ok hnew
      rw [hnew] at h
      cases h
      simp only [formatWord_remote]
      exact .remote hid hdlc
  · cases h

end Making

/-! ## Reading -/

theorem splitAtHash?_append {before behind : List Char} (h : '#' ∉ before) :
    splitAtHash? (before ++ '#' :: behind) = some (before, behind) := by
  induction before with
  | nil => rfl
  | cons c before ih =>
    rw [List.mem_cons, not_or] at h
    have hne : c ≠ '#' := Ne.symm h.1
    rw [List.cons_append, splitAtHash?, ih h.2]
    · rfl
    · exact hne

theorem pairs?_upperBytes (bytes : List UInt8) : pairs? (Text.upperBytes bytes) = some bytes := by
  induction bytes with
  | nil => rfl
  | cons b bytes ih =>
    have hlt := b.toNat_lt
    have hread : Text.readUnsigned? 16 255 (Text.fixedDigits 16 Text.upperDigit 2 b.toNat) =
        some b.toNat :=
      Text.readUnsigned?_fixedDigits Text.writes_upperDigit (by decide) hlt (by omega)
    rw [Text.upperBytes_cons, pairs?,
      show [_, _] = Text.fixedDigits 16 Text.upperDigit 2 b.toNat from rfl, hread, ih]
    simp

/-- The characters of digits are none of those that mean something else in the text of a frame. -/
theorem upperDigit_plain {d : Nat} (h : d < 16) :
    Text.upperDigit d ≠ '#' ∧ Text.upperDigit d ≠ 'R' ∧ Text.upperDigit d ≠ '.' ∧
      (Text.upperDigit d).toNat < 128 := by
  have hall : ∀ d < 16, Text.upperDigit d ≠ '#' ∧ Text.upperDigit d ≠ 'R' ∧
      Text.upperDigit d ≠ '.' ∧ (Text.upperDigit d).toNat < 128 := by decide
  exact hall d h

section Parts

variable {id : UInt32} {isExtended : Bool} {payload : List Char} {f : Frame}

/-- Data and requests are told apart by the first character. -/
theorem ofParts_data (h : payload.head? ≠ some 'R') : ofParts id isExtended payload =
    let digits := payload.filter (· ≠ '.')
    if digits.any (fun c => 128 ≤ c.toNat) || digits.length % 2 ≠ 0 then .error (.dataPairs payload)
    else
      match pairs? digits with
      | none => .error (.data payload)
      | some data => (if isExtended then extended id data else new id data).mapError .parts := by
  unfold ofParts
  split
  · exact absurd rfl h
  · rfl

theorem ofParts_upperBytes {data : List UInt8} (hid : id ≤ idLimit isExtended)
    (hdata : data.length ≤ 8) : ofParts id isExtended (Text.upperBytes data) =
      .ok ⟨formatWord id isExtended false, 0, data.length, padded data, hdata⟩ := by
  have hplain : ∀ c ∈ Text.upperBytes data, c ≠ '#' ∧ c ≠ 'R' ∧ c ≠ '.' ∧ c.toNat < 128 := by
    intro c hc
    obtain ⟨d, hd, rfl⟩ := Text.mem_upperBytes hc
    exact upperDigit_plain hd
  have hhead : (Text.upperBytes data).head? ≠ some 'R' := by
    intro hhead
    exact (hplain 'R' (List.mem_of_head? hhead)).2.1 rfl
  have hfilter : (Text.upperBytes data).filter (· ≠ '.') = Text.upperBytes data := by
    rw [List.filter_eq_self]
    intro c hc
    simpa using (hplain c hc).2.2.1
  have hascii : (Text.upperBytes data).any (fun c => 128 ≤ c.toNat) = false := by
    rw [List.any_eq_false]
    intro c hc
    simpa using (hplain c hc).2.2.2
  have heven : (Text.upperBytes data).length % 2 = 0 := by
    rw [Text.length_upperBytes]
    exact Nat.mul_mod_right 2 _
  rw [ofParts_data hhead]
  simp only [hfilter, hascii, heven, pairs?_upperBytes]
  cases isExtended with
  | true =>
    simp only [if_true, extended_of_le hid hdata]
    rfl
  | false =>
    simp only [Bool.false_eq_true, if_false, new_of_le hid hdata]
    rfl

theorem ofParts_remote {dlc : Nat} (hid : id ≤ idLimit isExtended) (hdlc : dlc ≤ 8) :
    ofParts id isExtended ('R' :: (Text.decimal dlc).toList) =
      .ok ⟨formatWord id isExtended true, 0, dlc, padded [], hdlc⟩ := by
  have hlength : remoteLength? (Text.decimal dlc).toList = some dlc := by
    rw [remoteLength?, if_neg Text.decimal_ne_nil]
    exact Text.readUnsigned?_decimal (by omega)
  simp only [ofParts, hlength]
  cases isExtended with
  | true =>
    have hbase := extended_of_le hid (show ([] : List UInt8).length ≤ 8 by decide)
    have hfields : ofFields (formatWord id true false ||| remoteBit) 0 dlc (padded []) =
        .ok ⟨formatWord id true true, 0, dlc, padded [], hdlc⟩ := by
      rw [ofFields, dif_pos hdlc, formatWord_remote]
    simp only [if_true, hbase, Except.bind, hfields]
    rfl
  | false =>
    simp only [Bool.false_eq_true, if_false, remote_of_le hid hdlc]
    rfl

theorem eq_ok_of_mapError {ε ε' α : Type} {x : Except ε α} {g : ε → ε'} {a : α}
    (h : x.mapError g = .ok a) : x = .ok a := by
  cases x with
  | ok b =>
    cases h
    rfl
  | error e => cases h

theorem Plain.of_ofParts (h : ofParts id isExtended payload = .ok f) : Plain f := by
  by_cases hhead : payload.head? = some 'R'
  · obtain ⟨length, rfl⟩ := List.head?_eq_some_iff.mp hhead
    simp only [ofParts] at h
    split at h
    · cases h
    · rename_i dlc _
      split at h
      · have hfields := eq_ok_of_mapError h
        cases hbase : extended id [] with
        | error fault =>
          rw [hbase] at hfields
          cases hfields
        | ok base =>
          obtain ⟨hdata, hid, rfl⟩ := extended_eq_ok hbase
          rw [hbase] at hfields
          simp only [Except.bind, ofFields, formatWord_remote] at hfields
          split at hfields
          · rename_i hdlc
            cases hfields
            have hlimit : id ≤ idLimit true := hid
            exact .remote hlimit hdlc
          · cases hfields
      · exact .of_remote (eq_ok_of_mapError h)
  · rw [ofParts_data hhead] at h
    simp only at h
    split at h
    · cases h
    · split at h
      · cases h
      · have hmade := eq_ok_of_mapError h
        split at hmade
        · exact .of_extended hmade
        · exact .of_new hmade

end Parts

theorem Plain.of_ofChars {s : List Char} {f : Frame} (h : ofChars s = .ok f) : Plain f := by
  unfold ofChars at h
  split at h
  · cases h
  · split at h
    · cases h
    · simp only at h
      split at h
      · cases h
      · exact .of_ofParts h

/-- The text of a frame reads back as the frame without what the text does not say. -/
theorem ofChars_chars (f : Frame) : ofChars f.chars = .ok f.normal := by
  have hnormal : ∀ {rawData : Vector UInt8 8} {dlc : Nat} (hdlc : dlc ≤ 8), dlc = f.dlc →
      rawData = padded (if f.isRemote then [] else f.data) →
      ⟨formatWord f.id f.isExtended f.isRemote, 0, dlc, rawData, hdlc⟩ = f.normal := by
    intro rawData dlc hdlc hlength hdata
    exact eq_of_fields (normal_rawId f).symm rfl hlength hdata
  -- the identifier is read as it was written, and so is its format, from the number of digits
  obtain ⟨width, hwidth⟩ : ∃ width, (if f.isExtended then 8 else 3) = width + 1 := by
    cases f.isExtended
    · exact ⟨2, rfl⟩
    · exact ⟨7, rfl⟩
  have hid := f.id_le
  have hlimit : f.id.toNat ≤ (idLimit f.isExtended).toNat := UInt32.le_iff_toNat_le.mp hid
  have hlt : f.id.toNat < 16 ^ (width + 1) := by
    rw [← hwidth]
    refine Nat.lt_of_le_of_lt hlimit ?_
    cases f.isExtended <;> decide
  have hread : Text.readUnsigned? 16 0xFFFFFFFF
      (Text.fixedDigits 16 Text.upperDigit (width + 1) f.id.toNat) = some f.id.toNat :=
    Text.readUnsigned?_fixedDigits Text.writes_upperDigit (by decide) hlt
      (by have hword := f.id.toNat_lt; omega)
  have hhash : '#' ∉ Text.fixedDigits 16 Text.upperDigit (width + 1) f.id.toNat := by
    intro hmem
    obtain ⟨d, hd, heq⟩ := Text.mem_fixedDigits (by decide) hmem
    exact (upperDigit_plain hd).1 heq.symm
  have hformat : decide (width + 1 > 3) = f.isExtended := by
    rw [← hwidth]
    cases f.isExtended <;> rfl
  have hrange : (!f.isExtended && decide (f.id.toNat > 0x7FF)) = false := by
    cases hextended : f.isExtended with
    | true => rfl
    | false =>
      rw [hextended] at hlimit
      have hsmall : f.id.toNat ≤ 0x7FF := hlimit
      simpa using hsmall
  unfold ofChars chars
  rw [hwidth, splitAtHash?_append hhash]
  simp only [hread, Text.length_fixedDigits, hformat, hrange, Bool.false_eq_true, if_false,
    UInt32.ofNat_toNat]
  cases hremote : f.isRemote with
  | true =>
    rw [hremote] at hnormal
    rw [if_pos rfl, ofParts_remote hid f.dlc_le]
    exact congrArg Except.ok (hnormal f.dlc_le rfl rfl)
  | false =>
    rw [hremote] at hnormal
    have hdata : f.data.length ≤ 8 := (length_data f).symm ▸ f.dlc_le
    rw [if_neg Bool.false_ne_true, ofParts_upperBytes hid hdata]
    exact congrArg Except.ok (hnormal hdata (length_data f) rfl)

/-- A frame and its normal form have the same text. -/
theorem chars_normal (f : Frame) : f.normal.chars = f.chars := by
  obtain ⟨hextended, hremote, hid⟩ := format_of_rawId f.id_le (normal_rawId f)
  unfold chars
  rw [hextended, hremote, hid]
  cases hformat : f.isRemote with
  | true => rfl
  | false =>
    have hdata : f.normal.data = f.data := by
      have hlength := length_data f
      have htake := take_padded (hlength.symm ▸ f.dlc_le)
      rw [hlength] at htake
      simp only [data, normal, hformat, Bool.false_eq_true, if_false]
      exact htake
    rw [hdata]
    rfl

theorem ofText_text (f : Frame) : ofText f.text = .ok f.normal := by
  rw [ofText, text, String.toList_ofList, ofChars_chars]
  rfl

/-- Frames that are made from an identifier with data or a length, or read from a text. -/
inductive Made (f : Frame) : Prop where
  | new {id : UInt32} {data : List UInt8} (h : new id data = .ok f)
  | extended {id : UInt32} {data : List UInt8} (h : extended id data = .ok f)
  | remote {id : UInt32} {dlc : Nat} (h : remote id dlc = .ok f)
  | read {s : String} (h : ofText s = .ok f)

theorem Made.plain {f : Frame} (h : Made f) : Plain f := by
  cases h with
  | new h => exact .of_new h
  | extended h => exact .of_extended h
  | remote h => exact .of_remote h
  | read h => exact .of_ofChars (eq_ok_of_mapError h)

/-- The text of every frame reads back as its normal form, which is the frame itself for one that
was made or read; so reading what is written for a text that was read changes nothing, and frames
have the same text exactly if they have the same normal form. -/
theorem text_round_trip :
    (∀ f : Frame, ofText f.text = .ok f.normal) ∧
    (∀ f : Frame, f.Made → f.normal = f ∧ ofText f.text = .ok f) ∧
    (∀ s f, ofText s = .ok f → ofText f.text = .ok f) ∧
    ∀ f g : Frame, f.text = g.text ↔ f.normal = g.normal := by
  have hmade : ∀ f : Frame, f.Made → f.normal = f ∧ ofText f.text = .ok f := by
    intro f hf
    have hnormal := hf.plain.normal_eq
    refine ⟨hnormal, ?_⟩
    rw [ofText_text, hnormal]
  refine ⟨ofText_text, hmade, fun s f hread => (hmade f (.read hread)).2, fun f g => ?_⟩
  constructor
  · intro htext
    have hsame := ofText_text f
    rw [htext, ofText_text] at hsame
    exact (Except.ok.inj hsame).symm
  · intro hnormal
    rw [text, ← chars_normal f, hnormal, chars_normal g]
    rfl

/-- An extended request with the error bit, flags and data, which the text does not show; and a text
with a sign, lower-case digits and dots. -/
theorem text_round_trip_of_stray_bits : ∃ f g : Frame,
    f.rawId = 0xE0000123 ∧ f.text = "00000123#R2" ∧ f.normal ≠ f ∧
    ofText f.text = .ok f.normal ∧ f.normal.rawId = 0xC0000123 ∧
    ofText "+1ff#de.AD" = .ok g ∧ g.normal = g ∧ ofText g.text = .ok g := by
  obtain ⟨hread, hmade, -, -⟩ := text_round_trip
  have hsigned : ofText "+1ff#de.AD" =
      .ok ⟨0x800001FF, 0, 2, #v[0xDE, 0xAD, 0, 0, 0, 0, 0, 0], by decide⟩ := by decide +kernel
  refine ⟨⟨0xE0000123, 7, 2, #v[1, 2, 3, 4, 5, 6, 7, 8], by decide⟩, _, rfl, by decide +kernel,
    by decide +kernel, hread _, by decide +kernel, hsigned, ?_⟩
  exact hmade _ (.read hsigned)

end Frame

end CanTransport
