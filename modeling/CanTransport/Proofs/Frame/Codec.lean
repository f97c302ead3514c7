import CanTransport.Frame.Wire
import Mathlib.Tactic.IntervalCases
/-!
# Frames and records

The record of a frame reads back as that frame, and a record that is read is the record of its
frame but for the two bytes that reading ignores. Whatever is not the record of any frame is
refused for its length or for its length byte.
-/

namespace CanTransport

namespace Frame

/-! ## The identifier word -/

theorem toNat_byteOf (word : UInt32) (i : Nat) :
    (byteOf word i).toNat = word.toNat / 2 ^ (8 * i) % 256 := by
  rw [byteOf, UInt8.toNat_ofNat', Nat.shiftRight_eq_div_pow]
  exact Nat.mod_mod _ _

theorem wordOf_byteOf (word : UInt32) :
    wordOf (byteOf word 0) (byteOf word 1) (byteOf word 2) (byteOf word 3) = word := by
  have hlt := word.toNat_lt
  rw [← UInt32.toNat_inj, wordOf, UInt32.toNat_ofNat']
  simp only [toNat_byteOf]
  omega

theorem toNat_wordOf (b₀ b₁ b₂ b₃ : UInt8) : (wordOf b₀ b₁ b₂ b₃).toNat =
    b₀.toNat + 256 * (b₁.toNat + 256 * (b₂.toNat + 256 * b₃.toNat)) := by
  have h₀ := b₀.toNat_lt
  have h₁ := b₁.toNat_lt
  have h₂ := b₂.toNat_lt
  have h₃ := b₃.toNat_lt
  rw [wordOf, UInt32.toNat_ofNat']
  omega

/-- The bytes of a word are those that it was put together from. -/
theorem byteOf_wordOf (b₀ b₁ b₂ b₃ : UInt8) :
    byteOf (wordOf b₀ b₁ b₂ b₃) 0 = b₀ ∧ byteOf (wordOf b₀ b₁ b₂ b₃) 1 = b₁ ∧
      byteOf (wordOf b₀ b₁ b₂ b₃) 2 = b₂ ∧ byteOf (wordOf b₀ b₁ b₂ b₃) 3 = b₃ := by
  have h₀ := b₀.toNat_lt
  have h₁ := b₁.toNat_lt
  have h₂ := b₂.toNat_lt
  have h₃ := b₃.toNat_lt
  simp only [← UInt8.toNat_inj, toNat_byteOf, toNat_wordOf]
  omega

/-! ## Records -/

theorem ofWire_encode (frame : Frame) : ofWire frame.encode = .ok frame := by
  obtain ⟨rawId, flags, dlc, rawData, hdlc⟩ := frame
  have hlength : (UInt8.ofNat dlc).toNat = dlc := by
    rw [UInt8.toNat_ofNat']
    omega
  have hdata : #v[rawData[0], rawData[1], rawData[2], rawData[3], rawData[4], rawData[5],
      rawData[6], rawData[7]] = rawData := by
    refine Vector.ext fun i hi => ?_
    interval_cases i <;> rfl
  unfold ofWire ofFields encode
  simp only [Vector.getElem_mk, List.getElem_toArray, List.getElem_cons_zero,
    List.getElem_cons_succ, wordOf_byteOf, hlength, hdata]
  rw [dif_pos hdlc]

/-- A record is the record of its frame, but for the two bytes that say nothing. -/
theorem encode_of_ofWire {w : Wire} {frame : Frame} (h : ofWire w = .ok frame) :
    frame.encode = (w.set 6 0).set 7 0 := by
  unfold ofWire ofFields at h
  split at h
  · cases h
    obtain ⟨h₀, h₁, h₂, h₃⟩ := byteOf_wordOf w[0] w[1] w[2] w[3]
    unfold encode
    simp only [h₀, h₁, h₂, h₃, UInt8.ofNat_toNat]
    refine Vector.ext fun i hi => ?_
    rw [Vector.getElem_set, Vector.getElem_set]
    interval_cases i <;> rfl
  · cases h

theorem ofWire_eq_error_iff {w : Wire} {fault : FrameFault} :
    ofWire w = .error fault ↔ 8 < (w.get 4).toNat ∧ fault = .dlcRange (w.get 4).toNat := by
  show _ ↔ 8 < w[4].toNat ∧ fault = .dlcRange w[4].toNat
  unfold ofWire ofFields
  split
  · rename_i hle
    constructor
    · intro h
      cases h
    · rintro ⟨hlt, -⟩
      omega
  · rename_i hlt
    constructor
    · intro h
      cases h
      exact ⟨by omega, rfl⟩
    · rintro ⟨-, rfl⟩
      rfl

/-- Reading looks at every byte but the two that say nothing. -/
theorem ofWire_congr {w w' : Wire} (h : ∀ i, (hi : i < 16) → i ≠ 6 → i ≠ 7 → w[i] = w'[i]) :
    ofWire w = ofWire w' := by
  unfold ofWire
  rw [h 0 (by decide) (by decide) (by decide), h 1 (by decide) (by decide) (by decide),
    h 2 (by decide) (by decide) (by decide), h 3 (by decide) (by decide) (by decide),
    h 4 (by decide) (by decide) (by decide), h 5 (by decide) (by decide) (by decide),
    h 8 (by decide) (by decide) (by decide), h 9 (by decide) (by decide) (by decide),
    h 10 (by decide) (by decide) (by decide), h 11 (by decide) (by decide) (by decide),
    h 12 (by decide) (by decide) (by decide), h 13 (by decide) (by decide) (by decide),
    h 14 (by decide) (by decide) (by decide), h 15 (by decide) (by decide) (by decide)]

/-- Records of one frame differ at most where reading does not look. -/
theorem getElem_eq_of_ofWire {w w' : Wire} {frame : Frame} (h : ofWire w = .ok frame)
    (h' : ofWire w' = .ok frame) {i : Nat} (hi : i < 16) (h6 : i ≠ 6) (h7 : i ≠ 7) :
    w[i] = w'[i] := by
  have hsame : ((w.set 6 0).set 7 0)[i] = ((w'.set 6 0).set 7 0)[i] := by
    rw [← encode_of_ofWire h, ← encode_of_ofWire h']
  rw [Vector.getElem_set_ne _ _ h7.symm, Vector.getElem_set_ne _ _ h6.symm,
    Vector.getElem_set_ne _ _ h7.symm, Vector.getElem_set_ne _ _ h6.symm] at hsame
  exact hsame

/-! ## Bytes -/

/-- As many bytes as a record has, as a record. -/
def recordOf (bytes : List UInt8) (h : bytes.length = wireSize) : Wire := ⟨bytes.toArray, h⟩

theorem decode_recordOf {bytes : List UInt8} (h : bytes.length = wireSize) :
    decode bytes = (ofWire (recordOf bytes h)).mapError FrameFault.toError :=
  dif_pos h

theorem getElem_recordOf {bytes : List UInt8} (h : bytes.length = wireSize) {i : Nat}
    (hi : i < 16) : bytes[i]? = some (recordOf bytes h)[i] :=
  List.getElem?_eq_getElem (h ▸ hi)

theorem ofWire_of_mapError {w : Wire} {frame : Frame}
    (h : (ofWire w).mapError FrameFault.toError = .ok frame) : ofWire w = .ok frame := by
  cases hread : ofWire w with
  | ok read =>
    rw [hread] at h
    cases h
    rfl
  | error fault =>
    rw [hread] at h
    cases h

theorem decode_encode (frame : Frame) : decode frame.encode.toList = .ok frame := by
  have hlength : frame.encode.toList.length = wireSize := Vector.length_toList
  rw [decode_recordOf hlength, show recordOf _ hlength = frame.encode from rfl, ofWire_encode]
  rfl

theorem decode_eq_shortRead_iff {bytes : List UInt8} {read expected : Nat} :
    decode bytes = .error (.shortRead read expected) ↔
      bytes.length ≠ wireSize ∧ read = bytes.length ∧ expected = wireSize := by
  by_cases hlength : bytes.length = wireSize
  · have hne : decode bytes ≠ .error (.shortRead read expected) := by
      rw [decode_recordOf hlength]
      cases ofWire (recordOf bytes hlength) with
      | ok frame => exact nofun
      | error fault => exact nofun
    simp [hne, hlength]
  · have hdecode : decode bytes = .error (.shortRead bytes.length wireSize) := dif_neg hlength
    rw [hdecode]
    simp [hlength, eq_comm]

theorem decode_eq_invalidFrame_iff {bytes : List UInt8} {reason : String} :
    decode bytes = .error (.invalidFrame reason) ↔
      bytes.length = wireSize ∧ ∃ length, bytes[4]? = some length ∧ 8 < length.toNat ∧
        reason = (FrameFault.dlcRange length.toNat).text := by
  by_cases hlength : bytes.length = wireSize
  · have hbyte : (recordOf bytes hlength)[4] = (recordOf bytes hlength).get 4 := rfl
    rw [decode_recordOf hlength, getElem_recordOf hlength (by decide : 4 < 16), hbyte]
    cases hread : ofWire (recordOf bytes hlength) with
    | ok frame =>
      have hshort : ¬ 8 < ((recordOf bytes hlength).get 4).toNat := by
        intro hlong
        rw [ofWire_eq_error_iff.mpr ⟨hlong, rfl⟩] at hread
        cases hread
      simp [Except.mapError, hshort]
    | error fault =>
      obtain ⟨hlong, rfl⟩ := ofWire_eq_error_iff.mp hread
      simp [Except.mapError, FrameFault.toError, hlength, hlong, eq_comm]
  · have hdecode : decode bytes = .error (.shortRead bytes.length wireSize) := dif_neg hlength
    simp [hdecode, hlength]

/-- The bytes of a frame are those it was read from, but for the two that say nothing. -/
theorem encode_of_decode {bytes : List UInt8} {frame : Frame} (h : decode bytes = .ok frame) :
    frame.encode.toList = (bytes.set 6 0).set 7 0 := by
  by_cases hlength : bytes.length = wireSize
  · rw [decode_recordOf hlength] at h
    cases hread : ofWire (recordOf bytes hlength) with
    | ok read =>
      rw [hread] at h
      cases h
      rw [encode_of_ofWire hread, Vector.toList_set, Vector.toList_set]
      rfl
    | error fault =>
      rw [hread] at h
      cases h
  · have hdecode : decode bytes = .error (.shortRead bytes.length wireSize) := dif_neg hlength
    rw [hdecode] at h
    cases h

/-- What decodes is as long as a record, with a length byte in range. -/
theorem exists_decode_eq_ok_iff {bytes : List UInt8} : (∃ frame, decode bytes = .ok frame) ↔
    bytes.length = wireSize ∧ ∃ length, bytes[4]? = some length ∧ length.toNat ≤ 8 := by
  by_cases hlength : bytes.length = wireSize
  · have hbyte : (recordOf bytes hlength)[4] = (recordOf bytes hlength).get 4 := rfl
    rw [decode_recordOf hlength, getElem_recordOf hlength (by decide : 4 < 16), hbyte]
    cases hread : ofWire (recordOf bytes hlength) with
    | ok frame =>
      have hshort : ((recordOf bytes hlength).get 4).toNat ≤ 8 := by
        by_contra hlong
        rw [ofWire_eq_error_iff.mpr ⟨by omega, rfl⟩] at hread
        cases hread
      simp [Except.mapError, hlength, hshort]
    | error fault =>
      have hlong := (ofWire_eq_error_iff.mp hread).1
      simp [Except.mapError, hlong]
  · have hdecode : decode bytes = .error (.shortRead bytes.length wireSize) := dif_neg hlength
    simp [hdecode, hlength]

/-- Two records decode to one frame just when one of them decodes and they agree in the bytes that
reading looks at. -/
theorem decode_eq_iff {bytes bytes' : List UInt8} {frame : Frame}
    (hlength' : bytes'.length = wireSize) (h : decode bytes = .ok frame) :
    decode bytes' = .ok frame ↔ ∀ i, i ≠ 6 → i ≠ 7 → bytes[i]? = bytes'[i]? := by
  have hlength : bytes.length = wireSize := (exists_decode_eq_ok_iff.mp ⟨frame, h⟩).1
  rw [decode_recordOf hlength] at h
  rw [decode_recordOf hlength']
  have hread : ofWire (recordOf bytes hlength) = .ok frame := ofWire_of_mapError h
  constructor
  · intro h' i h6 h7
    by_cases hi : i < 16
    · rw [getElem_recordOf hlength hi, getElem_recordOf hlength' hi,
        getElem_eq_of_ofWire hread (ofWire_of_mapError h') hi h6 h7]
    · have hend : wireSize ≤ i := Nat.not_lt.mp hi
      rw [List.getElem?_eq_none (by omega), List.getElem?_eq_none (by omega)]
  · intro hagree
    have hsame : ofWire (recordOf bytes hlength) = ofWire (recordOf bytes' hlength') := by
      refine ofWire_congr fun i hi h6 h7 => ?_
      have hat := hagree i h6 h7
      rw [getElem_recordOf hlength hi, getElem_recordOf hlength' hi] at hat
      exact Option.some.inj hat
    rw [← hsame]
    exact h

/-! ## Buffers -/

theorem run_overwrite (frame : Frame) (buffer : List UInt8) : frame.overwrite.run buffer =
    if buffer.length < wireSize then
      (.error (.invalidFrame ("wire buffer of " ++ Text.decimal buffer.length
        ++ " bytes cannot hold a 16-byte frame")), buffer)
    else (.ok (), frame.encode.toList ++ buffer.drop wireSize) := by
  have hrun : frame.overwrite.run buffer = ExceptT.run (m := StateM (List UInt8))
      (if buffer.length < wireSize then (do
        throw (Error.invalidFrame ("wire buffer of " ++ Text.decimal buffer.length
          ++ " bytes cannot hold a 16-byte frame"))
        set (frame.encode.toList ++ buffer.drop wireSize))
      else set (frame.encode.toList ++ buffer.drop wireSize)) buffer := rfl
  rw [hrun]
  split
  · rfl
  · rfl

/-- A buffer that holds a record has its front overwritten, and nothing behind it. -/
theorem overwrite_of_le {buffer : List UInt8} (frame : Frame) (h : wireSize ≤ buffer.length) :
    ∃ written, frame.overwrite.run buffer = (.ok (), written) ∧
      written.length = buffer.length ∧ written.take wireSize = frame.encode.toList ∧
      ∀ i, wireSize ≤ i → written[i]? = buffer[i]? := by
  have hlength : frame.encode.toList.length = wireSize := Vector.length_toList
  rw [run_overwrite, if_neg (Nat.not_lt.mpr h)]
  refine ⟨_, rfl, ?_, ?_, ?_⟩
  · rw [List.length_append, List.length_drop, hlength]
    omega
  · rw [← hlength, List.take_left]
  · intro i hi
    rw [List.getElem?_append_right (hlength ▸ hi), List.getElem?_drop, hlength]
    congr 1
    omega

/-- Writing and reading records. A frame reads back from its record, unused data bytes included.
Bytes that are no record are refused, for their number or for the length byte, and any others are
the record of the frame they read as, but for bytes 6 and 7. A buffer is overwritten with the
record at its front, or left alone when it is too short. -/
theorem wire_codec (frame : Frame) (bytes bytes' buffer : List UInt8) :
    decode frame.encode.toList = .ok frame ∧
    (∀ read expected, decode bytes = .error (.shortRead read expected) ↔
      bytes.length ≠ 16 ∧ read = bytes.length ∧ expected = 16) ∧
    ((∃ reason, decode bytes = .error (.invalidFrame reason)) ↔
      bytes.length = 16 ∧ ∃ length, bytes[4]? = some length ∧ 8 < length.toNat) ∧
    ((∃ read, decode bytes = .ok read ∧ read.encode.toList = (bytes.set 6 0).set 7 0) ↔
      bytes.length = 16 ∧ ∃ length, bytes[4]? = some length ∧ length.toNat ≤ 8) ∧
    (∀ read read', decode bytes = .ok read → decode bytes' = .ok read' →
      (read = read' ↔ ∀ i, i ≠ 6 → i ≠ 7 → bytes[i]? = bytes'[i]?)) ∧
    (16 ≤ buffer.length → ∃ written, frame.overwrite.run buffer = (.ok (), written) ∧
      written.length = buffer.length ∧ written.take 16 = frame.encode.toList ∧
      ∀ i, 16 ≤ i → written[i]? = buffer[i]?) ∧
    (buffer.length < 16 →
      ∃ reason, frame.overwrite.run buffer = (.error (.invalidFrame reason), buffer)) := by
  refine ⟨decode_encode frame, fun _ _ => decode_eq_shortRead_iff, ?_, ?_, ?_,
    overwrite_of_le frame, ?_⟩
  · constructor
    · rintro ⟨reason, hreason⟩
      obtain ⟨hlength, length, hbyte, hlong, -⟩ := decode_eq_invalidFrame_iff.mp hreason
      exact ⟨hlength, length, hbyte, hlong⟩
    · rintro ⟨hlength, length, hbyte, hlong⟩
      exact ⟨_, decode_eq_invalidFrame_iff.mpr ⟨hlength, length, hbyte, hlong, rfl⟩⟩
  · refine Iff.trans ?_ exists_decode_eq_ok_iff
    constructor
    · rintro ⟨read, hread, -⟩
      exact ⟨read, hread⟩
    · rintro ⟨read, hread⟩
      exact ⟨read, hread, encode_of_decode hread⟩
  · intro read read' hread hread'
    have hlength' : bytes'.length = wireSize := (exists_decode_eq_ok_iff.mp ⟨read', hread'⟩).1
    rw [← decode_eq_iff hlength' hread, hread', Except.ok.injEq, eq_comm]
  · intro hshort
    exact ⟨_, (run_overwrite frame buffer).trans (if_pos hshort)⟩

/-- Two records that differ in byte 6 and read alike, and a buffer one byte longer than the
record written over it. -/
theorem wire_codec_of_padding :
    ∃ read, decode ([1, 2, 3, 4, 8, 0, 0, 0] ++ List.replicate 8 7) = .ok read ∧
      decode ([1, 2, 3, 4, 8, 0, 9, 0] ++ List.replicate 8 7) = .ok read ∧
      ∃ written, read.overwrite.run (List.replicate 17 5) = (.ok (), written) ∧
        written[16]? = some 5 := by
  have hfirst : (∃ read, decode ([1, 2, 3, 4, 8, 0, 0, 0] ++ List.replicate 8 7) = .ok read) :=
    exists_decode_eq_ok_iff.mpr ⟨by decide, 8, by decide, by decide⟩
  have hsecond : (∃ read, decode ([1, 2, 3, 4, 8, 0, 9, 0] ++ List.replicate 8 7) = .ok read) :=
    exists_decode_eq_ok_iff.mpr ⟨by decide, 8, by decide, by decide⟩
  obtain ⟨read, hread⟩ := hfirst
  obtain ⟨read', hread'⟩ := hsecond
  obtain ⟨-, -, -, -, hsame, hlong, -⟩ := wire_codec read
    ([1, 2, 3, 4, 8, 0, 0, 0] ++ List.replicate 8 7)
    ([1, 2, 3, 4, 8, 0, 9, 0] ++ List.replicate 8 7) (List.replicate 17 5)
  have hagree : read = read' := by
    refine (hsame read read' hread hread').mpr fun i h6 h7 => ?_
    by_cases hi : i < 16
    · interval_cases i <;> first | rfl | contradiction
    · rw [List.getElem?_eq_none (Nat.not_lt.mp hi), List.getElem?_eq_none (Nat.not_lt.mp hi)]
  obtain ⟨written, hwritten, -, -, hbehind⟩ := hlong (by decide)
  exact ⟨read, hread, hagree ▸ hread', written, hwritten, hbehind 16 (by decide)⟩

end Frame

end CanTransport
