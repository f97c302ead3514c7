import Mathlib.Data.List.Lex
import Mathlib.Data.String.Basic
/-!
# The order of texts

Texts are compared by their characters. Their bytes compare in the same way: the bytes of two
characters differ before either ends, and the greater byte belongs to the greater character.
-/

namespace CanTransport.Text

/-- The bytes of a text. -/
def bytes (s : String) : List UInt8 := s.toByteArray.data.toList

theorem bytes_eq (s : String) : bytes s = s.toList.flatMap String.utf8EncodeChar := by
  rw [bytes, ← String.utf8Encode_toList, List.utf8Encode, List.data_toByteArray]

/-! ## Characters -/

section

variable {n m : Nat}

theorem ofNat_lt_ofNat (hn : n < 256) (hm : m < 256) :
    UInt8.ofNat n < UInt8.ofNat m ↔ n < m := by
  rw [UInt8.lt_iff_toNat_lt, UInt8.toNat_ofNat_of_lt' hn, UInt8.toNat_ofNat_of_lt' hm]

theorem ofNat_eq_ofNat (hn : n < 256) (hm : m < 256) :
    UInt8.ofNat n = UInt8.ofNat m ↔ n = m := by
  rw [← UInt8.toNat_inj, UInt8.toNat_ofNat_of_lt' hn, UInt8.toNat_ofNat_of_lt' hm]

end

theorem toNat_lt (c : Char) : c.toNat < 0x110000 := by
  rcases c.valid with h | h
  · exact Nat.lt_trans h (by decide)
  · exact h.2

/-- A character takes one byte, or a first byte that tells the width and six bits in each other. -/
theorem utf8EncodeChar_cases (c : Char) :
    (c.toNat < 0x80 ∧ String.utf8EncodeChar c = [UInt8.ofNat c.toNat]) ∨
    ((0x80 ≤ c.toNat ∧ c.toNat < 0x800) ∧ String.utf8EncodeChar c =
      [UInt8.ofNat (c.toNat / 64 + 192), UInt8.ofNat (c.toNat % 64 + 128)]) ∨
    ((0x800 ≤ c.toNat ∧ c.toNat < 0x10000) ∧ String.utf8EncodeChar c =
      [UInt8.ofNat (c.toNat / 64 / 64 + 224), UInt8.ofNat (c.toNat / 64 % 64 + 128),
        UInt8.ofNat (c.toNat % 64 + 128)]) ∨
    (0x10000 ≤ c.toNat ∧ String.utf8EncodeChar c =
      [UInt8.ofNat (c.toNat / 64 / 64 / 64 + 240), UInt8.ofNat (c.toNat / 64 / 64 % 64 + 128),
        UInt8.ofNat (c.toNat / 64 % 64 + 128), UInt8.ofNat (c.toNat % 64 + 128)]) := by
  have hbound := toNat_lt c
  have hword : c.val.toNat = c.toNat := rfl
  have hthird : c.toNat / 4096 = c.toNat / 64 / 64 := by rw [Nat.div_div_eq_div_mul]
  have hfourth : c.toNat / 262144 = c.toNat / 64 / 64 / 64 := by
    rw [Nat.div_div_eq_div_mul, Nat.div_div_eq_div_mul]
  rw [String.utf8EncodeChar]
  simp only [hword, hthird, hfourth]
  split
  · exact Or.inl ⟨by omega, rfl⟩
  split
  · rw [Nat.mod_eq_of_lt (show c.toNat / 64 < 32 by omega)]
    exact Or.inr (Or.inl ⟨by omega, rfl⟩)
  split
  · rw [Nat.mod_eq_of_lt (show c.toNat / 64 / 64 < 16 by omega)]
    exact Or.inr (Or.inr (Or.inl ⟨by omega, rfl⟩))
  · rw [Nat.mod_eq_of_lt (show c.toNat / 64 / 64 / 64 < 8 by omega)]
    exact Or.inr (Or.inr (Or.inr ⟨by omega, rfl⟩))

/-- The bytes of a lesser character are less, whatever comes behind. -/
theorem utf8EncodeChar_append_lt {c d : Char} (h : c < d) (us vs : List UInt8) :
    String.utf8EncodeChar c ++ us < String.utf8EncodeChar d ++ vs := by
  have hlt : c.toNat < d.toNat := UInt32.lt_iff_toNat_lt.mp (Char.lt_def.mp h)
  have hbound := toNat_lt d
  rcases utf8EncodeChar_cases c with ⟨hc, hbytes⟩ | ⟨hc, hbytes⟩ | ⟨hc, hbytes⟩ | ⟨hc, hbytes⟩ <;>
    rcases utf8EncodeChar_cases d with ⟨hd, hbytes'⟩ | ⟨hd, hbytes'⟩ | ⟨hd, hbytes'⟩ | ⟨hd, hbytes'⟩
  all_goals
    simp (disch := omega) only [hbytes, hbytes', List.cons_append, List.nil_append,
      List.cons_lt_cons_iff, ofNat_lt_ofNat, ofNat_eq_ofNat]
    omega

/-! ## Texts -/

theorem flatMap_utf8EncodeChar_lt {cs ds : List Char} (h : cs < ds) :
    cs.flatMap String.utf8EncodeChar < ds.flatMap String.utf8EncodeChar := by
  induction h with
  | @nil d ds =>
    rw [List.flatMap_nil, List.flatMap_cons]
    cases hbytes : String.utf8EncodeChar d with
    | nil => exact absurd hbytes String.utf8EncodeChar_ne_nil
    | cons => exact List.nil_lt_cons _ _
  | rel hlt =>
    rw [List.flatMap_cons, List.flatMap_cons]
    exact utf8EncodeChar_append_lt hlt _ _
  | cons _ ih =>
    rw [List.flatMap_cons, List.flatMap_cons]
    exact List.append_left_lt ih

/-- A lesser text has lesser bytes. -/
theorem bytes_lt {s t : String} (h : s < t) : bytes s < bytes t := by
  rw [bytes_eq, bytes_eq]
  exact flatMap_utf8EncodeChar_lt (String.lt_iff_toList_lt.mp h)

/-- Characters of four bytes stand behind those of three, which they do not in units of 16 bits. -/
example : bytes "\uffff" < bytes "😀" := by decide +kernel

end CanTransport.Text
