import CanTransport.Proofs.Text.Digits
import Mathlib.Data.List.Forall2
import Mathlib.Data.Nat.Digits.Defs
import Mathlib.Tactic.Ring
/-!
# Numerals

What the unsigned reader takes: one digit or more, of either case and with any number of zeros in
front, after a plus sign or none. The number is the value of the digits in their radix, and only
the limit bounds it. The characters take one byte each, so that a text of them can be cut anywhere.
-/

namespace CanTransport.Text

/-! ## Bytes of a text -/

/-- The bytes that characters take in a text. -/
def byteSize (cs : List Char) : Nat := (String.ofList cs).utf8ByteSize

/-- Whether a text can be cut behind so many bytes: no character lies across. -/
def Boundary (cs : List Char) (i : Nat) : Prop :=
  ∃ before behind, cs = before ++ behind ∧ byteSize before = i

variable {cs : List Char}

theorem byteSize_cons (c : Char) (cs : List Char) :
    byteSize (c :: cs) = c.utf8Size + byteSize cs := by
  rw [byteSize, String.ofList_cons, String.utf8ByteSize_append, String.utf8ByteSize_singleton]
  rfl

theorem byteSize_eq_length (h : ∀ c ∈ cs, c.toNat < 128) : byteSize cs = cs.length := by
  induction cs with
  | nil => rfl
  | cons c cs ih =>
    have hc : c.utf8Size = 1 := by
      have hlt := h c List.mem_cons_self
      rw [Char.utf8Size_eq_one_iff, UInt32.le_iff_toNat_le]
      exact Nat.le_of_lt_succ hlt
    rw [byteSize_cons, hc, ih fun c' hc' => h c' (List.mem_cons_of_mem c hc'), List.length_cons,
      Nat.add_comm]

/-- Characters of one byte each have a boundary everywhere. -/
theorem boundary_of_ascii (h : ∀ c ∈ cs, c.toNat < 128) {i : Nat} (hi : i ≤ cs.length) :
    Boundary cs i := by
  refine ⟨cs.take i, cs.drop i, (List.take_append_drop i cs).symm, ?_⟩
  rw [byteSize_eq_length fun c hc => h c (List.mem_of_mem_take hc), List.length_take]
  omega

/-! ## Digits -/

/-- A character that stands for a digit, in either case. -/
def IsDigit (radix : Nat) (c : Char) (d : Nat) : Prop :=
  d < radix ∧ (c = upperDigit d ∨ c = lowerDigit d)

/-- One digit or more, and the number that they stand for. -/
def Digits (radix : Nat) (cs : List Char) (n : Nat) : Prop :=
  cs ≠ [] ∧ ∃ ds, List.Forall₂ (IsDigit radix) cs ds ∧ n = Nat.ofDigits radix ds.reverse

/-- Digits behind a plus sign or none. -/
inductive Numeral (radix : Nat) : List Char → Nat → Prop where
  | plain {cs : List Char} {n : Nat} (h : Digits radix cs n) : Numeral radix cs n
  | signed {cs : List Char} {n : Nat} (h : Digits radix cs n) : Numeral radix ('+' :: cs) n

variable {radix limit acc n d : Nat} {c : Char}

theorem toNat_le_of_le {c c' : Char} (h : c ≤ c') : c.toNat ≤ c'.toNat :=
  UInt32.le_iff_toNat_le.mp (Char.le_def.mp h)

theorem lt_of_hexValue? (h : hexValue? c = some d) : c.toNat < 128 := by
  unfold hexValue? at h
  split at h
  · rename_i hrange
    exact Nat.lt_of_le_of_lt (toNat_le_of_le hrange.2) (by decide)
  · split at h
    · rename_i hrange
      exact Nat.lt_of_le_of_lt (toNat_le_of_le hrange.2) (by decide)
    · split at h
      · rename_i hrange
        exact Nat.lt_of_le_of_lt (toNat_le_of_le hrange.2) (by decide)
      · cases h

theorem eq_of_hexValue? (h : hexValue? c = some d) : c = upperDigit d ∨ c = lowerDigit d := by
  have hall : ∀ k < 128, ∀ d ∈ hexValue? (Char.ofNat k),
      Char.ofNat k = upperDigit d ∨ Char.ofNat k = lowerDigit d := by decide
  have hc := hall c.toNat (lt_of_hexValue? h) d
  rw [Char.ofNat_toNat] at hc
  exact hc h

theorem digitValue?_eq_some_iff (hradix : radix ≤ 16) :
    digitValue? radix c = some d ↔ IsDigit radix c d := by
  rw [digitValue?, Option.filter_eq_some_iff]
  constructor
  · rintro ⟨hvalue, hlt⟩
    exact ⟨by simpa using hlt, eq_of_hexValue? hvalue⟩
  · rintro ⟨hlt, rfl | rfl⟩
    · exact ⟨hexValue?_upperDigit (by omega), by simpa using hlt⟩
    · exact ⟨hexValue?_lowerDigit (by omega), by simpa using hlt⟩

theorem IsDigit.plain (hradix : radix ≤ 16) (h : IsDigit radix c d) : c ≠ '+' ∧ c.toNat < 128 := by
  have hall : ∀ d < 16, (upperDigit d ≠ '+' ∧ (upperDigit d).toNat < 128) ∧
      lowerDigit d ≠ '+' ∧ (lowerDigit d).toNat < 128 := by decide
  obtain ⟨hlt, rfl | rfl⟩ := h
  · exact (hall d (by omega)).1
  · exact (hall d (by omega)).2

theorem digitsValue?_eq_some_iff (hradix : radix ≤ 16) :
    digitsValue? radix acc cs = some n ↔ ∃ ds, List.Forall₂ (IsDigit radix) cs ds ∧
      n = acc * radix ^ cs.length + Nat.ofDigits radix ds.reverse := by
  induction cs generalizing acc with
  | nil =>
    rw [digitsValue?, Option.some_inj]
    constructor
    · rintro rfl
      exact ⟨[], .nil, by simp⟩
    · rintro ⟨ds, hdigits, rfl⟩
      rw [List.forall₂_nil_left_iff] at hdigits
      simp [hdigits]
  | cons c cs ih =>
    -- a first digit is worth the radix as often as digits follow it
    have hvalue : ∀ (d : Nat) (ds : List Nat), List.Forall₂ (IsDigit radix) cs ds →
        (acc * radix + d) * radix ^ cs.length + Nat.ofDigits radix ds.reverse =
          acc * radix ^ (c :: cs).length + Nat.ofDigits radix (d :: ds).reverse := by
      intro d ds hdigits
      rw [Nat.ofDigits_reverse_cons, ← hdigits.length_eq, List.length_cons]
      ring
    rw [digitsValue?]
    cases hdigit : digitValue? radix c with
    | none =>
      constructor
      · intro hnone
        cases hnone
      · rintro ⟨ds, hdigits, -⟩
        obtain ⟨d, ds', hd, -, rfl⟩ := List.forall₂_cons_left_iff.mp hdigits
        rw [(digitValue?_eq_some_iff hradix).mpr hd] at hdigit
        cases hdigit
    | some d =>
      simp only
      rw [ih]
      have hd := (digitValue?_eq_some_iff hradix).mp hdigit
      constructor
      · rintro ⟨ds, hdigits, rfl⟩
        exact ⟨d :: ds, .cons hd hdigits, hvalue d ds hdigits⟩
      · rintro ⟨ds, hdigits, rfl⟩
        obtain ⟨d', ds', hd', hdigits', rfl⟩ := List.forall₂_cons_left_iff.mp hdigits
        have hsame := (digitValue?_eq_some_iff hradix).mpr hd'
        rw [hdigit] at hsame
        cases hsame
        exact ⟨ds', hdigits', (hvalue d ds' hdigits').symm⟩

theorem digitsValue?_zero_iff (hradix : radix ≤ 16) (hne : cs ≠ []) :
    digitsValue? radix 0 cs = some n ↔ Digits radix cs n := by
  rw [digitsValue?_eq_some_iff hradix, Nat.zero_mul, Digits]
  simp only [Nat.zero_add, ne_eq, hne, not_false_eq_true, true_and]

theorem digits_singleton_iff : Digits radix [c] n ↔ IsDigit radix c n := by
  constructor
  · rintro ⟨-, ds, hdigits, rfl⟩
    obtain ⟨d, ds', hd, hnone, rfl⟩ := List.forall₂_cons_left_iff.mp hdigits
    rw [List.forall₂_nil_left_iff] at hnone
    rw [hnone]
    simpa using hd
  · intro hd
    exact ⟨List.cons_ne_nil _ _, [n], .cons hd .nil, by simp⟩

theorem digits_pair_iff {c' : Char} : Digits radix [c, c'] n ↔
    ∃ high low, IsDigit radix c high ∧ IsDigit radix c' low ∧ n = radix * high + low := by
  constructor
  · rintro ⟨-, ds, hdigits, rfl⟩
    obtain ⟨high, ds', hhigh, hrest, rfl⟩ := List.forall₂_cons_left_iff.mp hdigits
    obtain ⟨low, ds'', hlow, hnone, rfl⟩ := List.forall₂_cons_left_iff.mp hrest
    rw [List.forall₂_nil_left_iff] at hnone
    refine ⟨high, low, hhigh, hlow, ?_⟩
    rw [hnone]
    simp [Nat.ofDigits_cons, Nat.add_comm]
  · rintro ⟨high, low, hhigh, hlow, rfl⟩
    exact ⟨List.cons_ne_nil _ _, [high, low], .cons hhigh (.cons hlow .nil),
      by simp [Nat.ofDigits_cons, Nat.add_comm]⟩

theorem Digits.ne_signed (hradix : radix ≤ 16) (h : Digits radix cs n) (rest : List Char) :
    cs ≠ '+' :: rest := by
  rintro rfl
  obtain ⟨-, ds, hdigits, -⟩ := h
  obtain ⟨d, ds', hd, -, rfl⟩ := List.forall₂_cons_left_iff.mp hdigits
  exact (hd.plain hradix).1 rfl

theorem digits_dropPlus_iff (hradix : radix ≤ 16) :
    Digits radix (dropPlus cs) n ↔ Numeral radix cs n := by
  constructor
  · intro h
    unfold dropPlus at h
    split at h
    · exact .signed h
    · exact .plain h
  · intro h
    cases h with
    | signed h => exact h
    | plain h =>
      have hsame : dropPlus cs = cs := by
        unfold dropPlus
        split
        · exact absurd rfl (h.ne_signed hradix _)
        · rfl
      rw [hsame]
      exact h

/-- The unsigned reader takes the numerals up to its limit. -/
theorem readUnsigned?_eq_some_iff (hradix : radix ≤ 16) :
    readUnsigned? radix limit cs = some n ↔ Numeral radix cs n ∧ n ≤ limit := by
  rw [← digits_dropPlus_iff hradix, readUnsigned?]
  split
  · rename_i hnil
    rw [hnil]
    constructor
    · intro hnone
      cases hnone
    · intro h
      exact absurd rfl h.1.1
  · rename_i hne
    rw [Option.filter_eq_some_iff, digitsValue?_zero_iff hradix hne, decide_eq_true_eq]

/-- Characters are one number. -/
theorem Numeral.unique {m : Nat} (hradix : radix ≤ 16) (h : Numeral radix cs n)
    (h' : Numeral radix cs m) : n = m := by
  have hn : readUnsigned? radix (max n m) cs = some n :=
    (readUnsigned?_eq_some_iff hradix).mpr ⟨h, Nat.le_max_left n m⟩
  have hm : readUnsigned? radix (max n m) cs = some m :=
    (readUnsigned?_eq_some_iff hradix).mpr ⟨h', Nat.le_max_right n m⟩
  exact Option.some_inj.mp (hn.symm.trans hm)

theorem Digits.ascii (hradix : radix ≤ 16) (h : Digits radix cs n) : ∀ c ∈ cs, c.toNat < 128 := by
  obtain ⟨-, ds, hdigits, -⟩ := h
  induction hdigits with
  | nil => exact List.forall_mem_nil _
  | cons hd _ ih => exact List.forall_mem_cons.mpr ⟨(hd.plain hradix).2, ih⟩

theorem Numeral.ascii (hradix : radix ≤ 16) (h : Numeral radix cs n) :
    ∀ c ∈ cs, c.toNat < 128 := by
  cases h with
  | plain h => exact h.ascii hradix
  | signed h =>
    intro c hc
    rcases List.mem_cons.mp hc with rfl | hc
    · decide
    · exact h.ascii hradix c hc

end CanTransport.Text
