import CanTransport.Text.Digits
import Mathlib.Algebra.Group.Nat.Defs
/-!
# Digits read back

A number that was written in a radix up to sixteen, with leading zeros or without, is what the
unsigned reader makes of its digits. The characters of digits are neither signs nor letters behind
`F`, so that they end where something else begins.
-/

namespace CanTransport.Text

/-! ## Single digits -/

theorem hexValue?_upperDigit {d : Nat} (h : d < 16) : hexValue? (upperDigit d) = some d := by
  have hall : ∀ d < 16, hexValue? (upperDigit d) = some d := by decide
  exact hall d h

theorem hexValue?_lowerDigit {d : Nat} (h : d < 16) : hexValue? (lowerDigit d) = some d := by
  have hall : ∀ d < 16, hexValue? (lowerDigit d) = some d := by decide
  exact hall d h

/-- A way to write digits that the reader understands. -/
def Writes (digit : Nat → Char) : Prop := ∀ d < 16, hexValue? (digit d) = some d

theorem writes_upperDigit : Writes upperDigit := fun _ h => hexValue?_upperDigit h

theorem writes_lowerDigit : Writes lowerDigit := fun _ h => hexValue?_lowerDigit h

variable {radix limit width n : Nat} {digit : Nat → Char} {cs : List Char}

theorem digitValue?_of_writes (hdigit : Writes digit) (hradix : radix ≤ 16) {d : Nat}
    (h : d < radix) : digitValue? radix (digit d) = some d := by
  rw [digitValue?, hdigit d (Nat.lt_of_lt_of_le h hradix)]
  simp [h]

/-- What starts with a digit is read as digits, since no digit is a plus sign. -/
theorem readUnsigned?_of_digit {c : Char} (h : (hexValue? c).isSome) :
    readUnsigned? radix limit (c :: cs) = (digitsValue? radix 0 (c :: cs)).filter (· ≤ limit) := by
  have hplus : c ≠ '+' := by
    rintro rfl
    revert h
    decide
  have hdrop : dropPlus (c :: cs) = c :: cs := by
    unfold dropPlus
    split
    · rename_i heq
      cases heq
      exact absurd rfl hplus
    · rfl
  rw [readUnsigned?, hdrop]

/-! ## Digits with leading zeros -/

theorem length_fixedDigits : (fixedDigits radix digit width n).length = width := by
  induction width generalizing n with
  | zero => rfl
  | succ width ih => rw [fixedDigits, List.length_append, ih]; rfl

theorem mem_fixedDigits {c : Char} (hradix : 0 < radix) (h : c ∈ fixedDigits radix digit width n) :
    ∃ d < radix, c = digit d := by
  induction width generalizing n with
  | zero => cases h
  | succ width ih =>
    rw [fixedDigits, List.mem_append, List.mem_singleton] at h
    rcases h with hearlier | hlast
    · exact ih hearlier
    · exact ⟨n % radix, Nat.mod_lt n hradix, hlast⟩

theorem digitsValue?_fixedDigits (hdigit : Writes digit) (hradix : radix ≤ 16) (hpos : 0 < radix)
    (acc : Nat) : digitsValue? radix acc (fixedDigits radix digit width n ++ cs) =
      digitsValue? radix (acc * radix ^ width + n % radix ^ width) cs := by
  induction width generalizing n cs with
  | zero => simp [fixedDigits, Nat.mod_one]
  | succ width ih =>
    have hlast := digitValue?_of_writes hdigit hradix (Nat.mod_lt n hpos)
    rw [fixedDigits, List.append_assoc, ih, List.singleton_append, digitsValue?, hlast]
    -- the last digit is worth one, what stands before it `radix` times as much
    have hsplit : n % radix ^ (width + 1) = n / radix % radix ^ width * radix + n % radix := by
      rw [Nat.pow_succ', Nat.mod_mul, Nat.mul_comm, Nat.add_comm]
    have hvalue : (acc * radix ^ width + n / radix % radix ^ width) * radix + n % radix =
        acc * radix ^ (width + 1) + n % radix ^ (width + 1) := by
      rw [hsplit, Nat.add_mul, Nat.mul_assoc, ← Nat.pow_succ, Nat.add_assoc]
    simp only [hvalue]

/-- Enough digits for a number read back as that number. -/
theorem readUnsigned?_fixedDigits (hdigit : Writes digit) (hradix : radix ≤ 16)
    (hlt : n < radix ^ (width + 1)) (hlimit : n ≤ limit) :
    readUnsigned? radix limit (fixedDigits radix digit (width + 1) n) = some n := by
  have hpos : 0 < radix := by
    rcases Nat.eq_zero_or_pos radix with rfl | hpos
    · rw [Nat.zero_pow (Nat.succ_pos width)] at hlt
      exact absurd hlt (Nat.not_lt_zero n)
    · exact hpos
  obtain ⟨c, rest, hdigits⟩ : ∃ c rest, fixedDigits radix digit (width + 1) n = c :: rest := by
    apply List.exists_cons_of_length_pos
    rw [length_fixedDigits]
    exact Nat.succ_pos width
  obtain ⟨d, hd, rfl⟩ := mem_fixedDigits hpos (hdigits ▸ List.mem_cons_self)
  have hread : digitsValue? radix 0 (fixedDigits radix digit (width + 1) n) = some n := by
    rw [← List.append_nil (fixedDigits radix digit (width + 1) n),
      digitsValue?_fixedDigits hdigit hradix hpos, Nat.zero_mul, Nat.zero_add,
      Nat.mod_eq_of_lt hlt]
    rfl
  have hfirst : (hexValue? (digit d)).isSome := by
    rw [hdigit d (Nat.lt_of_lt_of_le hd hradix)]
    rfl
  rw [hdigits] at hread ⊢
  rw [readUnsigned?_of_digit hfirst, hread]
  simp [hlimit]

/-! ## As few digits as possible -/

theorem digitsValue?_leastDigits (hdigit : Writes digit) (hradix : radix ≤ 16) (htwo : 2 ≤ radix) :
    digitsValue? radix 0 (leastDigits radix digit n cs) = digitsValue? radix n cs := by
  induction n using Nat.strongRecOn generalizing cs with
  | ind n ih =>
    rw [leastDigits]
    split
    · rename_i hzero
      rw [show n = 0 by omega]
    · rename_i hpos
      have hlast := digitValue?_of_writes hdigit hradix (Nat.mod_lt n (by omega : 0 < radix))
      have hvalue : n / radix * radix + n % radix = n := by
        rw [Nat.mul_comm]
        exact Nat.div_add_mod n radix
      rw [ih _ (Nat.div_lt_self (by omega) (by omega)), digitsValue?, hlast]
      simp only [hvalue]

/-- The first digit of a number is not zero. -/
theorem head_leastDigits (htwo : 2 ≤ radix) (hpos : 0 < n) :
    ∃ d < radix, 0 < d ∧ ∃ rest, leastDigits radix digit n cs = digit d :: rest := by
  induction n using Nat.strongRecOn generalizing cs with
  | ind n ih =>
    rw [leastDigits, dif_neg (by omega)]
    by_cases hfirst : n / radix = 0
    · refine ⟨n % radix, Nat.mod_lt n (by omega), ?_, cs, ?_⟩
      · rw [Nat.mod_eq_of_lt ((Nat.div_eq_zero_iff_lt (by omega)).mp hfirst)]
        exact hpos
      · rw [hfirst, leastDigits, dif_pos (Or.inl rfl)]
    · exact ih _ (Nat.div_lt_self hpos (by omega)) (Nat.pos_of_ne_zero hfirst)

theorem mem_leastDigits {c : Char} (htwo : 2 ≤ radix) (h : c ∈ leastDigits radix digit n cs) :
    (∃ d < radix, c = digit d) ∨ c ∈ cs := by
  induction n using Nat.strongRecOn generalizing cs with
  | ind n ih =>
    rw [leastDigits] at h
    split at h
    · exact Or.inr h
    · rcases ih _ (Nat.div_lt_self (by omega) (by omega)) h with hdigit | hmem
      · exact Or.inl hdigit
      · rcases List.mem_cons.mp hmem with rfl | hrest
        · exact Or.inl ⟨_, Nat.mod_lt n (by omega), rfl⟩
        · exact Or.inr hrest

/-- A decimal number reads back as that number. -/
theorem readUnsigned?_decimal (hlimit : n ≤ limit) :
    readUnsigned? 10 limit (decimal n).toList = some n := by
  rw [decimal]
  split
  · rename_i hzero
    subst hzero
    rw [show "0".toList = ['0'] from rfl, readUnsigned?_of_digit (by decide),
      show digitsValue? 10 0 ['0'] = some 0 from rfl]
    simp
  · rename_i hne
    obtain ⟨d, hd, -, rest, hdigits⟩ :
        ∃ d < 10, 0 < d ∧ ∃ rest, leastDigits 10 lowerDigit n [] = lowerDigit d :: rest :=
      head_leastDigits (by decide) (Nat.pos_of_ne_zero hne)
    have hread : digitsValue? 10 0 (leastDigits 10 lowerDigit n []) = some n :=
      digitsValue?_leastDigits writes_lowerDigit (by decide) (by decide)
    have hfirst : (hexValue? (lowerDigit d)).isSome := by
      rw [hexValue?_lowerDigit (by omega)]
      rfl
    rw [hdigits] at hread
    rw [String.toList_ofList, hdigits, readUnsigned?_of_digit hfirst, hread]
    simp [hlimit]

theorem decimal_ne_nil : (decimal n).toList ≠ [] := by
  intro hnil
  have hread := readUnsigned?_decimal (Nat.le_refl n)
  rw [hnil] at hread
  cases hread

/-! ## Pairs of digits -/

theorem upperBytes_cons (b : UInt8) (bytes : List UInt8) :
    upperBytes (b :: bytes) =
      upperDigit (b.toNat / 16 % 16) :: upperDigit (b.toNat % 16) :: upperBytes bytes := rfl

theorem length_upperBytes (bytes : List UInt8) : (upperBytes bytes).length = 2 * bytes.length := by
  induction bytes with
  | nil => rfl
  | cons b bytes ih =>
    rw [upperBytes_cons, List.length_cons, List.length_cons, ih, List.length_cons]
    omega

theorem mem_upperBytes {c : Char} {bytes : List UInt8} (h : c ∈ upperBytes bytes) :
    ∃ d < 16, c = upperDigit d := by
  obtain ⟨b, -, hc⟩ := List.mem_flatMap.mp h
  exact mem_fixedDigits (by decide) hc

end CanTransport.Text
