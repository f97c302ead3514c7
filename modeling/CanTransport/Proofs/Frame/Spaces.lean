import CanTransport.Proofs.Frame.Notation
/-!
# Identifier spaces

Which of the two identifier spaces a text of a frame names, by its digits. More than three digits
name an extended identifier, but the reader counts bytes, and the one sign that it takes in front of
the digits is a byte as well. So a sign moves just the identifiers of three digits into the other
space, with the number as it was. Among data a sign stands for a missing digit.
-/

namespace CanTransport.Frame

open Text (Digits IsDigit Numeral byteSize)

/-! ## Digits of a text -/

def isDigit (c : Char) : Bool := (Text.digitValue? 16 c).isSome

/-- A text without all that is no hexadecimal digit. -/
def digits (cs : List Char) : List Char := cs.filter isDigit

def digitCount (cs : List Char) : Nat := (digits cs).length

/-- Hexadecimal digits in pairs, and dots. -/
def Paired (payload : List Char) : Prop :=
  (∀ c ∈ payload, isDigit c = true ∨ c = '.') ∧ digitCount payload % 2 = 0

variable {cs part part' payload payload' : List Char} {f f' : Frame}

theorem isDigit_iff {c : Char} : isDigit c = true ↔ ∃ d, IsDigit 16 c d := by
  simp only [isDigit, Option.isSome_iff_exists, Text.digitValue?_eq_some_iff (Nat.le_refl 16)]

theorem isDigit_plus : isDigit '+' = false := by decide

/-- Digits have nothing to leave out. -/
theorem digits_eq_self {n : Nat} (h : Digits 16 cs n) : digits cs = cs := by
  obtain ⟨-, ds, hdigits, -⟩ := h
  rw [digits, List.filter_eq_self]
  induction hdigits with
  | nil => exact List.forall_mem_nil _
  | cons hd _ ih => exact List.forall_mem_cons.mpr ⟨isDigit_iff.mpr ⟨_, hd⟩, ih⟩

/-- A numeral is its digits, a plus sign in front or none. -/
theorem numeral_cases {n : Nat} (h : Numeral 16 cs n) : Digits 16 (digits cs) n ∧
    (cs = digits cs ∧ cs.head? ≠ some '+' ∨ cs = '+' :: digits cs) := by
  cases h with
  | plain h =>
    have hself := digits_eq_self h
    refine ⟨hself.symm ▸ h, Or.inl ⟨hself.symm, ?_⟩⟩
    intro hhead
    obtain ⟨rest, hrest⟩ := List.head?_eq_some_iff.mp hhead
    exact h.ne_signed (Nat.le_refl 16) rest hrest
  | @signed rest _ h =>
    have hself : digits ('+' :: rest) = rest := by
      rw [digits, List.filter_cons_of_neg (by decide)]
      exact digits_eq_self h
    rw [hself]
    exact ⟨h, Or.inr rfl⟩

/-! ## Identifiers -/

/-- The reader counts the sign as a digit. -/
theorem Notates.isExtended_iff (h : Notates (part ++ '#' :: payload) f) (hhash : '#' ∉ part) :
    f.isExtended = true ↔ 3 < digitCount part + if part.head? = some '+' then 1 else 0 := by
  obtain ⟨-, hextended, -, hnumeral⟩ := h.format hhash
  rw [hextended, Text.byteSize_eq_length (hnumeral.ascii (Nat.le_refl 16)), digitCount]
  rcases (numeral_cases hnumeral).2 with ⟨hplain, hhead⟩ | hsigned
  · rw [if_neg hhead, ← hplain, Nat.add_zero]
  · have hlength := congrArg List.length hsigned
    rw [List.length_cons] at hlength
    rw [if_pos (List.head?_eq_some_iff.mpr ⟨_, hsigned⟩), hlength]

/-- The same digits are the same number. -/
theorem Notates.id_eq (h : Notates (part ++ '#' :: payload) f) (hhash : '#' ∉ part)
    (h' : Notates (part' ++ '#' :: payload') f') (hhash' : '#' ∉ part')
    (hsame : digits part = digits part') : f.id = f'.id := by
  obtain ⟨-, -, -, hnumeral⟩ := h.format hhash
  obtain ⟨-, -, -, hnumeral'⟩ := h'.format hhash'
  have hdigits := Numeral.plain (numeral_cases hnumeral).1
  rw [hsame] at hdigits
  have hdigits' := Numeral.plain (numeral_cases hnumeral').1
  exact UInt32.toNat_inj.mp (hdigits.unique (Nat.le_refl 16) hdigits')

/-! ## Data -/

theorem Octets.isDigit_iff {bytes : List UInt8} (h : Octets cs bytes) :
    (∀ c ∈ cs, isDigit c = true) ↔ '+' ∉ cs := by
  induction h with
  | nil => simp
  | cons hbyte _ ih =>
    rw [List.forall_mem_cons, List.forall_mem_cons, ih]
    cases hbyte with
    | digits ha hb =>
      have hplus := (ha.plain (Nat.le_refl 16)).1
      have hplus' := (hb.plain (Nat.le_refl 16)).1
      simp [Frame.isDigit_iff.mpr ⟨_, ha⟩, Frame.isDigit_iff.mpr ⟨_, hb⟩, hplus.symm, hplus'.symm]
    | signed => simp [isDigit_plus]

/-- A dot is no digit, so it does not matter to the digits. -/
theorem digits_undotted : digits (payload.filter (· ≠ '.')) = digits payload := by
  rw [digits, digits, List.filter_filter]
  refine List.filter_congr fun c _ => ?_
  by_cases hc : c = '.'
  · rw [hc]
    decide
  · simp [hc]

theorem paired_iff {bytes : List UInt8} (h : Octets (payload.filter (· ≠ '.')) bytes) :
    Paired payload ↔ '+' ∉ payload := by
  have hplus : '+' ∉ payload ↔ '+' ∉ payload.filter (· ≠ '.') := by simp
  rw [hplus, ← h.isDigit_iff]
  constructor
  · rintro ⟨hall, -⟩ c hc
    obtain ⟨hmem, hdot⟩ := List.mem_filter.mp hc
    exact (hall c hmem).resolve_right (of_decide_eq_true hdot)
  · intro hall
    refine ⟨fun c hc => ?_, ?_⟩
    · by_cases hdot : c = '.'
      · exact Or.inr hdot
      · exact Or.inl (hall c (List.mem_filter.mpr ⟨hc, decide_eq_true hdot⟩))
    · have hself : digits (payload.filter (· ≠ '.')) = payload.filter (· ≠ '.') :=
        List.filter_eq_self.mpr hall
      rw [digitCount, ← digits_undotted, hself, h.length_eq]
      exact Nat.mul_mod_right 2 _

theorem Notates.octets (h : Notates (part ++ '#' :: payload) f) (hhash : '#' ∉ part)
    (hhead : payload.head? ≠ some 'R') :
    ∃ bytes, Octets (payload.filter (· ≠ '.')) bytes := by
  generalize htext : part ++ '#' :: payload = text at h
  cases h with
  | @mk part' payload' isExtended isRemote id dlc data f hhash' hid hpayload htells =>
    have hparts : splitAtHash? (part ++ '#' :: payload) = some (part, payload) :=
      splitAtHash?_append hhash
    rw [htext, splitAtHash?_append hhash'] at hparts
    cases hparts
    cases hpayload with
    | request | requestOf => exact absurd rfl hhead
    | data hoctets => exact ⟨_, hoctets⟩

/-! ## Texts -/

/-- More than three digits make an identifier extended but for a sign in front of just three. -/
theorem Notates.isExtended_iff_iff (h : Notates (part ++ '#' :: payload) f) (hhash : '#' ∉ part) :
    (f.isExtended = true ↔ 3 < digitCount part) ↔
      ¬ (part.head? = some '+' ∧ digitCount part = 3) := by
  rw [h.isExtended_iff hhash]
  split
  · rename_i hhead
    rw [and_iff_right hhead]
    omega
  · rename_i hhead
    exact iff_of_true Iff.rfl fun hsigned => hhead hsigned.1

/-- Texts with the same digits in front of the `#` name the same number, and the same space unless
the digits are three and just one of the texts has a sign. -/
theorem Notates.isExtended_eq_iff (h : Notates (part ++ '#' :: payload) f) (hhash : '#' ∉ part)
    (h' : Notates (part' ++ '#' :: payload') f') (hhash' : '#' ∉ part')
    (hsame : digits part = digits part') : f.isExtended = f'.isExtended ↔
      digitCount part ≠ 3 ∨ (part.head? = some '+' ↔ part'.head? = some '+') := by
  have hcount : digitCount part = digitCount part' := congrArg List.length hsame
  rw [Bool.eq_iff_iff, h.isExtended_iff hhash, h'.isExtended_iff hhash', ← hcount]
  by_cases hhead : part.head? = some '+'
  · by_cases hhead' : part'.head? = some '+'
    · exact iff_of_true (by rw [if_pos hhead, if_pos hhead']) (Or.inr (iff_of_true hhead hhead'))
    · rw [if_pos hhead, if_neg hhead', or_iff_left fun hsigns => hhead' (hsigns.mp hhead)]
      omega
  · by_cases hhead' : part'.head? = some '+'
    · rw [if_neg hhead, if_pos hhead', or_iff_left fun hsigns => hhead (hsigns.mpr hhead')]
      omega
    · exact iff_of_true (by rw [if_neg hhead, if_neg hhead']) (Or.inr (iff_of_false hhead hhead'))

theorem exists_parts_of_ofText {s : String} (h : ofText s = .ok f) : ∃ part payload,
    s.toList = part ++ '#' :: payload ∧ '#' ∉ part ∧ Notates (part ++ '#' :: payload) f := by
  have hnotates := notates_of_ofText h
  generalize s.toList = text at hnotates
  obtain ⟨part, payload, htext, hhash⟩ : ∃ part payload,
      text = part ++ '#' :: payload ∧ '#' ∉ part := by
    cases hnotates with
    | mk hhash => exact ⟨_, _, rfl, hhash⟩
  exact ⟨part, payload, htext, hhash, htext ▸ hnotates⟩

/-- Every text that is read has digits in front of the first `#`, behind a plus sign or none. The
frame is extended exactly if the digits are more than three, but if there is a sign in front of just
three: it is a fourth byte. Data are pairs of digits and dots exactly if no sign is among them. Any
other text with the same digits in front of the `#` names the same number, and it names it in a
different space exactly if the digits are three and one of the texts has the sign and the other has
not. -/
theorem space_iff_digits {s : String} (h : ofText s = .ok f) : ∃ part payload,
    s.toList = part ++ '#' :: payload ∧ '#' ∉ part ∧
    (part = digits part ∨ part = '+' :: digits part) ∧
    ((f.isExtended = true ↔ 3 < digitCount part) ↔
      ¬ (part.head? = some '+' ∧ digitCount part = 3)) ∧
    (payload.head? ≠ some 'R' → (Paired payload ↔ '+' ∉ payload)) ∧
    ∀ s' f' part' payload', ofText s' = .ok f' → s'.toList = part' ++ '#' :: payload' →
      '#' ∉ part' → digits part = digits part' → f.id = f'.id ∧ (f.isExtended = f'.isExtended ↔
        digitCount part ≠ 3 ∨ (part.head? = some '+' ↔ part'.head? = some '+')) := by
  obtain ⟨part, payload, htext, hhash, hnotates⟩ := exists_parts_of_ofText h
  obtain ⟨-, -, -, hnumeral⟩ := hnotates.format hhash
  refine ⟨part, payload, htext, hhash, (numeral_cases hnumeral).2.imp_left And.left,
    hnotates.isExtended_iff_iff hhash, fun hhead => ?_, ?_⟩
  · obtain ⟨bytes, hoctets⟩ := hnotates.octets hhash hhead
    exact paired_iff hoctets
  · intro s' f' part' payload' h' htext' hhash' hsame
    have hnotates' := notates_of_ofText h'
    rw [htext'] at hnotates'
    exact ⟨hnotates.id_eq hhash hnotates' hhash' hsame,
      hnotates.isExtended_eq_iff hhash hnotates' hhash' hsame⟩

/-- A sign moves the greatest standard identifier into the other space. -/
theorem space_iff_digits_of_sign : ∃ f f', ofText "7FF#+1.2A" = .ok f ∧ ofText "+7FF#R" = .ok f' ∧
    f.id = f'.id ∧ f.isExtended ≠ f'.isExtended ∧ ¬ Paired "+1.2A".toList := by
  have hread : ofText "7FF#+1.2A" = .ok ⟨0x7FF, 0, 2, #v[1, 0x2A, 0, 0, 0, 0, 0, 0], by decide⟩ := by
    decide +kernel
  have hread' : ofText "+7FF#R" = .ok ⟨0xC00007FF, 0, 0, #v[0, 0, 0, 0, 0, 0, 0, 0], by decide⟩ := by
    decide +kernel
  obtain ⟨part, payload, htext, hhash, -, -, hpaired, hspace⟩ := space_iff_digits hread
  have hparts := splitAtHash?_eq_some_iff.mpr ⟨htext, hhash⟩
  have hsplit : splitAtHash? "7FF#+1.2A".toList = some ("7FF".toList, "+1.2A".toList) := by decide
  rw [hsplit] at hparts
  cases hparts
  obtain ⟨hid, hsigns⟩ := hspace "+7FF#R" _ "+7FF".toList "R".toList hread' (by decide) (by decide)
    (by decide)
  refine ⟨_, _, hread, hread', hid, fun hsame => ?_, fun hpairs => ?_⟩
  · have hboth := hsigns.mp hsame
    revert hboth
    decide
  · have hplus := (hpaired (by decide)).mp hpairs
    revert hplus
    decide

/-- Three digits behind a sign are read as an extended identifier, and a sign is read among data
that should be pairs of digits. -/
theorem extended_of_sign :
    (∃ f, ofText "7FF#00" = .ok f ∧ f.isExtended = false ∧ f.id = 0x7FF) ∧
    (∃ f, ofText "+7FF#00" = .ok f ∧ f.isExtended = true ∧ f.id = 0x7FF) ∧
    digitCount "+7FF".toList = 3 ∧
    (∃ f, ofText "7FF#+1" = .ok f ∧ f.data = [1]) ∧ ¬ Paired "+1".toList := by
  refine ⟨⟨⟨0x7FF, 0, 1, #v[0, 0, 0, 0, 0, 0, 0, 0], by decide⟩, ?_⟩,
    ⟨⟨0x800007FF, 0, 1, #v[0, 0, 0, 0, 0, 0, 0, 0], by decide⟩, ?_⟩, by decide,
    ⟨⟨0x7FF, 0, 1, #v[1, 0, 0, 0, 0, 0, 0, 0], by decide⟩, ?_⟩, ?_⟩
  · decide +kernel
  · decide +kernel
  · decide +kernel
  · rintro ⟨hall, -⟩
    have hplus := hall '+' (by decide)
    revert hplus
    decide

end CanTransport.Frame
