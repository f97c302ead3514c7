import CanTransport.Json.Printer
import CanTransport.Json.Reader
import CanTransport.Proofs.Text.Numerals
/-!
# Pieces of a JSON text

What the reader makes of a text piece by piece: blanks, marks, strings and words each move it on,
whatever stands behind them. A word needs an end, which is a blank, a mark or a quote, or the end
of the text.
-/

namespace CanTransport.Json

variable {c : Char} {cs rest acc : List Char} {mode next : Mode} {token : Token}
  {stack : List Open} {expect : Expect} {v : Value}

/-- What comes of a text that is read on where values are open. -/
def resume (stack : List Open) (expect : Expect) (cs : List Char) : Option Value :=
  (tokens? .between cs).bind (build? stack expect)

theorem read?_eq (text : String) : read? text = resume [] .value text.toList := rfl

/-! ## Single characters -/

theorem tokens?_cons : tokens? mode (c :: cs) = (scan? mode c).bind fun (tokens, next) =>
    (tokens? next cs).bind fun others => some (tokens ++ others) := by
  cases mode <;> rfl

/-- A character that completes nothing. -/
theorem tokens?_silent (h : scan? mode c = some ([], next)) :
    tokens? mode (c :: cs) = tokens? next cs := by
  rw [tokens?_cons, h]
  exact Option.bind_fun_some _

theorem resume_blank (hc : isBlank c = true) : resume stack expect (c :: cs) =
    resume stack expect cs := by
  have hscan : scan? .between c = some ([], .between) := by
    rw [scan?, outside?, if_pos hc]
  rw [resume, tokens?_silent hscan, resume]

theorem resume_blanks {blanks : List Char} (h : ∀ c ∈ blanks, isBlank c = true) :
    resume stack expect (blanks ++ cs) = resume stack expect cs := by
  induction blanks with
  | nil => rfl
  | cons c blanks ih =>
    rw [List.cons_append, resume_blank (h c List.mem_cons_self),
      ih fun d hd => h d (List.mem_cons_of_mem c hd)]

/-- A token is taken before what follows it is looked at. -/
theorem bind_build?_cons {rest : Option (List Token)} :
    ((rest.bind fun others => some (token :: others)).bind (build? stack expect)) =
      (take? stack expect token).bind fun (stack, expect) => rest.bind (build? stack expect) := by
  cases rest with
  | none => cases take? stack expect token <;> rfl
  | some tokens =>
    rw [Option.bind_some, Option.bind_some, build?]
    rfl

theorem not_blank_of_mark (h : mark? c = some token) :
    isBlank c = false ∧ (c == '\"') = false := by
  unfold mark? at h
  split at h <;> first | exact ⟨rfl, rfl⟩ | cases h

theorem resume_mark (h : mark? c = some token) : resume stack expect (c :: cs) =
    (take? stack expect token).bind fun (stack, expect) => resume stack expect cs := by
  obtain ⟨hblank, hquote⟩ := not_blank_of_mark h
  have hscan : scan? .between c = some ([token], .between) := by
    simp only [scan?, outside?, hblank, hquote, h, Bool.false_eq_true, if_false]
  rw [resume, tokens?_cons, hscan]
  exact bind_build?_cons

/-! ## Words -/

/-- A character that ends a word. -/
def isEnd (c : Char) : Bool := isBlank c || c == '\"' || (mark? c).isSome

/-- A text in front of which a word can end. -/
def Ends (cs : List Char) : Prop := ∀ c ∈ cs.head?, isEnd c = true

theorem ends_nil : Ends [] := nofun

theorem ends_cons (h : isEnd c = true) : Ends (c :: cs) := by
  rintro d hd
  obtain rfl := Option.some.inj hd
  exact h

/-- Characters that end no word are collected. -/
theorem tokens?_collect (h : ∀ c ∈ cs, isEnd c = false) :
    tokens? (.word acc) (cs ++ rest) = tokens? (.word (cs.reverse ++ acc)) rest := by
  induction cs generalizing acc with
  | nil => rfl
  | cons c cs ih =>
    have hc := h c List.mem_cons_self
    have hscan : scan? (.word acc) c = some ([], .word (c :: acc)) := by
      rw [isEnd] at hc
      rw [scan?, hc, if_neg Bool.false_ne_true]
    rw [List.cons_append, tokens?_silent hscan, ih fun d hd => h d (List.mem_cons_of_mem c hd),
      List.reverse_cons, List.append_assoc, List.singleton_append]

theorem tokens?_end (h : word? acc.reverse = some v) (hends : Ends rest) :
    tokens? (.word acc) rest =
      (tokens? .between rest).bind fun others => some (.scalar v :: others) := by
  cases rest with
  | nil =>
    have hnil : tokens? (.word acc) [] =
        (word? acc.reverse).map fun value => [.scalar value] := rfl
    rw [hnil, h]
    rfl
  | cons c rest =>
    have hc := hends c rfl
    rw [isEnd] at hc
    have hscan : scan? (.word acc) c =
        (outside? c).map fun (tokens, next) => (.scalar v :: tokens, next) := by
      rw [scan?.eq_2, if_pos hc, h]
      cases outside? c <;> rfl
    rw [tokens?_cons, tokens?_cons, hscan, scan?.eq_1]
    cases outside? c with
    | none => rfl
    | some outcome =>
      obtain ⟨tokens, next⟩ := outcome
      show ((tokens? next rest).bind fun others => some (.scalar v :: (tokens ++ others))) =
        ((tokens? next rest).bind fun others => some (tokens ++ others)).bind _
      cases tokens? next rest <;> rfl

/-- A word is taken as the value that it stands for. -/
theorem resume_word (h : word? cs = some v) (hcs : cs ≠ []) (hplain : ∀ c ∈ cs, isEnd c = false)
    (hends : Ends rest) : resume stack expect (cs ++ rest) =
      (take? stack expect (.scalar v)).bind fun (stack, expect) => resume stack expect rest := by
  obtain ⟨c, cs, rfl⟩ := List.exists_cons_of_ne_nil hcs
  have hc := hplain c List.mem_cons_self
  have hscan : scan? .between c = some ([], .word [c]) := by
    simp only [isEnd, Bool.or_eq_false_iff, Option.isSome_eq_false_iff, Option.isNone_iff_eq_none]
      at hc
    obtain ⟨⟨hblank, hquote⟩, hmark⟩ := hc
    simp only [scan?, outside?, hblank, hquote, hmark, Bool.false_eq_true, if_false]
  have hword : word? (cs.reverse ++ [c]).reverse = some v := by
    rw [List.reverse_append, List.reverse_reverse]
    exact h
  rw [resume, List.cons_append, tokens?_silent hscan,
    tokens?_collect fun d hd => hplain d (List.mem_cons_of_mem c hd), tokens?_end hword hends]
  exact bind_build?_cons

/-! ## Strings -/

theorem tokens?_escape {e : Char} (h : simpleEscape? e = some c) :
    tokens? (.text acc) ('\\' :: e :: rest) = tokens? (.text (c :: acc)) rest := by
  have hbackslash : scan? (.text acc) '\\' = some ([], .escape acc) := rfl
  have hunit : (e == 'u') = false := by
    rw [beq_eq_false_iff_ne]
    rintro rfl
    cases h
  have hscan : scan? (.escape acc) e = some ([], .text (c :: acc)) := by
    rw [scan?, hunit, if_neg Bool.false_ne_true, h]
    rfl
  rw [tokens?_silent hbackslash, tokens?_silent hscan]

/-- A digit of a unit that is not the last. -/
theorem tokens?_digit {high : Option Nat} {digits value d : Nat} (hd : d < 16)
    (hdigits : digits ≠ 3) : tokens? (.unit acc high digits value) (Text.lowerDigit d :: rest) =
      tokens? (.unit acc high (digits + 1) (16 * value + d)) rest := by
  refine tokens?_silent ?_
  rw [scan?, Text.hexValue?_lowerDigit hd]
  exact if_neg hdigits

theorem tokens?_lastDigit {high : Option Nat} {value d : Nat} (hd : d < 16)
    (h : afterUnit acc high (16 * value + d) = some next) :
    tokens? (.unit acc high 3 value) (Text.lowerDigit d :: rest) = tokens? next rest := by
  refine tokens?_silent ?_
  rw [scan?, Text.hexValue?_lowerDigit hd]
  show (afterUnit acc high (16 * value + d)).map _ = _
  rw [h]
  rfl

/-- A unit that is no surrogate is a character. -/
theorem tokens?_unit {n : Nat} (hn : n < 0xD800) : tokens? (.text acc)
    ('\\' :: 'u' :: Text.fixedDigits 16 Text.lowerDigit 4 n ++ rest) =
      tokens? (.text (Char.ofNat n :: acc)) rest := by
  have hbackslash : scan? (.text acc) '\\' = some ([], .escape acc) := rfl
  have hu : scan? (.escape acc) 'u' = some ([], .unit acc none 0 0) := rfl
  have hdigits : Text.fixedDigits 16 Text.lowerDigit 4 n =
      [Text.lowerDigit (n / 16 / 16 / 16 % 16), Text.lowerDigit (n / 16 / 16 % 16),
        Text.lowerDigit (n / 16 % 16), Text.lowerDigit (n % 16)] := rfl
  have hvalue : 16 * (16 * (16 * (16 * 0 + n / 16 / 16 / 16 % 16) + n / 16 / 16 % 16) +
      n / 16 % 16) + n % 16 = n := by omega
  have hlast : afterUnit acc none n = some (.text (Char.ofNat n :: acc)) := by
    rw [afterUnit, if_neg (by simp; omega), if_neg (by simp; omega)]
  rw [← hvalue] at hlast
  simp only [hdigits, List.cons_append, List.nil_append]
  rw [tokens?_silent hbackslash, tokens?_silent hu,
    tokens?_digit (Nat.mod_lt _ (by decide)) (by decide),
    tokens?_digit (Nat.mod_lt _ (by decide)) (by decide),
    tokens?_digit (Nat.mod_lt _ (by decide)) (by decide),
    tokens?_lastDigit (Nat.mod_lt _ (by decide)) hlast, hvalue]

/-- What is written for a character is read as that character. -/
theorem tokens?_escapeChar (c : Char) :
    tokens? (.text acc) (escapeChar c ++ rest) = tokens? (.text (c :: acc)) rest := by
  unfold escapeChar
  split
  · exact tokens?_escape rfl
  · exact tokens?_escape rfl
  · exact tokens?_escape rfl
  · exact tokens?_escape rfl
  · exact tokens?_escape rfl
  · exact tokens?_escape rfl
  · exact tokens?_escape rfl
  · rename_i hquote hbackslash _ _ _ _ _
    split
    · rename_i hcontrol
      rw [tokens?_unit (by omega), Char.ofNat_toNat]
    · rename_i hcontrol
      refine tokens?_silent ?_
      rw [scan?, beq_eq_false_iff_ne.mpr hquote, beq_eq_false_iff_ne.mpr hbackslash,
        if_neg Bool.false_ne_true, if_neg Bool.false_ne_true, if_neg hcontrol]

theorem tokens?_string (cs : List Char) :
    tokens? (.text acc) (cs.flatMap escapeChar ++ '\"' :: rest) =
      (tokens? .between rest).bind fun others =>
        some (.scalar (.str (String.ofList (acc.reverse ++ cs))) :: others) := by
  induction cs generalizing acc with
  | nil =>
    have hscan : scan? (.text acc) '\"' =
        some ([.scalar (.str (String.ofList acc.reverse))], .between) := rfl
    rw [List.flatMap_nil, List.nil_append, tokens?_cons, hscan, List.append_nil]
    rfl
  | cons c cs ih =>
    rw [List.flatMap_cons, List.append_assoc, tokens?_escapeChar, ih, List.reverse_cons,
      List.append_assoc, List.singleton_append]

/-- A string is taken as what was quoted. -/
theorem resume_string (s : String) : resume stack expect ((string s).toList ++ rest) =
    (take? stack expect (.scalar (.str s))).bind fun (stack, expect) =>
      resume stack expect rest := by
  have hscan : scan? .between '\"' = some ([], .text []) := rfl
  have hchars : (string s).toList ++ rest =
      '\"' :: (s.toList.flatMap escapeChar ++ '\"' :: rest) := by
    rw [string, String.toList_ofList]
    simp
  rw [resume, hchars, tokens?_silent hscan, tokens?_string, List.reverse_nil, List.nil_append,
    String.ofList_toList]
  exact bind_build?_cons

end CanTransport.Json
