import CanTransport.Proofs.Config.Trees
import CanTransport.Proofs.Json.Pieces
import Mathlib.Data.List.Forall2
import Mathlib.Data.List.TakeWhile
/-!
# Printed values read back

A value without fractions and repeated keys, and not nested too deeply, is read back from what is
printed for it, on one line as well as with one entry on each line.
-/

namespace CanTransport.Json

open Value (Distinct put foldl_put)

variable {c : Char} {cs rest : List Char} {v : Value} {n : Nat}

/-! ## Numbers -/

/-- Decimal digits: all are digits, they stand for the number, and none is a needless zero. -/
theorem decimal_cases (n : Nat) : ∃ d < 10, ∃ cs, (Text.decimal n).toList = Text.lowerDigit d :: cs ∧
    (∀ c ∈ (Text.decimal n).toList, ∃ d < 10, c = Text.lowerDigit d) ∧
    Text.digitsValue? 10 0 (Text.decimal n).toList = some n ∧ (d = 0 → cs = []) := by
  rw [Text.decimal]
  split
  · rename_i hzero
    rw [hzero]
    refine ⟨0, by decide, [], rfl, fun c hc => ?_, rfl, fun _ => rfl⟩
    exact ⟨0, by decide, List.mem_singleton.mp hc⟩
  · rename_i hne
    obtain ⟨d, hd, hpos, cs, hdigits⟩ : ∃ d < 10, 0 < d ∧ ∃ rest,
        Text.leastDigits 10 Text.lowerDigit n [] = Text.lowerDigit d :: rest :=
      Text.head_leastDigits (by decide) (Nat.pos_of_ne_zero hne)
    rw [String.toList_ofList]
    refine ⟨d, hd, cs, hdigits, fun c hc => ?_, ?_, fun hzero => absurd hzero (by omega)⟩
    · rcases Text.mem_leastDigits (by decide) hc with hdigit | hnil
      · exact hdigit
      · cases hnil
    · exact Text.digitsValue?_leastDigits Text.writes_lowerDigit (by decide) (by decide)

theorem isDigit_lowerDigit {d : Nat} (hd : d < 10) : (Text.lowerDigit d).isDigit = true := by
  have hall : ∀ d < 10, (Text.lowerDigit d).isDigit = true := by decide
  exact hall d hd

theorem digitRun?_decimal (n : Nat) :
    digitRun? (Text.decimal n).toList = some ((Text.decimal n).toList, []) := by
  obtain ⟨-, -, -, -, hall, -⟩ := decimal_cases n
  have hdigits : ∀ c ∈ (Text.decimal n).toList, c.isDigit = true := by
    intro c hc
    obtain ⟨d, hd, rfl⟩ := hall c hc
    exact isDigit_lowerDigit hd
  rw [digitRun?, List.takeWhile_eq_self_iff.mpr hdigits, List.dropWhile_eq_nil_iff.mpr hdigits,
    if_neg Text.decimal_ne_nil]

/-- Digits have no needless zero in front. -/
theorem decimal_no_zero (n : Nat) : (decide ((Text.decimal n).toList.length > 1) &&
    (Text.decimal n).toList.head? == some '0') = false := by
  obtain ⟨d, hd, cs, hdigits, -, -, hzero⟩ := decimal_cases n
  rw [hdigits]
  cases cs with
  | nil => rfl
  | cons c cs =>
    have hall : ∀ d < 10, d ≠ 0 → (some (Text.lowerDigit d) == some '0') = false := by decide
    have hd0 : d ≠ 0 := fun h => nomatch hzero h
    rw [List.head?_cons, hall d hd hd0]
    exact Bool.and_false _

/-- The digits of a number, behind its sign. -/
def signedDigits (negative : Bool) (n : Nat) : List Char :=
  (if negative then ['-'] else []) ++ (Text.decimal n).toList

theorem number?_signedDigits {negative : Bool}
    (h : Value.fits64 (if negative then -(n : Int) else n) = true)
    (hsign : (negative && n == 0) = false) :
    number? (signedDigits negative n) = some (.int (if negative then -(n : Int) else n)) := by
  obtain ⟨d, hd, cs, hdigits, -, hvalue, -⟩ := decimal_cases n
  have hminus : ∀ d < 10, Text.lowerDigit d ≠ '-' := by decide
  have hrun := digitRun?_decimal n
  have hzero := decimal_no_zero n
  unfold number?
  split
  rename_i negative' unsigned hsplit
  have hsame : (negative', unsigned) = (negative, (Text.decimal n).toList) := by
    rw [← hsplit, signedDigits]
    cases negative with
    | true => rfl
    | false =>
      rw [if_neg Bool.false_ne_true, List.nil_append, hdigits]
      split
      · rename_i heq
        exact absurd (List.cons.inj heq).1 (hminus d hd)
      · rfl
  cases hsame
  rw [hrun, Option.bind_eq_bind, Option.bind_some]
  dsimp -zeta only
  rw [hzero, if_neg Bool.false_ne_true, if_pos rfl, hvalue, Option.bind_eq_bind, Option.bind_some]
  -- the signed number is not looked into, and so its bounds are not
  extract_lets signed
  have hsigned : signed = if negative then -(n : Int) else n := rfl
  clear_value signed
  rw [← hsigned] at h ⊢
  rw [h, hsign, if_pos]
  rfl

theorem exists_signedDigits (n : Int) : ∃ (negative : Bool) (m : Nat),
    (negative && m == 0) = false ∧ n = (if negative then -(m : Int) else m) ∧
      (number n).toList = signedDigits negative m := by
  cases n with
  | ofNat k => exact ⟨false, k, rfl, rfl, rfl⟩
  | negSucc k =>
    refine ⟨true, k + 1, rfl, rfl, ?_⟩
    rw [number, String.toList_append]
    rfl

/-- A whole number of 64 bits is a word that is read as that number. -/
theorem word?_number {n : Int} (h : Value.fits64 n = true) :
    word? (number n).toList = some (.int n) ∧ (number n).toList ≠ [] ∧
      ∀ c ∈ (number n).toList, isEnd c = false := by
  obtain ⟨negative, m, hsign, hn, hdigits⟩ := exists_signedDigits n
  rw [hn] at h
  have hread := number?_signedDigits h hsign
  obtain ⟨d, hd, cs, hdecimal, hall, -, -⟩ := decimal_cases m
  have hne : ∀ w ∈ ["null", "true", "false"], signedDigits negative m ≠ w.toList := by
    have hfirst : ∀ w ∈ ["null", "true", "false"],
        (∀ d < 10, w.toList.head? ≠ some (Text.lowerDigit d)) ∧ w.toList.head? ≠ some '-' := by
      decide
    intro w hw heq
    obtain ⟨hdigit, hminus⟩ := hfirst w hw
    rw [signedDigits, hdecimal] at heq
    cases negative with
    | true => exact hminus (heq ▸ rfl)
    | false => exact hdigit d hd (heq ▸ rfl)
  have hend : ∀ c ∈ signedDigits negative m, isEnd c = false := by
    have hdigit : ∀ d < 10, isEnd (Text.lowerDigit d) = false := by decide
    intro c hc
    rcases List.mem_append.mp hc with hc | hc
    · cases negative with
      | true =>
        rw [List.mem_singleton.mp hc]
        rfl
      | false => cases hc
    · obtain ⟨d, hd, rfl⟩ := hall c hc
      exact hdigit d hd
  rw [hdigits, hn]
  refine ⟨?_, ?_, hend⟩
  · rw [word?, if_neg (hne "null" (by simp)), if_neg (hne "true" (by simp)),
      if_neg (hne "false" (by simp)), hread]
  · rw [signedDigits, hdecimal]
    exact List.append_ne_nil_of_right_ne_nil _ (List.cons_ne_nil _ _)

/-! ## Values -/

/-- Values that JSON notates as they are, with no more than `depth` levels: their numbers are whole
and of 64 bits, and their maps repeat no key. -/
inductive Exact : Nat → Value → Prop where
  | null {depth : Nat} : Exact depth .null
  | bool {depth : Nat} (b : Bool) : Exact depth (.bool b)
  | int {depth : Nat} {n : Int} (h : Value.fits64 n = true) : Exact depth (.int n)
  | str {depth : Nat} (s : String) : Exact depth (.str s)
  | list {depth : Nat} {items : List Value} (h : ∀ v ∈ items, Exact depth v) :
      Exact (depth + 1) (.list items)
  | map {depth : Nat} {fields : List (String × Value)} (hdistinct : Distinct fields)
      (h : ∀ entry ∈ fields, Exact depth entry.2) : Exact (depth + 1) (.map fields)

variable {depth : Nat} {items : List Value} {fields : List (String × Value)}
  {css : List (List Char)} {before between behind : List Char} {stack outer : List Open}
  {expect : Expect} {key : String}

/-- A text is taken as a value wherever a value may come and there is room for its levels. -/
def Says (depth : Nat) (cs : List Char) (v : Value) : Prop :=
  ∀ stack expect rest, stack.length + depth ≤ maxDepth → (expect = .value ∨ expect = .valueOrEnd) →
    Ends rest → resume stack expect (cs ++ rest) =
      resume (complete v stack).1 (complete v stack).2 rest

theorem take?_scalar (hexpect : expect = .value ∨ expect = .valueOrEnd) :
    take? stack expect (.scalar v) = some (complete v stack) := by
  rcases hexpect with rfl | rfl <;> rfl

theorem says_word (h : word? cs = some v) (hcs : cs ≠ []) (hplain : ∀ c ∈ cs, isEnd c = false) :
    Says depth cs v := by
  intro stack expect rest _ hexpect hends
  rw [resume_word h hcs hplain hends, take?_scalar hexpect]
  rfl

/-- A word that stands as it is. -/
theorem says_literal (h : word? cs = some v) (hcs : cs ≠ []) (hplain : cs.any isEnd = false) :
    Says depth cs v :=
  says_word h hcs fun c hc => Bool.eq_false_of_not_eq_true (List.any_eq_false.mp hplain c hc)

theorem says_string (s : String) : Says depth (string s).toList (.str s) := by
  intro stack expect rest _ hexpect _
  rw [resume_string, take?_scalar hexpect]
  rfl

theorem Says.blanks_append (h : Says depth cs v) (hbefore : ∀ c ∈ before, isBlank c = true) :
    Says depth (before ++ cs) v := by
  intro stack expect rest hroom hexpect hends
  rw [List.append_assoc, resume_blanks hbefore]
  exact h stack expect rest hroom hexpect hends

theorem ends_blanks_append (hbehind : ∀ c ∈ behind, isBlank c = true) (h : Ends rest) :
    Ends (behind ++ rest) := by
  cases behind with
  | nil => exact h
  | cons c behind =>
    apply ends_cons
    rw [isEnd, hbehind c List.mem_cons_self]
    rfl

/-! ## Lists -/

theorem intercalate_append {c : Char} {cs cs' : List Char} :
    (c :: between).intercalate (cs :: cs' :: css) ++ rest =
      cs ++ c :: (between ++ ((c :: between).intercalate (cs' :: css) ++ rest)) := by
  simp only [List.intercalate_cons_cons, List.append_assoc, List.cons_append]

/-- Items with commas between them go into the list that is open. -/
theorem resume_items (h : List.Forall₂ (Says depth) css items) (hne : css ≠ [])
    (hbetween : ∀ c ∈ between, isBlank c = true) (hroom : outer.length + 1 + depth ≤ maxDepth)
    {acc : List Value} (hexpect : expect = .value ∨ expect = .valueOrEnd) (hends : Ends rest) :
    resume (.list acc :: outer) expect ((',' :: between).intercalate css ++ rest) =
      resume (.list (items.reverse ++ acc) :: outer) .moreOrEnd rest := by
  induction h generalizing acc expect with
  | nil => exact absurd rfl hne
  | @cons cs v css items hsays hrest ih =>
    cases hrest with
    | nil =>
      rw [List.intercalate_singleton]
      exact hsays (.list acc :: outer) expect rest hroom hexpect hends
    | cons =>
      have hcomma : mark? ',' = some .comma := rfl
      rw [intercalate_append, hsays (.list acc :: outer) expect _ hroom hexpect (ends_cons rfl),
        resume_mark hcomma]
      show resume (.list (v :: acc) :: outer) .value _ = _
      rw [resume_blanks hbetween, ih (List.cons_ne_nil _ _) (Or.inl rfl)]
      simp only [List.reverse_cons, List.append_assoc, List.cons_append, List.nil_append]

theorem says_list (h : List.Forall₂ (Says depth) css items)
    (hbefore : ∀ c ∈ before, isBlank c = true) (hbetween : ∀ c ∈ between, isBlank c = true)
    (hbehind : ∀ c ∈ behind, isBlank c = true) : Says (depth + 1)
      ('[' :: before ++ (',' :: between).intercalate css ++ behind ++ [']']) (.list items) := by
  intro stack expect rest hroom hexpect hends
  have hopen : mark? '[' = some .openList := rfl
  have hclose : mark? ']' = some .closeList := rfl
  have htake : take? stack expect .openList = some (.list [] :: stack, .valueOrEnd) := by
    have hroom' : stack.length < maxDepth := by omega
    rcases hexpect with rfl | rfl <;> exact if_pos hroom'
  have hends' : Ends (behind ++ ']' :: rest) := ends_blanks_append hbehind (ends_cons rfl)
  simp only [List.cons_append, List.append_assoc, List.nil_append]
  rw [resume_mark hopen, htake]
  show resume (.list [] :: stack) .valueOrEnd _ = _
  rw [resume_blanks hbefore]
  cases h with
  | nil =>
    rw [List.intercalate_nil, List.nil_append, resume_blanks hbehind, resume_mark hclose]
    rfl
  | @cons cs v css items hsays hrest =>
    rw [resume_items (.cons hsays hrest) (List.cons_ne_nil _ _) hbetween (by omega) (Or.inr rfl)
      hends', resume_blanks hbehind, resume_mark hclose]
    show resume (complete (.list ((v :: items).reverse ++ []).reverse) stack).1 _ _ = _
    rw [List.append_nil, List.reverse_reverse]
    rfl

/-! ## Maps -/

/-- A text that puts an entry into the map that is open. -/
def SaysEntry (depth : Nat) (cs : List Char) (entry : String × Value) : Prop :=
  ∀ fields key outer expect rest, outer.length + 1 + depth ≤ maxDepth →
    (expect = .key ∨ expect = .keyOrEnd) → Ends rest →
    resume (.map fields key :: outer) expect (cs ++ rest) =
      resume (.map (put entry.1 entry.2 fields) entry.1 :: outer) .moreOrEnd rest

theorem Says.entry (h : Says depth cs v) (key : String)
    (hbetween : ∀ c ∈ between, isBlank c = true) :
    SaysEntry depth ((string key).toList ++ ':' :: between ++ cs) (key, v) := by
  intro fields key' outer expect rest hroom hexpect hends
  have hcolon : mark? ':' = some .colon := rfl
  have htake : take? (.map fields key' :: outer) expect (.scalar (.str key)) =
      some (.map fields key :: outer, .colon) := by
    rcases hexpect with rfl | rfl <;> rfl
  simp only [List.append_assoc, List.cons_append]
  rw [resume_string, htake]
  show resume (.map fields key :: outer) .colon _ = _
  rw [resume_mark hcolon]
  show resume (.map fields key :: outer) .value _ = _
  rw [resume_blanks hbetween]
  exact h (.map fields key :: outer) .value rest hroom (Or.inl rfl) hends

theorem SaysEntry.blanks_append {entry : String × Value} (h : SaysEntry depth cs entry)
    (hbefore : ∀ c ∈ before, isBlank c = true) : SaysEntry depth (before ++ cs) entry := by
  intro fields key outer expect rest hroom hexpect hends
  rw [List.append_assoc, resume_blanks hbefore]
  exact h fields key outer expect rest hroom hexpect hends

/-- Entries with commas between them go into the map that is open. -/
theorem resume_fields (h : List.Forall₂ (SaysEntry depth) css fields) (hne : css ≠ [])
    (hbetween : ∀ c ∈ between, isBlank c = true) (hroom : outer.length + 1 + depth ≤ maxDepth)
    {acc : List (String × Value)} (hexpect : expect = .key ∨ expect = .keyOrEnd)
    (hends : Ends rest) : ∃ key',
    resume (.map acc key :: outer) expect ((',' :: between).intercalate css ++ rest) =
      resume (.map (fields.foldl (fun acc entry => put entry.1 entry.2 acc) acc) key' :: outer)
        .moreOrEnd rest := by
  induction h generalizing acc expect key with
  | nil => exact absurd rfl hne
  | @cons cs entry css fields hsays hrest ih =>
    cases hrest with
    | nil =>
      rw [List.intercalate_singleton]
      exact ⟨_, hsays acc key outer expect rest hroom hexpect hends⟩
    | cons =>
      have hcomma : mark? ',' = some .comma := rfl
      rw [intercalate_append, hsays acc key outer expect _ hroom hexpect (ends_cons rfl),
        resume_mark hcomma]
      show ∃ key', resume (.map (put entry.1 entry.2 acc) entry.1 :: outer) .key _ = _
      rw [resume_blanks hbetween]
      exact ih (List.cons_ne_nil _ _) (Or.inl rfl)

theorem says_map (h : List.Forall₂ (SaysEntry depth) css fields) (hdistinct : Distinct fields)
    (hbefore : ∀ c ∈ before, isBlank c = true) (hbetween : ∀ c ∈ between, isBlank c = true)
    (hbehind : ∀ c ∈ behind, isBlank c = true) : Says (depth + 1)
      ('\x7b' :: before ++ (',' :: between).intercalate css ++ behind ++ ['\x7d']) (.map fields) := by
  intro stack expect rest hroom hexpect hends
  have hopen : mark? '\x7b' = some .openMap := rfl
  have hclose : mark? '\x7d' = some .closeMap := rfl
  have htake : take? stack expect .openMap = some (.map [] "" :: stack, .keyOrEnd) := by
    have hroom' : stack.length < maxDepth := by omega
    rcases hexpect with rfl | rfl <;> exact if_pos hroom'
  have hends' : Ends (behind ++ '\x7d' :: rest) := ends_blanks_append hbehind (ends_cons rfl)
  simp only [List.cons_append, List.append_assoc, List.nil_append]
  rw [resume_mark hopen, htake]
  show resume (.map [] "" :: stack) .keyOrEnd _ = _
  rw [resume_blanks hbefore]
  cases h with
  | nil =>
    rw [List.intercalate_nil, List.nil_append, resume_blanks hbehind, resume_mark hclose]
    rfl
  | @cons cs entry css fields hsays hrest =>
    have hroom' : stack.length + 1 + depth ≤ maxDepth := by omega
    obtain ⟨key', hfields⟩ := resume_fields (.cons hsays hrest) (List.cons_ne_nil _ _) hbetween
      hroom' (Or.inr rfl) hends'
    rw [hfields, resume_blanks hbehind, resume_mark hclose, foldl_put hdistinct]
    rfl

/-! ## Both layouts -/

theorem compactItems_eq (items : List Value) : compactItems items = items.map compact := by
  induction items with
  | nil => rfl
  | cons v items ih => rw [compactItems, ih, List.map_cons]

theorem compactFields_eq (fields : List (String × Value)) :
    compactFields fields = fields.map fun entry => string entry.1 ++ ":" ++ compact entry.2 := by
  induction fields with
  | nil => rfl
  | cons entry fields ih => rw [compactFields, ih, List.map_cons]

theorem prettyItems_eq (level : Nat) (items : List Value) :
    prettyItems level items = items.map (pretty level) := by
  induction items with
  | nil => rfl
  | cons v items ih => rw [prettyItems, ih, List.map_cons]

theorem prettyFields_eq (level : Nat) (fields : List (String × Value)) : prettyFields level fields =
    fields.map fun entry => string entry.1 ++ ": " ++ pretty level entry.2 := by
  induction fields with
  | nil => rfl
  | cons entry fields ih => rw [prettyFields, ih, List.map_cons]

/-- Values without inner ones look the same in both layouts. -/
theorem pretty_eq_compact (level : Nat) (hlist : ∀ items, v ≠ .list items)
    (hmap : ∀ fields, v ≠ .map fields) : pretty level v = compact v := by
  cases v with
  | list => exact absurd rfl (hlist _)
  | map => exact absurd rfl (hmap _)
  | null | bool | int | real | str => rw [pretty, compact]

theorem says_scalar (h : Exact depth v) (hlist : ∀ items, v ≠ .list items)
    (hmap : ∀ fields, v ≠ .map fields) : Says depth (compact v).toList v := by
  cases h with
  | null =>
    have htext : (compact .null).toList = ['n', 'u', 'l', 'l'] := by
      rw [compact]
      rfl
    rw [htext]
    exact says_literal rfl (List.cons_ne_nil _ _) rfl
  | bool b =>
    cases b with
    | false =>
      have htext : (compact (.bool false)).toList = ['f', 'a', 'l', 's', 'e'] := by
        rw [compact]
        rfl
      rw [htext]
      exact says_literal rfl (List.cons_ne_nil _ _) rfl
    | true =>
      have htext : (compact (.bool true)).toList = ['t', 'r', 'u', 'e'] := by
        rw [compact]
        rfl
      rw [htext]
      exact says_literal rfl (List.cons_ne_nil _ _) rfl
  | int hfits =>
    obtain ⟨hword, hne, hplain⟩ := word?_number hfits
    exact says_word hword hne hplain
  | str s => exact says_string s
  | list => exact absurd rfl (hlist _)
  | map => exact absurd rfl (hmap _)

theorem says_plain (h : Exact depth v) (hlist : ∀ items, v ≠ .list items)
    (hmap : ∀ fields, v ≠ .map fields) (level : Nat) : Says depth (pretty level v).toList v := by
  rw [pretty_eq_compact level hlist hmap]
  exact says_scalar h hlist hmap

theorem isBlank_replicate (n : Nat) : ∀ c ∈ List.replicate n ' ', isBlank c = true := by
  intro c hc
  rw [(List.mem_replicate.mp hc).2]
  rfl

theorem forall₂_map {α : Type} {R : List Char → α → Prop} {xs : List α} {text : α → List Char}
    (h : ∀ x ∈ xs, R (text x) x) : List.Forall₂ R (xs.map text) xs := by
  induction xs with
  | nil => exact .nil
  | cons x xs ih =>
    exact .cons (h x List.mem_cons_self) (ih fun y hy => h y (List.mem_cons_of_mem x hy))

/-- What is printed on one line is taken as the value that it was printed for. -/
theorem says_compact (h : Exact depth v) : Says depth (compact v).toList v := by
  induction h with
  | null => exact says_scalar .null nofun nofun
  | bool b => exact says_scalar (.bool b) nofun nofun
  | int hfits => exact says_scalar (.int hfits) nofun nofun
  | str s => exact says_scalar (.str s) nofun nofun
  | @list depth items h ih =>
    have hchars : (compact (.list items)).toList = '[' :: [] ++
        (',' :: []).intercalate (items.map fun v => (compact v).toList) ++ [] ++ [']'] := by
      simp [compact, compactItems_eq, String.toList_intercalate, Function.comp_def]
    rw [hchars]
    exact says_list (forall₂_map ih) nofun nofun nofun
  | @map depth fields hdistinct h ih =>
    have hchars : (compact (.map fields)).toList = '\x7b' :: [] ++
        (',' :: []).intercalate (fields.map fun entry =>
          (string entry.1).toList ++ ':' :: [] ++ (compact entry.2).toList) ++ [] ++ ['\x7d'] := by
      simp [compact, compactFields_eq, String.toList_intercalate, Function.comp_def]
    rw [hchars]
    refine says_map (forall₂_map fun entry hentry => ?_) hdistinct nofun nofun nofun
    exact (ih entry hentry).entry entry.1 nofun

theorem toList_layOut (opening closing : String) (level : Nat) {entries : List String}
    (hne : entries ≠ []) : (layOut opening closing level entries).toList = opening.toList ++
      '\n' :: (",\n".toList.intercalate (entries.map fun entry =>
        List.replicate (2 * (level + 1)) ' ' ++ entry.toList)) ++
      '\n' :: List.replicate (2 * level) ' ' ++ closing.toList := by
  simp [layOut, hne, String.toList_intercalate, Function.comp_def]

theorem toList_pretty_list {level : Nat} (hne : items ≠ []) :
    (pretty level (.list items)).toList = '[' :: ['\n'] ++
      (',' :: ['\n']).intercalate (items.map fun v =>
        List.replicate (2 * (level + 1)) ' ' ++ (pretty (level + 1) v).toList) ++
      ('\n' :: List.replicate (2 * level) ' ') ++ [']'] := by
  rw [pretty, prettyItems_eq, toList_layOut _ _ _ (by simpa using hne), List.map_map]
  rfl

theorem toList_pretty_map {level : Nat} (hne : fields ≠ []) :
    (pretty level (.map fields)).toList = '\x7b' :: ['\n'] ++
      (',' :: ['\n']).intercalate (fields.map fun entry =>
        List.replicate (2 * (level + 1)) ' ' ++ ((string entry.1).toList ++ ':' :: [' '] ++
          (pretty (level + 1) entry.2).toList)) ++
      ('\n' :: List.replicate (2 * level) ' ') ++ ['\x7d'] := by
  rw [pretty, prettyFields_eq, toList_layOut _ _ _ (by simpa using hne), List.map_map]
  simp [Function.comp_def]

theorem isBlank_break (n : Nat) : ∀ c ∈ '\n' :: List.replicate n ' ', isBlank c = true :=
  List.forall_mem_cons.mpr ⟨rfl, isBlank_replicate n⟩

/-- What is printed on lines of their own is taken as the value that it was printed for. -/
theorem says_pretty (h : Exact depth v) (level : Nat) : Says depth (pretty level v).toList v := by
  induction h generalizing level with
  | null => exact says_plain .null nofun nofun level
  | bool b => exact says_plain (.bool b) nofun nofun level
  | int hfits => exact says_plain (.int hfits) nofun nofun level
  | str s => exact says_plain (.str s) nofun nofun level
  | @list depth items h ih =>
    by_cases hne : items = []
    · have hempty : (pretty level (.list [])).toList =
          '[' :: [] ++ [','].intercalate [] ++ [] ++ [']'] := by
        simp [pretty, prettyItems, layOut]
      rw [hne, hempty]
      exact says_list .nil nofun nofun nofun
    · rw [toList_pretty_list hne]
      exact says_list (forall₂_map fun v hv => (ih v hv _).blanks_append (isBlank_replicate _))
        (isBlank_break 0) (isBlank_break 0) (isBlank_break _)
  | @map depth fields hdistinct h ih =>
    by_cases hne : fields = []
    · have hempty : (pretty level (.map [])).toList =
          '\x7b' :: [] ++ [','].intercalate [] ++ [] ++ ['\x7d'] := by
        simp [pretty, prettyFields, layOut]
      rw [hne, hempty]
      exact says_map .nil .nil nofun nofun nofun
    · rw [toList_pretty_map hne]
      refine says_map (forall₂_map fun entry hentry => ?_) hdistinct (isBlank_break 0)
        (isBlank_break 0) (isBlank_break _)
      exact ((ih entry hentry _).entry entry.1 (isBlank_replicate 1)).blanks_append
        (isBlank_replicate _)

/-- A text that is taken as a value is read as that value. -/
theorem Says.read? {text : String} (h : Says maxDepth text.toList v) : Json.read? text = some v := by
  have hread := h [] .value [] (Nat.le_of_eq (Nat.zero_add _)) (Or.inl rfl) ends_nil
  rw [List.append_nil] at hread
  exact (read?_eq text).trans hread

/-- A value that JSON notates as it is reads back from its text in either layout. -/
theorem read?_printed (h : Exact maxDepth v) :
    read? (compact v) = some v ∧ ∀ level, read? (pretty level v) = some v :=
  ⟨(says_compact h).read?, fun level => (says_pretty h level).read?⟩

end CanTransport.Json
