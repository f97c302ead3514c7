import CanTransport.Proofs.Text.Digits
import CanTransport.Proofs.Yaml.Rows
import CanTransport.Yaml.Printer
import Mathlib.Algebra.BigOperators.Group.List.Basic
/-!
# Printed maps read back

The lines that are printed for a map are rows that spell its entries, as long as all keys and
scalars are words that are read as what they are. So the text reads back as the map.
-/

namespace CanTransport.Yaml

open Value (Distinct)

variable {cs rest : List Char} {entries : List (String × Value)}

/-! ## Lines of a text -/

theorem unifyBreaks_eq_self
    (h : ∀ c ∈ cs, c ∉ ['\r', '\u0085', '\u2028', '\u2029']) : unifyBreaks cs = cs := by
  induction cs with
  | nil => rfl
  | cons c cs ih =>
    have hc := h c List.mem_cons_self
    have hcontains : ['\r', '\u0085', '\u2028', '\u2029'].contains c = false := by
      rw [← Bool.not_eq_true, List.contains_iff_mem]
      exact hc
    rw [unifyBreaks, hcontains, if_neg Bool.false_ne_true,
      ih fun d hd => h d (List.mem_cons_of_mem c hd)]
    rintro _ rfl
    exact absurd List.mem_cons_self hc

theorem splitLines_append (h : '\n' ∉ cs) (rest : List Char) :
    splitLines (cs ++ '\n' :: rest) = cs :: splitLines rest := by
  induction cs with
  | nil => simp [splitLines]
  | cons c cs ih =>
    rw [List.mem_cons, not_or] at h
    rw [List.cons_append, splitLines, ih h.2]
    simp [Ne.symm h.1]

theorem splitLines_flatMap {ls : List (List Char)} (h : ∀ l ∈ ls, '\n' ∉ l) :
    splitLines (ls.flatMap (· ++ ['\n'])) = ls ++ [[]] := by
  induction ls with
  | nil => rfl
  | cons l ls ih =>
    rw [List.flatMap_cons, List.append_assoc, List.singleton_append,
      splitLines_append (h l List.mem_cons_self),
      ih fun l' hl' => h l' (List.mem_cons_of_mem l hl'), List.cons_append]

theorem ofChars_replicate {c : Char} (hc : c ≠ ' ') (indent : Nat) (cs : List Char) :
    Line.ofChars (List.replicate indent ' ' ++ c :: cs) = ⟨indent, c :: cs⟩ := by
  induction indent with
  | zero => simp [Line.ofChars, hc]
  | succ indent ih =>
    obtain ⟨hindent, htext⟩ := Line.mk.inj ih
    simp only [Line.ofChars, List.replicate_succ, List.cons_append, beq_self_eq_true,
      List.takeWhile_cons_of_pos, List.dropWhile_cons_of_pos, List.length_cons, hindent, htext]

theorem toList_print (entries : List (String × Value)) :
    (print entries).toList = ((mapLines 0 entries).map String.toList).flatMap (· ++ ['\n']) := by
  simp [print, String.toList_join, List.flatMap_map]

/-! ## Printed rows -/

/-- Trees that are printed in words which are read as what they are. -/
inductive Legible : Value → Prop
  | scalar {v : Value} (hmap : ∀ entries, v ≠ .map entries) (hword : Word (Json.compact v).toList)
      (hplain : plain (Json.compact v).toList = v) : Legible v
  | map {entries : List (String × Value)} (hne : entries ≠ []) (hdistinct : Distinct entries)
      (hkeys : ∀ key ∈ entries.map Prod.fst, Word key.toList)
      (hinner : ∀ entry ∈ entries, Legible entry.2) : Legible (.map entries)

/-- Characters of printed rows. -/
def isPrinted (c : Char) : Bool := isWord c || c == ' ' || c == ':'

/-- No other character stands in a printed text, but for the line breaks. -/
theorem not_mem_print (h : ∀ l ∈ mapLines 0 entries, ∀ c ∈ l.toList, isPrinted c = true)
    (hcs : cs.any isPrinted = false) (hbreak : '\n' ∉ cs) :
    ∀ c ∈ (print entries).toList, c ∉ cs := by
  intro c hc
  rw [toList_print] at hc
  obtain ⟨l, hl, hc⟩ := List.mem_flatMap.mp hc
  obtain ⟨l', hl', rfl⟩ := List.mem_map.mp hl
  rcases List.mem_append.mp hc with hc | hc
  · exact fun hmem => List.any_eq_false.mp hcs c hmem (h l' hl' c hc)
  · rw [List.mem_singleton.mp hc]
    exact hbreak

/-- Lines that spell entries in printed characters. -/
structure Printed (indent : Nat) (entries : List (String × Value)) (ls : List String) : Prop where
  spells : Spells indent entries (ls.map fun l => Line.ofChars l.toList)
  printed : ∀ l ∈ ls, ∀ c ∈ l.toList, isPrinted c = true

theorem Spells.append {indent : Nat} {entries entries' : List (String × Value)}
    {ls ls' : List Line} (h : Spells indent entries ls) (h' : Spells indent entries' ls') :
    Spells indent (entries ++ entries') (ls ++ ls') := by
  induction h with
  | nil => exact h'
  | scalar hkey htext _ ih => exact .scalar hkey htext (ih h')
  | map hkey hne hdistinct hinner _ _ ih =>
    rw [List.cons_append, List.cons_append, List.append_assoc]
    exact .map hkey hne hdistinct hinner (ih h')

theorem Printed.append {indent : Nat} {entries entries' : List (String × Value)}
    {ls ls' : List String} (h : Printed indent entries ls) (h' : Printed indent entries' ls') :
    Printed indent (entries ++ entries') (ls ++ ls') := by
  refine ⟨?_, fun l hl => ?_⟩
  · rw [List.map_append]
    exact h.spells.append h'.spells
  · rcases List.mem_append.mp hl with hfirst | hsecond
    · exact h.printed l hfirst
    · exact h'.printed l hsecond

theorem printed_mapLines {indent : Nat}
    (h : ∀ entry ∈ entries, Printed indent [entry] (entryLines indent entry.1 entry.2)) :
    Printed indent entries (mapLines indent entries) := by
  induction entries with
  | nil =>
    rw [mapLines]
    exact ⟨.nil, nofun⟩
  | cons entry rest ih =>
    rw [mapLines]
    exact (h entry List.mem_cons_self).append (ih fun e he => h e (List.mem_cons_of_mem _ he))

theorem isPrinted_of_word {c : Char} (h : isWord c = true) : isPrinted c = true := by
  rw [isPrinted, h, Bool.true_or, Bool.true_or]

/-- The characters of a row with its blanks in front. -/
theorem isPrinted_of_mem_row {indent : Nat} {key behind : List Char} (hkey : Word key)
    (hbehind : ∀ c ∈ behind, isPrinted c = true) :
    ∀ c ∈ List.replicate indent ' ' ++ key ++ behind, isPrinted c = true := by
  intro c hc
  rcases List.mem_append.mp hc with hfront | hbehind'
  · rcases List.mem_append.mp hfront with hblank | hkey'
    · rw [(List.mem_replicate.mp hblank).2]
      rfl
    · exact isPrinted_of_word (hkey.2 c hkey')
  · exact hbehind c hbehind'

theorem ofChars_row {indent : Nat} {key behind : List Char} (hkey : Word key) :
    Line.ofChars (List.replicate indent ' ' ++ key ++ behind) = ⟨indent, key ++ behind⟩ := by
  obtain ⟨c, rest, rfl, hc⟩ := hkey.exists_cons
  rw [List.append_assoc, List.cons_append]
  exact ofChars_replicate (ne_of_isWord hc (by decide)) indent _

theorem Legible.printed {v : Value} (h : Legible v) (indent : Nat) {key : String}
    (hkey : Word key.toList) : Printed indent [(key, v)] (entryLines indent key v) := by
  induction h generalizing indent key with
  | @scalar v hmap hword hplain =>
    have hlines : entryLines indent key v =
        [String.ofList (List.replicate indent ' ') ++ key ++ ": " ++ Json.compact v] := by
      cases v with
      | map entries => exact absurd rfl (hmap entries)
      | null | bool | int | real | str | list => rw [entryLines] <;> exact nofun
    have hchars : (String.ofList (List.replicate indent ' ') ++ key ++ ": " ++
          Json.compact v).toList =
        List.replicate indent ' ' ++ key.toList ++ ':' :: ' ' :: (Json.compact v).toList := by
      simp [String.toList_append]
    rw [hlines]
    refine ⟨?_, fun l hl => ?_⟩
    · rw [List.map_singleton, hchars, ofChars_row hkey]
      have hspells : Spells indent _ _ := .scalar hkey hword .nil
      rw [String.ofList_toList, hplain] at hspells
      exact hspells
    · rw [List.mem_singleton.mp hl, hchars]
      apply isPrinted_of_mem_row hkey
      intro c hc
      rcases List.mem_cons.mp hc with rfl | hc
      · rfl
      rcases List.mem_cons.mp hc with rfl | hc
      · rfl
      · exact isPrinted_of_word (hword.2 c hc)
  | @map entries hne hdistinct hkeys hinner ih =>
    have hentries : Printed (indent + 2) entries (mapLines (indent + 2) entries) :=
      printed_mapLines fun entry hentry =>
        ih entry hentry (indent + 2) (hkeys entry.1 (List.mem_map_of_mem hentry))
    have hlines : entryLines indent key (.map entries) =
        (String.ofList (List.replicate indent ' ') ++ key ++ ":") ::
          mapLines (indent + 2) entries := by
      obtain ⟨entry, rest, rfl⟩ := List.exists_cons_of_ne_nil hne
      rw [entryLines]
    have hchars : (String.ofList (List.replicate indent ' ') ++ key ++ ":").toList =
        List.replicate indent ' ' ++ key.toList ++ [':'] := by
      simp [String.toList_append]
    rw [hlines]
    refine ⟨?_, fun l hl => ?_⟩
    · rw [List.map_cons, hchars, ofChars_row hkey]
      have hspells : Spells indent _ _ := .map hkey hne hdistinct hentries.spells .nil
      rw [String.ofList_toList, List.append_nil] at hspells
      exact hspells
    · rcases List.mem_cons.mp hl with rfl | hl
      · rw [hchars]
        apply isPrinted_of_mem_row hkey
        intro c hc
        rw [List.mem_singleton.mp hc]
        rfl
      · exact hentries.printed l hl

/-! ## The document -/

/-- Lines that begin with a word, or are empty, are no markers. -/
theorem marker?_eq_none {line : Line} (h : ∀ c ∈ line.text.head?, isWord c = true) {d : Char}
    (hd : isWord d = false) (mark : List Char) : marker? (d :: mark) line = none := by
  have hprefix : (d :: mark).isPrefixOf line.text = false := by
    cases htext : line.text with
    | nil => rfl
    | cons c rest =>
      have hc : isWord c = true := h c (by rw [htext]; rfl)
      have hne : (d == c) = false := beq_false_of_ne (ne_of_isWord hc hd).symm
      rw [List.isPrefixOf, hne, Bool.false_and]
  rw [marker?, hprefix, Bool.and_false, if_neg Bool.false_ne_true]

theorem not_directive {line : Line} (h : ∀ c ∈ line.text.head?, isWord c = true) :
    (line.text.head? == some '%') = false := by
  apply beq_false_of_ne
  intro heq
  exact absurd rfl (ne_of_isWord (d := '%') (h '%' heq) (by decide))

/-- A document without markers and directives is all of its lines. -/
theorem document?_eq_self {ls : List Line} (hfirst : dropEmpty ls = ls)
    (h : ∀ line ∈ ls, ∀ c ∈ line.text.head?, isWord c = true) : document? ls = some ls := by
  have hstart : ∀ line ∈ ls, marker? startMark line = none :=
    fun line hline => marker?_eq_none (h line hline) (by decide) _
  have hend : ∀ line ∈ ls, marker? endMark line = none :=
    fun line hline => marker?_eq_none (h line hline) (by decide) _
  have htake : ls.takeWhile (fun line =>
      !((marker? startMark line).isSome || (marker? endMark line).isSome)) = ls := by
    refine List.takeWhile_eq_self_iff.mpr fun line hline => ?_
    rw [hstart line hline, hend line hline]
    rfl
  have hdrop : ls.dropWhile (fun line =>
      !((marker? startMark line).isSome || (marker? endMark line).isSome)) = [] := by
    refine List.dropWhile_eq_nil_iff.mpr fun line hline => ?_
    rw [hstart line hline, hend line hline]
    rfl
  unfold document?
  cases ls with
  | nil => rfl
  | cons line rest =>
    have hdirective :
        ¬ (decide (line.indent = 0) && line.text.head? == some '%') = true := by
      rw [not_directive (h line List.mem_cons_self), Bool.and_false]
      exact Bool.false_ne_true
    have hnone : (line :: rest).takeWhile (fun line =>
        decide (line.indent = 0) && line.text.head? == some '%') = [] :=
      List.takeWhile_cons_of_neg hdirective
    have hall : (line :: rest).dropWhile (fun line =>
        decide (line.indent = 0) && line.text.head? == some '%') = line :: rest :=
      List.dropWhile_cons_of_neg hdirective
    simp only [hfirst, hnone, hall, hstart line List.mem_cons_self, Option.map_none,
      List.isEmpty_nil, if_true, Option.bind_some, htake, hdrop]

/-- A text is read as what its lines spell. -/
theorem read?_of_spells {text : String} {ls : List Line} (h : Spells 0 entries ls)
    (hne : entries ≠ []) (hdistinct : Distinct entries) (hmark : '\ufeff' ∉ text.toList)
    (hlines : lines (unifyBreaks text.toList) = ls ++ [⟨0, []⟩])
    (hlength : ls.length ≤ text.toList.length) : read? text = some (.map entries) := by
  obtain ⟨line, rest, rfl, -, -⟩ := h.exists_cons hne
  have hcontent := h.dropEmpty_append (List.cons_ne_nil _ _) [⟨0, []⟩]
  have hdocument : document? (line :: rest ++ [⟨0, []⟩]) = some (line :: rest ++ [⟨0, []⟩]) := by
    apply document?_eq_self hcontent
    intro row hrow c hc
    rcases List.mem_append.mp hrow with hrow | hrow
    · obtain ⟨-, d, text, htext, hd⟩ := h.row hrow
      rw [htext] at hc
      cases hc
      exact hd
    · rw [List.mem_singleton.mp hrow] at hc
      cases hc
  have hfuel : 3 * (line :: rest).length + 1 ≤ 4 * text.toList.length + 6 := by omega
  have hbehind : Ends 0 [⟨0, []⟩] := nofun
  obtain ⟨after, hentries, hafter⟩ := h.entries?_eq hfuel hbehind []
  have hall : putAll [] entries = entries := putAll_eq_append hdistinct
  rw [hall] at hentries
  have hnode := h.node_of_entries hne (Nat.le_refl 0) hentries
  unfold read?
  dsimp only
  split
  · rename_i heq
    rw [heq] at hmark
    exact absurd List.mem_cons_self hmark
  · rw [hlines, hdocument]
    simp only [Option.bind_eq_bind, Option.bind_some, hcontent]
    rw [if_neg (by simp), hnode]
    simp only [Option.bind_some, hafter]
    rfl

/-- The lines of a printed text, and the empty one behind its last break. -/
theorem lines_print (h : ∀ l ∈ mapLines 0 entries, ∀ c ∈ l.toList, isPrinted c = true) :
    lines (unifyBreaks (print entries).toList) =
      (mapLines 0 entries).map (fun l => Line.ofChars l.toList) ++ [⟨0, []⟩] := by
  rw [unifyBreaks_eq_self, toList_print, lines, splitLines_flatMap]
  · simp [Line.ofChars]
  · intro l hl
    obtain ⟨l', hl', rfl⟩ := List.mem_map.mp hl
    exact fun hmem => absurd (h l' hl' _ hmem) (by decide)
  · exact not_mem_print h (by decide) (by decide)

/-- A printed map reads back. -/
theorem read?_print (h : Legible (.map entries)) : read? (print entries) = some (.map entries) := by
  cases h with
  | scalar hmap => exact absurd rfl (hmap entries)
  | map hne hdistinct hkeys hinner =>
    obtain ⟨hspells, hprinted⟩ := printed_mapLines fun entry hentry =>
      (hinner entry hentry).printed 0 (hkeys entry.1 (List.mem_map_of_mem hentry))
    refine read?_of_spells hspells hne hdistinct ?_ (lines_print hprinted) ?_
    · have hmark : ∀ c ∈ (print entries).toList, c ∉ ['\ufeff'] :=
        not_mem_print hprinted (by decide) (by decide)
      exact fun hmem => hmark _ hmem List.mem_cons_self
    · -- each line has its break in the text
      rw [List.length_map, toList_print, List.length_flatMap]
      refine Nat.le_trans (Nat.le_of_eq (by simp)) (List.length_le_sum_of_one_le _ ?_)
      intro n hn
      obtain ⟨l, -, rfl⟩ := List.mem_map.mp hn
      simp

/-! ## Scalars -/

/-- Words that begin in another way are other words. -/
theorem not_contains_ofList {c : Char} {words : List String}
    (h : ∀ w ∈ words, w.toList.head? ≠ some c) (cs : List Char) :
    words.contains (String.ofList (c :: cs)) = false := by
  rw [← Bool.not_eq_true, List.contains_iff_mem]
  intro hmem
  refine h _ hmem ?_
  rw [String.toList_ofList]
  rfl

theorem word_decimal (n : Nat) : Word (Text.decimal n).toList := by
  have hdigit : ∀ d < 10, isWord (Text.lowerDigit d) = true := by decide
  refine ⟨Text.decimal_ne_nil, fun c hc => ?_⟩
  rw [Text.decimal] at hc
  split at hc
  · rw [List.mem_singleton.mp (show c ∈ ['0'] from hc)]
    rfl
  · rw [String.toList_ofList] at hc
    rcases Text.mem_leastDigits (by decide) hc with ⟨d, hd, rfl⟩ | hnil
    · exact hdigit d hd
    · cases hnil

theorem exists_decimal (n : Nat) :
    ∃ d < 10, ∃ cs, (Text.decimal n).toList = Text.lowerDigit d :: cs := by
  rw [Text.decimal]
  split
  · exact ⟨0, by decide, [], rfl⟩
  · rename_i hne
    obtain ⟨d, hd, -, cs, hdigits⟩ : ∃ d < 10, 0 < d ∧ ∃ rest,
        Text.leastDigits 10 Text.lowerDigit n [] = Text.lowerDigit d :: rest :=
      Text.head_leastDigits (by decide) (Nat.pos_of_ne_zero hne)
    rw [String.toList_ofList]
    exact ⟨d, hd, cs, hdigits⟩

theorem magnitude?_decimal (n : Nat) : magnitude? (Text.decimal n).toList = some n := by
  rw [Text.decimal]
  split
  · rename_i hzero
    rw [hzero]
    rfl
  · rename_i hne
    obtain ⟨d, hd, hpos, cs, hdigits⟩ : ∃ d < 10, 0 < d ∧ ∃ rest,
        Text.leastDigits 10 Text.lowerDigit n [] = Text.lowerDigit d :: rest :=
      Text.head_leastDigits (by decide) (Nat.pos_of_ne_zero hne)
    have hvalue : Text.digitsValue? 10 0 (Text.leastDigits 10 Text.lowerDigit n []) = some n :=
      Text.digitsValue?_leastDigits Text.writes_lowerDigit (by decide) (by decide)
    have hfirst : ∀ d < 10, 0 < d → Text.lowerDigit d ≠ '0' := by decide
    have hdigit := hfirst d hd hpos
    rw [String.toList_ofList, hdigits]
    rw [hdigits] at hvalue
    unfold magnitude?
    split
    · rename_i heq
      exact absurd (List.cons.inj heq).1 hdigit
    · rename_i heq
      exact absurd (List.cons.inj heq).1 hdigit
    · rename_i heq
      exact absurd (List.cons.inj heq).1 hdigit
    · rename_i heq
      cases heq
    · rename_i heq
      exact absurd (List.cons.inj heq).1 hdigit
    · rename_i heq
      exact absurd (List.cons.inj heq).1 hdigit
    · exact hvalue

theorem integer?_decimal {n : Nat} (hn : n < 2 ^ 64) :
    integer? (Text.decimal n).toList = some (n : Int) := by
  have hfits : Value.fits64 n = true := by
    simp only [Value.fits64, Bool.and_eq_true, decide_eq_true_eq]
    omega
  have hsigns : ∀ d < 10, Text.lowerDigit d ≠ '-' ∧ Text.lowerDigit d ≠ '+' := by decide
  have hvalue := magnitude?_decimal n
  obtain ⟨d, hd, cs, hdigits⟩ := exists_decimal n
  rw [hdigits] at hvalue ⊢
  unfold integer?
  split
  · rename_i heq
    exact absurd (List.cons.inj heq).1 (hsigns d hd).1
  · rename_i heq
    exact absurd (List.cons.inj heq).1 (hsigns d hd).2
  · rw [hvalue]
    show Option.filter Value.fits64 (some (n : Int)) = some (n : Int)
    rw [Option.filter_some, if_pos hfits]

/-- A word of 64 bits is read as the number that it is. -/
theorem plain_decimal {n : Nat} (hn : n < 2 ^ 64) :
    plain (Text.decimal n).toList = .ofNat n := by
  have hvalue := integer?_decimal hn
  obtain ⟨d, hd, cs, hdigits⟩ := exists_decimal n
  rw [hdigits] at hvalue ⊢
  have hnull : ∀ d < 10, ∀ w ∈ ["", "~", "null", "Null", "NULL"],
      w.toList.head? ≠ some (Text.lowerDigit d) := by decide
  have htrue : ∀ d < 10, ∀ w ∈ ["true", "True", "TRUE"],
      w.toList.head? ≠ some (Text.lowerDigit d) := by decide
  have hfalse : ∀ d < 10, ∀ w ∈ ["false", "False", "FALSE"],
      w.toList.head? ≠ some (Text.lowerDigit d) := by decide
  unfold plain
  simp only [not_contains_ofList (hnull d hd), not_contains_ofList (htrue d hd),
    not_contains_ofList (hfalse d hd), Bool.false_eq_true, if_false, hvalue]
  rfl

theorem legible_ofNat {n : Nat} (hn : n < 2 ^ 64) : Legible (.ofNat n) := by
  have htext : Json.compact (.ofNat n) = Text.decimal n := by
    rw [Value.ofNat, Json.compact]
    rfl
  refine .scalar (fun entries hmap => ?_) ?_ ?_
  · cases hmap
  · rw [htext]
    exact word_decimal n
  · rw [htext]
    exact plain_decimal hn

theorem legible_bool (b : Bool) : Legible (.bool b) := by
  cases b with
  | false =>
    have htext : (Json.compact (.bool false)).toList = ['f', 'a', 'l', 's', 'e'] := by
      rw [Json.compact]
      rfl
    refine .scalar nofun ?_ ?_
    · rw [htext]
      decide
    · rw [htext]
      rfl
  | true =>
    have htext : (Json.compact (.bool true)).toList = ['t', 'r', 'u', 'e'] := by
      rw [Json.compact]
      rfl
    refine .scalar nofun ?_ ?_
    · rw [htext]
      decide
    · rw [htext]
      rfl

end CanTransport.Yaml
