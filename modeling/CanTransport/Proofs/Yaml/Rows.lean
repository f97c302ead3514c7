import CanTransport.Proofs.Config.Trees
import Mathlib.Data.List.DropRight
import Mathlib.Data.List.TakeWhile
/-!
# Maps row by row

How block maps are spelled when their keys and their scalars are made of letters, digits and
underscores: each entry begins a line with its key, and either has its scalar on that line or has
the entries of a map behind it, indented deeper. Such rows are read as the entries they spell.
-/

namespace CanTransport.Yaml

open Value (put Distinct)

/-- Characters that mean nothing to the reader, wherever they stand. -/
def isWord (c : Char) : Bool := c.isAlphanum || c == '_'

/-- Whether a text is made of such characters, one at least. -/
def Word (cs : List Char) : Prop := cs ≠ [] ∧ ∀ c ∈ cs, isWord c = true

instance (cs : List Char) : Decidable (Word cs) :=
  decidable_of_iff (cs ≠ [] ∧ cs.all isWord = true) (and_congr_right fun _ => List.all_eq_true)

variable {c d : Char} {cs after text key : List Char}

theorem ne_of_isWord (hc : isWord c = true) (hd : isWord d = false) : c ≠ d := by
  rintro rfl
  rw [hc] at hd
  cases hd

theorem not_mem_of_isWord (hc : isWord c = true) (hcs : cs.any isWord = false) : c ∉ cs :=
  fun hmem => List.any_eq_false.mp hcs c hmem hc

theorem isBlank_of_isWord (hc : isWord c = true) : isBlank c = false := by
  have hspace : c ≠ ' ' := ne_of_isWord hc (by decide)
  have htab : c ≠ '\t' := ne_of_isWord hc (by decide)
  simp [isBlank, hspace, htab]

theorem Word.exists_cons (h : Word cs) : ∃ c rest, cs = c :: rest ∧ isWord c = true := by
  cases cs with
  | nil => exact absurd rfl h.1
  | cons c rest => exact ⟨c, rest, rfl, h.2 c List.mem_cons_self⟩

/-! ## Words on a line -/

theorem startsPlain_of_isWord (hc : isWord c = true) : startsPlain (c :: cs) = true := by
  have hmark : (c == '-' || c == '?' || c == ':') = false := by
    simp [ne_of_isWord (d := '-') hc (by decide), ne_of_isWord (d := '?') hc (by decide),
      ne_of_isWord (d := ':') hc (by decide)]
  have hindicator : isIndicator c = false := by
    rw [isIndicator, ← Bool.not_eq_true, List.contains_iff_mem]
    exact not_mem_of_isWord hc (by decide)
  have hbreak : (c != '\n') = true := by
    simp [ne_of_isWord (d := '\n') hc (by decide)]
  unfold startsPlain
  simp only
  rw [hmark, if_neg Bool.false_ne_true, hindicator, isBlank_of_isWord hc, hbreak]
  rfl

theorem trimEnd_of_word (h : ∀ c ∈ cs, isWord c = true) : trimEnd cs = cs := by
  have hkept : cs.reverse.dropWhile isBlank = cs.reverse := by
    rw [List.dropWhile_eq_self_iff]
    intro hpos
    rw [isBlank_of_isWord (h _ (List.mem_reverse.mp (List.getElem_mem hpos)))]
    exact Bool.false_ne_true
  rw [trimEnd, hkept, List.reverse_reverse]

theorem plainKey?_of_word (h : ∀ c ∈ cs, isWord c = true) (acc : List Char) :
    plainKey? acc cs = none := by
  induction cs generalizing acc with
  | nil => rfl
  | cons c rest ih =>
    have hc := h c List.mem_cons_self
    have hcolon : c ≠ ':' := ne_of_isWord hc (by decide)
    cases rest with
    | nil => simp [plainKey?, hcolon]
    | cons d rest =>
      have hrest := ih (fun e he => h e (List.mem_cons_of_mem c he)) (c :: acc)
      simp [plainKey?, hcolon, isBlank_of_isWord hc, hrest]

theorem cut_of_word (h : ∀ c ∈ cs, isWord c = true) : plainLine?.cut cs = cs := by
  induction cs with
  | nil => rfl
  | cons c rest ih =>
    cases rest with
    | nil => rfl
    | cons d rest =>
      have hc := isBlank_of_isWord (h c List.mem_cons_self)
      rw [plainLine?.cut, hc, Bool.false_and, if_neg Bool.false_ne_true,
        ih fun e he => h e (List.mem_cons_of_mem c he)]

theorem plainLine?_of_word (h : ∀ c ∈ cs, isWord c = true) : plainLine? cs = some cs := by
  rw [plainLine?, plainKey?_of_word h, cut_of_word h, trimEnd_of_word h]
  rfl

theorem hasComment_of_word (h : ∀ c ∈ cs, isWord c = true) : hasComment cs = false := by
  simp [hasComment, plainLine?_of_word h, trimEnd_of_word h]

/-- What may stand behind the colon of a key. -/
theorem plainKey?_append (hkey : ∀ c ∈ key, isWord c = true)
    (hafter : after = [] ∨ ∃ rest, after = ' ' :: rest) (acc : List Char) :
    plainKey? acc (key ++ ':' :: after) = some (acc.reverse ++ key, after) := by
  induction key generalizing acc with
  | nil =>
    rw [List.append_nil]
    rcases hafter with rfl | ⟨rest, rfl⟩
    · rfl
    · rfl
  | cons c key ih =>
    have hc := hkey c List.mem_cons_self
    have hcolon : c ≠ ':' := ne_of_isWord hc (by decide)
    have hrest := ih (fun d hd => hkey d (List.mem_cons_of_mem c hd)) (c :: acc)
    obtain ⟨d, rest, hcons⟩ : ∃ d rest, key ++ ':' :: after = d :: rest := by
      cases key with
      | nil => exact ⟨_, _, rfl⟩
      | cons d key => exact ⟨_, _, rfl⟩
    rw [List.cons_append, hcons]
    rw [hcons] at hrest
    simp [plainKey?, hcolon, isBlank_of_isWord hc, hrest]

theorem key?_append (hkey : Word key) (hafter : after = [] ∨ ∃ rest, after = ' ' :: rest) :
    key? (key ++ ':' :: after) = some (String.ofList key, after) := by
  obtain ⟨c, rest, rfl, hc⟩ := hkey.exists_cons
  have hplain := plainKey?_append hkey.2 hafter []
  rw [List.cons_append] at hplain ⊢
  unfold key?
  split
  · rename_i heq
    exact absurd (List.cons.inj heq).1 (ne_of_isWord hc (by decide))
  · rename_i heq
    exact absurd (List.cons.inj heq).1 (ne_of_isWord hc (by decide))
  · rw [startsPlain_of_isWord hc, hplain]
    show some (String.ofList (trimEnd (c :: rest)), after) = _
    rw [trimEnd_of_word hkey.2]

theorem item?_of_isWord (hc : isWord c = true) : item? (c :: cs) = none := by
  unfold item?
  split
  · rename_i heq
    exact absurd (List.cons.inj heq).1 (ne_of_isWord hc (by decide))
  · rename_i heq
    exact absurd (List.cons.inj heq).1 (ne_of_isWord hc (by decide))
  · rfl

theorem isEmpty_of_isWord {indent : Nat} (hc : isWord c = true) :
    (⟨indent, c :: cs⟩ : Line).isEmpty = false := by
  have hhash : c ≠ '#' := ne_of_isWord hc (by decide)
  simp [Line.isEmpty, isRest, dropBlanks, isBlank_of_isWord hc, hhash]

/-! ## Lines without content -/

theorem isEmpty_of_all_isBlank {line : Line} (h : line.text.all isBlank = true) :
    line.isEmpty = true := by
  have hnone : dropBlanks line.text = [] := by
    rw [dropBlanks, List.dropWhile_eq_nil_iff]
    exact List.all_eq_true.mp h
  rw [Line.isEmpty, isRest, hnone]

theorem dropEmpty_dropEmpty (ls : List Line) : dropEmpty (dropEmpty ls) = dropEmpty ls :=
  List.dropWhile_idempotent _ _

/-- Whether the next line with content is indented by less. -/
def Ends (indent : Nat) (ls : List Line) : Prop :=
  ∀ line rest, dropEmpty ls = line :: rest → line.indent < indent

theorem Ends.mono {indent indent' : Nat} {ls : List Line} (h : Ends indent ls)
    (hle : indent ≤ indent') : Ends indent' ls :=
  fun line rest heq => Nat.lt_of_lt_of_le (h line rest heq) hle

/-- A scalar on one line does not go on over lines that are indented by less. -/
theorem plainLines?_eq {least : Nat} {ls : List Line} (h : Ends least ls) (acc : List Char) :
    ∃ rest, plainLines? least acc false ls = some (acc, rest) ∧ dropEmpty rest = dropEmpty ls := by
  induction ls with
  | nil => exact ⟨[], rfl, rfl⟩
  | cons line ls ih =>
    rw [plainLines?]
    by_cases hblank : line.text.all isBlank = true
    · have hdrop : dropEmpty (line :: ls) = dropEmpty ls :=
        List.dropWhile_cons_of_pos (isEmpty_of_all_isBlank hblank)
      rw [if_pos hblank, hdrop]
      apply ih
      intro next rest heq
      exact h next rest (hdrop.trans heq)
    · rw [if_neg hblank]
      by_cases hempty : line.isEmpty = true
      · exact ⟨_, if_pos (by rw [hempty, Bool.or_true]), rfl⟩
      · have hlt := h line ls (List.dropWhile_cons_of_neg hempty)
        exact ⟨_, if_pos (by rw [decide_eq_true hlt, Bool.true_or]), rfl⟩

/-- The scalar of a line, if the next line with content is indented by less. -/
theorem inline?_of_word (htext : Word text) {least : Nat} {ls : List Line} (h : Ends least ls) :
    ∃ rest, inline? least text ls = some (plain text, rest) ∧ dropEmpty rest = dropEmpty ls := by
  obtain ⟨rest, hlines, hdrop⟩ := plainLines?_eq h text
  obtain ⟨c, header, rfl, hc⟩ := htext.exists_cons
  refine ⟨rest, ?_, hdrop⟩
  have hmark : (c == '|' || c == '>') = false := by
    simp [ne_of_isWord (d := '|') hc (by decide), ne_of_isWord (d := '>') hc (by decide)]
  unfold inline?
  split
  · rename_i heq
    exact absurd (List.cons.inj heq).1 (ne_of_isWord hc (by decide))
  · rename_i heq
    exact absurd (List.cons.inj heq).1 (ne_of_isWord hc (by decide))
  · rename_i heq
    exact absurd (List.cons.inj heq).1 (ne_of_isWord hc (by decide))
  · rename_i heq
    exact absurd (List.cons.inj heq).1 (ne_of_isWord hc (by decide))
  · rename_i heq
    obtain ⟨rfl, rfl⟩ := List.cons.inj heq
    rw [hmark, if_neg Bool.false_ne_true, startsPlain_of_isWord hc, if_pos rfl,
      plainLine?_of_word htext.2]
    show (plainLines? least _ (hasComment _) ls).bind _ = _
    rw [hasComment_of_word htext.2, hlines]
    rfl
  · rename_i heq
    cases heq

/-! ## Rows -/

/-- Rows that spell the entries of a map at an indentation. -/
inductive Spells : Nat → List (String × Value) → List Line → Prop
  | nil {indent : Nat} : Spells indent [] []
  | scalar {indent : Nat} {key text : List Char} {entries : List (String × Value)} {ls : List Line}
      (hkey : Word key) (htext : Word text) (hrest : Spells indent entries ls) :
      Spells indent ((String.ofList key, plain text) :: entries)
        (⟨indent, key ++ ':' :: ' ' :: text⟩ :: ls)
  | map {indent : Nat} {key : List Char} {inner entries : List (String × Value)}
      {ls ls' : List Line} (hkey : Word key) (hne : inner ≠ []) (hdistinct : Distinct inner)
      (hinner : Spells (indent + 2) inner ls') (hrest : Spells indent entries ls) :
      Spells indent ((String.ofList key, .map inner) :: entries)
        (⟨indent, key ++ [':']⟩ :: (ls' ++ ls))

/-- Entries put to those read before, one after the other. -/
def putAll (before entries : List (String × Value)) : List (String × Value) :=
  entries.foldl (fun before entry => put entry.1 entry.2 before) before

/-- Entries without a repeated key stay as they are. -/
theorem putAll_eq_append {before entries : List (String × Value)}
    (h : Distinct (before ++ entries)) : putAll before entries = before ++ entries :=
  Value.foldl_put h

/-- A row with a key is not empty. -/
theorem dropEmpty_cons {indent : Nat} {ls : List Line} (hkey : Word key) :
    dropEmpty (⟨indent, key ++ after⟩ :: ls) = ⟨indent, key ++ after⟩ :: ls := by
  obtain ⟨c, rest, rfl, hc⟩ := hkey.exists_cons
  apply List.dropWhile_cons_of_neg
  rw [List.cons_append, isEmpty_of_isWord hc]
  exact Bool.false_ne_true

namespace Spells

variable {indent : Nat} {entries : List (String × Value)} {ls tail : List Line}

/-- Each row has a first character that is part of a word, and no less indentation. -/
theorem row (h : Spells indent entries ls) {line : Line} (hline : line ∈ ls) :
    indent ≤ line.indent ∧ ∃ c rest, line.text = c :: rest ∧ isWord c = true := by
  induction h with
  | nil => cases hline
  | scalar hkey _ _ ih =>
    rcases List.mem_cons.mp hline with rfl | hrest
    · obtain ⟨c, rest, rfl, hc⟩ := hkey.exists_cons
      exact ⟨Nat.le_refl _, c, _, rfl, hc⟩
    · exact ih hrest
  | map hkey _ _ _ _ ihinner ih =>
    rcases List.mem_cons.mp hline with rfl | hrest
    · obtain ⟨c, rest, rfl, hc⟩ := hkey.exists_cons
      exact ⟨Nat.le_refl _, c, _, rfl, hc⟩
    · rcases List.mem_append.mp hrest with hin | hout
      · obtain ⟨hle, hword⟩ := ihinner hin
        exact ⟨by omega, hword⟩
      · exact ih hout

theorem isEmpty_eq_false (h : Spells indent entries ls) {line : Line} (hline : line ∈ ls) :
    line.isEmpty = false := by
  obtain ⟨-, c, rest, htext, hc⟩ := h.row hline
  have hempty : (⟨line.indent, c :: rest⟩ : Line).isEmpty = false := isEmpty_of_isWord hc
  rw [← htext] at hempty
  exact hempty

/-- The first row of some entries stands at their indentation and begins with a key. -/
theorem exists_cons (h : Spells indent entries ls) (hne : entries ≠ []) :
    ∃ line rest, ls = line :: rest ∧ line.indent = indent ∧ (key? line.text).isSome = true := by
  cases h with
  | nil => exact absurd rfl hne
  | scalar hkey _ _ =>
    refine ⟨_, _, rfl, rfl, ?_⟩
    rw [key?_append hkey (Or.inr ⟨_, rfl⟩)]
    rfl
  | map hkey _ _ _ _ =>
    refine ⟨_, _, rfl, rfl, ?_⟩
    rw [key?_append hkey (Or.inl rfl)]
    rfl

theorem dropEmpty_append (h : Spells indent entries ls) (hne : ls ≠ []) (tail : List Line) :
    dropEmpty (ls ++ tail) = ls ++ tail := by
  obtain ⟨line, rest, rfl⟩ := List.exists_cons_of_ne_nil hne
  apply List.dropWhile_cons_of_neg
  rw [h.isEmpty_eq_false List.mem_cons_self]
  exact Bool.false_ne_true

/-- Behind the rows of a map, or behind an entry of it, comes nothing that is indented deeper. -/
theorem ends (h : Spells indent entries ls) (htail : Ends indent tail) :
    Ends (indent + 1) (ls ++ tail) := by
  by_cases hne : entries = []
  · subst hne
    cases h
    exact htail.mono (Nat.le_succ indent)
  · obtain ⟨line, rest, rfl, hindent, -⟩ := h.exists_cons hne
    intro next others heq
    rw [h.dropEmpty_append (List.cons_ne_nil _ _)] at heq
    obtain ⟨rfl, -⟩ := List.cons.inj heq
    omega

/-- Lines without content in front make no difference to the entries behind them. -/
theorem entries?_congr {fuel : Nat} {before : List (String × Value)} {ls' : List Line}
    (h : dropEmpty ls = dropEmpty ls') :
    entries? fuel indent before ls = entries? fuel indent before ls' := by
  cases fuel with
  | zero => rw [entries?, entries?]
  | succ fuel => rw [entries?, entries?, h]

/-- A map that is read line by line from its first row on. -/
theorem node_of_entries {fuel least : Nat} {after : List Line} {inner : List (String × Value)}
    (h : Spells indent entries ls) (hne : entries ≠ []) (hle : least ≤ indent)
    (hentries : entries? fuel indent [] (ls ++ tail) = some (inner, after)) :
    node? (fuel + 2) least (ls ++ tail) = some (.map inner, after) := by
  obtain ⟨line, rest, rfl, hindent, hkeyed⟩ := h.exists_cons hne
  obtain ⟨-, c, text, htext, hc⟩ := h.row List.mem_cons_self
  have hitem : item? line.text = none := by rw [htext]; exact item?_of_isWord hc
  rw [node?, h.dropEmpty_append (List.cons_ne_nil _ _)]
  simp only [List.cons_append] at hentries ⊢
  rw [if_neg (by omega), nodeAt?, hitem, Option.isSome_none, if_neg Bool.false_ne_true,
    if_pos hkeyed, hindent, hentries]
  rfl

/-- A row with a key and a scalar is read as an entry. -/
theorem entries?_scalar {fuel : Nat} {before : List (String × Value)} {after : List Line}
    (hkey : Word key) (htext : Word text)
    (hinline : inline? (indent + 1) text ls = some (plain text, after)) :
    entries? (fuel + 1) indent before (⟨indent, key ++ ':' :: ' ' :: text⟩ :: ls) =
      entries? fuel indent (put (String.ofList key) (plain text) before) after := by
  obtain ⟨c, header, hcons, hc⟩ := hkey.exists_cons
  obtain ⟨d, text', rfl, hd⟩ := htext.exists_cons
  have hitem : item? (key ++ ':' :: ' ' :: d :: text') = none := by
    rw [hcons]
    exact item?_of_isWord hc
  have hblanks : dropBlanks (' ' :: d :: text') = d :: text' := by
    simp [dropBlanks, isBlank_of_isWord hd, show isBlank ' ' = true from rfl]
  have hnone : isRest (' ' :: d :: text') = false := by
    rw [isRest, hblanks]
    simp [ne_of_isWord (d := '#') hd (by decide)]
  rw [entries?, dropEmpty_cons hkey]
  simp only
  rw [if_neg (Nat.lt_irrefl _), if_neg (Nat.lt_irrefl _), hitem, Option.isSome_none,
    if_neg Bool.false_ne_true, key?_append hkey (Or.inr ⟨_, rfl⟩)]
  simp only [Option.bind_eq_bind, Option.bind_some]
  rw [hnone, if_neg Bool.false_ne_true, hblanks, hinline]
  rfl

/-- A row with a key alone is read as an entry, with the map of the rows behind it. -/
theorem entries?_map {fuel : Nat} {before inner' : List (String × Value)} {after : List Line}
    (hkey : Word key) (hinner : Spells (indent + 2) entries ls) (hne : entries ≠ [])
    (hnode : node? fuel (indent + 1) (ls ++ tail) = some (.map inner', after)) :
    entries? (fuel + 1) indent before (⟨indent, key ++ [':']⟩ :: (ls ++ tail)) =
      entries? fuel indent (put (String.ofList key) (.map inner') before) after := by
  obtain ⟨c, header, hcons, hc⟩ := hkey.exists_cons
  have hitem : item? (key ++ [':']) = none := by
    rw [hcons]
    exact item?_of_isWord hc
  obtain ⟨next, others, rfl, hindent, -⟩ := hinner.exists_cons hne
  have hdeeper : (decide (next.indent = indent) && (item? next.text).isSome) = false := by
    rw [decide_eq_false (by omega), Bool.false_and]
  rw [entries?, dropEmpty_cons hkey]
  simp only
  rw [if_neg (Nat.lt_irrefl _), if_neg (Nat.lt_irrefl _), hitem, Option.isSome_none,
    if_neg Bool.false_ne_true, key?_append hkey (Or.inl rfl)]
  simp only [Option.bind_eq_bind, Option.bind_some]
  rw [if_pos (show isRest [] = true from rfl), hinner.dropEmpty_append (List.cons_ne_nil _ _)]
  simp only [List.cons_append] at hnode ⊢
  rw [hdeeper, if_neg Bool.false_ne_true, hnode]
  rfl

/-- Rows are read as the entries they spell, put to those read before. Each row takes three steps of
the reader at most. -/
theorem entries?_eq (h : Spells indent entries ls) {fuel : Nat} (hfuel : 3 * ls.length + 1 ≤ fuel)
    (htail : Ends indent tail) (before : List (String × Value)) :
    ∃ rest, entries? fuel indent before (ls ++ tail) = some (putAll before entries, rest) ∧
      dropEmpty rest = dropEmpty tail := by
  induction h generalizing fuel tail before with
  | nil =>
    obtain ⟨fuel, rfl⟩ : ∃ n, fuel = n + 1 := ⟨fuel - 1, by omega⟩
    rw [List.nil_append, entries?]
    cases hdrop : dropEmpty tail with
    | nil => exact ⟨[], rfl, rfl⟩
    | cons line rest =>
      refine ⟨line :: rest, if_pos (htail line rest hdrop), ?_⟩
      rw [← hdrop, dropEmpty_dropEmpty]
  | @scalar indent key text entries ls hkey htext hrest ih =>
    obtain ⟨fuel, rfl⟩ : ∃ n, fuel = n + 1 := ⟨fuel - 1, by omega⟩
    rw [List.length_cons] at hfuel
    obtain ⟨after, hinline, hafter⟩ := inline?_of_word htext (hrest.ends htail)
    obtain ⟨rest, hentries, hdrop⟩ := @ih tail fuel (by omega) htail
      (put (String.ofList key) (plain text) before)
    refine ⟨rest, ?_, hdrop⟩
    rw [List.cons_append, entries?_scalar hkey htext hinline, entries?_congr hafter]
    exact hentries
  | @map indent key inner entries ls ls' hkey hne hdistinct hinner hrest ihinner ih =>
    rw [List.length_cons, List.length_append] at hfuel
    obtain ⟨fuel, rfl⟩ : ∃ n, fuel = n + 3 := ⟨fuel - 3, by omega⟩
    have hinside_ends : Ends (indent + 2) (ls ++ tail) := (hrest.ends htail).mono (Nat.le_succ _)
    obtain ⟨after, hinside, hafter⟩ := @ihinner (ls ++ tail) fuel (by omega) hinside_ends []
    obtain ⟨rest, hentries, hdrop⟩ := @ih tail (fuel + 2) (by omega) htail
      (put (String.ofList key) (.map inner) before)
    refine ⟨rest, ?_, hdrop⟩
    have hinner_eq : putAll [] inner = inner := putAll_eq_append hdistinct
    rw [hinner_eq] at hinside
    have hnode : node? (fuel + 2) (indent + 1) (ls' ++ (ls ++ tail)) =
        some (.map inner, after) :=
      hinner.node_of_entries hne (Nat.le_succ _) hinside
    rw [List.cons_append, List.append_assoc, entries?_map hkey hinner hne hnode,
      entries?_congr hafter]
    exact hentries

end Spells

end CanTransport.Yaml
