import CanTransport.Proofs.Config.Trees
/-!
# Keys of TOML tables

Reading TOML makes trees in which no map repeats a key: every change to a table puts one entry.
-/

namespace CanTransport.Toml

open Value (Keyed keyed_nil)

variable {dotted : Bool} {key : String} {path : List String} {entries after : Entries}
  {change : Entries → Option Entries}

/-! ## Tables -/

theorem entriesValue_put (key : String) (node : Node) (entries : Entries) :
    entriesValue (put key node entries) = Value.put key node.toValue (entriesValue entries) := by
  induction entries with
  | nil => rfl
  | cons entry rest ih =>
    obtain ⟨k, old⟩ := entry
    by_cases hk : k = key
    · rw [put, if_pos hk, entriesValue, entriesValue, Value.put, if_pos hk]
    · rw [put, if_neg hk, entriesValue, entriesValue, Value.put, if_neg hk, ih]

theorem mem_entriesValue {node : Node} (h : entries.lookup key = some node) :
    (key, node.toValue) ∈ entriesValue entries := by
  induction entries with
  | nil => cases h
  | cons entry rest ih =>
    obtain ⟨k, first⟩ := entry
    rw [List.lookup_cons] at h
    rw [entriesValue]
    split at h
    · rename_i hkey
      cases h
      rw [eq_of_beq hkey]
      exact List.mem_cons_self
    · exact List.mem_cons_of_mem _ (ih h)

/-- A tree of tables without repeated keys. -/
def Tidy (entries : Entries) : Prop := Keyed (.map (entriesValue entries))

theorem tidy_nil : Tidy [] := keyed_nil

theorem Tidy.put (key : String) {node : Node} (h : Tidy entries) (hnode : Keyed node.toValue) :
    Tidy (put key node entries) := by
  unfold Tidy
  rw [entriesValue_put]
  exact Keyed.put key h hnode

theorem Tidy.lookup {node : Node} (h : Tidy entries) (hlookup : entries.lookup key = some node) :
    Keyed node.toValue :=
  h.inner (mem_entriesValue hlookup)

theorem Tidy.descend (hchange : ∀ {before after}, Tidy before → change before = some after →
    Tidy after) (h : Tidy entries) (hafter : descend dotted change path entries = some after) :
    Tidy after := by
  induction path generalizing entries after with
  | nil => exact hchange h hafter
  | cons key path ih =>
    rw [Toml.descend] at hafter
    split at hafter
    · obtain ⟨inner, hinner, heq⟩ := Option.bind_eq_some_iff.mp hafter
      cases heq
      exact h.put key (ih tidy_nil hinner)
    · cases hafter
    · obtain ⟨inner, _, heq⟩ := Option.bind_eq_some_iff.mp hafter
      cases heq
      exact h.put key (.leaf nofun)
    · rename_i hlookup
      split at hafter
      · cases hafter
      · obtain ⟨inner, hinner, heq⟩ := Option.bind_eq_some_iff.mp hafter
        cases heq
        exact h.put key (ih (h.lookup hlookup) hinner)

theorem Tidy.atPath {change : String → Entries → Option Entries}
    (hchange : ∀ {key before after}, Tidy before → change key before = some after → Tidy after)
    (h : Tidy entries) (hafter : atPath dotted change path entries = some after) : Tidy after := by
  obtain ⟨⟨path, last⟩, _, hafter⟩ := Option.bind_eq_some_iff.mp hafter
  exact h.descend hchange hafter

theorem Tidy.setLeaf {value : Value} (hvalue : Keyed value) (h : Tidy entries)
    (hafter : setLeaf value key entries = some after) : Tidy after := by
  unfold Toml.setLeaf at hafter
  split at hafter
  · cases hafter
    exact h.put key hvalue
  · cases hafter

theorem Tidy.openTable (h : Tidy entries) (hafter : openTable key entries = some after) :
    Tidy after := by
  unfold Toml.openTable at hafter
  split at hafter
  · cases hafter
    exact h.put key keyed_nil
  · rename_i inner hlookup
    cases hafter
    have hinner : Tidy inner := h.lookup hlookup
    exact h.put key hinner
  · cases hafter

theorem Tidy.addTable (h : Tidy entries) (hafter : addTable key entries = some after) :
    Tidy after := by
  unfold Toml.addTable at hafter
  split at hafter
  · cases hafter
    exact h.put key (.leaf nofun)
  · cases hafter
    exact h.put key (.leaf nofun)
  · cases hafter

/-! ## Values -/

theorem keyed_word {cs : List Char} {v : Value} (h : word? cs = some v) : Keyed v := by
  unfold word? at h
  split at h
  · cases h
    exact .leaf nofun
  · split at h
    · cases h
      exact .leaf nofun
    · extract_lets whole? at h
      clear_value whole?
      split at h
      · split at h
        · cases h
          exact .leaf nofun
        · cases h
      · split at h
        · cases h
          exact .leaf nofun
        · split at h
          · cases h
            exact keyed_nil.put dateKey (.leaf nofun)
          · cases h

/-- What the functions that read values make with the same fuel. -/
structure ValueKeyed (fuel : Nat) : Prop where
  value : ∀ {cs v rest}, value? fuel cs = some (v, rest) → Keyed v
  fields : ∀ {before cs after rest}, Tidy before →
    fields? fuel before cs = some (after, rest) → Tidy after

theorem valueKeyed (fuel : Nat) : ValueKeyed fuel := by
  induction fuel with
  | zero => exact ⟨nofun, nofun⟩
  | succ fuel ih =>
    constructor
    case value =>
      intro cs v rest h
      unfold value? at h
      split at h
      · obtain ⟨_, _, heq⟩ := Option.map_eq_some_iff.mp h
        cases heq
        exact .leaf nofun
      · obtain ⟨_, _, heq⟩ := Option.map_eq_some_iff.mp h
        cases heq
        exact .leaf nofun
      · obtain ⟨_, _, heq⟩ := Option.bind_eq_some_iff.mp h
        cases heq
        exact .leaf nofun
      · split at h
        · cases h
          exact keyed_nil
        · obtain ⟨⟨entries, _⟩, hfields, heq⟩ := Option.bind_eq_some_iff.mp h
          cases heq
          exact ih.fields tidy_nil hfields
      · obtain ⟨w, hword, heq⟩ := Option.map_eq_some_iff.mp h
        cases heq
        exact keyed_word hword
    case fields =>
      intro before cs after rest hbefore h
      unfold fields? at h
      obtain ⟨⟨key, afterKey⟩, _, h⟩ := Option.bind_eq_some_iff.mp h
      obtain ⟨_, _, h⟩ := Option.bind_eq_some_iff.mp h
      obtain ⟨⟨v, afterValue⟩, hvalue, h⟩ := Option.bind_eq_some_iff.mp h
      obtain ⟨entries, hentries, h⟩ := Option.bind_eq_some_iff.mp h
      have htidy : Tidy entries := hbefore.atPath (Tidy.setLeaf (ih.value hvalue)) hentries
      split at h
      · cases h
        exact htidy
      · exact ih.fields htidy h
      · cases h

/-! ## Statements -/

theorem tidy_statements {fuel : Nat} {cs : List Char} (h : Tidy entries)
    (hafter : statements? fuel path entries cs = some after) : Tidy after := by
  induction fuel generalizing path entries cs with
  | zero =>
    cases hafter
    exact h
  | succ fuel ih =>
    unfold statements? at hafter
    obtain ⟨cs', _, hafter⟩ := Option.bind_eq_some_iff.mp hafter
    split at hafter
    · cases hafter
      exact h
    · obtain ⟨⟨path, rest⟩, _, hafter⟩ := Option.bind_eq_some_iff.mp hafter
      obtain ⟨entries, hentries, hafter⟩ := Option.bind_eq_some_iff.mp hafter
      obtain ⟨_, _, hafter⟩ := Option.bind_eq_some_iff.mp hafter
      exact ih (h.atPath Tidy.addTable hentries) hafter
    · obtain ⟨⟨path, rest⟩, _, hafter⟩ := Option.bind_eq_some_iff.mp hafter
      obtain ⟨entries, hentries, hafter⟩ := Option.bind_eq_some_iff.mp hafter
      obtain ⟨_, _, hafter⟩ := Option.bind_eq_some_iff.mp hafter
      exact ih (h.atPath Tidy.openTable hentries) hafter
    · obtain ⟨⟨key, rest⟩, _, hafter⟩ := Option.bind_eq_some_iff.mp hafter
      obtain ⟨_, _, hafter⟩ := Option.bind_eq_some_iff.mp hafter
      obtain ⟨⟨v, rest'⟩, hvalue, hafter⟩ := Option.bind_eq_some_iff.mp hafter
      obtain ⟨entries, hentries, hafter⟩ := Option.bind_eq_some_iff.mp hafter
      obtain ⟨_, _, hafter⟩ := Option.bind_eq_some_iff.mp hafter
      refine ih (h.descend (fun hbefore hset => ?_) hentries) hafter
      exact hbefore.atPath (Tidy.setLeaf ((valueKeyed _).value hvalue)) hset

theorem keyed_read {text : String} {v : Value} (h : read? text = some v) :
    ∃ entries, v = .map entries ∧ Keyed (.map entries) := by
  obtain ⟨entries, hentries, heq⟩ := Option.map_eq_some_iff.mp h
  exact ⟨entriesValue entries, heq.symm, tidy_statements tidy_nil hentries⟩

end CanTransport.Toml
