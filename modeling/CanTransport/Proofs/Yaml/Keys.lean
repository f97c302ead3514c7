import CanTransport.Proofs.Config.Trees
/-!
# Keys of YAML maps

Reading YAML makes trees in which no map repeats a key: entries are only ever put to those read
before.
-/

namespace CanTransport.Yaml

open Value (Keyed keyed_nil keyed_null keyed_list)

theorem keyed_plain (cs : List Char) : Keyed (plain cs) := by
  unfold plain
  dsimp only
  repeat' split
  all_goals exact .leaf nofun

/-! ## Between brackets and braces -/

/-- What the functions that read flow collections make with the same fuel. Lists end the walk, so
that their items need no part of their own. -/
structure FlowKeyed (fuel : Nat) : Prop where
  value : ∀ {cs v rest}, flowValue? fuel cs = some (v, rest) → Keyed v
  entryValue : ∀ {cs v rest}, flowEntryValue? fuel cs = some (v, rest) → Keyed v
  entries : ∀ {before cs after rest}, Keyed (.map before) →
    flowEntries? fuel before cs = some (after, rest) → Keyed (.map after)

theorem flowKeyed (fuel : Nat) : FlowKeyed fuel := by
  induction fuel with
  | zero => exact ⟨nofun, nofun, nofun⟩
  | succ fuel ih =>
    constructor
    case value =>
      intro cs v rest h
      unfold flowValue? at h
      split at h
      · obtain ⟨_, _, heq⟩ := Option.bind_eq_some_iff.mp h
        cases heq
        exact .leaf nofun
      · obtain ⟨⟨entries, rest'⟩, hentries, heq⟩ := Option.bind_eq_some_iff.mp h
        cases heq
        exact ih.entries keyed_nil hentries
      · obtain ⟨_, _, heq⟩ := Option.map_eq_some_iff.mp h
        cases heq
        exact .leaf nofun
      · obtain ⟨_, _, heq⟩ := Option.map_eq_some_iff.mp h
        cases heq
        exact .leaf nofun
      · split at h
        · cases h
          exact keyed_plain _
        · cases h
    case entryValue =>
      intro cs v rest h
      unfold flowEntryValue? at h
      split at h
      · split at h
        · cases h
        · split at h
          · cases h
            exact .leaf nofun
          · exact ih.value h
      · cases h
        exact .leaf nofun
    case entries =>
      intro before cs after rest hbefore h
      unfold flowEntries? at h
      split at h
      · cases h
        exact hbefore
      · obtain ⟨⟨key, afterKey⟩, _, h⟩ := Option.bind_eq_some_iff.mp h
        obtain ⟨⟨v, afterValue⟩, hvalue, h⟩ := Option.bind_eq_some_iff.mp h
        have hput := hbefore.put key (ih.entryValue hvalue)
        dsimp only at h
        split at h
        · cases h
          exact hput
        · exact ih.entries hput h
        · cases h

/-! ## Line by line -/

theorem keyed_inline {least : Nat} {text : List Char} {rest after : List Line} {v : Value}
    (h : inline? least text rest = some (v, after)) : Keyed v := by
  unfold inline? at h
  split at h
  · obtain ⟨_, _, h⟩ := Option.bind_eq_some_iff.mp h
    obtain ⟨_, _, heq⟩ := Option.bind_eq_some_iff.mp h
    cases heq
    exact .leaf nofun
  · obtain ⟨_, _, h⟩ := Option.bind_eq_some_iff.mp h
    obtain ⟨_, _, heq⟩ := Option.bind_eq_some_iff.mp h
    cases heq
    exact .leaf nofun
  · obtain ⟨_, hvalue, h⟩ := Option.bind_eq_some_iff.mp h
    obtain ⟨_, _, heq⟩ := Option.bind_eq_some_iff.mp h
    cases heq
    exact (flowKeyed _).value hvalue
  · obtain ⟨_, hvalue, h⟩ := Option.bind_eq_some_iff.mp h
    obtain ⟨_, _, heq⟩ := Option.bind_eq_some_iff.mp h
    cases heq
    exact (flowKeyed _).value hvalue
  · split at h
    · dsimp only at h
      split at h
      · cases h
        exact .leaf nofun
      · cases h
    · split at h
      · obtain ⟨_, _, h⟩ := Option.bind_eq_some_iff.mp h
        obtain ⟨_, _, heq⟩ := Option.bind_eq_some_iff.mp h
        cases heq
        exact keyed_plain _
      · cases h
  · cases h
    exact .leaf nofun

/-- What the functions that read nodes make with the same fuel. -/
structure NodeKeyed (fuel : Nat) : Prop where
  node : ∀ {least ls v rest}, node? fuel least ls = some (v, rest) → Keyed v
  nodeAt : ∀ {least ls v rest}, nodeAt? fuel least ls = some (v, rest) → Keyed v
  entries : ∀ {indent before ls after rest}, Keyed (.map before) →
    entries? fuel indent before ls = some (after, rest) → Keyed (.map after)

theorem nodeKeyed_zero : NodeKeyed 0 := by
  constructor
  case node =>
    intro least ls v rest h
    rw [node?] at h
    cases h
  case nodeAt =>
    intro least ls v rest h
    rw [nodeAt?] at h
    cases h
  case entries =>
    intro indent before ls after rest _ h
    rw [entries?] at h
    cases h

section
variable {fuel : Nat} {ls rest : List Line} {v : Value}

theorem NodeKeyed.node_succ (ih : NodeKeyed fuel) {least : Nat}
    (h : node? (fuel + 1) least ls = some (v, rest)) : Keyed v := by
  rw [node?] at h
  split at h
  · cases h
    exact keyed_null
  · split at h
    · cases h
      exact keyed_null
    · exact ih.nodeAt h

theorem NodeKeyed.nodeAt_succ (ih : NodeKeyed fuel) {least : Nat}
    (h : nodeAt? (fuel + 1) least ls = some (v, rest)) : Keyed v := by
  cases ls with
  | nil =>
    rw [nodeAt?] at h
    · cases h
      exact keyed_null
    · exact Nat.succ_ne_zero fuel
  | cons line lines =>
    rw [nodeAt?] at h
    split at h
    · obtain ⟨_, _, heq⟩ := Option.bind_eq_some_iff.mp h
      cases heq
      exact keyed_list _
    · split at h
      · obtain ⟨⟨entries, rest'⟩, hentries, heq⟩ := Option.bind_eq_some_iff.mp h
        cases heq
        exact ih.entries keyed_nil hentries
      · exact keyed_inline h

theorem NodeKeyed.entries_succ (ih : NodeKeyed fuel) {indent : Nat}
    {before after : List (String × Value)} (hbefore : Keyed (.map before))
    (h : entries? (fuel + 1) indent before ls = some (after, rest)) : Keyed (.map after) := by
  rw [entries?] at h
  split at h
  · cases h
    exact hbefore
  · split at h
    · cases h
      exact hbefore
    · split at h
      · cases h
      · split at h
        · cases h
          exact hbefore
        · -- a key: its value is null, a list at the same indentation, a node or inline
          obtain ⟨⟨key, afterKey⟩, _, h⟩ := Option.bind_eq_some_iff.mp h
          dsimp only at h
          split at h
          · split at h
            · exact ih.entries (hbefore.put key keyed_null) h
            · split at h
              · obtain ⟨⟨items, _⟩, _, h⟩ := Option.bind_eq_some_iff.mp h
                exact ih.entries (hbefore.put key (keyed_list items)) h
              · obtain ⟨_, hvalue, h⟩ := Option.bind_eq_some_iff.mp h
                exact ih.entries (hbefore.put key (ih.node hvalue)) h
          · obtain ⟨_, hvalue, h⟩ := Option.bind_eq_some_iff.mp h
            exact ih.entries (hbefore.put key (keyed_inline hvalue)) h

end

theorem nodeKeyed (fuel : Nat) : NodeKeyed fuel := by
  induction fuel with
  | zero => exact nodeKeyed_zero
  | succ fuel ih => exact ⟨ih.node_succ, ih.nodeAt_succ, ih.entries_succ⟩

theorem keyed_read {text : String} {v : Value} (h : read? text = some v) :
    ∃ entries, v = .map entries ∧ Keyed (.map entries) := by
  unfold read? at h
  obtain ⟨ls, _, h⟩ := Option.bind_eq_some_iff.mp h
  split at h
  · cases h
    exact ⟨[], rfl, keyed_nil⟩
  · obtain ⟨⟨w, rest⟩, hnode, h⟩ := Option.bind_eq_some_iff.mp h
    dsimp only at h
    split at h
    · split at h
      · cases h
        exact ⟨_, rfl, (nodeKeyed _).node hnode⟩
      · cases h
    · cases h

end CanTransport.Yaml
