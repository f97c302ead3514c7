import CanTransport.Proofs.Config.Trees
/-!
# Keys of JSON objects

Reading JSON makes trees in which no map repeats a key: tokens hold no maps, and a map that is being
read has its keys once at any time.
-/

namespace CanTransport.Json

open Value (Keyed keyed_nil keyed_list)

variable {cs acc : List Char} {v : Value}

/-! ## Tokens -/

/-- A token that holds no map. -/
def Token.Flat : Token → Prop
  | .scalar v => ∀ entries, v ≠ .map entries
  | _ => True

theorem flat_number (h : number? cs = some v) : (Token.scalar v).Flat := by
  unfold number? at h
  split at h
  obtain ⟨⟨whole, rest⟩, _, h⟩ := Option.bind_eq_some_iff.mp h
  dsimp -zeta only at h
  split at h
  · cases h
  · split at h
    · obtain ⟨n, _, h⟩ := Option.bind_eq_some_iff.mp h
      extract_lets signed at h
      split at h
      · cases h
        exact nofun
      · split at h
        · cases h
        · cases h
          exact nofun
    · split at h
      · cases h
        exact nofun
      · cases h

theorem flat_word (h : word? cs = some v) : (Token.scalar v).Flat := by
  unfold word? at h
  split at h
  · cases h
    exact nofun
  · split at h
    · cases h
      exact nofun
    · split at h
      · cases h
        exact nofun
      · exact flat_number h

theorem flat_outside {c : Char} {tokens : List Token} {mode : Mode}
    (h : outside? c = some (tokens, mode)) : ∀ token ∈ tokens, token.Flat := by
  unfold outside? at h
  split at h
  · cases h
    exact nofun
  · split at h
    · cases h
      exact nofun
    · split at h
      · rename_i token hmark
        cases h
        intro token' htoken
        cases List.mem_singleton.mp htoken
        unfold mark? at hmark
        split at hmark <;> cases hmark <;> trivial
      · cases h
        exact nofun

theorem flat_scan {mode next : Mode} {c : Char} {tokens : List Token}
    (h : scan? mode c = some (tokens, next)) : ∀ token ∈ tokens, token.Flat := by
  cases mode with
  | between => exact flat_outside h
  | word acc =>
    rw [scan?] at h
    split at h
    · obtain ⟨v, hword, h⟩ := Option.bind_eq_some_iff.mp h
      obtain ⟨⟨outer, mode⟩, houtside, heq⟩ := Option.bind_eq_some_iff.mp h
      cases heq
      intro token htoken
      rcases List.mem_cons.mp htoken with rfl | houter
      · exact flat_word hword
      · exact flat_outside houtside token houter
    · cases h
      exact nofun
  | text acc =>
    rw [scan?] at h
    split at h
    · cases h
      intro token htoken
      cases List.mem_singleton.mp htoken
      exact nofun
    · split at h
      · cases h
        exact nofun
      · split at h
        · cases h
        · cases h
          exact nofun
  | escape acc =>
    rw [scan?] at h
    split at h
    · cases h
      exact nofun
    · obtain ⟨_, _, heq⟩ := Option.map_eq_some_iff.mp h
      cases heq
      exact nofun
  | unit acc high digits value =>
    obtain ⟨_, _, h⟩ := Option.bind_eq_some_iff.mp h
    dsimp only at h
    split at h
    · obtain ⟨_, _, heq⟩ := Option.map_eq_some_iff.mp h
      cases heq
      exact nofun
    · cases h
      exact nofun
  | lowStart acc high =>
    rw [scan?] at h
    split at h
    · cases h
      exact nofun
    · cases h
  | lowEscape acc high =>
    rw [scan?] at h
    split at h
    · cases h
      exact nofun
    · cases h

theorem flat_tokens {mode : Mode} {tokens : List Token} (h : tokens? mode cs = some tokens) :
    ∀ token ∈ tokens, token.Flat := by
  induction cs generalizing mode tokens with
  | nil =>
    unfold tokens? at h
    split at h
    · cases h
      exact nofun
    · obtain ⟨v, hword, heq⟩ := Option.map_eq_some_iff.mp h
      cases heq
      intro token htoken
      cases List.mem_singleton.mp htoken
      exact flat_word hword
    · cases h
    · rename_i hcons
      cases hcons
  | cons c cs ih =>
    rw [tokens?] at h
    · obtain ⟨⟨first, next⟩, hscan, h⟩ := Option.bind_eq_some_iff.mp h
      obtain ⟨rest, hrest, heq⟩ := Option.bind_eq_some_iff.mp h
      cases heq
      intro token htoken
      rcases List.mem_append.mp htoken with hfirst | hlater
      · exact flat_scan hscan token hfirst
      · exact ih hrest token hlater

/-! ## Building -/

/-- An open list or map with what was read for it. -/
def Open.Keyed : Open → Prop
  | .list _ => True
  | .map fields _ => Value.Keyed (.map fields)

/-- A result that is there. -/
def Expect.Keyed : Expect → Prop
  | .nothing result => Value.Keyed result
  | _ => True

theorem keyed_complete {stack after : List Open} {next : Expect} (hv : Keyed v)
    (h : ∀ o ∈ stack, o.Keyed) (hafter : complete v stack = (after, next)) :
    (∀ o ∈ after, o.Keyed) ∧ next.Keyed := by
  cases stack with
  | nil =>
    cases hafter
    exact ⟨nofun, hv⟩
  | cons inner outer =>
    rw [List.forall_mem_cons] at h
    cases inner with
    | list items =>
      cases hafter
      exact ⟨List.forall_mem_cons.mpr ⟨trivial, h.2⟩, trivial⟩
    | map fields key =>
      cases hafter
      exact ⟨List.forall_mem_cons.mpr ⟨h.1.put key hv, h.2⟩, trivial⟩

theorem keyed_take {stack after : List Open} {expect next : Expect} {token : Token}
    (htoken : token.Flat) (h : ∀ o ∈ stack, o.Keyed)
    (htake : take? stack expect token = some (after, next)) :
    (∀ o ∈ after, o.Keyed) ∧ next.Keyed := by
  unfold take? at htake
  split at htake
  case h_1 | h_2 => exact keyed_complete (.leaf htoken) h (Option.some.inj htake)
  case h_3 | h_4 =>
    split at htake
    · cases htake
      exact ⟨List.forall_mem_cons.mpr ⟨trivial, h⟩, trivial⟩
    · cases htake
  case h_5 | h_6 =>
    split at htake
    · cases htake
      exact ⟨List.forall_mem_cons.mpr ⟨keyed_nil, h⟩, trivial⟩
    · cases htake
  case h_7 | h_8 =>
    exact keyed_complete (keyed_list _) (List.forall_mem_cons.mp h).2 (Option.some.inj htake)
  case h_9 | h_10 | h_15 =>
    cases htake
    exact ⟨h, trivial⟩
  case h_11 | h_12 =>
    rw [List.forall_mem_cons] at h
    exact keyed_complete h.1 h.2 (Option.some.inj htake)
  case h_13 | h_14 =>
    cases htake
    rw [List.forall_mem_cons] at h
    exact ⟨List.forall_mem_cons.mpr ⟨h.1, h.2⟩, trivial⟩
  case h_16 => cases htake

theorem keyed_build {stack : List Open} {expect : Expect} {tokens : List Token}
    (htokens : ∀ token ∈ tokens, token.Flat) (h : ∀ o ∈ stack, o.Keyed) (hexpect : expect.Keyed)
    (hbuild : build? stack expect tokens = some v) : Keyed v := by
  induction tokens generalizing stack expect with
  | nil =>
    unfold build? at hbuild
    split at hbuild
    · cases hbuild
      exact hexpect
    · cases hbuild
    · rename_i hcons
      cases hcons
  | cons token rest ih =>
    rw [List.forall_mem_cons] at htokens
    rw [build?] at hbuild
    · obtain ⟨⟨after, next⟩, htake, hbuild⟩ := Option.bind_eq_some_iff.mp hbuild
      have hnext := keyed_take htokens.1 h htake
      exact ih htokens.2 hnext.1 hnext.2 hbuild

theorem keyed_read {text : String} (h : read? text = some v) : Keyed v := by
  obtain ⟨tokens, htokens, h⟩ := Option.bind_eq_some_iff.mp h
  have hstack : ∀ o ∈ ([] : List Open), o.Keyed := nofun
  exact keyed_build (flat_tokens htokens) hstack (by exact trivial) h

end CanTransport.Json
