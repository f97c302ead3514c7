import CanTransport.Config.Load
/-!
# Trees over trees

What is found at a path of a tree, and what is found there once another tree is put over it: as long
as the upper tree has maps wherever the path goes through it, the result is what the upper tree has
there, over what the lower one has.
-/

namespace CanTransport.Value

variable {key other : String} {path : List String} {v w lower upper : Value}
  {entries below above : List (String × Value)}

/-! ## Entries -/

/-- Whether no key is repeated. -/
def Distinct (entries : List (String × Value)) : Prop := (entries.map Prod.fst).Nodup

theorem find?_cons (key other : String) (v : Value) (entries : List (String × Value)) :
    find? key ((other, v) :: entries) = if other = key then some v else find? key entries := rfl

theorem find?_put (key other : String) (v : Value) (entries : List (String × Value)) :
    find? other (put key v entries) = if key = other then some v else find? other entries := by
  induction entries with
  | nil => rfl
  | cons entry rest ih =>
    obtain ⟨k, old⟩ := entry
    by_cases hk : k = key
    · subst hk
      rw [put, if_pos rfl, find?_cons, find?_cons]
      split <;> rfl
    · rw [put, if_neg hk, find?_cons, find?_cons, ih]
      by_cases hother : k = other
      · subst hother
        rw [if_pos rfl, if_pos rfl, if_neg (Ne.symm hk)]
      · rw [if_neg hother, if_neg hother]

theorem find?_eq_none (h : key ∉ entries.map Prod.fst) : find? key entries = none := by
  induction entries with
  | nil => rfl
  | cons entry rest ih =>
    rw [List.map_cons, List.mem_cons, not_or] at h
    rw [find?_cons, if_neg (Ne.symm h.1)]
    exact ih h.2

theorem mem_of_find? (h : find? key entries = some v) : (key, v) ∈ entries := by
  induction entries with
  | nil => cases h
  | cons entry rest ih =>
    obtain ⟨k, old⟩ := entry
    rw [find?_cons] at h
    split at h
    · rename_i hk
      cases h
      rw [hk]
      exact List.mem_cons_self
    · exact List.mem_cons_of_mem _ (ih h)

theorem mem_put {entry : String × Value} (h : entry ∈ put key v entries) :
    entry = (key, v) ∨ entry ∈ entries := by
  induction entries with
  | nil => exact Or.inl (List.mem_singleton.mp h)
  | cons first rest ih =>
    obtain ⟨k, old⟩ := first
    rw [put] at h
    split at h
    · exact (List.mem_cons.mp h).imp_right (List.mem_cons_of_mem _)
    · rcases List.mem_cons.mp h with rfl | hrest
      · exact Or.inr List.mem_cons_self
      · exact (ih hrest).imp_right (List.mem_cons_of_mem _)

theorem distinct_put (key : String) (v : Value) (h : Distinct entries) :
    Distinct (put key v entries) := by
  unfold Distinct at h ⊢
  induction entries with
  | nil => exact List.pairwise_singleton _ key
  | cons first rest ih =>
    obtain ⟨k, old⟩ := first
    rw [List.map_cons, List.nodup_cons] at h
    by_cases hk : k = key
    · subst hk
      rw [put, if_pos rfl, List.map_cons, List.nodup_cons]
      exact h
    · rw [put, if_neg hk, List.map_cons, List.nodup_cons]
      refine ⟨fun hmem => ?_, ih h.2⟩
      obtain ⟨entry, hentry, heq⟩ := List.mem_map.mp hmem
      rcases mem_put hentry with rfl | hold
      · exact hk heq.symm
      · exact h.1 (heq ▸ List.mem_map_of_mem hold)

theorem put_eq_append (h : key ∉ entries.map Prod.fst) :
    put key v entries = entries ++ [(key, v)] := by
  induction entries with
  | nil => rfl
  | cons entry rest ih =>
    rw [List.map_cons, List.mem_cons, not_or] at h
    rw [put, if_neg (Ne.symm h.1), ih h.2, List.cons_append]

/-- Entries with keys of their own are put one behind the other. -/
theorem foldl_put (h : Distinct (below ++ above)) :
    above.foldl (fun below entry => put entry.1 entry.2 below) below = below ++ above := by
  induction above generalizing below with
  | nil => exact (List.append_nil below).symm
  | cons entry rest ih =>
    have hnew : entry.1 ∉ below.map Prod.fst := by
      intro hmem
      rw [Distinct, List.map_append, List.map_cons] at h
      exact (List.nodup_append.mp h).2.2 _ hmem _ List.mem_cons_self rfl
    rw [List.append_cons] at h
    rw [List.foldl_cons, put_eq_append hnew, ih h, List.append_assoc, List.singleton_append]

/-- Trees in which no map repeats a key. What stands inside lists does not count. -/
inductive Keyed : Value → Prop
  | leaf {v : Value} (h : ∀ entries, v ≠ .map entries) : Keyed v
  | map {entries : List (String × Value)} (hdistinct : Distinct entries)
      (hinner : ∀ entry ∈ entries, Keyed entry.2) : Keyed (.map entries)

theorem keyed_nil : Keyed (.map []) := .map List.Pairwise.nil nofun

theorem keyed_null : Keyed .null := by
  refine .leaf fun entries h => ?_
  cases h

theorem keyed_list (items : List Value) : Keyed (.list items) := by
  refine .leaf fun entries h => ?_
  cases h

theorem Keyed.distinct (h : Keyed (.map entries)) : Distinct entries := by
  cases h with
  | leaf h => exact absurd rfl (h entries)
  | map hdistinct hinner => exact hdistinct

theorem Keyed.inner (h : Keyed (.map entries)) {entry : String × Value}
    (hentry : entry ∈ entries) : Keyed entry.2 := by
  cases h with
  | leaf h => exact absurd rfl (h entries)
  | map hdistinct hinner => exact hinner entry hentry

theorem Keyed.put (key : String) (h : Keyed (.map entries)) (hv : Keyed v) :
    Keyed (.map (Value.put key v entries)) := by
  refine .map (distinct_put key v h.distinct) fun entry hentry => ?_
  rcases mem_put hentry with rfl | hold
  · exact hv
  · exact h.inner hold

/-! ## Two layers -/

/-- What two layers come to in one place. -/
def overlay : Option Value → Option Value → Option Value
  | lower, none => lower
  | none, some v => some v
  | some old, some v => some (old.covered v)

theorem overlay_none (upper : Option Value) : overlay none upper = upper := by
  cases upper <;> rfl

/-- Of entries over entries each key has what both have for it. -/
theorem find?_coveredAll (h : Distinct above) (key : String) :
    find? key (coveredAll below above) = overlay (find? key below) (find? key above) := by
  unfold Distinct at h
  induction above generalizing below with
  | nil => rw [coveredAll]; rfl
  | cons first rest ih =>
    obtain ⟨k, v⟩ := first
    rw [List.map_cons, List.nodup_cons] at h
    rw [coveredAll, ih h.2, find?_put, find?_cons]
    by_cases hk : k = key
    · -- the key does not come again, so what is put for it here stays
      subst hk
      rw [if_pos rfl, if_pos rfl, find?_eq_none h.1]
      cases find? k below <;> rfl
    · rw [if_neg hk, if_neg hk]

theorem distinct_coveredAll (above : List (String × Value)) (h : Distinct below) :
    Distinct (coveredAll below above) := by
  induction above generalizing below with
  | nil =>
    rw [coveredAll]
    exact h
  | cons first rest ih =>
    rw [coveredAll]
    exact ih (distinct_put _ _ h)

theorem get?_covered (h : Distinct above) (key : String) (lower : Value) :
    (lower.covered (.map above)).get? key = overlay (lower.get? key) (find? key above) := by
  cases lower with
  | map below =>
    rw [covered]
    exact find?_coveredAll h key
  | null | bool | int | real | str | list => exact (overlay_none _).symm

/-! ## Paths -/

/-- What is found at the end of a path. -/
def at? : Value → List String → Option Value
  | v, [] => some v
  | v, key :: path => (v.get? key).bind fun w => w.at? path

/-- Whether there are maps without repeated keys wherever a path goes through. -/
def Opens : Value → List String → Prop
  | _, [] => True
  | v, key :: path => ∃ entries, v = .map entries ∧ Distinct entries ∧
      ∀ w, find? key entries = some w → w.Opens path

theorem opens_nil (path : List String) : (map []).Opens path := by
  cases path with
  | nil => trivial
  | cons key path => exact ⟨[], rfl, List.Pairwise.nil, nofun⟩

theorem at?_covered (h : upper.Opens path) :
    (lower.covered upper).at? path = overlay (lower.at? path) (upper.at? path) := by
  induction path generalizing lower upper with
  | nil => rfl
  | cons key path ih =>
    obtain ⟨above, rfl, hdistinct, hinner⟩ := h
    rw [at?, at?, at?, get?_covered hdistinct key lower, get?]
    cases hupper : find? key above with
    | none => rfl
    | some v =>
      cases lower.get? key with
      | none => exact (overlay_none _).symm
      | some old => exact ih (hinner v hupper)

theorem opens_covered (hlower : lower.Opens path) (hupper : upper.Opens path) :
    (lower.covered upper).Opens path := by
  induction path generalizing lower upper with
  | nil => trivial
  | cons key path ih =>
    obtain ⟨below, rfl, hbelow, hinner⟩ := hlower
    obtain ⟨above, rfl, habove, hinner'⟩ := hupper
    refine ⟨coveredAll below above, by rw [covered], distinct_coveredAll above hbelow, ?_⟩
    intro w hw
    rw [find?_coveredAll habove] at hw
    cases hold : find? key below with
    | none =>
      rw [hold, overlay_none] at hw
      exact hinner' w hw
    | some old =>
      cases hnew : find? key above with
      | none =>
        rw [hold, hnew] at hw
        obtain rfl := Option.some.inj hw
        exact hinner _ hold
      | some v =>
        rw [hold, hnew] at hw
        obtain rfl := Option.some.inj hw
        exact ih (hinner old hold) (hinner' v hnew)

/-! ## One value at a path -/

theorem at?_nest_self (path : List String) (v : Value) : (Env.nest path v).at? path = some v := by
  induction path with
  | nil => rfl
  | cons key path ih =>
    rw [Env.nest, at?, get?, find?_cons, if_pos rfl]
    exact ih

/-- Nothing is found at a path that goes another way. -/
theorem at?_nest_of_prefix_free {path path' : List String} (h : ¬ path <+: path')
    (h' : ¬ path' <+: path) (v : Value) : (Env.nest path v).at? path' = none := by
  induction path generalizing path' with
  | nil => exact absurd List.nil_prefix h
  | cons key path ih =>
    cases path' with
    | nil => exact absurd List.nil_prefix h'
    | cons key' path' =>
      rw [Env.nest, at?, get?, find?_cons]
      split
      · rename_i hkey
        subst hkey
        rw [List.prefix_cons_inj] at h h'
        exact ih h h'
      · rfl

theorem opens_nest {path path' : List String} (h : path <+: path' → path = path') (v : Value) :
    (Env.nest path v).Opens path' := by
  induction path generalizing path' with
  | nil =>
    cases h List.nil_prefix
    trivial
  | cons key path ih =>
    cases path' with
    | nil => trivial
    | cons key' path' =>
      refine ⟨[(key, Env.nest path v)], rfl, List.pairwise_singleton _ key, fun w hw => ?_⟩
      rw [find?_cons] at hw
      split at hw
      · rename_i hkey
        subst hkey
        cases hw
        refine ih fun hprefix => ?_
        exact (List.cons.inj (h (List.prefix_cons_inj key |>.mpr hprefix))).2
      · cases hw

/-! ## Typed values -/

/-- What is no map in the end was none before, and replaced what it was put over. -/
theorem covered_eq_iff (hv : ∀ entries, v ≠ .map entries) (old w : Value) :
    old.covered w = v ↔ w = v := by
  cases w with
  | map above =>
    cases old <;> exact ⟨fun h => absurd h.symm (hv _), fun h => absurd h.symm (hv _)⟩
  | null | bool | int | real | str | list => exact Iff.rfl

theorem word?_eq_some_iff {n : UInt64} : v.word? = some n ↔ v = .ofNat n.toNat := by
  unfold word?
  constructor
  · intro h
    obtain ⟨m, hm, rfl⟩ := Option.map_eq_some_iff.mp h
    cases v with
    | int k =>
      rw [nat?] at hm
      split at hm
      · rename_i hk
        obtain rfl := Option.some.inj hm
        rw [ofNat, UInt64.toNat_ofNat_of_lt' (by simp only [UInt64.size]; omega),
          Int.toNat_of_nonneg hk.1]
      · cases hm
    | null | bool | real | str | list | map => cases hm
  · rintro rfl
    have hn := n.toNat_lt
    rw [ofNat, nat?, if_pos ⟨by omega, by omega⟩, Option.map_some, Int.toNat_natCast,
      UInt64.ofNat_toNat]

theorem bool?_eq_some_iff {b : Bool} : v.bool? = some b ↔ v = .bool b := by
  cases v with
  | bool b' => rw [bool?, Option.some_inj, Value.bool.injEq]
  | null | int | real | str | list | map => exact ⟨nofun, nofun⟩

end CanTransport.Value
