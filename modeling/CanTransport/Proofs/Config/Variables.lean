import CanTransport.Proofs.Config.Settings
/-!
# Settings in the environment

Variables that name single settings, none of them twice, make a tree that has the value of a
variable wherever one names a setting, and nothing in the other places. Their order does not matter.
-/

namespace CanTransport

namespace Setting

variable {s s' : Setting} {tree : Value}

theorem opens_nest (s s' : Setting) (v : Value) : (Env.nest s.path v).Opens s'.path :=
  Value.opens_nest (fun h => congrArg path (eq_of_prefix_path h)) v

/-- A value put over a tree in the place of one setting leaves the other places alone. -/
theorem at?_covered_nest_of_ne (h : s ≠ s') (tree v : Value) :
    (tree.covered (Env.nest s'.path v)).at? s.path = tree.at? s.path := by
  rw [Value.at?_covered (opens_nest s' s v), Value.at?_nest_of_prefix_free _ _ v]
  · rfl
  · exact fun hprefix => h (eq_of_prefix_path hprefix).symm
  · exact fun hprefix => h (eq_of_prefix_path hprefix)

theorem at?_nil (s : Setting) : (Value.map []).at? s.path = none := by
  cases s <;> rfl

/-- A value put where there was nothing is what is found there. -/
theorem at?_covered_nest_self (h : tree.at? s.path = none) (v : Value) :
    (tree.covered (Env.nest s.path v)).at? s.path = some v := by
  rw [Value.at?_covered (opens_nest s s v), h, Value.overlay_none, Value.at?_nest_self]

end Setting

namespace BusConfig

variable {entries environment : List (String × String)} {entry : String × String}
  {tree : Value} {s : Setting}

/-- The path that the name of a variable spells behind the prefix. -/
def named? (entry : String × String) : Option (List String) :=
  Env.path? (String.ofList (variablePrefix.toList.map Env.lower)) entry.1

/-- Variables that name single settings, none of them twice. Variables that name no path do not
count. -/
structure Plain (environment : List (String × String)) : Prop where
  single : ∀ entry ∈ environment, ∀ path, named? entry = some path → ∃ s : Setting, path = s.path
  once : (environment.filterMap named?).Nodup

/-- The value that the environment gives to a setting. -/
def given? (environment : List (String × String)) (s : Setting) : Option Value :=
  (environment.find? fun entry => named? entry = some s.path).map fun entry => Env.read entry.2

/-! ## One variable -/

theorem addVariable_of_none (h : named? entry = none) (tree : Value) :
    addVariable tree entry = tree := by
  unfold named? at h
  rw [addVariable, h]

theorem addVariable_of_some {path : List String} (h : named? entry = some path) (tree : Value) :
    addVariable tree entry = tree.covered (Env.nest path (Env.read entry.2)) := by
  unfold named? at h
  rw [addVariable, h]

/-- A variable leaves the settings alone that it does not name. -/
theorem at?_addVariable (hsingle : ∀ path, named? entry = some path → ∃ s : Setting, path = s.path)
    (h : named? entry ≠ some s.path) (tree : Value) :
    (addVariable tree entry).at? s.path = tree.at? s.path := by
  cases hnamed : named? entry with
  | none => rw [addVariable_of_none hnamed]
  | some path =>
    obtain ⟨s', rfl⟩ := hsingle path hnamed
    rw [addVariable_of_some hnamed]
    refine Setting.at?_covered_nest_of_ne ?_ tree _
    rintro rfl
    exact h hnamed

theorem opens_addVariable
    (hsingle : ∀ path, named? entry = some path → ∃ s : Setting, path = s.path)
    (h : tree.Opens s.path) : (addVariable tree entry).Opens s.path := by
  cases hnamed : named? entry with
  | none =>
    rw [addVariable_of_none hnamed]
    exact h
  | some path =>
    obtain ⟨s', rfl⟩ := hsingle path hnamed
    rw [addVariable_of_some hnamed]
    exact Value.opens_covered h (Setting.opens_nest s' s _)

/-! ## All variables -/

theorem Plain.tail (h : Plain (entry :: entries)) : Plain entries := by
  refine ⟨fun e he => h.single e (List.mem_cons_of_mem _ he), ?_⟩
  have hsublist : (entries.filterMap named?).Sublist ((entry :: entries).filterMap named?) :=
    (List.sublist_cons_self entry entries).filterMap named?
  exact h.once.sublist hsublist

/-- No other variable names what the first one names. -/
theorem Plain.ne (h : Plain (entry :: entries)) {path : List String}
    (hnamed : named? entry = some path) : ∀ e ∈ entries, named? e ≠ some path := by
  have honce := h.once
  rw [List.filterMap_cons_some hnamed, List.nodup_cons] at honce
  exact fun e he hsame => honce.1 (List.mem_filterMap.mpr ⟨e, he, hsame⟩)

theorem Plain.perm (h : Plain environment) (hperm : environment.Perm entries) :
    Plain entries :=
  ⟨fun e he => h.single e (hperm.mem_iff.mpr he), (hperm.filterMap named?).nodup_iff.mp h.once⟩

theorem opens_foldl (h : Plain entries) (htree : tree.Opens s.path) :
    (entries.foldl addVariable tree).Opens s.path := by
  induction entries generalizing tree with
  | nil => exact htree
  | cons entry rest ih =>
    exact ih h.tail (opens_addVariable (h.single entry List.mem_cons_self) htree)

theorem at?_foldl_of_forall_ne (h : Plain entries)
    (hnone : ∀ entry ∈ entries, named? entry ≠ some s.path) (tree : Value) :
    (entries.foldl addVariable tree).at? s.path = tree.at? s.path := by
  induction entries generalizing tree with
  | nil => rfl
  | cons entry rest ih =>
    rw [List.forall_mem_cons] at hnone
    rw [List.foldl_cons, ih h.tail hnone.2]
    exact at?_addVariable (h.single entry List.mem_cons_self) hnone.1 tree

theorem at?_foldl_of_mem (h : Plain entries) (hentry : entry ∈ entries)
    (hnamed : named? entry = some s.path) (hnone : tree.at? s.path = none) :
    (entries.foldl addVariable tree).at? s.path = some (Env.read entry.2) := by
  induction entries generalizing tree with
  | nil => cases hentry
  | cons first rest ih =>
    rw [List.foldl_cons]
    rcases List.mem_cons.mp hentry with rfl | hrest
    · -- no later variable touches what this one has set
      rw [at?_foldl_of_forall_ne h.tail (h.ne hnamed), addVariable_of_some hnamed]
      exact Setting.at?_covered_nest_self hnone _
    · refine ih h.tail hrest ?_
      have hfirst : named? first ≠ some s.path := fun hsame => h.ne hsame entry hrest hnamed
      rw [at?_addVariable (h.single first List.mem_cons_self) hfirst]
      exact hnone

/-! ## The layer -/

theorem opens_environmentLayer (h : Plain environment) (s : Setting) :
    (environmentLayer environment).Opens s.path := by
  have hplain := h.perm (List.mergeSort_perm environment fun a b => a.1 ≤ b.1).symm
  exact opens_foldl hplain (Value.opens_nil s.path)

/-- The environment has for every setting what a variable gives to it. -/
theorem at?_environmentLayer (h : Plain environment) (s : Setting) :
    (environmentLayer environment).at? s.path = given? environment s := by
  have hperm := (List.mergeSort_perm environment fun a b => a.1 ≤ b.1).symm
  have hempty := Setting.at?_nil s
  cases hfind : environment.find? fun entry => named? entry = some s.path with
  | none =>
    rw [given?, hfind, environmentLayer, at?_foldl_of_forall_ne (h.perm hperm), hempty]
    · rfl
    · intro entry hentry
      have hnot := List.find?_eq_none.mp hfind entry (hperm.mem_iff.mpr hentry)
      exact fun hnamed => hnot (decide_eq_true hnamed)
  | some entry =>
    have hnamed : named? entry = some s.path := by simpa using List.find?_some hfind
    have hmem := hperm.mem_iff.mp (List.mem_of_find?_eq_some hfind)
    rw [given?, hfind, environmentLayer, at?_foldl_of_mem (h.perm hperm) hmem hnamed hempty]
    rfl

end BusConfig

end CanTransport
