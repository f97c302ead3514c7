import CanTransport.Proofs.Config.Variables
import CanTransport.Proofs.Json.Keys
import CanTransport.Proofs.Toml.Keys
import CanTransport.Proofs.Yaml.Keys
/-!
# Layers

Where every setting of a loaded configuration comes from: a variable, else the file, else the
defaults, each setting on its own. What a variable hides in the file does not matter at all.
-/

namespace CanTransport

/-! ## Files -/

theorem FileFormat.keyed_read {format : FileFormat} {content : String} {tree : Value}
    (h : format.read? content = some tree) :
    ∃ entries, tree = .map entries ∧ (Value.map entries).Keyed := by
  cases format with
  | yaml => exact Yaml.keyed_read h
  | toml => exact Toml.keyed_read h
  | json =>
    unfold FileFormat.read? at h
    dsimp only at h
    split at h
    · rename_i entries hread
      cases h
      exact ⟨entries, rfl, Json.keyed_read hread⟩
    · cases h

/-- The sections of a tree are maps where they are present. -/
def Value.Sectioned (tree : Value) : Prop :=
  ∀ key ∈ ["batch", "ring"], ∀ v, tree.get? key = some v → ∃ entries, v = .map entries

theorem Value.Keyed.opens_single {entries : List (String × Value)} (h : Keyed (.map entries))
    (key : String) : (Value.map entries).Opens [key] :=
  ⟨entries, rfl, h.distinct, fun _ _ => trivial⟩

theorem Value.Keyed.opens {entries : List (String × Value)} (h : Keyed (.map entries))
    (hsections : (Value.map entries).Sectioned) (s : Setting) :
    (Value.map entries).Opens s.path := by
  rcases s.path_cases with ⟨key, hpath⟩ | ⟨name, hname, key, hpath⟩
  · rw [hpath]
    exact h.opens_single key
  · rw [hpath]
    refine ⟨entries, rfl, h.distinct, fun w hw => ?_⟩
    obtain ⟨inner, rfl⟩ := hsections name hname w hw
    exact (h.inner (mem_of_find? hw)).opens_single key

namespace BusConfig

variable {file file' : Option SourceFile} {environment environment' : List (String × String)}
  {tree tree' merged : Value} {c c' : BusConfig} {s p : Setting}

/-- Whether a file that is named exists, has a known extension, and holds a map, which is `tree`.
Where no file is named the tree is empty. -/
def Readable (file : Option SourceFile) (tree : Value) : Prop :=
  match file with
  | none => tree = .map []
  | some file => ∃ content format, file.content = some content ∧
      FileFormat.ofPath? file.path = some format ∧ format.read? content = some tree ∧
      ∃ entries, tree = .map entries

theorem Readable.keyed (h : Readable file tree) :
    ∃ entries, tree = .map entries ∧ (Value.map entries).Keyed := by
  cases file with
  | none => exact ⟨[], h, Value.keyed_nil⟩
  | some file =>
    obtain ⟨_, _, _, _, hread, _⟩ := h
    exact FileFormat.keyed_read hread

theorem Readable.opens (h : Readable file tree) (hsections : tree.Sectioned) (s : Setting) :
    tree.Opens s.path := by
  obtain ⟨entries, rfl, hkeyed⟩ := h.keyed
  exact hkeyed.opens hsections s

theorem fileLayer_eq_ok_iff {file : SourceFile} :
    fileLayer file = .ok tree ↔ Readable (some file) tree := by
  unfold fileLayer Readable
  constructor
  · intro h
    split at h
    · cases h
    · rename_i content hcontent
      split at h
      · cases h
      · rename_i format hformat
        split at h
        · cases h
        · rename_i hread
          cases h
          obtain ⟨entries, hmap, _⟩ := FileFormat.keyed_read hread
          exact ⟨content, format, hcontent, hformat, hread, entries, hmap⟩
  · rintro ⟨content, format, hcontent, hformat, hread, _⟩
    simp only [hcontent, hformat, hread]

/-! ## The merged tree -/

theorem layers_eq_ok_iff : layers file environment = .ok merged ↔
    ∃ tree, Readable file tree ∧
      merged = ((toValue {}).covered tree).covered (environmentLayer environment) := by
  cases file with
  | none =>
    constructor
    · intro h
      cases h
      exact ⟨.map [], rfl, rfl⟩
    · rintro ⟨tree, rfl, rfl⟩
      rfl
  | some file =>
    constructor
    · intro h
      cases hfile : fileLayer file with
      | error fault =>
        simp only [layers, hfile] at h
        cases h
      | ok tree =>
        simp only [layers, hfile] at h
        cases h
        exact ⟨tree, fileLayer_eq_ok_iff.mp hfile, rfl⟩
    · rintro ⟨tree, hread, rfl⟩
      simp only [layers, fileLayer_eq_ok_iff.mpr hread]
      rfl

theorem Readable.unique (h : Readable file tree) (h' : Readable file tree') : tree = tree' := by
  cases file with
  | none => exact h.trans h'.symm
  | some file =>
    have hok := fileLayer_eq_ok_iff.mpr h
    rw [fileLayer_eq_ok_iff.mpr h'] at hok
    exact (Except.ok.inj hok).symm

/-- The outcome of loading is that of reading and validating the merged tree. -/
theorem load_of_layers (h : layers file environment = .ok merged) :
    load file environment = match ofValue? false merged with
      | none => .error .unreadable
      | some c => match c.validate with
        | .error fault => .error (.invalid fault)
        | .ok () => .ok c := by
  rw [load, h]
  rfl

theorem load_eq_ok_iff : load file environment = .ok c ↔ ∃ merged,
    layers file environment = .ok merged ∧ ofValue? false merged = some c ∧
      c.validate = .ok () := by
  cases hlayers : layers file environment with
  | error fault =>
    constructor
    · intro h
      rw [load, hlayers] at h
      cases h
    · rintro ⟨merged, h, _⟩
      cases h
  | ok merged =>
    rw [load_of_layers hlayers]
    constructor
    · intro h
      split at h
      · cases h
      · rename_i hread
        split at h
        · cases h
        · rename_i hvalid
          cases h
          exact ⟨merged, rfl, hread, hvalid⟩
    · rintro ⟨merged', hmerged, hread, hvalid⟩
      cases hmerged
      rw [hread]
      dsimp only
      rw [hvalid]

/-- Where the value of a setting comes from: a variable, else the file, else the defaults. -/
def source (tree : Value) (environment : List (String × String)) (s : Setting) : Value :=
  ((given? environment s).or (tree.at? s.path)).getD (s.value {})

theorem at?_toValue (c : BusConfig) (s : Setting) : c.toValue.at? s.path = some (s.value c) := by
  cases s <;> rfl

/-- In the place of every setting the merged tree has what its source has, perhaps over maps that
stood there before. -/
theorem exists_merged (htree : tree.Opens s.path) (hplain : Plain environment) : ∃ w,
    (((toValue {}).covered tree).covered (environmentLayer environment)).at? s.path = some w ∧
      ∀ v, (∀ entries, v ≠ .map entries) → (w = v ↔ source tree environment s = v) := by
  rw [Value.at?_covered (opens_environmentLayer hplain s), Value.at?_covered htree,
    at?_toValue, at?_environmentLayer hplain, source]
  cases given? environment s with
  | none =>
    cases tree.at? s.path with
    | none => exact ⟨_, rfl, fun v _ => Iff.rfl⟩
    | some old => exact ⟨_, rfl, fun v hv => Value.covered_eq_iff hv _ _⟩
  | some new =>
    cases tree.at? s.path with
    | none => exact ⟨_, rfl, fun v hv => Value.covered_eq_iff hv _ _⟩
    | some old => exact ⟨_, rfl, fun v hv => Value.covered_eq_iff hv _ _⟩

/-! ## Loading -/

/-- How the layers of a configuration make it up. -/
structure Layered (file : Option SourceFile) (environment : List (String × String)) : Prop where
  /-- Loading succeeds just if the file is a map, the merged tree has values of the right types in
  all places, and what they make up is valid. -/
  succeeds : (∃ c, load file environment = .ok c) ↔ ∃ tree merged, Readable file tree ∧
    layers file environment = .ok merged ∧
    (∀ s : Setting, ∃ v, merged.at? s.path = some v ∧ s.accepts v) ∧
    ∀ c, (∀ s : Setting, merged.at? s.path = some (s.value c)) → c.validate = .ok ()
  /-- Every setting has the value of its own source. -/
  sources : ∀ tree c, Readable file tree → load file environment = .ok c →
    ∀ s : Setting, s.value c = source tree environment s
  /-- What the file has in the place of a setting that a variable gives does not matter. -/
  hidden : ∀ p, (given? environment p).isSome → ∀ tree file' tree', Readable file tree →
    Readable file' tree' → tree'.Sectioned →
    (∀ s : Setting, s ≠ p → tree'.at? s.path = tree.at? s.path) →
    load file' environment = load file environment
  /-- A setting that is added or changed in the file or in the environment changes no other. -/
  kept : ∀ p tree file' tree' environment', Readable file tree → Readable file' tree' →
    tree'.Sectioned → Plain environment' →
    (∀ s : Setting, s ≠ p → tree'.at? s.path = tree.at? s.path) →
    (∀ s, s ≠ p → given? environment' s = given? environment s) →
    ∀ c c', load file environment = .ok c → load file' environment' = .ok c' →
    ∀ s : Setting, s ≠ p → s.value c' = s.value c

/-- A tree is read as the configuration that has the value of its own source for every setting. -/
theorem ofValue?_merged_iff (hread : Readable file tree) (hsections : tree.Sectioned)
    (hplain : Plain environment) :
    ofValue? false (((toValue {}).covered tree).covered (environmentLayer environment)) = some c ↔
      ∀ s, source tree environment s = s.value c := by
  obtain ⟨found, hfound⟩ := Classical.axiomOfChoice fun s : Setting =>
    exists_merged (hread.opens hsections s) hplain
  rw [ofValue?_eq_some_iff false fun s => (hfound s).1]
  exact forall_congr' fun s => (hfound s).2 _ (s.value_ne_map c)

/-- Two loads whose settings come from equal sources have one outcome. -/
theorem load_congr (hread : Readable file tree) (hsections : tree.Sectioned)
    (hplain : Plain environment) (hread' : Readable file' tree') (hsections' : tree'.Sectioned)
    (h : ∀ s, source tree' environment s = source tree environment s) :
    load file' environment = load file environment := by
  rw [load_of_layers (layers_eq_ok_iff.mpr ⟨tree, hread, rfl⟩),
    load_of_layers (layers_eq_ok_iff.mpr ⟨tree', hread', rfl⟩)]
  have hsame : ofValue? false (((toValue {}).covered tree').covered (environmentLayer environment))
      = ofValue? false (((toValue {}).covered tree).covered (environmentLayer environment)) := by
    refine Option.ext fun c => ?_
    rw [ofValue?_merged_iff hread hsections hplain, ofValue?_merged_iff hread' hsections' hplain]
    simp only [h]
  rw [hsame]

theorem value_eq_source (hread : Readable file tree) (hsections : tree.Sectioned)
    (hplain : Plain environment) (hload : load file environment = .ok c) (s : Setting) :
    s.value c = source tree environment s := by
  obtain ⟨merged, hlayers, hvalue, _⟩ := load_eq_ok_iff.mp hload
  obtain ⟨tree', hread', rfl⟩ := layers_eq_ok_iff.mp hlayers
  obtain rfl := hread.unique hread'
  exact ((ofValue?_merged_iff hread hsections hplain).mp hvalue s).symm

theorem load_succeeds_iff (hsections : ∀ tree, Readable file tree → tree.Sectioned)
    (hplain : Plain environment) : (∃ c, load file environment = .ok c) ↔
      ∃ tree merged, Readable file tree ∧ layers file environment = .ok merged ∧
        (∀ s : Setting, ∃ v, merged.at? s.path = some v ∧ s.accepts v) ∧
        ∀ c, (∀ s : Setting, merged.at? s.path = some (s.value c)) → c.validate = .ok () := by
  constructor
  · rintro ⟨c, hload⟩
    obtain ⟨merged, hlayers, hvalue, hvalid⟩ := load_eq_ok_iff.mp hload
    obtain ⟨tree, hread, heq⟩ := layers_eq_ok_iff.mp hlayers
    have hplace (s : Setting) : merged.at? s.path = some (s.value c) := by
      obtain ⟨w, hw, hsource⟩ := exists_merged (hread.opens (hsections tree hread) s) hplain
      have hvalue_eq := value_eq_source hread (hsections tree hread) hplain hload s
      rw [heq, hw, (hsource _ (s.value_ne_map c)).mpr hvalue_eq.symm]
    refine ⟨tree, merged, hread, hlayers, fun s => ⟨_, hplace s, s.accepts_value c⟩, ?_⟩
    -- the values in all places are those of one configuration only
    intro c' hplace'
    have hvalue' := (ofValue?_eq_some_iff false hplace').mpr fun _ => rfl
    cases hvalue.symm.trans hvalue'
    exact hvalid
  · rintro ⟨tree, merged, hread, hlayers, htyped, hvalid⟩
    obtain ⟨found, hfound⟩ := Classical.axiomOfChoice htyped
    obtain ⟨c, hc⟩ := Setting.exists_value fun s => (hfound s).2
    have hplace (s : Setting) : merged.at? s.path = some (s.value c) := hc s ▸ (hfound s).1
    have hvalue := (ofValue?_eq_some_iff false hplace).mpr fun _ => rfl
    exact ⟨c, load_eq_ok_iff.mpr ⟨merged, hlayers, hvalue, hvalid c hplace⟩⟩

/-- With a file whose sections are maps, and variables that name single settings, the layers make up
the configuration setting by setting. -/
theorem layered (hsections : ∀ tree, Readable file tree → tree.Sectioned)
    (hplain : Plain environment) : Layered file environment := by
  refine ⟨load_succeeds_iff hsections hplain, ?_, ?_, ?_⟩
  · intro tree c hread hload
    exact value_eq_source hread (hsections tree hread) hplain hload
  · intro p hgiven tree file' tree' hread hread' hsections' hagree
    refine load_congr hread (hsections tree hread) hplain hread' hsections' fun s => ?_
    by_cases hs : s = p
    · obtain ⟨v, hv⟩ := Option.isSome_iff_exists.mp hgiven
      rw [source, source, hs, hv]
      rfl
    · rw [source, source, hagree s hs]
  · intro p tree file' tree' environment' hread hread' hsections' hplain' hagree hgiven c c'
      hload hload' s hs
    rw [value_eq_source hread (hsections tree hread) hplain hload,
      value_eq_source hread' hsections' hplain' hload', source, source, hagree s hs, hgiven s hs]

/-- A file with settings of batched reception only. -/
def batchFile (size : String) : SourceFile where
  path := "bus.json"
  content := some ("\x7b\"batch\": \x7b\"size\": " ++ size ++ ", \"timeout_ms\": 20\x7d\x7d")

def batchTree (size : Value) : Value :=
  .map [("batch", .map [("size", size), ("timeout_ms", .int 20)])]

/-- A size that is no number does no harm where a variable gives the size. -/
theorem load_hidden_size : load (some (batchFile "\"many\"")) [("CANBUS_BATCH__SIZE", "32")] =
    .ok { batch := { size := 32, timeoutMs := 20 } } := by
  have hformat : FileFormat.ofPath? "bus.json" = some .json := by decide +kernel
  have hnamed : named? ("CANBUS_BATCH__SIZE", "32") = some ["batch", "size"] := by decide +kernel
  have hread : Readable (some (batchFile "16")) (batchTree (.int 16)) :=
    ⟨_, .json, rfl, hformat, rfl, _, rfl⟩
  have hread' : Readable (some (batchFile "\"many\"")) (batchTree (.str "many")) :=
    ⟨_, .json, rfl, hformat, rfl, _, rfl⟩
  have hsections (size : Value) : (batchTree size).Sectioned := by
    intro key hkey v hv
    simp only [List.mem_cons, List.not_mem_nil, or_false] at hkey
    rcases hkey with rfl | rfl <;> cases hv
    exact ⟨_, rfl⟩
  have hagree (s : Setting) (hs : s ≠ .batchSize) :
      (batchTree (.str "many")).at? s.path = (batchTree (.int 16)).at? s.path := by
    cases s with
    | batchSize => exact absurd rfl hs
    | readTimeout | receiveOwn | loopback | batchTimeout | blockSize | blockCount | slotSize
    | pollInterval | listenerCapacity => rfl
  have hplain : Plain [("CANBUS_BATCH__SIZE", "32")] := by
    constructor
    · intro entry hentry path hpath
      cases List.mem_singleton.mp hentry
      cases hnamed.symm.trans hpath
      exact ⟨.batchSize, rfl⟩
    · rw [List.filterMap_cons_some hnamed]
      exact List.pairwise_singleton _ _
  have hgiven (s : Setting) : given? [("CANBUS_BATCH__SIZE", "32")] s =
      if s = .batchSize then some (.int 32) else none := by
    unfold given?
    rw [List.find?_singleton, hnamed]
    cases s <;> rfl
  have hlayered := layered (fun tree h => hread.unique h ▸ hsections (.int 16)) hplain
  have hsize : (given? [("CANBUS_BATCH__SIZE", "32")] .batchSize).isSome := by
    rw [hgiven]
    rfl
  rw [hlayered.hidden .batchSize hsize _ _ _ hread hread' (hsections _) hagree]
  refine load_eq_ok_iff.mpr ⟨_, layers_eq_ok_iff.mpr ⟨_, hread, rfl⟩, ?_, rfl⟩
  refine (ofValue?_merged_iff hread (hsections _) hplain).mpr fun s => ?_
  rw [source, hgiven]
  cases s <;> rfl

end BusConfig

end CanTransport
