import CanTransport.Proofs.Config.Layers
/-!
# Configurations given in part

An object with some of the settings, in sections or outside of them, is read as the default
configuration with just these settings replaced. What it has beside the settings does not matter.
-/

namespace CanTransport

open Value (find? at? get?)

/-! ## Single settings -/

namespace Value

variable {o : Option Value} {entries entries' : List (String × Value)} {names : List String}

theorem ofNat_toNat_inj {n m : UInt64} : ofNat n.toNat = ofNat m.toNat ↔ n = m := by
  rw [ofNat, ofNat, Value.int.injEq, Int.natCast_inj, UInt64.toNat_inj]

/-- A setting has the value that is given for it, and else its default. -/
theorem setting_word_eq_some_iff {d n : UInt64} :
    setting word? d o = some n ↔ o.getD (.ofNat d.toNat) = .ofNat n.toNat := by
  cases o with
  | none => rw [setting, Option.some_inj, Option.getD_none, ofNat_toNat_inj]
  | some v => rw [setting, word?_eq_some_iff, Option.getD_some]

theorem setting_bool_eq_some_iff {d b : Bool} :
    setting bool? d o = some b ↔ o.getD (.bool d) = .bool b := by
  cases o with
  | none => rw [setting, Option.some_inj, Option.getD_none, Value.bool.injEq]
  | some v => rw [setting, bool?_eq_some_iff, Option.getD_some]

/-- Fields are looked for by their names only. -/
theorem fields?_congr (exact : Bool) (h : ∀ name ∈ names, find? name entries = find? name entries') :
    fields? names exact (.map entries) = fields? names exact (.map entries') := by
  rw [fields?, fields?, Option.some_inj]
  exact List.map_congr_left h

end Value

/-! ## Sections -/

variable {inner entries entries' : List (String × Value)} {exact : Bool} {c : BusConfig}

theorem BatchConfig.ofValue?_map_iff {b : BatchConfig} :
    BatchConfig.ofValue? exact (.map inner) = some b ↔
      (find? "size" inner).getD (.ofNat ({} : BatchConfig).size.toNat) = .ofNat b.size.toNat ∧
      (find? "timeout_ms" inner).getD (.ofNat ({} : BatchConfig).timeoutMs.toNat) =
        .ofNat b.timeoutMs.toNat := by
  unfold BatchConfig.ofValue?
  simp only [Value.fields?, List.map_cons, List.map_nil, Option.bind_eq_bind,
    Option.bind_eq_some_iff, Option.pure_def, Option.some.injEq, Value.setting_word_eq_some_iff]
  constructor
  · rintro ⟨_, hsize, _, htimeout, rfl⟩
    exact ⟨hsize, htimeout⟩
  · rintro ⟨hsize, htimeout⟩
    exact ⟨_, hsize, _, htimeout, rfl⟩

theorem RingConfig.ofValue?_map_iff {r : RingConfig} :
    RingConfig.ofValue? exact (.map inner) = some r ↔
      (find? "block_size" inner).getD (.ofNat ({} : RingConfig).blockSize.toNat) =
        .ofNat r.blockSize.toNat ∧
      (find? "block_count" inner).getD (.ofNat ({} : RingConfig).blockCount.toNat) =
        .ofNat r.blockCount.toNat ∧
      (find? "frame_size" inner).getD (.ofNat ({} : RingConfig).frameSize.toNat) =
        .ofNat r.frameSize.toNat ∧
      (find? "poll_interval_ms" inner).getD (.ofNat ({} : RingConfig).pollIntervalMs.toNat) =
        .ofNat r.pollIntervalMs.toNat := by
  unfold RingConfig.ofValue?
  simp only [Value.fields?, List.map_cons, List.map_nil, Option.bind_eq_bind,
    Option.bind_eq_some_iff, Option.pure_def, Option.some.injEq, Value.setting_word_eq_some_iff]
  constructor
  · rintro ⟨_, hsize, _, hcount, _, hframe, _, hpoll, rfl⟩
    exact ⟨hsize, hcount, hframe, hpoll⟩
  · rintro ⟨hsize, hcount, hframe, hpoll⟩
    exact ⟨_, hsize, _, hcount, _, hframe, _, hpoll, rfl⟩

/-- A section that is absent is read as an empty one. -/
theorem exists_section {α : Type} {read? : Value → Option α} {d : α} {name : String}
    (hempty : read? (.map []) = some d) (hsections : (Value.map entries).Sectioned)
    (hname : name ∈ ["batch", "ring"]) : ∃ inner,
      Value.setting read? d (find? name entries) = read? (.map inner) ∧
      ∀ key, (Value.map entries).at? [name, key] = find? key inner := by
  have hat : ∀ key, (Value.map entries).at? [name, key] =
      (find? name entries).bind fun w => w.at? [key] := fun _ => rfl
  cases hfind : find? name entries with
  | none =>
    refine ⟨[], hempty.symm, fun key => ?_⟩
    rw [hat, hfind]
    rfl
  | some v =>
    obtain ⟨inner, rfl⟩ := hsections name hname v hfind
    refine ⟨inner, rfl, fun key => ?_⟩
    rw [hat, hfind, Option.bind_some, Value.at?_single]
    rfl

namespace BusConfig

/-- The value of a setting in an object, or else the default. -/
def given (entries : List (String × Value)) (s : Setting) : Value :=
  ((Value.map entries).at? s.path).getD (s.value {})

/-- An object is read as the configuration that has just what is given in it. -/
theorem ofValue?_map_iff (hsections : (Value.map entries).Sectioned) :
    ofValue? exact (.map entries) = some c ↔ ∀ s, given entries s = s.value c := by
  have hsingle : ∀ {s : Setting} {key : String}, s.path = [key] →
      given entries s = (find? key entries).getD (s.value {}) := by
    intro s key hs
    rw [given, hs, Value.at?_single]
    rfl
  obtain ⟨batch, hbatch, hsize⟩ : ∃ inner,
      Value.setting (BatchConfig.ofValue? exact) {} (find? "batch" entries) =
        BatchConfig.ofValue? exact (.map inner) ∧
      ∀ key, (Value.map entries).at? ["batch", key] = find? key inner :=
    exists_section rfl hsections (by simp)
  obtain ⟨ring, hring, hblock⟩ : ∃ inner,
      Value.setting (RingConfig.ofValue? exact) {} (find? "ring" entries) =
        RingConfig.ofValue? exact (.map inner) ∧
      ∀ key, (Value.map entries).at? ["ring", key] = find? key inner :=
    exists_section rfl hsections (by simp)
  have hinner : ∀ {s : Setting} {name key : String} {inner : List (String × Value)},
      s.path = [name, key] → (∀ key, (Value.map entries).at? [name, key] = find? key inner) →
      (find? key inner).getD (s.value {}) = given entries s := by
    intro s name key inner hs hat
    rw [given, hs, hat]
  unfold ofValue?
  simp only [Value.fields?, List.map_cons, List.map_nil, Option.bind_eq_bind,
    Option.bind_eq_some_iff, Option.pure_def, Option.some.injEq, Value.setting_word_eq_some_iff,
    Value.setting_bool_eq_some_iff]
  constructor
  · rintro ⟨_, hread, _, hown, _, hloop, b, hb, r, hr, _, hcapacity, rfl⟩ s
    obtain ⟨hbatchSize, htimeout⟩ := BatchConfig.ofValue?_map_iff.mp (hbatch.symm.trans hb)
    obtain ⟨hblockSize, hcount, hframe, hpoll⟩ :=
      RingConfig.ofValue?_map_iff.mp (hring.symm.trans hr)
    cases s with
    | readTimeout => exact (hsingle rfl).trans hread
    | receiveOwn => exact (hsingle rfl).trans hown
    | loopback => exact (hsingle rfl).trans hloop
    | batchSize => exact (hinner rfl hsize).symm.trans hbatchSize
    | batchTimeout => exact (hinner rfl hsize).symm.trans htimeout
    | blockSize => exact (hinner rfl hblock).symm.trans hblockSize
    | blockCount => exact (hinner rfl hblock).symm.trans hcount
    | slotSize => exact (hinner rfl hblock).symm.trans hframe
    | pollInterval => exact (hinner rfl hblock).symm.trans hpoll
    | listenerCapacity => exact (hsingle rfl).trans hcapacity
  · intro h
    have hbatchValue : BatchConfig.ofValue? exact (.map batch) = some c.batch :=
      BatchConfig.ofValue?_map_iff.mpr ⟨(hinner (s := .batchSize) rfl hsize).trans (h .batchSize),
        (hinner (s := .batchTimeout) rfl hsize).trans (h .batchTimeout)⟩
    have hringValue : RingConfig.ofValue? exact (.map ring) = some c.ring :=
      RingConfig.ofValue?_map_iff.mpr ⟨(hinner (s := .blockSize) rfl hblock).trans (h .blockSize),
        (hinner (s := .blockCount) rfl hblock).trans (h .blockCount),
        (hinner (s := .slotSize) rfl hblock).trans (h .slotSize),
        (hinner (s := .pollInterval) rfl hblock).trans (h .pollInterval)⟩
    exact ⟨_, (hsingle rfl).symm.trans (h .readTimeout), _, (hsingle rfl).symm.trans (h .receiveOwn),
      _, (hsingle rfl).symm.trans (h .loopback), _, hbatch.trans hbatchValue,
      _, hring.trans hringValue, _, (hsingle rfl).symm.trans (h .listenerCapacity), rfl⟩

/-- Only a value of a wrong type for a setting keeps an object from being read. -/
theorem exists_ofValue?_iff (hsections : (Value.map entries).Sectioned) :
    (∃ c, ofValue? exact (.map entries) = some c) ↔
      ∀ (s : Setting) v, (Value.map entries).at? s.path = some v → s.accepts v := by
  simp only [ofValue?_map_iff hsections]
  constructor
  · rintro ⟨c, hc⟩ s v hv
    have hvalue := hc s
    rw [given, hv, Option.getD_some] at hvalue
    rw [hvalue]
    exact s.accepts_value c
  · intro h
    apply Setting.exists_value
    intro s
    rw [given]
    cases hv : (Value.map entries).at? s.path with
    | none => exact s.accepts_value {}
    | some v => exact h s v hv

/-- Objects with the same settings are read alike, whatever else they have. -/
theorem ofValue?_congr (hsections : (Value.map entries).Sectioned)
    (hsections' : (Value.map entries').Sectioned)
    (h : ∀ s : Setting, (Value.map entries).at? s.path = (Value.map entries').at? s.path) :
    ofValue? exact (.map entries) = ofValue? exact (.map entries') := by
  refine Option.ext fun c => ?_
  rw [ofValue?_map_iff hsections, ofValue?_map_iff hsections']
  simp only [given, h]

/-- A key under which no setting stands does not matter, whatever the sections are. -/
theorem ofValue?_put {key : String} (h : ∀ s : Setting, s.path.head? ≠ some key) (v : Value) :
    ofValue? exact (.map (Value.put key v entries)) = ofValue? exact (.map entries) := by
  have hfind : ∀ s : Setting, ∀ name ∈ s.path.head?,
      find? name (Value.put key v entries) = find? name entries := by
    intro s name hname
    rw [Value.find?_put, if_neg]
    rintro rfl
    exact h s hname
  have hsame : ∀ name ∈ ["read_timeout_ms", "receive_own_messages", "loopback", "batch", "ring",
      "listener_capacity"], find? name (Value.put key v entries) = find? name entries := by
    simp only [List.forall_mem_cons]
    exact ⟨hfind .readTimeout _ rfl, hfind .receiveOwn _ rfl, hfind .loopback _ rfl,
      hfind .batchSize _ rfl, hfind .blockSize _ rfl, hfind .listenerCapacity _ rfl, nofun⟩
  unfold ofValue?
  rw [Value.fields?_congr exact hsame]

theorem ofValue?_toValue (exact : Bool) (c : BusConfig) : ofValue? exact c.toValue = some c :=
  (ofValue?_eq_some_iff exact (at?_toValue c)).mpr fun _ => rfl

end BusConfig

end CanTransport
