import CanTransport.Proofs.Config.Trees
/-!
# Settings

The ten settings of a bus, each with its place in a tree. A tree with a value in every place is read
as the configuration that has just these values.
-/

namespace CanTransport

open Value (at? get? find?)

inductive Setting where
  | readTimeout
  | receiveOwn
  | loopback
  | batchSize
  | batchTimeout
  | blockSize
  | blockCount
  | slotSize
  | pollInterval
  | listenerCapacity
deriving DecidableEq, Repr

namespace Setting

/-- Where a setting stands in a tree. -/
def path : Setting → List String
  | readTimeout => ["read_timeout_ms"]
  | receiveOwn => ["receive_own_messages"]
  | loopback => ["loopback"]
  | batchSize => ["batch", "size"]
  | batchTimeout => ["batch", "timeout_ms"]
  | blockSize => ["ring", "block_size"]
  | blockCount => ["ring", "block_count"]
  | slotSize => ["ring", "frame_size"]
  | pollInterval => ["ring", "poll_interval_ms"]
  | listenerCapacity => ["listener_capacity"]

/-- What a configuration has for a setting. -/
def value (c : BusConfig) : Setting → Value
  | readTimeout => .ofNat c.readTimeoutMs.toNat
  | receiveOwn => .bool c.receiveOwnMessages
  | loopback => .bool c.loopback
  | batchSize => .ofNat c.batch.size.toNat
  | batchTimeout => .ofNat c.batch.timeoutMs.toNat
  | blockSize => .ofNat c.ring.blockSize.toNat
  | blockCount => .ofNat c.ring.blockCount.toNat
  | slotSize => .ofNat c.ring.frameSize.toNat
  | pollInterval => .ofNat c.ring.pollIntervalMs.toNat
  | listenerCapacity => .ofNat c.listenerCapacity.toNat

/-- Whether a value has the type of a setting. -/
def accepts : Setting → Value → Bool
  | receiveOwn, v | loopback, v => v.bool?.isSome
  | _, v => v.word?.isSome

theorem eq_of_prefix_path {s s' : Setting} (h : s.path <+: s'.path) : s = s' := by
  revert h
  cases s <;> cases s' <;> decide

theorem path_cases (s : Setting) :
    (∃ key, s.path = [key]) ∨ ∃ section_ ∈ ["batch", "ring"], ∃ key, s.path = [section_, key] := by
  cases s <;> simp [path]

theorem value_ne_map (c : BusConfig) (s : Setting) (entries : List (String × Value)) :
    s.value c ≠ .map entries := by
  cases s <;> exact nofun

theorem accepts_value (c : BusConfig) (s : Setting) : s.accepts (s.value c) := by
  have word (n : UInt64) : (Value.ofNat n.toNat).word?.isSome :=
    Option.isSome_of_eq_some (Value.word?_eq_some_iff.mpr rfl)
  cases s with
  | receiveOwn | loopback => rfl
  | readTimeout | batchSize | batchTimeout | blockSize | blockCount | slotSize | pollInterval
  | listenerCapacity => exact word _

/-- Values of the right types are those of a configuration. -/
theorem exists_value {found : Setting → Value} (h : ∀ s : Setting, s.accepts (found s)) :
    ∃ c, ∀ s, found s = s.value c := by
  have word {v : Value} (hv : v.word?.isSome) : ∃ n : UInt64, v = .ofNat n.toNat := by
    obtain ⟨n, hn⟩ := Option.isSome_iff_exists.mp hv
    exact ⟨n, Value.word?_eq_some_iff.mp hn⟩
  have truth {v : Value} (hv : v.bool?.isSome) : ∃ b : Bool, v = .bool b := by
    obtain ⟨b, hb⟩ := Option.isSome_iff_exists.mp hv
    exact ⟨b, Value.bool?_eq_some_iff.mp hb⟩
  obtain ⟨readTimeoutMs, h₁⟩ := word (h readTimeout)
  obtain ⟨receiveOwnMessages, h₂⟩ := truth (h receiveOwn)
  obtain ⟨loop, h₃⟩ := truth (h loopback)
  obtain ⟨size, h₄⟩ := word (h batchSize)
  obtain ⟨timeoutMs, h₅⟩ := word (h batchTimeout)
  obtain ⟨block, h₆⟩ := word (h blockSize)
  obtain ⟨count, h₇⟩ := word (h blockCount)
  obtain ⟨frameSize, h₈⟩ := word (h slotSize)
  obtain ⟨pollIntervalMs, h₉⟩ := word (h pollInterval)
  obtain ⟨capacity, h₁₀⟩ := word (h listenerCapacity)
  refine ⟨{
    readTimeoutMs, receiveOwnMessages, loopback := loop
    batch := { size, timeoutMs }
    ring := { blockSize := block, blockCount := count, frameSize, pollIntervalMs }
    listenerCapacity := capacity }, fun s => ?_⟩
  cases s <;> assumption

end Setting

/-! ## Reading a tree -/

namespace Value

variable {v w : Value} {key : String} {path : List String}

theorem at?_single (v : Value) (key : String) : v.at? [key] = v.get? key :=
  Option.bind_fun_some _

/-- Only a map has something at a path. -/
theorem exists_map_of_at? (h : v.at? (key :: path) = some w) :
    ∃ entries inner, v = .map entries ∧ find? key entries = some inner := by
  obtain ⟨inner, hinner, _⟩ := Option.bind_eq_some_iff.mp h
  cases v with
  | map entries => exact ⟨entries, inner, rfl, hinner⟩
  | null | bool | int | real | str | list => cases hinner

end Value

section
variable {v : Value}

theorem BatchConfig.ofValue?_eq_some_iff {size timeout : Value} {b : BatchConfig} (exact : Bool)
    (hsize : v.at? ["size"] = some size) (htimeout : v.at? ["timeout_ms"] = some timeout) :
    BatchConfig.ofValue? exact v = some b ↔
      size = .ofNat b.size.toNat ∧ timeout = .ofNat b.timeoutMs.toNat := by
  obtain ⟨entries, _, rfl, _⟩ := Value.exists_map_of_at? hsize
  rw [Value.at?_single, get?] at hsize htimeout
  unfold BatchConfig.ofValue?
  simp only [Value.fields?, List.map_cons, List.map_nil, hsize, htimeout, Value.setting,
    Option.bind_eq_bind, Option.bind_eq_some_iff, Option.pure_def, Value.word?_eq_some_iff]
  constructor
  · rintro ⟨_, rfl, _, rfl, heq⟩
    cases heq
    exact ⟨rfl, rfl⟩
  · rintro ⟨rfl, rfl⟩
    exact ⟨_, rfl, _, rfl, rfl⟩

theorem RingConfig.ofValue?_eq_some_iff {block count frame poll : Value} {r : RingConfig}
    (exact : Bool) (hblock : v.at? ["block_size"] = some block)
    (hcount : v.at? ["block_count"] = some count) (hframe : v.at? ["frame_size"] = some frame)
    (hpoll : v.at? ["poll_interval_ms"] = some poll) :
    RingConfig.ofValue? exact v = some r ↔
      block = .ofNat r.blockSize.toNat ∧ count = .ofNat r.blockCount.toNat ∧
        frame = .ofNat r.frameSize.toNat ∧ poll = .ofNat r.pollIntervalMs.toNat := by
  obtain ⟨entries, _, rfl, _⟩ := Value.exists_map_of_at? hblock
  rw [Value.at?_single, get?] at hblock hcount hframe hpoll
  unfold RingConfig.ofValue?
  simp only [Value.fields?, List.map_cons, List.map_nil, hblock, hcount, hframe, hpoll,
    Value.setting, Option.bind_eq_bind, Option.bind_eq_some_iff, Option.pure_def,
    Value.word?_eq_some_iff]
  constructor
  · rintro ⟨_, rfl, _, rfl, _, rfl, _, rfl, heq⟩
    cases heq
    exact ⟨rfl, rfl, rfl, rfl⟩
  · rintro ⟨rfl, rfl, rfl, rfl⟩
    exact ⟨_, rfl, _, rfl, _, rfl, _, rfl, rfl⟩

theorem BusConfig.ofValue?_eq_some_iff {found : Setting → Value} {c : BusConfig} (exact : Bool)
    (h : ∀ s : Setting, v.at? s.path = some (found s)) :
    BusConfig.ofValue? exact v = some c ↔ ∀ s, found s = s.value c := by
  obtain ⟨entries, batch, rfl, hbatch⟩ := Value.exists_map_of_at? (h .batchSize)
  obtain ⟨_, ring, heq, hring⟩ := Value.exists_map_of_at? (h .blockSize)
  cases heq
  have outer {s : Setting} {key : String} (hs : s.path = [key]) :
      find? key entries = some (found s) := by
    have hfound := h s
    rw [hs, Value.at?_single] at hfound
    exact hfound
  have inner {s : Setting} {name key : String} {w : Value} (hs : s.path = [name, key])
      (hw : find? name entries = some w) : w.at? [key] = some (found s) := by
    have hfound := h s
    rw [hs, at?, get?, hw] at hfound
    exact hfound
  have batchValue (b : BatchConfig) := BatchConfig.ofValue?_eq_some_iff (b := b) exact
    (inner (s := .batchSize) rfl hbatch) (inner (s := .batchTimeout) rfl hbatch)
  have ringValue (r : RingConfig) := RingConfig.ofValue?_eq_some_iff (r := r) exact
    (inner (s := .blockSize) rfl hring) (inner (s := .blockCount) rfl hring)
    (inner (s := .slotSize) rfl hring) (inner (s := .pollInterval) rfl hring)
  unfold BusConfig.ofValue?
  simp only [Value.fields?, List.map_cons, List.map_nil, outer (s := .readTimeout) rfl,
    outer (s := .receiveOwn) rfl, outer (s := .loopback) rfl, hbatch, hring,
    outer (s := .listenerCapacity) rfl, Value.setting, Option.bind_eq_bind,
    Option.bind_eq_some_iff, Option.pure_def, Value.word?_eq_some_iff, Value.bool?_eq_some_iff,
    batchValue, ringValue]
  constructor
  · rintro ⟨_, h₁, _, h₂, _, h₃, _, ⟨h₄, h₅⟩, _, ⟨h₆, h₇, h₈, h₉⟩, _, h₁₀, heq⟩ s
    cases heq
    cases s <;> assumption
  · intro hvalues
    exact ⟨_, hvalues .readTimeout, _, hvalues .receiveOwn, _, hvalues .loopback,
      _, ⟨hvalues .batchSize, hvalues .batchTimeout⟩,
      _, ⟨hvalues .blockSize, hvalues .blockCount, hvalues .slotSize, hvalues .pollInterval⟩,
      _, hvalues .listenerCapacity, rfl⟩

end

end CanTransport
