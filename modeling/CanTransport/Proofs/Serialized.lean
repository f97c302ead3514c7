import CanTransport.Proofs.Config.Parts
import CanTransport.Proofs.Frame.Fields
import CanTransport.Proofs.Json.Printing
import CanTransport.Reception.State
import CanTransport.Reception.Stats
/-!
# Serialized values read back

Frames, configurations, states and statistics are read back from the values that they are written
as, and from the texts of these values. What else is read as a frame or as a configuration is said
by the fields and settings that it gives.
-/

namespace CanTransport

open Value (find?)

/-! ## Values -/

theorem Frame.ofValue_toValue (f : Frame) : Frame.ofValue f.toValue = .ok f := by
  have hdlc : (UInt8.ofNat f.dlc).toNat = f.dlc := by
    have hle := f.dlc_le
    exact UInt8.toNat_ofNat_of_lt' (by simp only [UInt8.size]; omega)
  refine Frame.ofValue_eq_ok_iff.mpr ⟨UInt8.ofNat f.dlc, ?_, hdlc⟩
  rw [Frame.Holds, hdlc]
  exact .byName rfl rfl rfl rfl

theorem ReceptionState.ofValue?_toValue (s : ReceptionState) : ofValue? s.toValue = some s := by
  cases s <;> rfl

theorem Stats.ofValue?_toValue (s : Stats) : ofValue? s.toValue = some s := by
  have hcount : ∀ n : UInt64, (Value.ofNat n.toNat).nat? 0xFFFFFFFFFFFFFFFF = some n.toNat :=
    fun n => Value.nat?_eq_some_iff.mpr ⟨rfl, Nat.le_of_lt_succ n.toNat_lt⟩
  have hfields : s.toValue.fields?
      ["frames_sent", "frames_received", "frames_dropped", "receive_errors"] true =
      some [some (.ofNat s.sent.toNat), some (.ofNat s.received.toNat),
        some (.ofNat s.dropped.toNat), some (.ofNat s.errors.toNat)] := rfl
  rw [ofValue?, hfields]
  simp only [hcount, Option.bind_eq_bind, Option.bind_some, UInt64.ofNat_toNat]
  rfl

/-! ## Texts -/

namespace Json

variable {depth : Nat}

theorem exact_ofNat {n : Nat} (hn : n < 2 ^ 64) : Exact depth (.ofNat n) := by
  apply Exact.int
  simp only [Value.fits64, Bool.and_eq_true, decide_eq_true_eq]
  omega

/-- What is written for a frame, a configuration, a state or statistics. -/
inductive Serialized : Value → Prop where
  | frame (f : Frame) : Serialized f.toValue
  | config (c : BusConfig) : Serialized c.toValue
  | state (s : ReceptionState) : Serialized s.toValue
  | stats (s : Stats) : Serialized s.toValue

theorem exact_word (n : UInt64) : Exact depth (.ofNat n.toNat) := exact_ofNat n.toNat_lt

theorem exact_byte (b : UInt8) : Exact depth (.ofNat b.toNat) :=
  exact_ofNat (Nat.lt_trans b.toNat_lt (by decide))

theorem exact_frame (f : Frame) : Exact (depth + 2) f.toValue := by
  have hdlc := f.dlc_le
  refine .map (by simp [Value.Distinct]) ?_
  simp only [List.forall_mem_cons]
  refine ⟨exact_ofNat (Nat.lt_trans f.rawId.toNat_lt (by decide)), exact_byte f.flags,
    exact_ofNat (by omega), .list fun v hv => ?_, List.forall_mem_nil _⟩
  obtain ⟨b, -, rfl⟩ := List.mem_map.mp hv
  exact exact_byte b

theorem exact_config (c : BusConfig) : Exact (depth + 2) c.toValue := by
  rw [BusConfig.toValue, BusConfig.fields]
  refine .map (by simp [Value.Distinct]) ?_
  simp only [List.forall_mem_cons]
  refine ⟨exact_word _, .bool _, .bool _, .map (by simp [Value.Distinct]) ?_,
    .map (by simp [Value.Distinct]) ?_, exact_word _, List.forall_mem_nil _⟩
  · simp only [List.forall_mem_cons]
    exact ⟨exact_word _, exact_word _, List.forall_mem_nil _⟩
  · simp only [List.forall_mem_cons]
    exact ⟨exact_word _, exact_word _, exact_word _, exact_word _, List.forall_mem_nil _⟩

theorem exact_state (s : ReceptionState) : Exact (depth + 1) s.toValue := by
  cases s with
  | failed reason =>
    refine .map (List.pairwise_singleton _ _) ?_
    simp only [List.forall_mem_cons]
    exact ⟨.str reason, List.forall_mem_nil _⟩
  | idle | running | stopped => exact .str _

theorem exact_stats (s : Stats) : Exact (depth + 1) s.toValue := by
  refine .map (by simp [Value.Distinct, Stats.fields]) ?_
  intro entry hentry
  obtain ⟨⟨name, n⟩, -, rfl⟩ := List.mem_map.mp hentry
  exact exact_word n

/-- What is written reads back from its text, on one line or with one entry on each line. -/
theorem read?_serialized {v : Value} (h : Serialized v) :
    read? (compact v) = some v ∧ ∀ level, read? (pretty level v) = some v := by
  apply read?_printed
  cases h with
  | frame f => exact exact_frame f
  | config c => exact exact_config c
  | state s => exact exact_state s
  | stats s => exact exact_stats s

end Json

/-! ## What is read -/

/-- What is written is read back: frames, configurations, whether they are valid or not, states and
statistics, from their values and from the texts of these. A value is read as a frame exactly if it
gives the four fields, by name or in order and each in its range, with a length of at most eight;
the record with the same fields decodes under the same condition, to the same frame. An object is
read as a configuration exactly if the settings that it gives have their types, and then the others
have their defaults. Of two objects with the same settings neither knows more than the other, and a
key that leads to no setting does not even matter where a section is no object. -/
theorem serialized_reads_back :
    (∀ f : Frame, Frame.ofValue f.toValue = .ok f) ∧
    (∀ exact (c : BusConfig), BusConfig.ofValue? exact c.toValue = some c) ∧
    (∀ s : ReceptionState, ReceptionState.ofValue? s.toValue = some s) ∧
    (∀ s : Stats, Stats.ofValue? s.toValue = some s) ∧
    (∀ v, Json.Serialized v → Json.read? (Json.compact v) = some v ∧
      ∀ level, Json.read? (Json.pretty level v) = some v) ∧
    (∀ v f, Frame.ofValue v = .ok f ↔
      ∃ dlc : UInt8, Frame.Holds v f.rawId f.flags dlc f.rawData ∧ dlc.toNat = f.dlc) ∧
    (∀ v, (∃ f, Frame.ofValue v = .ok f) ↔
      ∃ id flags dlc data, Frame.Holds v id flags dlc data ∧ dlc.toNat ≤ 8) ∧
    (∀ v id flags dlc data f, Frame.Holds v id flags dlc data →
      (Frame.ofValue v = .ok f ↔ Frame.decode (Frame.layout id flags dlc data) = .ok f)) ∧
    (∀ exact entries c, (Value.map entries).Sectioned →
      (BusConfig.ofValue? exact (.map entries) = some c ↔
        ∀ s : Setting, s.value c = ((Value.map entries).at? s.path).getD (s.value {}))) ∧
    (∀ exact entries, (Value.map entries).Sectioned →
      ((∃ c, BusConfig.ofValue? exact (.map entries) = some c) ↔
        ∀ (s : Setting) v, (Value.map entries).at? s.path = some v → s.accepts v)) ∧
    (∀ exact entries entries', (Value.map entries).Sectioned → (Value.map entries').Sectioned →
      (∀ s : Setting, (Value.map entries).at? s.path = (Value.map entries').at? s.path) →
      BusConfig.ofValue? exact (.map entries) = BusConfig.ofValue? exact (.map entries')) ∧
    ∀ exact entries key v, (∀ s : Setting, s.path.head? ≠ some key) →
      BusConfig.ofValue? exact (.map (Value.put key v entries)) =
        BusConfig.ofValue? exact (.map entries) := by
  refine ⟨Frame.ofValue_toValue, BusConfig.ofValue?_toValue, ReceptionState.ofValue?_toValue,
    Stats.ofValue?_toValue, fun v => Json.read?_serialized, fun v f => Frame.ofValue_eq_ok_iff,
    fun v => ?_, fun v id flags dlc data f => Frame.ofValue_eq_ok_iff_decode,
    fun exact entries c hsections => ?_,
    fun exact entries hsections => BusConfig.exists_ofValue?_iff hsections,
    fun exact entries entries' hsections hsections' => BusConfig.ofValue?_congr hsections hsections',
    fun exact entries key v hkey => BusConfig.ofValue?_put hkey v⟩
  · constructor
    · rintro ⟨f, hread⟩
      obtain ⟨dlc, hholds, hdlc⟩ := Frame.ofValue_eq_ok_iff.mp hread
      exact ⟨_, _, dlc, _, hholds, hdlc ▸ f.dlc_le⟩
    · rintro ⟨id, flags, dlc, data, hholds, hdlc⟩
      exact ⟨⟨id, flags, dlc.toNat, data, hdlc⟩, Frame.ofValue_eq_ok_iff.mpr ⟨dlc, hholds, rfl⟩⟩
  · rw [BusConfig.ofValue?_map_iff hsections]
    simp only [BusConfig.given, eq_comm]

/-- Fields whose length is too large are refused as their record is, and sections in part are read
beside keys that nobody knows. -/
theorem serialized_reads_back_in_part :
    Frame.Holds (.list [.int 5, .int 0, .int 9, .list (List.replicate 8 (.int 7))]) 5 0 9
      (Vector.replicate 8 7) ∧
    (∀ f, Frame.ofValue (.list [.int 5, .int 0, .int 9, .list (List.replicate 8 (.int 7))]) ≠
      .ok f) ∧
    BusConfig.ofValue? true (.map [("speed", .null), ("batch", .map []), ("ring", .map
      [("depth", .str "x"), ("frame_size", .int 96)]), ("loopback", .bool false)]) =
      some { loopback := false, ring := { frameSize := 96 } } := by
  obtain ⟨-, -, -, -, -, -, -, hdecode, hconfig, -⟩ := serialized_reads_back
  have hholds : Frame.Holds (.list [.int 5, .int 0, .int 9, .list (List.replicate 8 (.int 7))]) 5 0 9
      (Vector.replicate 8 7) := .inOrder
  refine ⟨hholds, fun f hread => ?_, ?_⟩
  · have hrecord := (hdecode _ _ _ _ _ f hholds).mp hread
    rw [Frame.decode_layout] at hrecord
    cases hrecord
  · refine (hconfig true _ _ ?_).mpr fun s => ?_
    · intro name hname v hv
      simp only [List.mem_cons, List.not_mem_nil, or_false] at hname
      rcases hname with rfl | rfl <;> cases hv <;> exact ⟨_, rfl⟩
    · cases s <;> rfl

end CanTransport
