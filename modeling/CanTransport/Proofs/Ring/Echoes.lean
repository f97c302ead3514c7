import CanTransport.Ring.Echoes
/-!
# The queue of own echoes

What becomes of the records that wait for their echo. An echo is looked for from the front, and
whatever lies before it goes with it, so a subsequence of the queue that starts with the record
keeps its rest.
-/

namespace CanTransport

namespace Frame

/-- A record is a frame if its length byte allows. -/
theorem isSome_ofWire (raw : Wire) :
    (ofWire raw).toOption.isSome = decide ((raw.get 4).toNat ≤ 8) := by
  show _ = decide (raw[4].toNat ≤ 8)
  unfold ofWire ofFields
  by_cases hlength : raw[4].toNat ≤ 8
  · rw [dif_pos hlength, decide_eq_true hlength]
    rfl
  · rw [dif_neg hlength, decide_eq_false hlength]
    rfl

theorem isSome_ofWire_encode (frame : Frame) : (ofWire frame.encode).toOption.isSome = true := by
  have hle := frame.dlc_le
  have hbyte : (frame.encode.get 4).toNat = frame.dlc := by
    show (UInt8.ofNat frame.dlc).toNat = frame.dlc
    rw [UInt8.toNat_ofNat']
    omega
  rw [isSome_ofWire, hbyte]
  exact decide_eq_true hle

end Frame

namespace Echoes

variable {raw : Wire} {e : Echoes} {pending before behind rest : List Wire}

theorem after?_eq_none (h : raw ∉ pending) : after? raw pending = none := by
  induction pending with
  | nil => rfl
  | cons sent pending ih =>
    rw [List.mem_cons, not_or] at h
    rw [after?, if_neg (Ne.symm h.1)]
    exact ih h.2

theorem after?_of_mem (h : raw ∈ pending) :
    ∃ before behind, pending = before ++ raw :: behind ∧ raw ∉ before ∧
      after? raw pending = some behind := by
  induction pending with
  | nil => cases h
  | cons sent pending ih =>
    by_cases heq : sent = raw
    · subst heq
      exact ⟨[], pending, rfl, List.not_mem_nil, by rw [after?, if_pos rfl]⟩
    · have hmem : raw ∈ pending := by
        rcases List.mem_cons.mp h with hsame | hmem
        · exact absurd hsame.symm heq
        · exact hmem
      obtain ⟨before, behind, hpending, hbefore, hafter⟩ := ih hmem
      refine ⟨sent :: before, behind, by rw [hpending, List.cons_append], ?_, ?_⟩
      · rw [List.mem_cons, not_or]
        exact ⟨Ne.symm heq, hbefore⟩
      · rw [after?, if_neg heq]
        exact hafter

/-- Whoever waits behind a record waits on after its first occurrence was found. -/
theorem sublist_behind (h : (raw :: rest).Sublist (before ++ raw :: behind))
    (hbefore : raw ∉ before) : rest.Sublist behind := by
  induction before with
  | nil => exact List.cons_sublist_cons.mp h
  | cons sent before ih =>
    rw [List.mem_cons, not_or] at hbefore
    rw [List.cons_append, List.sublist_cons_iff] at h
    rcases h with hskip | ⟨others, heq, -⟩
    · exact ih hskip hbefore.2
    · rw [List.cons.injEq] at heq
      exact absurd heq.1 hbefore.1

/-! ## Taking echoes -/

theorem take_of_disabled (hdisabled : e.enabled = false) (raw : Wire) :
    e.take raw = (false, e) := by
  unfold take
  rw [hdisabled]
  rfl

theorem take_of_not_mem (hnew : raw ∉ e.pending) : e.take raw = (false, e) := by
  unfold take
  rw [after?_eq_none hnew]
  split <;> rfl

/-- An echo gives up the first record of its bytes and all before it. -/
theorem take_of_mem (henabled : e.enabled = true) (hmem : raw ∈ e.pending) :
    ∃ before behind, e.pending = before ++ raw :: behind ∧ raw ∉ before ∧
      e.take raw = (true, { e with pending := behind }) := by
  obtain ⟨before, behind, hpending, hbefore, hafter⟩ := after?_of_mem hmem
  refine ⟨before, behind, hpending, hbefore, ?_⟩
  unfold take
  rw [henabled, hafter]
  rfl

/-! ## Judging packets -/

theorem judge_outgoing (raw : Wire) (e : Echoes) :
    e.judge (some (.record raw Slot.outgoing)) = (.outgoing, e) := by
  rw [judge, if_pos rfl]

theorem judge_new {kind : UInt8} (hkind : kind ≠ Slot.outgoing) (hnew : raw ∉ e.pending) :
    e.judge (some (.record raw kind)) = (.arrival raw, e) := by
  rw [judge, if_neg hkind, take_of_not_mem hnew]

theorem judge_echo {kind : UInt8} (henabled : e.enabled = true) (hkind : kind ≠ Slot.outgoing)
    (hmem : raw ∈ e.pending) :
    ∃ before behind, e.pending = before ++ raw :: behind ∧ raw ∉ before ∧
      e.judge (some (.record raw kind)) = (.echo, { e with pending := behind }) := by
  obtain ⟨before, behind, hpending, hbefore, htake⟩ := take_of_mem henabled hmem
  refine ⟨before, behind, hpending, hbefore, ?_⟩
  rw [judge, if_neg hkind, htake]

@[simp] theorem take_enabled (raw : Wire) (e : Echoes) : (e.take raw).2.enabled = e.enabled := by
  unfold take
  split
  · rfl
  · split <;> rfl

@[simp] theorem judge_enabled (p : Option Slot.Packet) (e : Echoes) :
    (e.judge p).2.enabled = e.enabled := by
  unfold judge
  split
  · rename_i raw kind
    have hkept := take_enabled raw e
    split
    · rfl
    · split <;> rename_i htaken <;> rw [htaken] at hkept <;> exact hkept
  · rfl
  · rfl

/-- A packet that is no record leaves no trace. -/
theorem judge_no_record {p : Option Slot.Packet} (h : ∀ raw kind, p ≠ some (.record raw kind))
    (e : Echoes) : e.judge p = (.unusable, e) := by
  unfold judge
  split
  · rename_i raw kind
    exact absurd rfl (h raw kind)
  · rfl
  · rfl

/-! ## Records of sends -/

theorem record_pending (henabled : e.enabled = true) (raw : Wire) :
    (e.record raw).pending =
      (if e.pending.length = capacity then e.pending.drop 1 else e.pending) ++ [raw] := by
  unfold record
  rw [henabled]
  rfl

theorem forget_pending (henabled : e.enabled = true) (raw : Wire) :
    (e.forget raw).pending = eraseLast raw e.pending := by
  unfold forget
  rw [henabled]
  rfl

@[simp] theorem record_enabled (raw : Wire) : (e.record raw).enabled = e.enabled := by
  unfold record
  split <;> rfl

@[simp] theorem forget_enabled (raw : Wire) : (e.forget raw).enabled = e.enabled := by
  unfold forget
  split <;> rfl

/-- What was recorded last is what is forgotten. -/
theorem eraseLast_append_self (raw : Wire) (pending : List Wire) :
    eraseLast raw (pending ++ [raw]) = pending := by
  unfold eraseLast
  rw [List.reverse_append, List.reverse_singleton, List.singleton_append, List.erase_cons_head,
    List.reverse_reverse]

theorem eraseLast_of_not_mem (h : raw ∉ pending) : eraseLast raw pending = pending := by
  unfold eraseLast
  rw [List.erase_of_not_mem (fun hmem => h (List.mem_reverse.mp hmem)), List.reverse_reverse]

theorem eraseLast_of_mem (h : raw ∈ pending) :
    ∃ before behind, pending = before ++ raw :: behind ∧ raw ∉ behind ∧
      eraseLast raw pending = before ++ behind := by
  obtain ⟨behind, before, hbehind, hreverse, herase⟩ :=
    List.exists_erase_eq (List.mem_reverse.mpr h)
  refine ⟨before.reverse, behind.reverse, ?_, ?_, ?_⟩
  · rw [← List.reverse_reverse pending, hreverse, List.reverse_append, List.reverse_cons,
      List.append_assoc, List.singleton_append]
  · rw [List.mem_reverse]
    exact hbehind
  · unfold eraseLast
    rw [herase, List.reverse_append]

theorem length_eraseLast_of_mem (h : raw ∈ pending) :
    (eraseLast raw pending).length + 1 = pending.length := by
  have hmem : raw ∈ pending.reverse := List.mem_reverse.mpr h
  have hpos := List.length_pos_of_mem h
  unfold eraseLast
  rw [List.length_reverse, List.length_erase_of_mem hmem, List.length_reverse]
  omega

/-! ## What can be pending -/

theorem mem_record {other : Wire} (h : other ∈ (e.record raw).pending) :
    other ∈ e.pending ∨ other = raw := by
  unfold record at h
  split at h
  · exact Or.inl h
  · rcases List.mem_append.mp h with hkept | hnew
    · refine Or.inl ?_
      split at hkept
      · exact List.mem_of_mem_drop hkept
      · exact hkept
    · exact Or.inr (List.mem_singleton.mp hnew)

theorem mem_forget {other : Wire} (h : other ∈ (e.forget raw).pending) : other ∈ e.pending := by
  unfold forget at h
  split at h
  · exact h
  · exact List.mem_reverse.mp (List.mem_of_mem_erase (List.mem_reverse.mp h))

theorem mem_take {other : Wire} (h : other ∈ (e.take raw).2.pending) : other ∈ e.pending := by
  by_cases htaken : e.enabled = true ∧ raw ∈ e.pending
  · obtain ⟨before, behind, hpending, -, htake⟩ := take_of_mem htaken.1 htaken.2
    rw [htake] at h
    rw [hpending]
    exact List.mem_append_right _ (List.mem_cons_of_mem _ h)
  · have hsame : e.take raw = (false, e) := by
      cases henabled : e.enabled with
      | false => exact take_of_disabled henabled raw
      | true => exact take_of_not_mem fun hmem => htaken ⟨henabled, hmem⟩
    rw [hsame] at h
    exact h

theorem mem_judge {other : Wire} {p : Option Slot.Packet} (h : other ∈ (e.judge p).2.pending) :
    other ∈ e.pending := by
  match p with
  | none | some (.unsupported _) => exact h
  | some (.record raw kind) =>
    have htake : ∀ {taken e'}, e.take raw = (taken, e') → other ∈ e'.pending → other ∈ e.pending :=
      fun heq hmem => mem_take (by rw [heq]; exact hmem)
    unfold judge at h
    simp only at h
    split at h
    · exact h
    · split at h
      all_goals exact htake ‹_› h

end Echoes

end CanTransport
