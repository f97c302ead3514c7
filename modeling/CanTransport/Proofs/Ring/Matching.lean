import Mathlib.Data.Set.Card
import CanTransport.Proofs.Ring.Echoes
/-!
# Arrivals matched with sends

Calls on the queue of own echoes, numbered by their place in a sequence. Which records wait when is
told without a queue: by when each was made, and by which calls make it leave. The queue is then
seen to hold the waiting records in their order, so an arrival that was taken for an echo is matched
with the oldest waiting record of its bytes, and no two arrivals with one record.
-/

namespace CanTransport

namespace Echoes

/-- A call on the queue. -/
inductive Call where
  | record (raw : Wire)
  | forget (raw : Wire)
  /-- Asks whether an arrival is an echo. -/
  | take (raw : Wire)
  | clear
deriving DecidableEq, Repr

def after (e : Echoes) : Call → Echoes
  | .record raw => e.record raw
  | .forget raw => e.forget raw
  | .take raw => (e.take raw).2
  | .clear => e.clear

/-- The queue that call number `j` finds. -/
def before (e : Echoes) (calls : List Call) (j : Nat) : Echoes := (calls.take j).foldl after e

/-- Call number `i` records these bytes. -/
def Recorded (calls : List Call) (raw : Wire) (i : Nat) : Prop := calls[i]? = some (.record raw)

/-- Call number `j` is asked about an arrival of these bytes and takes it for an echo. -/
def Suppressed (e : Echoes) (calls : List Call) (raw : Wire) (j : Nat) : Prop :=
  calls[j]? = some (.take raw) ∧ ((e.before calls j).take raw).1 = true

instance (calls : List Call) (raw : Wire) : DecidablePred (Recorded calls raw) :=
  fun i => inferInstanceAs (Decidable (calls[i]? = some (.record raw)))

instance (e : Echoes) (calls : List Call) (raw : Wire) :
    DecidablePred (Suppressed e calls raw) :=
  fun j => inferInstanceAs
    (Decidable (calls[j]? = some (.take raw) ∧ ((e.before calls j).take raw).1 = true))

/-! ## Which records wait -/

section

variable (waiting : Nat → Prop) (calls : List Call)

/-- The oldest waiting record of some bytes. -/
def Oldest (raw : Wire) (i : Nat) : Prop :=
  waiting i ∧ Recorded calls raw i ∧ ∀ k, waiting k → Recorded calls raw k → i ≤ k

/-- The latest waiting record of some bytes. -/
def Latest (raw : Wire) (i : Nat) : Prop :=
  waiting i ∧ Recorded calls raw i ∧ ∀ k, waiting k → Recorded calls raw k → k ≤ i

/-- A waiting record is given up by a call: the oldest of all is evicted where `capacity` wait, the
latest of its bytes is forgotten, and an echo takes the oldest of its bytes and whatever is older. -/
def Leaves (i : Nat) : Call → Prop
  | .record _ => {k | waiting k}.ncard = capacity ∧ ∀ k, waiting k → i ≤ k
  | .forget raw => Latest waiting calls raw i
  | .take raw => ∃ k, Oldest waiting calls raw k ∧ i ≤ k
  | .clear => True

end

/-- Whether record number `i` waits when call number `j` comes. -/
def Waits (calls : List Call) : Nat → Nat → Prop
  | 0, _ => False
  | j + 1, i =>
    (Waits calls j i ∧ ∀ call, calls[j]? = some call → ¬Leaves (Waits calls j) calls i call) ∨
      (i = j ∧ ∃ raw, Recorded calls raw j)

variable {e : Echoes} {calls : List Call} {raw : Wire} {i j k : Nat}

theorem Waits.lt (h : Waits calls j i) : i < j := by
  induction j with
  | zero => exact h.elim
  | succ j ih =>
    rcases h with ⟨hwaits, -⟩ | ⟨heq, -⟩
    · have := ih hwaits
      omega
    · omega

theorem Waits.recorded (h : Waits calls j i) : ∃ raw, Recorded calls raw i := by
  induction j with
  | zero => exact h.elim
  | succ j ih =>
    rcases h with ⟨hwaits, -⟩ | ⟨heq, hrecorded⟩
    · exact ih hwaits
    · rw [heq]
      exact hrecorded

/-- A record that waits has waited since it was made. -/
theorem Waits.earlier (h : Waits calls k i) (hi : i < j) (hjk : j ≤ k) : Waits calls j i := by
  induction k with
  | zero => exact h.elim
  | succ k ih =>
    by_cases heq : j = k + 1
    · rw [heq]
      exact h
    · rcases h with ⟨hwaits, -⟩ | ⟨hsame, -⟩
      · exact ih hwaits (by omega)
      · omega

theorem waits_succ {call : Call} (hcall : calls[j]? = some call) :
    Waits calls (j + 1) i ↔
      (Waits calls j i ∧ ¬Leaves (Waits calls j) calls i call) ∨
        (i = j ∧ ∃ raw, call = .record raw) := by
  rw [Waits]
  unfold Recorded
  rw [hcall]
  simp

theorem waits_succ_of_none (hcall : calls[j]? = none) :
    Waits calls (j + 1) i ↔ Waits calls j i := by
  rw [Waits]
  unfold Recorded
  rw [hcall]
  simp

theorem Recorded.unique {raw' : Wire} (h : Recorded calls raw i) (h' : Recorded calls raw' i) :
    raw = raw' := by
  have hsame := h.symm.trans h'
  simpa using hsame

/-! ## The queue call by call -/

theorem before_zero (e : Echoes) (calls : List Call) : e.before calls 0 = e := rfl

theorem before_succ {call : Call} (e : Echoes) (hcall : calls[j]? = some call) :
    e.before calls (j + 1) = (e.before calls j).after call := by
  unfold before
  rw [List.take_add_one, hcall, List.foldl_append]
  rfl

theorem before_succ_of_none (e : Echoes) (hcall : calls[j]? = none) :
    e.before calls (j + 1) = e.before calls j := by
  unfold before
  rw [List.take_add_one, hcall, Option.toList_none, List.append_nil]

@[simp] theorem after_enabled (e : Echoes) (call : Call) : (e.after call).enabled = e.enabled := by
  cases call with
  | record raw => exact record_enabled raw
  | forget raw => exact forget_enabled raw
  | take raw => exact take_enabled raw e
  | clear => rfl

@[simp] theorem before_enabled (e : Echoes) (calls : List Call) (j : Nat) :
    (e.before calls j).enabled = e.enabled := by
  unfold before
  induction calls.take j generalizing e with
  | nil => rfl
  | cons call rest ih => rw [List.foldl_cons, ih, after_enabled]

/-! ## Records with their numbers -/

/-- Records with their numbers, the oldest first. -/
def Ordered (entries : List (Nat × Wire)) : Prop := entries.Pairwise fun a b => a.1 < b.1

namespace Ordered

variable {front back entries : List (Nat × Wire)} {entry other : Nat × Wire}

theorem front_lt (h : Ordered (front ++ entry :: back)) (hmem : other ∈ front) :
    other.1 < entry.1 :=
  (List.pairwise_append.mp h).2.2 other hmem entry List.mem_cons_self

theorem lt_back (h : Ordered (front ++ entry :: back)) (hmem : other ∈ back) :
    entry.1 < other.1 :=
  List.rel_of_pairwise_cons (List.pairwise_append.mp h).2.1 hmem

theorem mem_front (h : Ordered (front ++ entry :: back)) :
    other ∈ front ↔ other ∈ front ++ entry :: back ∧ other.1 < entry.1 := by
  constructor
  · intro hmem
    exact ⟨List.mem_append_left _ hmem, h.front_lt hmem⟩
  · rintro ⟨hmem, hlt⟩
    rcases List.mem_append.mp hmem with hfront | hrest
    · exact hfront
    · rcases List.mem_cons.mp hrest with heq | hback
      · rw [heq] at hlt
        omega
      · have := h.lt_back hback
        omega

theorem mem_back (h : Ordered (front ++ entry :: back)) :
    other ∈ back ↔ other ∈ front ++ entry :: back ∧ entry.1 < other.1 := by
  constructor
  · intro hmem
    exact ⟨List.mem_append_right _ (List.mem_cons_of_mem _ hmem), h.lt_back hmem⟩
  · rintro ⟨hmem, hlt⟩
    rcases List.mem_append.mp hmem with hfront | hrest
    · have := h.front_lt hfront
      omega
    · rcases List.mem_cons.mp hrest with heq | hback
      · rw [heq] at hlt
        omega
      · exact hback

theorem behind (h : Ordered (front ++ entry :: back)) : Ordered back :=
  (List.pairwise_append.mp h).2.1.of_cons

theorem erase (h : Ordered (front ++ entry :: back)) : Ordered (front ++ back) :=
  h.sublist ((List.sublist_cons_self entry back).append_left front)

/-- A later record goes behind all others. -/
theorem concat (h : Ordered entries) (hlater : ∀ other ∈ entries, other.1 < entry.1) :
    Ordered (entries ++ [entry]) := by
  refine List.pairwise_append.mpr ⟨h, List.pairwise_singleton _ _, ?_⟩
  intro other hother last hlast
  rw [List.mem_singleton] at hlast
  rw [hlast]
  exact hlater other hother

theorem nodup (h : Ordered entries) : (entries.map Prod.fst).Nodup := by
  have hlt : (entries.map Prod.fst).Pairwise (· < ·) := List.pairwise_map.mpr h
  exact hlt.imp Nat.ne_of_lt

end Ordered

/-- The queue holds the waiting records in the order in which they were made. -/
structure Account (calls : List Call) (j : Nat) (entries : List (Nat × Wire))
    (pending : List Wire) : Prop where
  ordered : Ordered entries
  pending_eq : pending = entries.map Prod.snd
  mem_iff : ∀ i raw, (i, raw) ∈ entries ↔ Waits calls j i ∧ Recorded calls raw i

namespace Account

variable {entries front back : List (Nat × Wire)} {pending : List Wire}

theorem mem_of_waits (h : Account calls j entries pending) (hwaits : Waits calls j i)
    (hrecorded : Recorded calls raw i) : (i, raw) ∈ entries :=
  (h.mem_iff i raw).mpr ⟨hwaits, hrecorded⟩

theorem length_eq (h : Account calls j entries pending) : pending.length = entries.length := by
  rw [h.pending_eq, List.length_map]

/-- As many wait as the queue is long. -/
theorem ncard_eq (h : Account calls j entries pending) :
    {k | Waits calls j k}.ncard = pending.length := by
  have hset : {k | Waits calls j k} = ((entries.map Prod.fst).toFinset : Set Nat) := by
    ext i
    rw [Set.mem_ofPred_eq, List.coe_toFinset, Set.mem_ofPred_eq, List.mem_map]
    constructor
    · intro hwaits
      obtain ⟨raw, hrecorded⟩ := hwaits.recorded
      exact ⟨(i, raw), h.mem_of_waits hwaits hrecorded, rfl⟩
    · rintro ⟨⟨i', raw⟩, hmem, rfl⟩
      exact ((h.mem_iff i' raw).mp hmem).1
  rw [hset, Set.ncard_coe_finset, List.toFinset_card_of_nodup h.ordered.nodup, List.length_map,
    h.length_eq]

theorem mem_pending_iff (h : Account calls j entries pending) :
    raw ∈ pending ↔ ∃ i, Waits calls j i ∧ Recorded calls raw i := by
  rw [h.pending_eq, List.mem_map]
  constructor
  · rintro ⟨⟨i, raw'⟩, hmem, rfl⟩
    exact ⟨i, (h.mem_iff i raw').mp hmem⟩
  · rintro ⟨i, hwaits, hrecorded⟩
    exact ⟨(i, raw), h.mem_of_waits hwaits hrecorded, rfl⟩

/-- A record found in the queue has a number, and so has whatever lies before and behind it. -/
theorem split {before behind : List Wire}
    (h : Account calls j entries (before ++ raw :: behind)) :
    ∃ front k back, entries = front ++ (k, raw) :: back ∧
      before = front.map Prod.snd ∧ behind = back.map Prod.snd := by
  obtain ⟨front, rest, hentries, hfront, hrest⟩ := List.map_eq_append_iff.mp h.pending_eq.symm
  obtain ⟨⟨k, raw'⟩, back, hcons, hraw, hback⟩ := List.map_eq_cons_iff.mp hrest
  cases hraw
  exact ⟨front, k, back, by rw [hentries, hcons], hfront.symm, hback.symm⟩

theorem oldest (h : Account calls j (front ++ (k, raw) :: back) pending)
    (hfront : raw ∉ front.map Prod.snd) : Oldest (Waits calls j) calls raw k := by
  have hmem : (k, raw) ∈ front ++ (k, raw) :: back :=
    List.mem_append_right _ List.mem_cons_self
  obtain ⟨hwaits, hrecorded⟩ := (h.mem_iff k raw).mp hmem
  refine ⟨hwaits, hrecorded, ?_⟩
  intro i hother hsame
  rcases List.mem_append.mp (h.mem_of_waits hother hsame) with hbefore | hrest
  · exact absurd (List.mem_map_of_mem hbefore) hfront
  · rcases List.mem_cons.mp hrest with heq | hback
    · cases heq
      exact Nat.le_refl k
    · exact Nat.le_of_lt (h.ordered.lt_back hback)

theorem latest (h : Account calls j (front ++ (k, raw) :: back) pending)
    (hback : raw ∉ back.map Prod.snd) : Latest (Waits calls j) calls raw k := by
  have hmem : (k, raw) ∈ front ++ (k, raw) :: back :=
    List.mem_append_right _ List.mem_cons_self
  obtain ⟨hwaits, hrecorded⟩ := (h.mem_iff k raw).mp hmem
  refine ⟨hwaits, hrecorded, ?_⟩
  intro i hother hsame
  rcases List.mem_append.mp (h.mem_of_waits hother hsame) with hbefore | hrest
  · exact Nat.le_of_lt (h.ordered.front_lt hbefore)
  · rcases List.mem_cons.mp hrest with heq | hbehind
    · cases heq
      exact Nat.le_refl k
    · exact absurd (List.mem_map_of_mem hbehind) hback

/-- A call that records nothing keeps those that do not leave. -/
theorem kept {call : Call} {entries' : List (Nat × Wire)} (h : Account calls j entries pending)
    (hcall : calls[j]? = some call) (hno : ∀ raw, call ≠ .record raw)
    (hordered : Ordered entries')
    (hmem : ∀ i raw, (i, raw) ∈ entries' ↔
      (i, raw) ∈ entries ∧ ¬Leaves (Waits calls j) calls i call) :
    Account calls (j + 1) entries' (entries'.map Prod.snd) := by
  refine ⟨hordered, rfl, ?_⟩
  intro i raw
  have hnew : ¬∃ raw, call = .record raw := fun ⟨raw, heq⟩ => hno raw heq
  rw [hmem, h.mem_iff, waits_succ hcall]
  tauto

theorem none (h : Account calls j entries pending) (hcall : calls[j]? = none) :
    Account calls (j + 1) entries pending := by
  refine ⟨h.ordered, h.pending_eq, ?_⟩
  intro i raw
  rw [waits_succ_of_none hcall]
  exact h.mem_iff i raw

/-- A record goes behind all that stay, which are all but the first of a full queue. -/
theorem concat {rest : List (Nat × Wire)} (h : Account calls j entries pending)
    (hcall : calls[j]? = some (.record raw)) (hordered : Ordered rest)
    (hrest : ∀ i raw', (i, raw') ∈ rest ↔
      (i, raw') ∈ entries ∧ ¬Leaves (Waits calls j) calls i (.record raw)) :
    Account calls (j + 1) (rest ++ [(j, raw)]) (rest.map Prod.snd ++ [raw]) := by
  have hlt : ∀ entry ∈ rest, entry.1 < j := by
    intro entry hmem
    exact ((h.mem_iff _ _).mp ((hrest _ _).mp hmem).1).1.lt
  refine ⟨hordered.concat hlt, by rw [List.map_append, List.map_singleton], ?_⟩
  intro i raw'
  rw [List.mem_append, hrest, h.mem_iff, waits_succ hcall, List.mem_singleton, Prod.mk.injEq]
  have hnew : Recorded calls raw j := hcall
  constructor
  · rintro (⟨⟨hwaits, hrecorded⟩, hstays⟩ | ⟨rfl, rfl⟩)
    · exact ⟨Or.inl ⟨hwaits, hstays⟩, hrecorded⟩
    · exact ⟨Or.inr ⟨rfl, raw', rfl⟩, hnew⟩
  · rintro ⟨⟨hwaits, hstays⟩ | ⟨rfl, -⟩, hrecorded⟩
    · exact Or.inl ⟨⟨hwaits, hrecorded⟩, hstays⟩
    · exact Or.inr ⟨rfl, hrecorded.unique hnew⟩

theorem record (h : Account calls j entries e.pending) (henabled : e.enabled = true)
    (hcall : calls[j]? = some (.record raw)) :
    ∃ entries', Account calls (j + 1) entries' (e.record raw).pending := by
  rw [record_pending henabled]
  by_cases hfull : e.pending.length = capacity
  · rw [if_pos hfull]
    have hsome : entries ≠ [] := by
      rintro rfl
      rw [h.length_eq] at hfull
      exact absurd hfull (by decide)
    obtain ⟨⟨k, raw'⟩, rest, rfl⟩ := List.exists_cons_of_ne_nil hsome
    have hpending : e.pending.drop 1 = rest.map Prod.snd := by
      rw [h.pending_eq, List.map_cons, List.drop_one, List.tail_cons]
    rw [hpending]
    have hmem : (k, raw') ∈ (k, raw') :: rest := List.mem_cons_self
    have hwaits : Waits calls j k := ((h.mem_iff k raw').mp hmem).1
    have hordered : Ordered ([] ++ (k, raw') :: rest) := h.ordered
    refine ⟨_, h.concat hcall hordered.behind ?_⟩
    intro i other
    rw [hordered.mem_back, List.nil_append]
    apply and_congr_right
    intro hother
    have hle : k ≤ i := by
      rcases List.mem_cons.mp hother with heq | hbehind
      · cases heq
        exact Nat.le_refl k
      · exact Nat.le_of_lt (hordered.lt_back hbehind)
    constructor
    · rintro hlt ⟨-, hleast⟩
      have := hleast k hwaits
      omega
    · intro hstays
      by_contra hnot
      have heq : i = k := by omega
      apply hstays
      refine ⟨h.ncard_eq.trans hfull, ?_⟩
      intro k' hk'
      obtain ⟨raw'', hrecorded⟩ := hk'.recorded
      rcases List.mem_cons.mp (h.mem_of_waits hk' hrecorded) with hsame | hbehind
      · cases hsame
        omega
      · have := hordered.lt_back hbehind
        omega
  · rw [if_neg hfull, h.pending_eq]
    refine ⟨_, h.concat hcall h.ordered ?_⟩
    intro i other
    have hstays : ¬Leaves (Waits calls j) calls i (.record raw) := by
      rintro ⟨hmany, -⟩
      exact hfull (h.ncard_eq.symm.trans hmany)
    exact ⟨fun hmem => ⟨hmem, hstays⟩, fun hmem => hmem.1⟩

theorem forget (h : Account calls j entries e.pending) (henabled : e.enabled = true)
    (hcall : calls[j]? = some (.forget raw)) :
    ∃ entries', Account calls (j + 1) entries' (e.forget raw).pending := by
  rw [forget_pending henabled]
  by_cases hmem : raw ∈ e.pending
  · obtain ⟨before, behind, hpending, hlast, herase⟩ := eraseLast_of_mem hmem
    rw [herase]
    rw [hpending] at h
    obtain ⟨front, k, back, rfl, rfl, rfl⟩ := h.split
    have hlatest := h.latest hlast
    rw [← List.map_append]
    refine ⟨_, h.kept hcall (fun _ => Call.noConfusion) h.ordered.erase ?_⟩
    intro i other
    have hleaves : Leaves (Waits calls j) calls i (.forget raw) ↔ i = k := by
      constructor
      · intro hi
        have hle := hlatest.2.2 i hi.1 hi.2.1
        have hge := hi.2.2 k hlatest.1 hlatest.2.1
        omega
      · rintro rfl
        exact hlatest
    rw [hleaves, List.mem_append, h.ordered.mem_front, h.ordered.mem_back, ← and_or_left]
    apply and_congr_right
    intro _
    dsimp only
    omega
  · rw [eraseLast_of_not_mem hmem, h.pending_eq]
    refine ⟨_, h.kept hcall (fun _ => Call.noConfusion) h.ordered ?_⟩
    intro i other
    have hstays : ¬Leaves (Waits calls j) calls i (.forget raw) := by
      intro hlatest
      exact hmem (h.mem_pending_iff.mpr ⟨i, hlatest.1, hlatest.2.1⟩)
    exact ⟨fun hentry => ⟨hentry, hstays⟩, fun hentry => hentry.1⟩

/-- An arrival is asked about: if the oldest record of its bytes is there, all behind it stay. -/
theorem take (h : Account calls j entries e.pending) (henabled : e.enabled = true)
    (hcall : calls[j]? = some (.take raw)) :
    ∃ entries', Account calls (j + 1) entries' (e.take raw).2.pending := by
  by_cases hmem : raw ∈ e.pending
  · obtain ⟨before, behind, hpending, hfirst, htake⟩ := take_of_mem henabled hmem
    rw [htake]
    rw [hpending] at h
    obtain ⟨front, k, back, rfl, rfl, rfl⟩ := h.split
    have holdest := h.oldest hfirst
    refine ⟨_, h.kept hcall (fun _ => Call.noConfusion) h.ordered.behind ?_⟩
    intro i other
    have hleaves : Leaves (Waits calls j) calls i (.take raw) ↔ i ≤ k := by
      constructor
      · rintro ⟨k', hk', hle⟩
        have := hk'.2.2 k holdest.1 holdest.2.1
        omega
      · intro hle
        exact ⟨k, holdest, hle⟩
    rw [hleaves, h.ordered.mem_back, Nat.not_le]
  · rw [take_of_not_mem hmem, h.pending_eq]
    refine ⟨_, h.kept hcall (fun _ => Call.noConfusion) h.ordered ?_⟩
    intro i other
    have hstays : ¬Leaves (Waits calls j) calls i (.take raw) := by
      rintro ⟨k, holdest, -⟩
      exact hmem (h.mem_pending_iff.mpr ⟨k, holdest.1, holdest.2.1⟩)
    exact ⟨fun hentry => ⟨hentry, hstays⟩, fun hentry => hentry.1⟩

theorem clear (h : Account calls j entries pending) (hcall : calls[j]? = some .clear) :
    Account calls (j + 1) [] [] := by
  refine h.kept hcall (fun _ => Call.noConfusion) List.Pairwise.nil ?_
  intro i raw
  constructor
  · intro hmem
    exact absurd hmem List.not_mem_nil
  · rintro ⟨-, hstays⟩
    exact (hstays trivial).elim

end Account

/-- Before every call on a queue that began empty it holds what waits. -/
theorem exists_account (calls : List Call) (henabled : e.enabled = true) (hempty : e.pending = [])
    (j : Nat) : ∃ entries, Account calls j entries (e.before calls j).pending := by
  induction j with
  | zero =>
    refine ⟨[], List.Pairwise.nil, ?_, ?_⟩
    · rw [before_zero, hempty]
      rfl
    · intro i raw
      exact ⟨fun hmem => absurd hmem List.not_mem_nil, fun hwaits => hwaits.1.elim⟩
  | succ j ih =>
    obtain ⟨entries, haccount⟩ := ih
    have hstill : (e.before calls j).enabled = true := by rw [before_enabled, henabled]
    cases hcall : calls[j]? with
    | none =>
      rw [before_succ_of_none e hcall]
      exact ⟨entries, haccount.none hcall⟩
    | some call =>
      rw [before_succ e hcall]
      cases call with
      | record raw => exact haccount.record hstill hcall
      | forget raw => exact haccount.forget hstill hcall
      | take raw => exact haccount.take hstill hcall
      | clear => exact ⟨[], haccount.clear hcall⟩

/-! ## The length of the queue -/

theorem length_record_le (henabled : e.enabled = true) (hle : e.pending.length ≤ capacity)
    (raw : Wire) : (e.record raw).pending.length ≤ capacity := by
  rw [record_pending henabled, List.length_append, List.length_singleton]
  split
  · rename_i hfull
    have hpos : 0 < capacity := by decide
    rw [List.length_drop]
    omega
  · omega

theorem length_forget_le (henabled : e.enabled = true) (raw : Wire) :
    (e.forget raw).pending.length ≤ e.pending.length := by
  rw [forget_pending henabled]
  by_cases hmem : raw ∈ e.pending
  · have := length_eraseLast_of_mem hmem
    omega
  · rw [eraseLast_of_not_mem hmem]

theorem length_take_le (henabled : e.enabled = true) (raw : Wire) :
    (e.take raw).2.pending.length ≤ e.pending.length := by
  by_cases hmem : raw ∈ e.pending
  · obtain ⟨before, behind, hpending, -, htake⟩ := take_of_mem henabled hmem
    rw [htake, hpending, List.length_append, List.length_cons]
    dsimp only
    omega
  · rw [take_of_not_mem hmem]

/-- However long the sequence, the queue stays within its capacity. -/
theorem length_before_le (calls : List Call) (henabled : e.enabled = true)
    (hempty : e.pending = []) (j : Nat) : (e.before calls j).pending.length ≤ capacity := by
  induction j with
  | zero =>
    rw [before_zero, hempty]
    exact Nat.zero_le _
  | succ j ih =>
    have hstill : (e.before calls j).enabled = true := by rw [before_enabled, henabled]
    cases hcall : calls[j]? with
    | none =>
      rw [before_succ_of_none e hcall]
      exact ih
    | some call =>
      rw [before_succ e hcall]
      cases call with
      | record raw => exact length_record_le hstill ih raw
      | forget raw => exact (length_forget_le hstill raw).trans ih
      | take raw => exact (length_take_le hstill raw).trans ih
      | clear => exact Nat.zero_le _

/-! ## The matching -/

theorem take_fst_iff (henabled : e.enabled = true) (raw : Wire) :
    (e.take raw).1 = true ↔ raw ∈ e.pending := by
  by_cases hmem : raw ∈ e.pending
  · obtain ⟨before, behind, -, -, htake⟩ := take_of_mem henabled hmem
    simp [htake, hmem]
  · simp [take_of_not_mem hmem, hmem]

/-- An arrival is an echo where a record of its bytes waits. -/
theorem suppressed_iff (henabled : e.enabled = true) (hempty : e.pending = [])
    (hcall : calls[j]? = some (.take raw)) :
    Suppressed e calls raw j ↔ ∃ i, Waits calls j i ∧ Recorded calls raw i := by
  obtain ⟨entries, haccount⟩ := exists_account calls henabled hempty j
  have hstill : (e.before calls j).enabled = true := by rw [before_enabled, henabled]
  rw [← haccount.mem_pending_iff, ← take_fst_iff hstill]
  exact and_iff_right hcall

theorem exists_oldest (h : ∃ i, Waits calls j i ∧ Recorded calls raw i) :
    ∃ i, Oldest (Waits calls j) calls raw i := by
  classical
  obtain ⟨hwaits, hrecorded⟩ := Nat.find_spec h
  exact ⟨Nat.find h, hwaits, hrecorded, fun k hk hsame => Nat.find_min' h ⟨hk, hsame⟩⟩

/-- What waits after an echo is later than the record that was its source. -/
theorem Oldest.lt_of_waits (holdest : Oldest (Waits calls j) calls raw i)
    (hcall : calls[j]? = some (.take raw)) (hjk : j < k) {later : Nat}
    (hwaits : Waits calls k later) : i < later := by
  have hlt := holdest.1.lt
  by_cases hnew : later ≤ j
  · have hafter : Waits calls (j + 1) later := hwaits.earlier (by omega) hjk
    rcases (waits_succ hcall).mp hafter with ⟨-, hstays⟩ | ⟨-, raw', htake⟩
    · by_contra hle
      exact hstays ⟨i, holdest, by omega⟩
    · cases htake
  · omega

/-- Which record each suppressed arrival is the echo of. -/
structure Matching (e : Echoes) (calls : List Call) (source : Nat → Nat) : Prop where
  /-- The source waits, with the bytes of the arrival, and no older one does. -/
  oldest : ∀ j raw, Suppressed e calls raw j → Oldest (Waits calls j) calls raw (source j)
  earlier : ∀ j raw, Suppressed e calls raw j → source j < j
  /-- A later echo has a later source, so none is used twice. -/
  increasing : ∀ j raw j' raw', Suppressed e calls raw j → Suppressed e calls raw' j' →
    j < j' → source j < source j'

theorem exists_matching (calls : List Call) (henabled : e.enabled = true)
    (hempty : e.pending = []) : ∃ source, Matching e calls source := by
  have hexists : ∀ j, ∃ i, ∀ raw, Suppressed e calls raw j →
      Oldest (Waits calls j) calls raw i := by
    intro j
    by_cases hany : ∃ raw, Suppressed e calls raw j
    · obtain ⟨raw, hsuppressed⟩ := hany
      have hwaiting := (suppressed_iff henabled hempty hsuppressed.1).mp hsuppressed
      obtain ⟨i, holdest⟩ := exists_oldest hwaiting
      refine ⟨i, ?_⟩
      intro raw' hsuppressed'
      have hsame := hsuppressed.1.symm.trans hsuppressed'.1
      cases hsame
      exact holdest
    · exact ⟨0, fun raw hsuppressed => absurd ⟨raw, hsuppressed⟩ hany⟩
  choose source hsource using hexists
  refine ⟨source, hsource, ?_, ?_⟩
  · intro j raw hsuppressed
    exact (hsource j raw hsuppressed).1.lt
  · intro j raw j' raw' hsuppressed hsuppressed' hlt
    exact (hsource j raw hsuppressed).lt_of_waits hsuppressed.1 hlt
      (hsource j' raw' hsuppressed').1

/-- No more arrivals of some bytes are suppressed than records of them were made before. -/
theorem Matching.card_le {source : Nat → Nat} (h : Matching e calls source) (raw : Wire) (n : Nat) :
    ((Finset.range n).filter (Suppressed e calls raw)).card ≤
      ((Finset.range n).filter (Recorded calls raw)).card := by
  apply Finset.card_le_card_of_injOn source
  · intro j hj
    obtain ⟨hrange, hsuppressed⟩ := Finset.mem_filter.mp hj
    have hlt := h.earlier j raw hsuppressed
    rw [Finset.mem_range] at hrange
    apply Finset.mem_filter.mpr
    exact ⟨Finset.mem_range.mpr (by omega), (h.oldest j raw hsuppressed).2.1⟩
  · intro j hj j' hj' hsame
    have hsuppressed := (Finset.mem_filter.mp hj).2
    have hsuppressed' := (Finset.mem_filter.mp hj').2
    rcases Nat.lt_trichotomy j j' with hlt | heq | hgt
    · have := h.increasing j raw j' raw hsuppressed hsuppressed' hlt
      omega
    · exact heq
    · have := h.increasing j' raw j raw hsuppressed' hsuppressed hgt
      omega

/-- Without echoes to hold back the queue stays empty. -/
theorem before_of_disabled (calls : List Call) (hdisabled : e.enabled = false)
    (hempty : e.pending = []) (j : Nat) : e.before calls j = e := by
  have hafter : ∀ call, e.after call = e := by
    intro call
    cases call with
    | record raw => simp [after, Echoes.record, hdisabled]
    | forget raw => simp [after, Echoes.forget, hdisabled]
    | take raw => simp [after, take_of_disabled hdisabled]
    | clear =>
      unfold after Echoes.clear
      rw [← hempty]
  unfold before
  induction calls.take j with
  | nil => rfl
  | cons call rest ih =>
    rw [List.foldl_cons, hafter]
    exact ih

/-- Every sequence of calls matches the arrivals that were taken for echoes with records of their
bytes, later ones with later ones: each with the oldest that waits, which none has used and which
was not forgotten, evicted or cleared before. The queue holds what waits, and an arrival passes where
no record of its bytes does. The queue stays within its capacity, and no more arrivals of some bytes are suppressed than were
recorded. Without echoes to hold back every arrival passes. -/
theorem suppression_matched (calls : List Call) :
    (∃ source, Matching { enabled := true } calls source) ∧
    (∀ j, ∃ entries, Account calls j entries (before { enabled := true } calls j).pending) ∧
    (∀ j raw, calls[j]? = some (.take raw) →
      ((¬Suppressed { enabled := true } calls raw j) ↔
        ¬∃ i, Waits calls j i ∧ Recorded calls raw i)) ∧
    (∀ j, (before { enabled := true } calls j).pending.length ≤ 1024) ∧
    (∀ raw n, ((Finset.range n).filter (Suppressed { enabled := true } calls raw)).card ≤
      ((Finset.range n).filter (Recorded calls raw)).card) ∧
    ∀ j, (before { enabled := false } calls j).pending = [] ∧
      ∀ raw, ¬Suppressed { enabled := false } calls raw j := by
  obtain ⟨source, hmatching⟩ := exists_matching (e := { enabled := true }) calls rfl rfl
  refine ⟨⟨source, hmatching⟩, ?_, ?_, ?_, ?_, ?_⟩
  · exact exists_account (e := { enabled := true }) calls rfl rfl
  · intro j raw hcall
    exact not_congr (suppressed_iff rfl rfl hcall)
  · exact length_before_le (e := { enabled := true }) calls rfl rfl
  · exact hmatching.card_le
  · intro j
    have hbefore := before_of_disabled (e := { enabled := false }) calls rfl rfl j
    refine ⟨by rw [hbefore], ?_⟩
    rintro raw ⟨-, htake⟩
    rw [hbefore, take_of_disabled rfl] at htake
    exact absurd htake Bool.false_ne_true

/-- A send whose echo was lost, and a later one whose echo arrives. -/
def lostEcho : List Call :=
  [.record (Vector.replicate 16 1), .record (Vector.replicate 16 2),
    .take (Vector.replicate 16 9), .take (Vector.replicate 16 2), .take (Vector.replicate 16 1)]

/-- The later send's echo gives up the earlier send, whose bytes then pass. -/
theorem suppression_matched_of_lost_echo :
    (∃ source, Matching { enabled := true } lostEcho source) ∧
      lostEcho[3]? = some (.take (Vector.replicate 16 2)) ∧
      (∃ i, Waits lostEcho 3 i ∧ Recorded lostEcho (Vector.replicate 16 2) i) ∧
      lostEcho[4]? = some (.take (Vector.replicate 16 1)) ∧
      ¬∃ i, Waits lostEcho 4 i ∧ Recorded lostEcho (Vector.replicate 16 1) i := by
  obtain ⟨hmatching, -, hpasses, -⟩ := suppression_matched lostEcho
  have hsuppressed : Suppressed { enabled := true } lostEcho (Vector.replicate 16 2) 3 := by decide
  have hpassed : ¬Suppressed { enabled := true } lostEcho (Vector.replicate 16 1) 4 := by decide
  refine ⟨hmatching, rfl, ?_, rfl, (hpasses 4 _ rfl).mp hpassed⟩
  by_contra hnone
  exact (hpasses 3 _ rfl).mpr hnone hsuppressed

end Echoes

end CanTransport
