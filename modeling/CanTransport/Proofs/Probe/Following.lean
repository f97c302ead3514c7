import CanTransport.Probe.Dump
/-!
# What a dump makes of what wakes it

As long as it goes on waiting, a dump has printed just the frames that woke it. It stops with the
first line that meets its limit, with a failure of reception, and with either end of the channels it
listens to. The limit is looked at behind each line, so that no limit lets it print nothing.
-/

namespace CanTransport.Probe

namespace Wake

/-- The frame that is taken from the queue. -/
def frame? : Wake → Option Frame
  | .frame received => some received
  | _ => none

/-- What it leads to, if some frames were printed before. -/
def ending (limit : Option Nat) (printed : Nat) : Wake → Ending
  | .frame _ => if limit.any (· ≤ printed + 1) then .done else .pending
  | .state (.failed reason) => .failed reason
  | .state _ => .pending
  | .closed | .shutdown => .done

end Wake

/-- The frames among what woke a dump. -/
def taken (wakes : List Wake) : List Frame := wakes.filterMap Wake.frame?

variable {limit : Option Nat} {printed : Nat} {wakes : List Wake}

theorem follow_singleton (limit : Option Nat) (printed : Nat) (wake : Wake) :
    follow limit printed [wake] = (wake.frame?.toList, wake.ending limit printed) := by
  cases wake with
  | frame frame =>
    simp only [follow, Wake.ending]
    split <;> rfl
  | state state => cases state <;> rfl
  | closed | shutdown => rfl

/-- A dump that still waits goes on where it is. -/
theorem follow_append (h : (follow limit printed wakes).2 = .pending) (more : List Wake) :
    follow limit printed (wakes ++ more) =
      ((follow limit printed wakes).1 ++
        (follow limit (printed + (follow limit printed wakes).1.length) more).1,
        (follow limit (printed + (follow limit printed wakes).1.length) more).2) := by
  induction wakes generalizing printed with
  | nil => rfl
  | cons wake rest ih =>
    cases wake with
    | frame frame =>
      rw [List.cons_append]
      simp only [follow] at h ⊢
      split
      · rename_i hmet
        rw [if_pos hmet] at h
        cases h
      · rename_i hbelow
        rw [if_neg hbelow] at h
        rw [ih h]
        simp only [List.cons_append, List.length_cons, Nat.add_assoc, Nat.add_comm 1]
    | state state =>
      cases state with
      | failed reason => cases h
      | idle | running | stopped => exact ih h
    | closed | shutdown => cases h

/-- A dump that has ended is woken no more. -/
theorem follow_append_of_ended (h : (follow limit printed wakes).2 ≠ .pending) (more : List Wake) :
    follow limit printed (wakes ++ more) = follow limit printed wakes := by
  induction wakes generalizing printed with
  | nil => exact absurd rfl h
  | cons wake rest ih =>
    cases wake with
    | frame frame =>
      rw [List.cons_append]
      simp only [follow] at h ⊢
      split
      · rfl
      · rename_i hbelow
        rw [if_neg hbelow] at h
        rw [ih h]
    | state state =>
      cases state with
      | failed reason => rfl
      | idle | running | stopped => exact ih h
    | closed | shutdown => rfl

theorem follow_concat (h : (follow limit printed wakes).2 = .pending) (wake : Wake) :
    follow limit printed (wakes ++ [wake]) = ((follow limit printed wakes).1 ++ wake.frame?.toList,
      wake.ending limit (printed + (follow limit printed wakes).1.length)) := by
  rw [follow_append h, follow_singleton]

theorem taken_concat (wakes : List Wake) (wake : Wake) :
    taken (wakes ++ [wake]) = taken wakes ++ wake.frame?.toList := List.filterMap_append

/-- What a dump has come to that was woken only as long as it waited. -/
structure Followed (limit : Option Nat) (wakes : List Wake) : Prop where
  /-- What it took it printed. -/
  lines_eq : (follow limit 0 wakes).1 = taken wakes
  length_le : ∀ n, limit = some n → (taken wakes).length ≤ max n 1
  done_iff : (follow limit 0 wakes).2 = .done ↔
    (∃ n, limit = some n ∧ (taken wakes).length = max n 1) ∨ .closed ∈ wakes ∨ .shutdown ∈ wakes
  failed_iff : ∀ reason, (follow limit 0 wakes).2 = .failed reason ↔
    .state (.failed reason) ∈ wakes

theorem followed_nil (limit : Option Nat) : Followed limit [] where
  lines_eq := rfl
  length_le n _ := Nat.zero_le _
  done_iff := by
    refine ⟨nofun, ?_⟩
    rintro (⟨n, -, heq⟩ | hclosed | hshutdown)
    · have hzero : 0 = max n 1 := heq
      omega
    · cases hclosed
    · cases hshutdown
  failed_iff reason := ⟨nofun, nofun⟩

/-- A dump that still waits is below its limit, and nothing has stopped it. -/
theorem Followed.pending (h : Followed limit wakes)
    (hpending : (follow limit 0 wakes).2 = .pending) :
    (∀ n, limit = some n → (taken wakes).length < max n 1) ∧ .closed ∉ wakes ∧ .shutdown ∉ wakes ∧
      ∀ reason, .state (.failed reason) ∉ wakes := by
  have hdone : ¬ (follow limit 0 wakes).2 = .done := by
    rw [hpending]
    exact nofun
  rw [h.done_iff, not_or, not_or] at hdone
  obtain ⟨hcount, hclosed, hshutdown⟩ := hdone
  refine ⟨fun n hlimit => ?_, hclosed, hshutdown, fun reason hmem => ?_⟩
  · have hle := h.length_le n hlimit
    have hne : (taken wakes).length ≠ max n 1 := fun heq => hcount ⟨n, hlimit, heq⟩
    omega
  · have hfailed := (h.failed_iff reason).mpr hmem
    rw [hpending] at hfailed
    cases hfailed

/-- The limit that a line meets. -/
theorem met_iff (hbelow : ∀ n, limit = some n → printed < max n 1) :
    limit.any (· ≤ printed + 1) = true ↔ ∃ n, limit = some n ∧ printed + 1 = max n 1 := by
  cases limit with
  | none => simp
  | some n =>
    have hlt := hbelow n rfl
    simp only [Option.any_some, decide_eq_true_eq, Option.some.injEq, exists_eq_left']
    omega

theorem Followed.concat (h : Followed limit wakes) (hpending : (follow limit 0 wakes).2 = .pending)
    (wake : Wake) : Followed limit (wakes ++ [wake]) := by
  obtain ⟨hbelow, hclosed, hshutdown, hfailed⟩ := h.pending hpending
  have hfollow := follow_concat hpending wake
  rw [h.lines_eq, ← taken_concat, Nat.zero_add] at hfollow
  have hnot : ¬ ∃ n, limit = some n ∧ (taken wakes).length = max n 1 :=
    fun ⟨n, hlimit, heq⟩ => Nat.ne_of_lt (hbelow n hlimit) heq
  have hold : ∀ wake ∈ wakes, wake ≠ .closed ∧ wake ≠ .shutdown ∧
      ∀ reason, wake ≠ .state (.failed reason) := by
    intro wake hmem
    refine ⟨?_, ?_, fun reason => ?_⟩
    · rintro rfl
      exact hclosed hmem
    · rintro rfl
      exact hshutdown hmem
    · rintro rfl
      exact hfailed reason hmem
  refine ⟨congrArg Prod.fst hfollow, fun n hlimit => ?_, ?_, fun reason => ?_⟩
  · have hlt := hbelow n hlimit
    rw [taken_concat, List.length_append]
    have hone : wake.frame?.toList.length ≤ 1 := by cases wake <;> simp [Wake.frame?]
    omega
  · rw [hfollow, taken_concat, List.length_append, List.mem_append, List.mem_append,
      List.mem_singleton, List.mem_singleton]
    cases wake with
    | frame frame =>
      simp only [Wake.ending, Wake.frame?, Option.toList_some, List.length_singleton]
      rw [← met_iff hbelow]
      split
      · rename_i hmet
        simp [hmet]
      · rename_i hmet
        simp [hmet, hclosed, hshutdown]
    | state state =>
      have hending : Wake.ending limit (taken wakes).length (.state state) ≠ .done := by
        cases state <;> exact nofun
      simpa [Wake.frame?, hclosed, hshutdown, hending] using
        fun n hlimit heq => hnot ⟨n, hlimit, heq⟩
    | closed | shutdown => simp [Wake.ending]
  · rw [hfollow, List.mem_append, List.mem_singleton]
    cases wake with
    | frame frame =>
      simp only [Wake.ending]
      split <;> simp [hfailed]
    | state state =>
      cases state with
      | failed other => simp [Wake.ending, hfailed, eq_comm]
      | idle | running | stopped => simp [Wake.ending, hfailed]
    | closed | shutdown => simp [Wake.ending, hfailed]

end CanTransport.Probe
