import CanTransport.Probe.Run
import CanTransport.Proofs.Bus.Courses
/-!
# Errands

What a command of the probe does with its bus: one call after the other, each chosen by what the
calls before it have reported, with pauses between. The errand of a repeated send counts in a
number of 32 bits. It is the one that the probe runs in a session, and whatever its calls report,
it connects first, sends until its number is reached or a send fails, and disconnects at last.
-/

namespace CanTransport.Probe

/-- What a command has still to do with its bus. -/
inductive Errand where
  /-- Calls the bus, and goes on as the call reports. -/
  | call (request : Request) (next : Except Error Unit → Errand)
  | pause (ms : Nat) (next : Errand)
  | ended (result : Result)
  /-- A number has become too large for its type. -/
  | overflow

/-- A call that has returned, with what has left the bus meanwhile. -/
structure Call where
  request : Request
  parcels : List Parcel
  outcome : Except Error Unit

/-- A connect that succeeded. -/
def Call.Connects (c : Call) : Prop := c.request = .connect ∧ c.outcome = .ok ()

namespace Errand

/-- What an errand comes to in a session. -/
def inSession : Errand → Session → Option Result
  | call request next, s =>
    let (outcome, s) := s.request probed request
    (next outcome).inSession s
  | pause ms next, s => next.inSession (s.settle ms)
  | ended result, _ => some result
  | overflow, _ => none

/-- Whether a session sees every call of an errand through: it may have given up one that reports
that the bus is not connected. -/
def Completes : Errand → Session → Prop
  | call request next, s =>
    (s.request probed request).1 ≠ .error .notConnected ∧
      (next (s.request probed request).1).Completes (s.request probed request).2
  | pause ms next, s => next.Completes (s.settle ms)
  | ended _, _ => True
  | overflow, _ => True

instance decidableCompletes : (e : Errand) → (s : Session) → Decidable (e.Completes s)
  | call request next, s =>
    @instDecidableAnd _ _ _ (decidableCompletes (next (s.request probed request).1) _)
  | pause ms next, s => decidableCompletes next (s.settle ms)
  | ended _, _ => isTrue trivial
  | overflow, _ => isTrue trivial

/-- What is left of an errand after some calls have returned. -/
inductive Leads (e : Errand) : List Call → Errand → Prop where
  | nothing : Leads e [] e
  | paused {calls : List Call} {ms : Nat} {next : Errand} (h : Leads e calls (.pause ms next)) :
      Leads e calls next
  | called {calls : List Call} {request : Request} {next : Except Error Unit → Errand} {c : Call}
      (h : Leads e calls (.call request next)) (hrequest : c.request = request) :
      Leads e (calls ++ [c]) (next c.outcome)

end Errand

/-- A frame that is to be sent a number of times, with pauses between. -/
structure Repetition where
  frame : Frame
  times : UInt32
  interval : Nat
  channel : String
  colors : Bool

namespace Repetition

/-- The line that says that all was sent. -/
def line (p : Repetition) : String :=
  styled p.colors .green "sent" ++ " " ++ p.frame.text ++ " x" ++ Text.decimal p.times.toNat ++
    " on " ++ p.channel ++ "\n"

/-- What is printed, from how the sends ended. -/
def stdout (p : Repetition) : Except Error Unit → String
  | .ok () => p.line
  | .error _ => ""

/-- What a run comes to, from how the sends and the disconnect ended. -/
def result (p : Repetition) (sent : Except Error Unit) : Except Error Unit → Result
  | .error e => .failed (p.stdout sent) e.chain
  | .ok () =>
    match sent with
    | .error e => .failed (p.stdout sent) (("Failed to send " ++ p.frame.text) :: e.chain)
    | .ok () => { stdout := p.stdout sent }

def leave (p : Repetition) (sent : Except Error Unit) : Errand :=
  .call .disconnect fun left => .ended (p.result sent left)

/-- The next index, if there is one. -/
def next? (i : UInt32) : Option UInt32 := if i.toNat + 1 < UInt32.size then some (i + 1) else none

theorem next?_eq_some {i j : UInt32} (h : next? i = some j) : j.toNat = i.toNat + 1 := by
  rw [next?] at h
  split at h
  · rename_i hlt
    obtain rfl := Option.some.inj h
    rw [UInt32.toNat_add, UInt32.toNat_one, Nat.mod_eq_of_lt hlt]
  · cases h

/-- There is an index behind each one below a bound. -/
theorem exists_next? {i n : UInt32} (h : i < n) : ∃ j, next? i = some j := by
  have hlt := UInt32.lt_iff_toNat_lt.mp h
  have hn := n.toNat_lt
  exact ⟨i + 1, if_pos (by simp only [UInt32.size]; omega)⟩

/-- The sends from an index on. -/
def sends (p : Repetition) (i : UInt32) : Errand :=
  if _hlt : i < p.times then
    .call (.send p.frame) fun
      | .error e => p.leave (.error e)
      | .ok () =>
        match _hnext : next? i with
        | none => .overflow
        | some j => if j < p.times ∧ 0 < p.interval then .pause p.interval (p.sends j) else p.sends j
  else p.leave (.ok ())
termination_by p.times.toNat - i.toNat
decreasing_by
  all_goals
    have hi := UInt32.lt_iff_toNat_lt.mp _hlt
    have hj := next?_eq_some _hnext
    omega

def errand (p : Repetition) : Errand :=
  .call .connect fun
    | .error e => .ended (.failed "" e.chain)
    | .ok () => p.sends 0

variable {p : Repetition} {i j : UInt32}

theorem sends_of_lt (hlt : i < p.times) (hnext : next? i = some j) : p.sends i =
    .call (.send p.frame) fun
      | .error e => p.leave (.error e)
      | .ok () =>
        if j < p.times ∧ 0 < p.interval then .pause p.interval (p.sends j) else p.sends j := by
  rw [sends, dif_pos hlt]
  congr 1
  funext outcome
  cases outcome with
  | error e => rfl
  | ok done =>
    cases done
    simp only
    split
    · rename_i hnone
      rw [hnone] at hnext
      cases hnext
    · rename_i j' hsome
      cases hsome.symm.trans hnext
      rfl

theorem sends_of_le (hle : ¬ i < p.times) : p.sends i = p.leave (.ok ()) := by
  rw [sends, dif_neg hle]

/-! ## In a session -/

theorem inSession_sends {k : Nat} (h : i.toNat + k = p.times.toNat) (s : Session) :
    (p.sends i).inSession s = (p.leave (sendAll p.frame p.interval k s).1).inSession
      (sendAll p.frame p.interval k s).2 := by
  induction k generalizing i s with
  | zero =>
    have hle : ¬ i < p.times := fun hlt => by
      have := UInt32.lt_iff_toNat_lt.mp hlt
      omega
    rw [sends_of_le hle]
    rfl
  | succ k ih =>
    have hlt : i < p.times := UInt32.lt_iff_toNat_lt.mpr (by omega)
    obtain ⟨j, hnext⟩ := exists_next? hlt
    have hj := next?_eq_some hnext
    have hpause : (j < p.times ∧ 0 < p.interval) ↔ (0 < k ∧ 0 < p.interval) := by
      rw [UInt32.lt_iff_toNat_lt]
      omega
    rw [sends_of_lt hlt hnext, Errand.inSession, sendAll]
    rcases hsent : s.request probed (.send p.frame) with ⟨outcome, t⟩
    cases outcome with
    | error e => rfl
    | ok done =>
      cases done
      simp only
      by_cases hpauses : 0 < k ∧ 0 < p.interval
      · rw [if_pos (hpause.mpr hpauses), if_pos hpauses, Errand.inSession]
        exact ih (by omega) _
      · rw [if_neg (fun h => hpauses (hpause.mp h)), if_neg hpauses]
        exact ih (by omega) _

/-- The errand is what the probe does. -/
theorem inSession_errand (p : Repetition) (s : Session) : p.errand.inSession s =
    some (runSend p.colors p.channel p.frame p.times.toNat p.interval s) := by
  rw [errand, Errand.inSession, runSend]
  rcases hconnect : s.request probed .connect with ⟨outcome, t⟩
  cases outcome with
  | error e => rfl
  | ok done =>
    cases done
    simp only
    rw [inSession_sends (Nat.zero_add _) t]
    rcases hsent : sendAll p.frame p.interval p.times.toNat t with ⟨sent, u⟩
    rw [leave, Errand.inSession]
    rcases u.request probed .disconnect with ⟨_ | _, v⟩ <;> cases sent <;> rfl

/-! ## Whatever the calls report -/

/-- Whether calls are sends of the frame that were accepted. -/
def Accepted (p : Repetition) (calls : List Call) : Prop :=
  ∀ c ∈ calls, c.request = .send p.frame ∧ c.outcome = .ok ()

/-- Sends that have returned, and how they ended: all of them were accepted, or the last one failed
and there was no other. -/
inductive Sent (p : Repetition) : List Call → Except Error Unit → Prop where
  | all {calls : List Call} (haccepted : p.Accepted calls) (hlength : calls.length = p.times.toNat) :
      Sent p calls (.ok ())
  | failed {calls : List Call} {last : Call} {e : Error} (haccepted : p.Accepted calls)
      (hlength : calls.length < p.times.toNat) (hrequest : last.request = .send p.frame)
      (houtcome : last.outcome = .error e) : Sent p (calls ++ [last]) (.error e)

/-- Where the errand of a repeated send can be. -/
inductive Stands (p : Repetition) : List Call → Errand → Prop where
  | connecting : Stands p [] p.errand
  | refused {c : Call} {e : Error} (hrequest : c.request = .connect)
      (houtcome : c.outcome = .error e) : Stands p [c] (.ended (.failed "" e.chain))
  | sending {c : Call} {calls : List Call} {i : UInt32} (hconnects : c.Connects)
      (haccepted : p.Accepted calls) (hlength : calls.length = i.toNat)
      (hle : i.toNat ≤ p.times.toNat) : Stands p (c :: calls) (p.sends i)
  | pausing {c : Call} {calls : List Call} {i : UInt32} (hconnects : c.Connects)
      (haccepted : p.Accepted calls) (hlength : calls.length = i.toNat)
      (hle : i.toNat ≤ p.times.toNat) : Stands p (c :: calls) (.pause p.interval (p.sends i))
  | leaving {c : Call} {calls : List Call} {sent : Except Error Unit} (hconnects : c.Connects)
      (hsent : p.Sent calls sent) : Stands p (c :: calls) (p.leave sent)
  | left {c last : Call} {calls : List Call} {sent : Except Error Unit} (hconnects : c.Connects)
      (hsent : p.Sent calls sent) (hlast : last.request = .disconnect) :
      Stands p (c :: calls ++ [last]) (.ended (p.result sent last.outcome))

variable {c : Call} {calls : List Call} {e : Errand} {sent : Except Error Unit} {request : Request}
  {next : Except Error Unit → Errand}

theorem Accepted.concat (h : p.Accepted calls) (hrequest : c.request = .send p.frame)
    (houtcome : c.outcome = .ok ()) : p.Accepted (calls ++ [c]) := by
  intro d hd
  rcases List.mem_append.mp hd with hold | hnew
  · exact h d hold
  · rw [List.mem_singleton.mp hnew]
    exact ⟨hrequest, houtcome⟩

theorem stands_leave {first : Call} (hconnects : first.Connects) (hsent : p.Sent calls sent)
    (hcall : p.leave sent = .call request next) (hrequest : c.request = request) :
    p.Stands (first :: calls ++ [c]) (next c.outcome) := by
  cases hcall
  exact .left hconnects hsent hrequest

theorem stands_sends {first : Call} (hconnects : first.Connects) (haccepted : p.Accepted calls)
    (hlength : calls.length = i.toNat) (hle : i.toNat ≤ p.times.toNat)
    (hcall : p.sends i = .call request next) (hrequest : c.request = request) :
    p.Stands (first :: calls ++ [c]) (next c.outcome) := by
  by_cases hlt : i < p.times
  · obtain ⟨j, hnext⟩ := exists_next? hlt
    have hj := next?_eq_some hnext
    have hi := UInt32.lt_iff_toNat_lt.mp hlt
    rw [sends_of_lt hlt hnext] at hcall
    cases hcall
    cases houtcome : c.outcome with
    | error e => exact .leaving hconnects (.failed haccepted (by omega) hrequest houtcome)
    | ok done =>
      cases done
      have haccepted' := haccepted.concat hrequest houtcome
      have hlength' : (calls ++ [c]).length = j.toNat := by
        rw [List.length_append, List.length_singleton]
        omega
      simp only
      split
      · exact .pausing hconnects haccepted' hlength' (by omega)
      · exact .sending hconnects haccepted' hlength' (by omega)
  · rw [sends_of_le hlt] at hcall
    rw [UInt32.lt_iff_toNat_lt] at hlt
    exact stands_leave hconnects (.all haccepted (by omega)) hcall hrequest

/-- Whatever its calls report, an errand is nowhere else. -/
theorem stands_of_leads (h : p.errand.Leads calls e) : p.Stands calls e := by
  induction h with
  | nothing => exact .connecting
  | paused _ ih =>
    generalize hpause : Errand.pause _ _ = paused at ih
    cases ih with
    | pausing hconnects haccepted hlength hle =>
      cases hpause
      exact .sending hconnects haccepted hlength hle
    | sending =>
      rw [sends] at hpause
      split at hpause <;> cases hpause
    | connecting | refused | leaving | left => cases hpause
  | @called calls request next c _ hrequest ih =>
    generalize hcall : Errand.call request next = calling at ih
    cases ih with
    | connecting =>
      cases hcall
      cases houtcome : c.outcome with
      | error e => exact .refused hrequest houtcome
      | ok done =>
        cases done
        exact .sending (i := 0) ⟨hrequest, houtcome⟩ (List.forall_mem_nil _) rfl (Nat.zero_le _)
    | sending hconnects haccepted hlength hle =>
      exact stands_sends hconnects haccepted hlength hle hcall.symm hrequest
    | leaving hconnects hsent => exact stands_leave hconnects hsent hcall.symm hrequest
    | refused | pausing | left => cases hcall

/-- The index never becomes too large. -/
theorem Stands.ne_overflow (h : p.Stands calls e) : e ≠ .overflow := by
  rintro rfl
  generalize hoverflow : Errand.overflow = overflowed at h
  cases h with
  | sending =>
    rw [sends] at hoverflow
    split at hoverflow <;> cases hoverflow
  | connecting | refused | pausing | leaving | left => cases hoverflow

/-- An errand that has come to its end was refused, or has disconnected after its sends. -/
theorem Stands.of_ended {result : Result} (h : p.Stands calls (.ended result)) :
    (∃ c e, calls = [c] ∧ c.request = .connect ∧ c.outcome = .error e ∧
      result = .failed "" e.chain) ∨
    ∃ first sends last sent, calls = first :: sends ++ [last] ∧ first.Connects ∧
      p.Sent sends sent ∧ last.request = .disconnect ∧ result = p.result sent last.outcome := by
  generalize hended : Errand.ended result = ended at h
  cases h with
  | refused hrequest houtcome =>
    cases hended
    exact Or.inl ⟨_, _, rfl, hrequest, houtcome, rfl⟩
  | left hconnects hsent hlast =>
    cases hended
    exact Or.inr ⟨_, _, _, _, rfl, hconnects, hsent, hlast, rfl⟩
  | sending =>
    rw [sends] at hended
    split at hended <;> cases hended
  | connecting | pausing | leaving => cases hended

theorem Sent.request_eq (h : p.Sent calls sent) : ∀ c ∈ calls, c.request = .send p.frame := by
  cases h with
  | all haccepted => exact fun c hc => (haccepted c hc).1
  | failed haccepted _ hrequest =>
    intro c hc
    rcases List.mem_append.mp hc with hold | hlast
    · exact (haccepted c hold).1
    · rw [List.mem_singleton.mp hlast]
      exact hrequest

/-- The sends end with an error if there is one among them, and then with that. -/
theorem Sent.error_iff (h : p.Sent calls sent) (e : Error) :
    sent = .error e ↔ ∃ c ∈ calls, c.outcome = .error e := by
  cases h with
  | all haccepted =>
    refine ⟨nofun, fun ⟨c, hc, houtcome⟩ => ?_⟩
    cases (haccepted c hc).2.symm.trans houtcome
  | @failed calls last e' haccepted _ _ hlast =>
    constructor
    · rintro ⟨⟩
      exact ⟨last, List.mem_append_right _ (List.mem_singleton_self last), hlast⟩
    · rintro ⟨c, hc, houtcome⟩
      rcases List.mem_append.mp hc with hold | hnew
      · cases (haccepted c hold).2.symm.trans houtcome
      · rw [List.mem_singleton.mp hnew] at houtcome
        exact hlast.symm.trans houtcome

theorem Sent.ok_iff (h : p.Sent calls sent) :
    sent = .ok () ↔ ∀ c ∈ calls, c.outcome = .ok () := by
  constructor
  · rintro rfl c hc
    cases houtcome : c.outcome with
    | ok _ => rfl
    | error e => cases (h.error_iff e).mpr ⟨c, hc, houtcome⟩
  · intro hall
    cases sent with
    | ok _ => rfl
    | error e =>
      obtain ⟨c, hc, houtcome⟩ := (h.error_iff e).mp rfl
      cases (hall c hc).symm.trans houtcome

/-! ## What is printed -/

theorem line_ne_empty (p : Repetition) : p.line ≠ "" := by
  intro h
  have hchars := congrArg String.toList h
  simp [line] at hchars

theorem stdout_result (sent left : Except Error Unit) : (p.result sent left).stdout = p.stdout sent := by
  cases left with
  | error e => rfl
  | ok _ => cases sent <;> rfl

theorem stdout_eq_line_iff : p.stdout sent = p.line ↔ sent = .ok () := by
  cases sent with
  | error e => exact ⟨fun h => absurd h.symm p.line_ne_empty, nofun⟩
  | ok _ => exact ⟨fun _ => rfl, fun _ => rfl⟩

theorem stdout_eq_empty_iff : p.stdout sent = "" ↔ sent ≠ .ok () := by
  cases sent with
  | error e => exact ⟨fun _ => nofun, fun _ => rfl⟩
  | ok _ => exact ⟨fun h => absurd h p.line_ne_empty, fun h => absurd rfl h⟩

theorem code_result_eq_zero_iff (sent left : Except Error Unit) :
    (p.result sent left).code = 0 ↔ sent = .ok () ∧ left = .ok () := by
  cases left with
  | error e => exact ⟨nofun, fun h => nomatch h.2⟩
  | ok _ =>
    cases sent with
    | error e => exact ⟨nofun, fun h => nomatch h.1⟩
    | ok _ => exact ⟨fun _ => ⟨rfl, rfl⟩, fun _ => rfl⟩

/-! ## How many sends there are -/

/-- The position of the first of `n` answers that is a failure, counted from one; `n` if there is
none. -/
def firstFailure (answers : Nat → Except Error Unit) (n : Nat) : Nat :=
  match (List.range n).find? fun k => !(answers k).isOk with
  | some k => k + 1
  | none => n

/-- The sends end with the first that fails. -/
theorem Sent.length_eq (h : p.Sent calls sent) {answers : Nat → Except Error Unit}
    (hanswers : calls.map Call.outcome = (List.range calls.length).map answers) :
    calls.length = min p.times.toNat (firstFailure answers p.times.toNat) := by
  have hanswer : ∀ k (hk : k < calls.length), answers k = calls[k].outcome := by
    intro k hk
    have hk' : k < (calls.map Call.outcome).length := by rwa [List.length_map]
    have heq := List.getElem_of_eq hanswers hk'
    simpa using heq.symm
  cases h with
  | all haccepted hlength =>
    have hnone : (List.range p.times.toNat).find? (fun k => !(answers k).isOk) = none := by
      rw [List.find?_range_eq_none]
      intro k hk
      rw [hanswer k (by omega), (haccepted _ (List.getElem_mem _)).2]
      rfl
    rw [firstFailure, hnone, Nat.min_self]
    exact hlength
  | @failed calls last e haccepted hlength hrequest houtcome =>
    have hsome : (List.range p.times.toNat).find? (fun k => !(answers k).isOk) =
        some calls.length := by
      rw [List.find?_range_eq_some]
      refine ⟨?_, List.mem_range.mpr hlength, fun k hk => ?_⟩
      · rw [hanswer _ (by simp), List.getElem_concat_length rfl, houtcome]
        rfl
      · rw [hanswer k (by simp; omega), List.getElem_append_left hk,
          (haccepted _ (List.getElem_mem hk)).2]
        rfl
    rw [firstFailure, hsome, List.length_append, List.length_singleton]
    exact (Nat.min_eq_right hlength).symm

end Repetition

end CanTransport.Probe
