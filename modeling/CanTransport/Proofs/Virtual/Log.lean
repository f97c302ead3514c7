import Mathlib.Algebra.BigOperators.Group.List.Basic
import Mathlib.Data.UInt
import CanTransport.Bus.Operation
import CanTransport.Proofs.Bus.Turns
import CanTransport.Proofs.Virtual.Hub
/-!
# What is said on a channel

The frames that were put into the queue of a channel, and what a receiver got of them: some of them
in their order, and between them gaps that it was told of. A receiver begins where the channel was
when it took its position.
-/

namespace CanTransport

/-- A frame that was put into the queue of a channel. -/
structure Said where
  /-- The bus that sent it. -/
  sender : Nat
  /-- The send, by its number on that bus. -/
  call : OperationId
  origin : Nat
  frame : Frame
  /-- The buses that were not connected at that moment. -/
  absent : List Nat
deriving DecidableEq

def Said.envelope (s : Said) : Envelope := { origin := s.origin, raw := s.frame.encode }

namespace Queue.Receipt

/-- How many messages a receiver is told to have missed. -/
def lost : Receipt → Nat
  | .missed count => count
  | _ => 0

/-- Whether it is a message of a bus. -/
def isFrom (origin : Nat) : Receipt → Bool
  | .message envelope => envelope.origin == origin
  | _ => false

end Queue.Receipt

/-- What a receiver that began at `since` got, the entries among it, and its position then. -/
inductive Reads (said : List Said) (since : Nat) :
    List Queue.Receipt → List Said → Nat → Prop where
  | begin (hle : since ≤ said.length) : Reads said since [] [] since
  | message {receipts : List Queue.Receipt} {taken : List Said} {position : Nat} {s : Said}
      (h : Reads said since receipts taken position) (hnext : said[position]? = some s) :
      Reads said since (receipts ++ [.message s.envelope]) (taken ++ [s]) (position + 1)
  | missed {receipts : List Queue.Receipt} {taken : List Said} {position count : Nat}
      (h : Reads said since receipts taken position) (hle : position + count ≤ said.length) :
      Reads said since (receipts ++ [.missed count]) taken (position + count)

namespace Reads

variable {said more : List Said} {since position : Nat} {receipts : List Queue.Receipt}
  {taken : List Said}

/-- What is said later changes nothing of what was read. -/
theorem append (h : Reads said since receipts taken position) (more : List Said) :
    Reads (said ++ more) since receipts taken position := by
  have hlength : said.length ≤ (said ++ more).length := by
    rw [List.length_append]
    exact Nat.le_add_right _ _
  induction h with
  | begin hle => exact .begin (hle.trans hlength)
  | message _ hnext ih =>
    refine .message ih ?_
    rw [List.getElem?_append_left (List.getElem?_eq_some_iff.mp hnext).1]
    exact hnext
  | missed _ hle ih => exact .missed ih (hle.trans hlength)

theorem position_le (h : Reads said since receipts taken position) : position ≤ said.length := by
  cases h with
  | begin hle => exact hle
  | message _ hnext => exact (List.getElem?_eq_some_iff.mp hnext).1
  | missed _ hle => exact hle

/-- Every position that was passed is accounted for. -/
theorem balance (h : Reads said since receipts taken position) :
    taken.length + (receipts.map Queue.Receipt.lost).sum + since = position := by
  induction h with
  | begin => exact Nat.zero_add _
  | message _ _ ih =>
    simp only [List.map_append, List.sum_append, List.length_append, List.map_cons, List.map_nil,
      List.sum_cons, List.sum_nil, List.length_cons, List.length_nil, Queue.Receipt.lost]
    omega
  | missed _ _ ih =>
    simp only [List.map_append, List.sum_append, List.map_cons, List.map_nil, List.sum_cons,
      List.sum_nil, Queue.Receipt.lost]
    omega

theorem since_le (h : Reads said since receipts taken position) : since ≤ position := by
  have hbalance := h.balance
  omega

/-- What was passed with one entry more. -/
theorem passed_succ {s : Said} (hsince : since ≤ position) (hnext : said[position]? = some s) :
    (said.take (position + 1)).drop since = (said.take position).drop since ++ [s] := by
  obtain ⟨hlt, hs⟩ := List.getElem?_eq_some_iff.mp hnext
  have hlength : since ≤ (said.take position).length := by
    rw [List.length_take]
    omega
  rw [List.take_add_one, hnext, Option.toList_some, List.drop_append_of_le_length hlength]

/-- The entries were read in their order, each of them once. -/
theorem sublist_take (h : Reads said since receipts taken position) :
    taken.Sublist ((said.take position).drop since) := by
  induction h with
  | begin => exact List.nil_sublist _
  | message h hnext ih =>
    rw [passed_succ h.since_le hnext]
    exact ih.append (List.Sublist.refl _)
  | missed _ _ ih =>
    refine ih.trans (List.Sublist.drop ?_ _)
    exact (List.take_prefix_take_left (Nat.le_add_right _ _)).sublist

theorem sublist (h : Reads said since receipts taken position) :
    taken.Sublist (said.drop since) :=
  h.sublist_take.trans ((List.take_sublist _ _).drop _)

/-- Without a gap every entry was read. -/
theorem eq_drop (h : Reads said since receipts taken position)
    (hnone : (receipts.map Queue.Receipt.lost).sum = 0) (hend : position = said.length) :
    taken = said.drop since := by
  refine h.sublist.eq_of_length ?_
  have hbalance := h.balance
  rw [List.length_drop]
  omega

/-- The messages of a bus among what was read. -/
theorem countP_isFrom (h : Reads said since receipts taken position) (origin : Nat) :
    receipts.countP (Queue.Receipt.isFrom origin) = taken.countP (·.origin == origin) := by
  induction h with
  | begin => rfl
  | message _ _ ih =>
    rw [List.countP_append, List.countP_append, ih]
    rfl
  | missed _ _ ih =>
    rw [List.countP_append, ih]
    rfl

end Reads

/-! ## Connections as listeners -/

/-- A connection, as far as it listens: what its task got and what became of it. -/
structure Attendance where
  task : ReceiverId
  /-- How much had been said when the position was taken. -/
  since : Nat
  /-- What the queue gave, in order. -/
  receipts : List Queue.Receipt := []
  /-- The frames that were handed to the listener, in order. -/
  frames : List Frame := []
  /-- What was added to the count of dropped frames. -/
  dropped : UInt64 := 0

/-- Whether a bus is to hear of an entry. -/
def Bus.hears (b : Bus) (s : Said) : Bool := b.config.receiveOwnMessages || s.origin != b.origin

namespace Attendance

/-- How many messages the task was told to have missed. -/
def missed (a : Attendance) : Nat := (a.receipts.map Queue.Receipt.lost).sum

/-- The messages that were kept from the listener because the bus had sent them. -/
def skipped (b : Bus) (a : Attendance) : Nat :=
  if b.config.receiveOwnMessages then 0 else a.receipts.countP (Queue.Receipt.isFrom b.origin)

/-- What a connection has come to, whose task has passed `position` entries and has a frame at hand
or none. -/
structure Follows (b : Bus) (away : Said → Prop) (said : List Said) (position : Nat)
    (pending : Option Frame) (a : Attendance) : Prop where
  reads : ∃ taken, Reads said a.since a.receipts taken position ∧
    a.frames ++ pending.toList = (taken.filter b.hears).map Said.frame ∧ ∀ s ∈ taken, ¬ away s
  dropped_eq : a.dropped = UInt64.ofNat a.missed

variable {b b' : Bus} {away : Said → Prop} {said : List Said} {position : Nat}
  {pending : Option Frame} {a : Attendance}

theorem follows_begin {task : ReceiverId} {since : Nat} (h : since ≤ said.length) :
    Follows b away said since none { task, since } :=
  ⟨⟨[], .begin h, rfl, nofun⟩, rfl⟩

theorem Follows.congr (h : a.Follows b away said position pending)
    (hconfig : b'.config = b.config) (horigin : b'.origin = b.origin) :
    a.Follows b' away said position pending := by
  have hhears : b'.hears = b.hears := by
    funext s
    rw [Bus.hears, Bus.hears, hconfig, horigin]
  exact ⟨hhears ▸ h.reads, h.dropped_eq⟩

theorem Follows.append (h : a.Follows b away said position pending) (more : List Said) :
    a.Follows b away (said ++ more) position pending := by
  obtain ⟨taken, hreads, hframes, hpresent⟩ := h.reads
  exact ⟨⟨taken, hreads.append more, hframes, hpresent⟩, h.dropped_eq⟩

theorem Follows.message {s : Said} (h : a.Follows b away said position none)
    (hnext : said[position]? = some s) (haway : ¬ away s) :
    Follows b away said (position + 1) (if b.hears s then some s.frame else none)
      { a with receipts := a.receipts ++ [.message s.envelope] } := by
  obtain ⟨taken, hreads, hframes, hpresent⟩ := h.reads
  refine ⟨⟨taken ++ [s], hreads.message hnext, ?_, ?_⟩, ?_⟩
  · rw [Option.toList_none, List.append_nil] at hframes
    rw [List.filter_append, List.map_append, ← hframes, List.filter_singleton]
    cases b.hears s with
    | true => rfl
    | false => rfl
  · intro other hother
    rcases List.mem_append.mp hother with hold | hnew
    · exact hpresent other hold
    · cases List.mem_singleton.mp hnew
      exact haway
  · rw [h.dropped_eq, missed, missed, List.map_append, List.sum_append]
    rfl

theorem Follows.missing {count : Nat} (h : a.Follows b away said position none)
    (hle : position + count ≤ said.length) :
    Follows b away said (position + count) none { a with
      receipts := a.receipts ++ [.missed count]
      dropped := a.dropped + UInt64.ofNat count } := by
  obtain ⟨taken, hreads, hframes, hpresent⟩ := h.reads
  refine ⟨⟨taken, hreads.missed hle, hframes, hpresent⟩, ?_⟩
  show a.dropped + UInt64.ofNat count = UInt64.ofNat (missed _)
  rw [h.dropped_eq, ← UInt64.ofNat_add, missed, missed, List.map_append, List.sum_append]
  rfl

theorem Follows.told {frame : Frame} (h : a.Follows b away said position (some frame)) :
    Follows b away said position none { a with frames := a.frames ++ [frame] } := by
  obtain ⟨taken, hreads, hframes, hpresent⟩ := h.reads
  refine ⟨⟨taken, hreads, ?_, hpresent⟩, h.dropped_eq⟩
  rw [Option.toList_none, List.append_nil]
  exact hframes

/-! ### What was handed to the listener -/

/-- In order, each of them once, and only such as were said while the bus was connected. -/
theorem Follows.sublist [DecidablePred away] (h : a.Follows b away said position pending) :
    a.frames.Sublist
      (((said.drop a.since).filter fun s => b.hears s && !away s).map Said.frame) := by
  obtain ⟨taken, hreads, hframes, hpresent⟩ := h.reads
  have hfilter : taken.filter b.hears = taken.filter fun s => b.hears s && !away s := by
    apply List.filter_congr
    intro s hs
    simp [hpresent s hs]
  rw [hfilter] at hframes
  refine (List.sublist_append_left a.frames pending.toList).trans ?_
  rw [hframes]
  exact (hreads.sublist.filter _).map _

/-- All that was said, if nothing was missed and nothing is left. -/
theorem Follows.frames_eq (h : a.Follows b away said position none) (hend : position = said.length)
    (hnone : a.missed = 0) :
    a.frames = ((said.drop a.since).filter b.hears).map Said.frame := by
  obtain ⟨taken, hreads, hframes, -⟩ := h.reads
  rw [hreads.eq_drop hnone hend, Option.toList_none, List.append_nil] at hframes
  exact hframes

theorem length_filter_hears (b : Bus) (l : List Said) :
    (l.filter b.hears).length +
      (if b.config.receiveOwnMessages then 0 else l.countP (·.origin == b.origin)) = l.length := by
  unfold Bus.hears
  by_cases hown : b.config.receiveOwnMessages = true
  · simp [hown]
  · have hcount := List.length_eq_countP_add_countP (fun s : Said => s.origin != b.origin) (l := l)
    simp only [hown, Bool.false_or, Bool.false_eq_true, if_false, ← List.countP_eq_length_filter]
    rw [hcount]
    exact congrArg _ (List.countP_congr fun s _ => by simp)

/-- What was handed on, skipped or missed is what was passed. -/
theorem Follows.balance (h : a.Follows b away said position none) :
    a.frames.length + a.skipped b + a.missed + a.since = position := by
  obtain ⟨taken, hreads, hframes, -⟩ := h.reads
  have hlength : a.frames.length = (taken.filter b.hears).length := by
    rw [Option.toList_none, List.append_nil] at hframes
    rw [hframes, List.length_map]
  have hskipped : a.frames.length + a.skipped b = taken.length := by
    rw [hlength, skipped, hreads.countP_isFrom]
    exact length_filter_hears b taken
  rw [hskipped]
  exact hreads.balance

end Attendance

end CanTransport
