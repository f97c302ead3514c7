import CanTransport.Proofs.Bus.Audience
import CanTransport.Proofs.Virtual.Delivery
/-!
# What an overrun counts

A task that fell too far behind is told how many messages it missed, but not whose they were. So it
counts among the dropped frames those of its own bus as well, which it would have kept from the
listener had it read them. How far the counters of a connection come out above what the other buses
said follows from the entries that were overwritten before they were read.
-/

namespace CanTransport

/-- How many entries a receiver passes with what it is given. -/
def Queue.Receipt.width : Receipt → Nat
  | .message _ => 1
  | .missed count => count
  | .closed | .nothing => 0

/-- The entries of which a receiver was told that it missed them, if it was at a position before. -/
def overwritten (said : List Said) : Nat → List Queue.Receipt → List Said
  | _, [] => []
  | position, .missed count :: rest =>
    (said.drop position).take count ++ overwritten said (position + count) rest
  | position, receipt :: rest => overwritten said (position + receipt.width) rest

/-- The entries between two positions. -/
def passed (said : List Said) (since position : Nat) : List Said := (said.take position).drop since

/-- How many entries are of the bus with a number. -/
def ownCount (i : Nat) (entries : List Said) : Nat := entries.countP fun s => s.sender == i

/-- How many entries are of other buses than the one with a number. -/
def otherCount (i : Nat) (entries : List Said) : Nat := entries.countP fun s => s.sender != i

variable {said : List Said} {since position later : Nat} {receipts : List Queue.Receipt}
  {taken : List Said}

theorem overwritten_append (position : Nat) (receipts more : List Queue.Receipt) :
    overwritten said position (receipts ++ more) = overwritten said position receipts ++
      overwritten said (position + (receipts.map Queue.Receipt.width).sum) more := by
  induction receipts generalizing position with
  | nil => rfl
  | cons receipt rest ih =>
    rw [List.cons_append, List.map_cons, List.sum_cons, ← Nat.add_assoc]
    cases receipt with
    | missed count =>
      simp only [overwritten, ih, List.append_assoc]
      rfl
    | message | closed | nothing => exact ih _

theorem passed_eq (said : List Said) (since position : Nat) :
    passed said since position = (said.drop since).take (position - since) := List.drop_take

theorem passed_append (hsince : since ≤ position) (hlater : position ≤ later) :
    passed said since later = passed said since position ++ passed said position later := by
  have hsplit : later - since = (position - since) + (later - position) := by omega
  rw [passed_eq, passed_eq, passed_eq, hsplit, List.take_add, List.drop_drop,
    Nat.add_sub_cancel' hsince]

theorem ownCount_add_otherCount (i : Nat) (entries : List Said) :
    ownCount i entries + otherCount i entries = entries.length := by
  rw [List.length_eq_countP_add_countP (fun s : Said => s.sender == i) (l := entries), ownCount,
    otherCount]
  exact congrArg _ (List.countP_congr fun s _ => by simp)

theorem otherCount_append (i : Nat) (entries more : List Said) :
    otherCount i (entries ++ more) = otherCount i entries + otherCount i more :=
  List.countP_append

/-- What a receiver got accounts for its position. -/
theorem Reads.position_eq (h : Reads said since receipts taken position) :
    since + (receipts.map Queue.Receipt.width).sum = position := by
  induction h with
  | begin => rfl
  | message _ _ ih | missed _ _ ih =>
    rw [List.map_append, List.sum_append, ← Nat.add_assoc, ih]
    rfl

/-- Every entry that was passed was read or overwritten, and none was both. -/
theorem Reads.perm_passed (h : Reads said since receipts taken position) :
    (taken ++ overwritten said since receipts).Perm (passed said since position) := by
  induction h with
  | begin => rw [passed, List.drop_eq_nil_of_le (by rw [List.length_take]; omega)]; rfl
  | @message receipts taken position s h hnext ih =>
    rw [overwritten_append, passed, passed_succ h.since_le hnext, List.append_assoc]
    show (taken ++ ([s] ++ (overwritten said since receipts ++ []))).Perm _
    rw [List.append_nil]
    exact (List.perm_append_comm.append_left taken).trans
      (by rw [← List.append_assoc]; exact ih.append_right [s])
  | @missed receipts taken position count h hle ih =>
    have hgap : overwritten said position [.missed count] =
        passed said position (position + count) := by
      rw [passed_eq, Nat.add_sub_cancel_left]
      exact List.append_nil _
    rw [overwritten_append, h.position_eq, hgap, ← List.append_assoc,
      passed_append h.since_le (Nat.le_add_right _ _)]
    exact ih.append_right _

/-- The entries that were overwritten are as many as the receiver was told. -/
theorem Reads.length_overwritten (h : Reads said since receipts taken position) :
    (overwritten said since receipts).length = (receipts.map Queue.Receipt.lost).sum := by
  have hlength := h.perm_passed.length_eq
  rw [List.length_append, passed, List.length_drop, List.length_take,
    Nat.min_eq_left h.position_le] at hlength
  have hbalance := h.balance
  omega

namespace Attendance

/-- The entries of which the task of a connection was told that it missed them. -/
def overrun (said : List Said) (a : Attendance) : List Said := overwritten said a.since a.receipts

variable {b : Bus} {away : Said → Prop} {pending : Option Frame} {a : Attendance} {i : Nat}

/-- Whatever concerns the listener and was passed was handed on, is at hand, or was overwritten. -/
theorem Follows.countP_hears (h : a.Follows b away said position pending) :
    a.frames.length + pending.toList.length + (a.overrun said).countP b.hears =
      (passed said a.since position).countP b.hears := by
  obtain ⟨taken, hreads, hframes, -⟩ := h.reads
  rw [← hreads.perm_passed.countP_eq, List.countP_append, ← List.length_append, hframes,
    List.length_map, ← List.countP_eq_length_filter]
  rfl

theorem Follows.length_overrun (h : a.Follows b away said position pending) :
    (a.overrun said).length = a.missed := by
  obtain ⟨taken, hreads, -⟩ := h.reads
  exact hreads.length_overwritten

/-- What the account of a connection of a bus says of the counters, if its task has passed some
entries and has a frame at hand or none. The bus does not want its own frames. -/
structure Weighed (i : Nat) (said : List Said) (position hand : Nat) (a : Attendance) : Prop where
  since_le : a.since ≤ position
  position_le : position ≤ said.length
  hand_le : hand ≤ 1
  missed_eq : a.missed = (a.overrun said).length
  /-- What the others said was handed on, is at hand, or was overwritten. -/
  others_eq : a.frames.length + hand + otherCount i (a.overrun said) =
    otherCount i (passed said a.since position)

variable {hand : Nat}

/-- The counters come out above what the others said by the own frames that were overwritten, less
what was not counted so far. -/
theorem Weighed.add_missed (h : a.Weighed i said position hand) :
    a.frames.length + a.missed + hand =
      otherCount i (passed said a.since position) + ownCount i (a.overrun said) := by
  have hothers := h.others_eq
  have hmissed := h.missed_eq
  have hsplit := ownCount_add_otherCount i (a.overrun said)
  omega

/-- Whether the counters stay within what the others said until some later moment. -/
theorem Weighed.le_iff (h : a.Weighed i said position hand) (hlater : position ≤ later) :
    a.frames.length + a.missed ≤ otherCount i (passed said a.since later) ↔
      ownCount i (a.overrun said) ≤ hand + otherCount i (passed said position later) := by
  rw [passed_append h.since_le hlater, otherCount_append]
  have hsum := h.add_missed
  omega

/-- Whoever is alone gets nothing, and counts just its own frames that were overwritten. -/
theorem Weighed.alone (h : a.Weighed i said position hand)
    (hnone : otherCount i (passed said a.since position) = 0) :
    a.frames = [] ∧ a.missed = ownCount i (a.overrun said) := by
  have hothers := h.others_eq
  have hmissed := h.missed_eq
  have hsplit := ownCount_add_otherCount i (a.overrun said)
  exact ⟨List.length_eq_zero_iff.mp (by omega), by omega⟩

end Attendance

namespace Channel

variable {c : Channel} {i : Nat} {p : Peer} {a : Attendance}

/-- At every moment there are notes of all that a bus on the channel was handed. -/
theorem Run.heard {name : String} {config : BusConfig} {m m' : Medium} {b : Bus}
    (hfresh : m.kernel.Fresh) (hproper : m.hub.Proper) (hunused : m.hub.live? name = none)
    (hmake : (Bus.make .virtual name config).run m = (.ok b, m'))
    (hrun : (opened name b m').Run c) :
    ∀ p ∈ c.peers, ∃ log, Audience.Heard log p.bus.reception := by
  induction hrun with
  | refl =>
    rintro p hp
    obtain rfl := List.mem_singleton.mp hp
    exact ⟨[], Audience.heard_made (Bus.made_of_make hfresh hmake).2⟩
  | @step c c' event hrun hstep ih =>
    have hkept := hrun.kept (kept_opened hfresh hproper hunused hmake)
    cases hstep with
    | outside => exact ih
    | own =>
      cases event with
      | outside => exact ih
      | join config =>
        rcases hjoin : (Bus.make .virtual c.name config).run c.medium with ⟨_ | other, medium⟩
        · simp only [Channel.after, hjoin]
          exact ih
        · simp only [Channel.after, hjoin]
          intro p hp
          rcases List.mem_append.mp hp with hold | hnew
          · exact ih p hold
          · obtain rfl := List.mem_singleton.mp hnew
            exact ⟨[], Audience.heard_made (Bus.made_of_make hkept.fresh hjoin).2⟩
      | on i event =>
        cases hpeer : c.peers[i]? with
        | none =>
          simp only [Channel.after, hpeer]
          exact ih
        | some p =>
          simp only [Channel.after, hpeer]
          intro q hq
          rcases List.mem_or_eq_of_mem_set hq with hold | rfl
          · exact ih q hold
          · obtain ⟨log, hheard⟩ := ih p (List.mem_of_getElem? hpeer)
            have hafter := hheard.step (w := p.life c.medium) (Life.step_after _ event)
            exact ⟨_, hafter⟩

/-- What the counters of the buses say of what was said on the channel. -/
structure Weighs (c : Channel) : Prop where
  received_eq : ∀ p ∈ c.peers, p.bus.reception.stats.received =
    UInt64.ofNat (p.attended.map fun a => a.frames.length).sum
  dropped_eq : ∀ p ∈ c.peers, p.bus.reception.stats.dropped =
    UInt64.ofNat (p.attended.map Attendance.missed).sum
  /-- Every connection of a bus that does not want its own frames, with the task where it is as long
  as it is there. -/
  weighed : ∀ (i : Nat) (p : Peer), c.peers[i]? = some p →
    p.bus.config.receiveOwnMessages = false → ∀ a ∈ p.attended, ∃ position hand,
      a.Weighed i c.said position hand ∧
      (∀ r ∈ p.bus.receivers, r.id = a.task →
        r.position = position ∧ r.stage.hand.toList.length = hand) ∧
      (∀ later, position ≤ later →
        (a.frames.length + a.missed ≤ otherCount i (passed c.said a.since later) ↔
          ownCount i (a.overrun c.said) ≤ hand + otherCount i (passed c.said position later))) ∧
      (otherCount i (passed c.said a.since position) = 0 →
        a.frames = [] ∧ a.missed = ownCount i (a.overrun c.said))

theorem sum_dropped_eq {attended : List Attendance}
    (h : ∀ a ∈ attended, a.dropped = UInt64.ofNat a.missed) :
    (attended.map Attendance.dropped).sum =
      UInt64.ofNat (attended.map Attendance.missed).sum := by
  induction attended with
  | nil => rfl
  | cons a rest ih =>
    rw [List.forall_mem_cons] at h
    rw [List.map_cons, List.map_cons, List.sum_cons, List.sum_cons, UInt64.ofNat_add, h.1, ih h.2]

theorem Kept.weighed (h : c.Kept) (hpeer : c.peers[i]? = some p)
    (hown : p.bus.config.receiveOwnMessages = false) (ha : a ∈ p.attended) :
    ∃ position hand, a.Weighed i c.said position hand ∧
      ∀ r ∈ p.bus.receivers, r.id = a.task →
        r.position = position ∧ r.stage.hand.toList.length = hand := by
  obtain ⟨-, position, pending, hfollows, htracks⟩ := (h.peers i p hpeer).1.attended a ha
  obtain ⟨taken, hreads, -⟩ := hfollows.reads
  -- On what was said, to be heard by this bus is to be said by another.
  have hother : ∀ entries : List Said, (∀ s ∈ entries, s ∈ c.said) →
      entries.countP p.bus.hears = otherCount i entries := fun entries hall =>
    List.countP_congr fun s hs => by
      rw [h.hears_eq hpeer s (hall s hs), Peer.listensTo, hown, Bool.false_or]
  have hpassed : ∀ s ∈ passed c.said a.since position, s ∈ c.said := fun s hs =>
    List.mem_of_mem_take (List.mem_of_mem_drop hs)
  have hoverrun : ∀ s ∈ a.overrun c.said, s ∈ c.said := fun s hs =>
    hpassed s (hreads.perm_passed.subset (List.mem_append_right _ hs))
  refine ⟨position, pending.toList.length, ⟨hreads.since_le, hreads.position_le, ?_,
    hfollows.length_overrun.symm, ?_⟩, fun r hr hid => ?_⟩
  · cases pending with
    | none => exact Nat.zero_le 1
    | some frame => exact Nat.le_refl 1
  · rw [← hother _ hoverrun, ← hother _ hpassed]
    exact hfollows.countP_hears
  · have htrack := htracks r hr hid
    refine ⟨htrack.position_eq, ?_⟩
    rw [htrack.holds]
    cases pending <;> rfl

/-- Whatever the buses on a channel do, the counters of a connection that does not want the bus's
own frames stay within what the others said for as long as no more own frames were overwritten
before they were read than the others said frames that were not counted yet. -/
theorem weighs_of_run {name : String} {config : BusConfig} {m m' : Medium} {b : Bus}
    (hfresh : m.kernel.Fresh) (hproper : m.hub.Proper) (hunused : m.hub.live? name = none)
    (hmake : (Bus.make .virtual name config).run m = (.ok b, m')) {c : Channel}
    (hrun : (opened name b m').Run c) : c.Weighs := by
  have h := hrun.kept (kept_opened hfresh hproper hunused hmake)
  have hheard := hrun.heard hfresh hproper hunused hmake
  refine ⟨fun p hp => ?_, fun p hp => ?_, fun i p hpeer hown a ha => ?_⟩
  · obtain ⟨i, hi⟩ := List.mem_iff_getElem?.mp hp
    obtain ⟨log, hlog⟩ := hheard p hp
    have hlength : p.bus.reception.frames.length = p.bus.reception.deliveries.length :=
      List.length_map _
    rw [hlog.stats_eq, ← List.length_flatMap, ← (h.peers i p hi).1.frames_eq, hlength,
      hlog.length_eq]
    rfl
  · obtain ⟨i, hi⟩ := List.mem_iff_getElem?.mp hp
    have hkept := (h.peers i p hi).1
    rw [hkept.dropped_eq]
    refine sum_dropped_eq fun a ha => ?_
    obtain ⟨-, position, pending, hfollows, -⟩ := hkept.attended a ha
    exact hfollows.dropped_eq
  · obtain ⟨position, hand, hweighed, hlive⟩ := h.weighed hpeer hown ha
    exact ⟨position, hand, hweighed, hlive, fun later hlater => hweighed.le_iff hlater,
      hweighed.alone⟩

/-- Four sends of the first bus before anybody reads, and then what both tasks read. -/
def overrunning (frame : UInt32 → Frame) : List Event :=
  .join {} :: (calling 0 0 .connect ++ calling 1 0 .connect ++ calling 0 2 (.send (frame 1)) ++
    calling 0 3 (.send (frame 2)) ++ calling 0 4 (.send (frame 3)) ++
    calling 0 5 (.send (frame 4)) ++ List.replicate 5 (.on 0 (.run 1)) ++
    List.replicate 5 (.on 1 (.run 1)))

/-- Two buses on a queue of two messages: the second one misses two frames of the first and gets
two, and the first one, to which nobody said anything, counts two frames as dropped. -/
theorem weighs_overrunning : ∃ b m',
    (Bus.make .virtual "bench" { listenerCapacity := 2 }).run {} = (.ok b, m') ∧
    (let c := (opened "bench" b m').replay
       (overrunning fun n => ⟨n, 0, 1, Frame.padded [7], by decide⟩)
     (c.peers.mapIdx fun i p => p.attended.map fun a =>
        (a.frames.length, a.missed, ownCount i (a.overrun c.said),
          otherCount i (passed c.said a.since c.said.length))) =
      [[(0, 2, 2, 0)], [(2, 2, 0, 4)]] ∧
      c.Weighs) := by
  obtain ⟨b, m', hmake, hfacts⟩ : ∃ b m',
      (Bus.make .virtual "bench" { listenerCapacity := 2 }).run {} = (.ok b, m') ∧
      (let c := (opened "bench" b m').replay
         (overrunning fun n => ⟨n, 0, 1, Frame.padded [7], by decide⟩)
       (c.peers.mapIdx fun i p => p.attended.map fun a =>
          (a.frames.length, a.missed, ownCount i (a.overrun c.said),
            otherCount i (passed c.said a.since c.said.length))) =
        [[(0, 2, 2, 0)], [(2, 2, 0, 4)]]) :=
    ⟨_, _, rfl, by decide +kernel⟩
  refine ⟨b, m', hmake, hfacts, ?_⟩
  exact weighs_of_run (fun _ _ => rfl) Hub.proper_empty rfl hmake
    (run_replay _ (by decide +kernel))

/-- A bus that is alone on its channel sends five frames before its task runs, and does not want its
own: it is handed none, as it should be, and counts three frames as dropped. -/
theorem dropped_of_own_sends : ∃ b m' c,
    (Bus.make .virtual "bench" { listenerCapacity := 2 }).run {} = (.ok b, m') ∧
    (opened "bench" b m').Run c ∧
    (∀ s ∈ c.said, s.sender = 0) ∧
    (c.peers.map fun p => (p.bus.config.receiveOwnMessages, p.bus.reception.stats)) =
      [(false, { sent := 5, received := 0, dropped := 3 })] := by
  refine ⟨_, _, (opened "bench" _ _).replay (calling 0 0 .connect ++
    ([2, 3, 4, 5, 6].flatMap fun id =>
      calling 0 id (.send ⟨0x101, 0, 1, Frame.padded [7], by decide⟩)) ++
    List.replicate 4 (.on 0 (.run 1))), rfl, run_replay _ (by decide +kernel), ?_, ?_⟩
  · decide +kernel
  · decide +kernel

end Channel

end CanTransport
