import CanTransport.Proofs.Bus.Tasks
import CanTransport.Proofs.Frame.Codec
import CanTransport.Proofs.Virtual.Log
/-!
# The reception task of a virtual bus

What one action of the task comes to. It asks the queue, and what it gets is kept from the listener,
taken into hand, or counted as missed; what is at hand is handed to the listener. An account of its
connection stays true with every action.
-/

namespace CanTransport

/-- What a receiver is given, if it is given anything. -/
def Queue.Receipt.told : Queue.Receipt → List Queue.Receipt
  | .closed | .nothing => []
  | receipt => [receipt]

namespace Stage

/-- The record at hand. -/
def hand : Stage → Option (List UInt8)
  | .holding (bytes :: _) => some bytes
  | _ => none

/-- Whether a virtual queue can bring a task there. -/
def attends : Stage → Bool
  | .top | .holding [_] | .returned _ | .published | .exited _ => true
  | _ => false

end Stage

namespace Receiver

/-- What the queue gives with the next action of the task. -/
def receipts (s : Site) (r : Receiver) : List Queue.Receipt :=
  match r.stage with
  | .top =>
    if r.cancelled then [] else (s.medium.hub.receive s.bus.queue r.position).1.told
  | _ => []

/-- The record of a frame at hand. -/
def Holds (r : Receiver) (pending : Option Frame) : Prop :=
  r.stage.hand = pending.map fun frame => frame.encode.toList

/-- What one action of the task can come to, if it has a frame at hand or none. -/
inductive Hears (s : Site) (r : Receiver) (pending : Option Frame) : Site → Receiver → Prop where
  | aside {s' : Site} {r' : Receiver} (hreceipts : r.receipts s = [])
      (hframes : s'.bus.reception.frames = s.bus.reception.frames)
      (hdropped : s'.bus.reception.stats.dropped = s.bus.reception.stats.dropped)
      (hposition : r'.position = r.position) (hhand : r'.stage.hand = r.stage.hand) : Hears s r pending s' r'
  | skips {r' : Receiver} {envelope : Envelope} (hnone : pending = none)
      (hgives : (s.medium.hub.receive s.bus.queue r.position).1 = .message envelope)
      (hreceipts : r.receipts s = [.message envelope])
      (hown : envelope.origin = s.bus.origin ∧ s.bus.config.receiveOwnMessages = false)
      (hposition : r'.position = (s.medium.hub.receive s.bus.queue r.position).2)
      (hhand : r'.stage.hand = none) : Hears s r pending s r'
  | takes {r' : Receiver} {envelope : Envelope} (hnone : pending = none)
      (hgives : (s.medium.hub.receive s.bus.queue r.position).1 = .message envelope)
      (hreceipts : r.receipts s = [.message envelope])
      (hother : ¬ (envelope.origin = s.bus.origin ∧ s.bus.config.receiveOwnMessages = false))
      (hposition : r'.position = (s.medium.hub.receive s.bus.queue r.position).2)
      (hhand : r'.stage.hand = some envelope.raw.toList) : Hears s r pending s r'
  | misses {s' : Site} {r' : Receiver} {count : Nat} (hnone : pending = none)
      (hgives : (s.medium.hub.receive s.bus.queue r.position).1 = .missed count)
      (hreceipts : r.receipts s = [.missed count])
      (hframes : s'.bus.reception.frames = s.bus.reception.frames)
      (hdropped : s'.bus.reception.stats.dropped =
        s.bus.reception.stats.dropped + UInt64.ofNat count)
      (hposition : r'.position = (s.medium.hub.receive s.bus.queue r.position).2)
      (hhand : r'.stage.hand = none) : Hears s r pending s' r'
  | tells {s' : Site} {r' : Receiver} {frame : Frame} (hpending : pending = some frame)
      (hreceipts : r.receipts s = [])
      (hframes : s'.bus.reception.frames = s.bus.reception.frames ++ [frame])
      (hdropped : s'.bus.reception.stats.dropped = s.bus.reception.stats.dropped)
      (hposition : r'.position = r.position) (hhand : r'.stage.hand = none) : Hears s r pending s' r'

variable {s : Site} {r : Receiver} {pending : Option Frame}

theorem position_goTo (r : Receiver) (stage : Stage) : (r.goTo stage).position = r.position := by
  cases stage <;> rfl

theorem receipts_of_stage_ne (h : r.stage ≠ .top) : r.receipts s = [] := by
  unfold receipts
  split
  · rename_i hstage
    exact absurd hstage h
  · rfl

theorem receipts_of_cancelled (h : r.cancelled = true) : r.receipts s = [] := by
  unfold receipts
  split
  · rw [if_pos h]
  · rfl

/-- A task that only goes to another place, without anything at hand. -/
theorem Hears.move (stage : Stage) (hreceipts : r.receipts s = []) (hhand : r.stage.hand = none)
    (hstage : stage.hand = none) : Hears s r pending s (r.goTo stage) := by
  refine .aside hreceipts rfl rfl (position_goTo r stage) ?_
  rw [stage_goTo, hstage, hhand]

theorem hears_ask (hstage : r.stage = .top) (hcancelled : r.cancelled = false)
    (hholds : r.Holds pending) :
    Hears s r pending (r.ask s).1 (r.ask s).2 ∧ (r.ask s).2.stage.attends = true := by
  have hhand : r.stage.hand = none := by rw [hstage]; rfl
  have hnone : pending = none := by
    rw [Holds, hhand, eq_comm, Option.map_eq_none_iff] at hholds
    exact hholds
  have hreceipts : r.receipts s = (s.medium.hub.receive s.bus.queue r.position).1.told := by
    rw [receipts, hstage]
    exact if_neg (by rw [hcancelled]; decide)
  have hattends : r.stage.attends = true := by rw [hstage]; rfl
  unfold ask
  rcases hgives : s.medium.hub.receive s.bus.queue r.position with ⟨receipt, position⟩
  rw [hgives] at hreceipts
  have hsnd : position = (s.medium.hub.receive s.bus.queue r.position).2 := by rw [hgives]
  have hfst : (s.medium.hub.receive s.bus.queue r.position).1 = receipt := by rw [hgives]
  cases receipt with
  | message envelope =>
    simp only
    split
    · rename_i hown
      exact ⟨.skips hnone hfst hreceipts hown hsnd hhand, hattends⟩
    · rename_i hother
      exact ⟨.takes hnone hfst hreceipts hother hsnd rfl, rfl⟩
  | missed count => exact ⟨.misses hnone hfst hreceipts rfl rfl hsnd hhand, hattends⟩
  | closed => exact ⟨Hears.move (.returned (.error .notConnected)) hreceipts hhand rfl, rfl⟩
  | nothing => exact ⟨.aside hreceipts rfl rfl rfl rfl, hattends⟩

/-- The record of a frame is handed on as that frame. -/
theorem hears_handleRecord {frame : Frame} (hpending : pending = some frame)
    (hreceipts : r.receipts s = []) :
    Hears s r pending (r.handleRecord s frame.encode.toList []).1
        (r.handleRecord s frame.encode.toList []).2 ∧
      (r.handleRecord s frame.encode.toList []).2.stage.attends = true := by
  have hsize : frame.encode.toList.toArray.size = 16 := by simp
  have hwire : (⟨frame.encode.toList.toArray, hsize⟩ : Wire) = frame.encode := rfl
  have hdeliver : s.bus.reception.deliverWire frame.encode = s.bus.reception.deliver frame := by
    rw [Reception.deliverWire, Frame.ofWire_encode]
  unfold handleRecord
  rw [dif_pos hsize, hwire]
  refine ⟨.tells hpending hreceipts ?_ ?_ ?_ ?_, ?_⟩
  · show (s.bus.reception.deliverWire frame.encode).2.frames = _
    rw [Reception.frames_deliverWire, Frame.ofWire_encode]
    rfl
  · show (s.bus.reception.deliverWire frame.encode).2.stats.dropped = _
    rw [hdeliver]
    rfl
  · rw [handOn_snd, position_goTo]
  · rw [handOn_snd, stage_goTo]
    split <;> rfl
  · rw [handOn_snd, stage_goTo]
    split <;> rfl

/-- What one action of the task of a virtual bus comes to. -/
theorem hears_step (hvirtual : s.bus.transport = .virtual) (hattends : r.stage.attends = true)
    (hholds : r.Holds pending) :
    Hears s r pending (r.step s).1 (r.step s).2 ∧ (r.step s).2.stage.attends = true := by
  unfold step
  cases hstage : r.stage with
  | top =>
    have hhand : r.stage.hand = none := by rw [hstage]; rfl
    simp only [atTop, hvirtual]
    split
    · rename_i hcancelled
      exact ⟨Hears.move (.returned (.ok ())) (receipts_of_cancelled hcancelled) hhand rfl, rfl⟩
    · rename_i hcancelled
      exact hears_ask hstage (by simpa using hcancelled) hholds
  | holding records =>
    have hreceipts : r.receipts s = [] := receipts_of_stage_ne (by rw [hstage]; exact nofun)
    rw [hstage] at hattends
    match records, hattends with
    | [bytes], _ =>
      rw [Holds, hstage] at hholds
      obtain ⟨frame, hpending, rfl⟩ := Option.map_eq_some_iff.mp hholds.symm
      exact hears_handleRecord hpending hreceipts
  | returned outcome =>
    have hreceipts : r.receipts s = [] := receipts_of_stage_ne (by rw [hstage]; exact nofun)
    refine ⟨.aside hreceipts (Reception.frames_finish _ _) ?_ rfl ?_, rfl⟩
    · cases outcome <;> rfl
    · rw [hstage]
      rfl
  | published =>
    have hreceipts : r.receipts s = [] := receipts_of_stage_ne (by rw [hstage]; exact nofun)
    exact ⟨Hears.move (.exited false) hreceipts (by rw [hstage]; rfl) rfl, rfl⟩
  | exited died =>
    have hreceipts : r.receipts s = [] := receipts_of_stage_ne (by rw [hstage]; exact nofun)
    exact ⟨.aside hreceipts rfl rfl rfl rfl, by rw [hstage]; rfl⟩
  | receiving | looking | releasing | advancing | swept | sleeping =>
    rw [hstage] at hattends
    cases hattends

/-- Nothing that was handed on is taken back. -/
theorem Hears.prefix_frames {s' : Site} {r' : Receiver} (h : Hears s r pending s' r') :
    s.bus.reception.frames <+: s'.bus.reception.frames := by
  cases h with
  | aside _ hframes | misses _ _ _ hframes => exact hframes ▸ List.prefix_rfl
  | skips | takes => exact List.prefix_rfl
  | tells _ _ hframes =>
    rw [hframes]
    exact List.prefix_append _ _

end Receiver

namespace Attendance

/-- A connection after an action of its task, with what the queue gave and what became of what the
bus shares with its tasks. -/
def heard (receipts : List Queue.Receipt) (before after : Reception) (a : Attendance) :
    Attendance :=
  { a with
    receipts := a.receipts ++ receipts
    frames := a.frames ++ after.frames.drop before.frames.length
    dropped := a.dropped + (after.stats.dropped - before.stats.dropped) }

variable {name : String} {s s' : Site} {r r' : Receiver} {away : Said → Prop} {said : List Said}
  {pending : Option Frame} {a : Attendance} {receipts : List Queue.Receipt}
  {before after : Reception}

theorem heard_of_eq (hframes : after.frames = before.frames)
    (hdropped : after.stats.dropped = before.stats.dropped) :
    a.heard receipts before after = { a with receipts := a.receipts ++ receipts } := by
  simp [heard, hframes, hdropped]

theorem heard_self (a : Attendance) (r : Reception) : a.heard [] r r = a := by
  simp [heard]

/-- What was handed on by all connections of a bus, once the last of them has heard more. -/
theorem flatMap_frames_heard {others : List Attendance}
    (h : before.frames = (others ++ [a]).flatMap Attendance.frames)
    (hstarts : before.frames <+: after.frames) :
    after.frames = (others ++ [a.heard receipts before after]).flatMap Attendance.frames := by
  rw [List.flatMap_append, List.flatMap_singleton] at h ⊢
  calc after.frames
    _ = before.frames ++ after.frames.drop before.frames.length :=
      (List.prefix_iff_eq_append.mp hstarts).symm
    _ = _ := by rw [heard, ← List.append_assoc, ← h]

theorem sum_dropped_heard {others : List Attendance}
    (h : before.stats.dropped = ((others ++ [a]).map Attendance.dropped).sum) :
    after.stats.dropped = ((others ++ [a.heard receipts before after]).map Attendance.dropped).sum := by
  simp only [List.map_append, List.map_cons, List.map_nil, List.sum_append, List.sum_singleton,
    heard] at h ⊢
  rw [← UInt64.add_assoc, ← h, UInt64.add_comm, UInt64.sub_add_cancel]

/-- The message that a task is given is the next entry. -/
theorem Follows.entry {envelope : Envelope} (h : a.Follows s.bus away said r.position pending)
    (hcarries : s.medium.hub.Carries name s.bus.queue (said.map Said.envelope))
    (hpresent : ∀ s ∈ said.drop a.since, ¬ away s)
    (hgives : (s.medium.hub.receive s.bus.queue r.position).1 = .message envelope) :
    (s.medium.hub.receive s.bus.queue r.position).2 = r.position + 1 ∧
      ∃ entry, said[r.position]? = some entry ∧ entry.envelope = envelope ∧ ¬ away entry := by
  obtain ⟨hnext, hposition⟩ := hcarries.message hgives
  rw [List.getElem?_map, Option.map_eq_some_iff] at hnext
  obtain ⟨entry, hnext, hentry⟩ := hnext
  obtain ⟨taken, hreads, -⟩ := h.reads
  refine ⟨hposition, entry, hnext, hentry, hpresent entry ?_⟩
  refine List.mem_of_getElem? (i := r.position - a.since) ?_
  rw [List.getElem?_drop, Nat.add_sub_cancel' hreads.since_le, hnext]

/-- Whatever the task does next, the account of its connection stays true. -/
theorem Follows.heard (h : a.Follows s.bus away said r.position pending)
    (hholds : r.Holds pending)
    (hcarries : s.medium.hub.Carries name s.bus.queue (said.map Said.envelope))
    (hpresent : ∀ s ∈ said.drop a.since, ¬ away s) (hhears : r.Hears s pending s' r') :
    ∃ pending', r'.Holds pending' ∧ Follows s.bus away said r'.position pending'
      (a.heard (r.receipts s) s.bus.reception s'.bus.reception) := by
  cases hhears with
  | aside hreceipts hframes hdropped hposition hhand =>
    refine ⟨pending, hhand.trans hholds, ?_⟩
    rw [hreceipts, heard_of_eq hframes hdropped, List.append_nil, hposition]
    exact h
  | skips hnone hgives hreceipts hown hposition hhand =>
    subst hnone
    obtain ⟨hafter, entry, hnext, rfl, haway⟩ := h.entry hcarries hpresent hgives
    have horigin : entry.origin = s.bus.origin := hown.1
    have hhears : s.bus.hears entry = false := by simp [Bus.hears, hown.2, horigin]
    refine ⟨none, hhand, ?_⟩
    rw [hreceipts, heard_of_eq rfl rfl, hposition, hafter]
    have hmessage := h.message hnext haway
    rw [hhears] at hmessage
    exact hmessage
  | takes hnone hgives hreceipts hother hposition hhand =>
    subst hnone
    obtain ⟨hafter, entry, hnext, rfl, haway⟩ := h.entry hcarries hpresent hgives
    have hhears : s.bus.hears entry = true := by
      rw [Bus.hears, Bool.or_eq_true, bne_iff_ne]
      by_contra hnot
      rw [not_or, Bool.not_eq_true, not_not] at hnot
      exact hother ⟨hnot.2, hnot.1⟩
    refine ⟨some entry.frame, hhand, ?_⟩
    rw [hreceipts, heard_of_eq rfl rfl, hposition, hafter]
    have hmessage := h.message hnext haway
    rw [hhears] at hmessage
    exact hmessage
  | misses hnone hgives hreceipts hframes hdropped hposition hhand =>
    subst hnone
    obtain ⟨hle, hafter⟩ := hcarries.missed hgives
    refine ⟨none, hhand, ?_⟩
    rw [List.length_map] at hle
    have hmissing := h.missing hle
    rw [hposition, hafter, Attendance.heard, hreceipts, hframes, hdropped, List.drop_length,
      List.append_nil, UInt64.add_comm s.bus.reception.stats.dropped, UInt64.add_sub_cancel]
    exact hmissing
  | tells hpending hreceipts hframes hdropped hposition hhand =>
    subst hpending
    refine ⟨none, hhand, ?_⟩
    rw [hposition, Attendance.heard, hreceipts, hframes, hdropped]
    simpa using h.told

end Attendance

end CanTransport
