import Mathlib.Algebra.Group.Nat.Defs
import Mathlib.Data.List.Nodup
import Mathlib.Data.Nat.Log
import CanTransport.Virtual.Hub
/-!
# Channels of the hub

How much room a queue has, what a receiver gets, told by what was sent, and what becomes of the
queue of one name. What a receiver gets does not depend on how many messages a queue keeps: it may
have fallen behind whenever it asks.
-/

namespace CanTransport

namespace Queue

/-- The most messages that a queue can be asked for: half of what a word can say. -/
def maxCapacity : Nat := 2 ^ 63 - 1

/-- A capacity is that which was asked for, rounded up to a power of two. -/
structure Rounded (asked capacity : Nat) : Prop where
  le : asked ≤ capacity
  power : ∃ k, capacity = 2 ^ k
  least : ∀ k, asked ≤ 2 ^ k → capacity ≤ 2 ^ k

/-- The search does not pass the power that it looks for, and reaches it if it may double often
enough. -/
theorem powerFrom_two_pow {n fuel k : Nat} (hle : k ≤ Nat.clog 2 n)
    (hfuel : Nat.clog 2 n ≤ k + fuel) : powerFrom n fuel (2 ^ k) = 2 ^ Nat.clog 2 n := by
  induction fuel generalizing k with
  | zero => rw [powerFrom, Nat.le_antisymm hle hfuel]
  | succ fuel ih =>
    rw [powerFrom]
    split
    · rename_i hfits
      rw [Nat.le_antisymm hle (Nat.clog_le_of_le_pow hfits)]
    · rename_i hsmall
      have hlt : k < Nat.clog 2 n := (Nat.lt_clog_iff_pow_lt Nat.one_lt_two).mpr (not_le.mp hsmall)
      rw [← Nat.pow_succ']
      exact ih hlt (by omega)

theorem rounded_ofCapacity {n : Nat} (h : n ≤ 2 ^ 64) : Rounded n (ofCapacity n).capacity := by
  have hcapacity : (ofCapacity n).capacity = 2 ^ Nat.clog 2 n :=
    powerFrom_two_pow (k := 0) (Nat.zero_le _) (by simpa using Nat.clog_le_of_le_pow h)
  rw [hcapacity]
  refine ⟨Nat.le_pow_clog Nat.one_lt_two n, ⟨_, rfl⟩, fun k hk => ?_⟩
  exact Nat.pow_le_pow_right Nat.two_pos (Nat.clog_le_of_le_pow hk)

/-- What a receiver gets, and its position afterwards. -/
inductive Gives (q : Queue) (position : Nat) : Receipt × Nat → Prop where
  | message {envelope : Envelope} (hnext : q.sent[position]? = some envelope) :
      Gives q position (.message envelope, position + 1)
  | missed {count : Nat} (hle : position + count ≤ q.sent.size) :
      Gives q position (.missed count, position + count)
  | drained {receipt : Receipt} (hend : q.sent.size ≤ position)
      (hreceipt : receipt = .closed ∨ receipt = .nothing) : Gives q position (receipt, position)

theorem gives_receive (q : Queue) (position : Nat) : q.Gives position (q.receive position) := by
  unfold receive
  split
  · rename_i hbehind
    have hposition : q.sent.size - q.capacity =
        position + (q.sent.size - q.capacity - position) := by omega
    rw [hposition, Nat.add_sub_cancel_left]
    exact .missed (by omega)
  · cases hnext : q.sent[position]? with
    | some envelope => exact .message hnext
    | none =>
      refine .drained (Array.getElem?_eq_none_iff.mp hnext) ?_
      split
      · exact Or.inl rfl
      · exact Or.inr rfl

end Queue

namespace Hub

theorem lookup_update (id : QueueId) (f : Queue → Queue) (queues : List (QueueId × Queue)) :
    (update id f queues).lookup id = (queues.lookup id).map f := by
  induction queues with
  | nil => rfl
  | cons entry rest ih =>
    obtain ⟨n, q⟩ := entry
    by_cases hn : n = id
    · subst hn
      simp [update]
    · have hne : (id == n) = false := by simpa using fun heq => hn heq.symm
      simp only [update, if_neg hn, List.lookup_cons, hne]
      exact ih

theorem keys_update (id : QueueId) (f : Queue → Queue) (queues : List (QueueId × Queue)) :
    (update id f queues).map Prod.fst = queues.map Prod.fst := by
  induction queues with
  | nil => rfl
  | cons entry rest ih =>
    obtain ⟨n, q⟩ := entry
    rw [update]
    split
    · rfl
    · rw [List.map_cons, ih, List.map_cons]

theorem queue?_change (h : Hub) (id : QueueId) (f : Queue → Queue) :
    (h.change id f).queue? id = (h.queue? id).map f := lookup_update id f h.queues

theorem lookup_update_ne {id other : QueueId} (f : Queue → Queue) (hne : other ≠ id)
    (queues : List (QueueId × Queue)) : (update id f queues).lookup other = queues.lookup other := by
  induction queues with
  | nil => rfl
  | cons entry rest ih =>
    obtain ⟨n, q⟩ := entry
    by_cases hn : n = id
    · subst hn
      simp [update, List.lookup_cons, beq_false_of_ne hne]
    · rw [update, if_neg hn, List.lookup_cons, List.lookup_cons, ih]

theorem queue?_change_ne (h : Hub) {id other : QueueId} (f : Queue → Queue) (hne : other ≠ id) :
    (h.change id f).queue? other = h.queue? other := lookup_update_ne f hne h.queues

/-- A queue holds what was sent to it behind all that it held, and no other queue changes. -/
theorem queue?_send (h : Hub) (id other : QueueId) (envelope : Envelope) :
    (h.send id envelope).queue? other =
      if other = id then (h.queue? id).map fun q => { q with sent := q.sent.push envelope }
      else h.queue? other := by
  by_cases hother : other = id
  · rw [if_pos hother, hother, send, queue?_change]
  · rw [if_neg hother, send, queue?_change_ne h _ hother]

/-- No number was used yet that will be used, and every name has one entry at most. -/
structure Proper (h : Hub) : Prop where
  numbers_lt : ∀ n ∈ h.queues.map Prod.fst, n < h.next
  names_nodup : (h.entries.map Prod.fst).Nodup

/-- A name that is in use, its queue, and all that was sent through it. -/
structure Carries (h : Hub) (name : String) (id : QueueId) (log : List Envelope) : Prop where
  live_eq : h.live? name = some id
  log_eq : (h.queue? id).map (·.sent.toList) = some log

variable {h h' : Hub} {name : String} {id : QueueId} {log : List Envelope}

theorem live?_eq_some_iff : h.live? name = some id ↔
    h.entries.lookup name = some id ∧ 0 < h.handles id := by
  simp [live?, Option.filter_eq_some_iff]

theorem lookup_of_mem {entries : List (String × QueueId)} {entry : String × QueueId}
    (hnodup : (entries.map Prod.fst).Nodup) (h : entry ∈ entries) :
    entries.lookup entry.1 = some entry.2 := by
  obtain ⟨before, after, rfl⟩ := List.append_of_mem h
  refine List.lookup_eq_some_iff.mpr ⟨before, after, rfl, fun other hother => ?_⟩
  rw [List.map_append, List.map_cons, List.nodup_append] at hnodup
  rw [bne_iff_ne]
  exact (hnodup.2.2 other.1 (List.mem_map_of_mem hother) entry.1 List.mem_cons_self).symm

/-- A name that is not in use has no entry once the dead ones are gone. -/
theorem Proper.lookup_live (hproper : h.Proper) (hnone : h.live? name = none) :
    (h.entries.filter fun (_, id) => 0 < h.handles id).lookup name = none := by
  rw [List.lookup_eq_none_iff]
  intro entry hentry
  obtain ⟨hmem, hhandles⟩ := List.mem_filter.mp hentry
  rw [bne_iff_ne]
  rintro rfl
  have hlookup := lookup_of_mem hproper.names_nodup hmem
  have hlive := live?_eq_some_iff.mpr ⟨hlookup, by simpa using hhandles⟩
  exact nomatch hnone.symm.trans hlive

/-- The next queue's number belongs to no queue. -/
theorem Proper.queue?_next (hproper : h.Proper) : h.queue? h.next = none := by
  rw [queue?, List.lookup_eq_none_iff]
  intro entry hentry
  have hlt := hproper.numbers_lt entry.1 (List.mem_map_of_mem hentry)
  simpa using (Nat.ne_of_lt hlt).symm

/-- A name that nobody uses gets the next queue. -/
theorem attach_of_none (capacity : Nat) (hnone : h.live? name = none) :
    h.attach name capacity = (h.next, { h with
      next := h.next + 1
      queues := h.queues ++ [(h.next, Queue.ofCapacity capacity)]
      entries := h.entries.filter (fun (_, id) => 0 < h.handles id) ++ [(name, h.next)] }) := by
  rw [attach, hnone]

/-- A name that somebody uses keeps its queue. -/
theorem attach_of_some (capacity : Nat) (hlive : h.live? name = some id) :
    h.attach name capacity = (id, h.change id fun q => { q with handles := q.handles + 1 }) := by
  rw [attach, hlive]

/-- Whoever takes a handle finds the queue there. -/
theorem isSome_queue?_attach (h : Hub) (name : String) (capacity : Nat) :
    ((h.attach name capacity).2.queue? (h.attach name capacity).1).isSome = true := by
  cases hlive : h.live? name with
  | some id =>
    have hpos := (live?_eq_some_iff.mp hlive).2
    rw [attach_of_some capacity hlive, queue?_change, Option.isSome_map]
    rw [handles] at hpos
    cases hqueue : h.queue? id with
    | some q => rfl
    | none => simp [hqueue] at hpos
  | none =>
    rw [attach_of_none capacity hlive, queue?, List.lookup_append]
    simp

theorem Proper.queue?_attach (hproper : h.Proper) (hnone : h.live? name = none) (capacity : Nat)
    (id : QueueId) : (h.attach name capacity).2.queue? id =
      if id = h.next then some (Queue.ofCapacity capacity) else h.queue? id := by
  have hnext := hproper.queue?_next
  rw [queue?] at hnext
  rw [attach_of_none capacity hnone, queue?, List.lookup_append]
  by_cases hid : id = h.next
  · subst hid
    simp [hnext]
  · simp [hid, List.lookup_cons, beq_false_of_ne hid, queue?]

theorem Proper.lookup_attach (hproper : h.Proper) (hnone : h.live? name = none) (capacity : Nat) :
    (h.attach name capacity).2.entries.lookup name = some h.next := by
  simp [attach_of_none capacity hnone, List.lookup_append, hproper.lookup_live hnone]

/-- Where a name that was not in use gets a queue, nothing was sent through it. -/
theorem carries_attach (capacity : Nat) (hproper : h.Proper) (hnone : h.live? name = none) :
    (h.attach name capacity).2.Carries name (h.attach name capacity).1 [] := by
  have hfirst : (h.attach name capacity).1 = h.next := by rw [attach_of_none capacity hnone]
  have hqueue := hproper.queue?_attach hnone capacity h.next
  rw [if_pos rfl] at hqueue
  rw [hfirst]
  refine ⟨live?_eq_some_iff.mpr ⟨hproper.lookup_attach hnone capacity, ?_⟩, by rw [hqueue]; rfl⟩
  rw [handles, hqueue]
  exact Nat.one_pos

/-! ### What the buses do with the hub -/

theorem proper_empty : Proper {} := ⟨nofun, List.nodup_nil⟩

theorem Proper.change (hproper : h.Proper) (id : QueueId) (f : Queue → Queue) :
    (h.change id f).Proper where
  numbers_lt n hn := by
    rw [Hub.change, keys_update] at hn
    exact hproper.numbers_lt n hn
  names_nodup := hproper.names_nodup

theorem Proper.attach (hproper : h.Proper) (name : String) (capacity : Nat) :
    (h.attach name capacity).2.Proper := by
  unfold Hub.attach
  cases hlive : h.live? name with
  | some id => exact hproper.change id _
  | none =>
    refine ⟨fun n hn => ?_, ?_⟩
    · rw [List.map_append, List.mem_append] at hn
      rcases hn with hold | hnew
      · exact Nat.lt_succ_of_lt (hproper.numbers_lt n hold)
      · cases List.mem_singleton.mp hnew
        exact Nat.lt_succ_self _
    · rw [List.map_append, List.nodup_append]
      refine ⟨hproper.names_nodup.sublist (List.filter_sublist.map _), List.nodup_singleton _, ?_⟩
      intro other hother new hnew
      cases List.mem_singleton.mp hnew
      obtain ⟨entry, hentry, rfl⟩ := List.mem_map.mp hother
      have hne := List.lookup_eq_none_iff.mp (hproper.lookup_live hlive) entry hentry
      exact (bne_iff_ne.mp hne).symm

theorem Proper.forget (hproper : h.Proper) (name : String) (id : QueueId) :
    (h.forget name id).Proper := by
  unfold Hub.forget
  split
  · exact ⟨hproper.numbers_lt, hproper.names_nodup.sublist (List.filter_sublist.map _)⟩
  · exact hproper

/-! ### Handles and capacities -/

/-- How many messages a receiver may be behind on a queue. -/
def capacity? (h : Hub) (id : QueueId) : Option Nat := (h.queue? id).map Queue.capacity

theorem capacity?_change {f : Queue → Queue} (hf : ∀ q, (f q).capacity = q.capacity)
    (id other : QueueId) : (h.change id f).capacity? other = h.capacity? other := by
  by_cases hne : other = id
  · subst hne
    rw [capacity?, queue?_change, Option.map_map, show Queue.capacity ∘ f = Queue.capacity from
      funext hf, capacity?]
  · rw [capacity?, queue?_change_ne h f hne, capacity?]

theorem capacity?_send (id other : QueueId) (envelope : Envelope) :
    (h.send id envelope).capacity? other = h.capacity? other := by
  refine capacity?_change ?_ id other
  exact fun _ => rfl

theorem capacity?_detach (id other : QueueId) :
    (h.detach id).capacity? other = h.capacity? other := by
  refine capacity?_change ?_ id other
  exact fun _ => rfl

theorem capacity?_share (id other : QueueId) :
    (h.change id fun q => { q with handles := q.handles + 1 }).capacity? other =
      h.capacity? other := by
  refine capacity?_change ?_ id other
  exact fun _ => rfl

theorem handles_change_ne (f : Queue → Queue) {id other : QueueId} (hne : other ≠ id) :
    (h.change id f).handles other = h.handles other := by
  rw [handles, queue?_change_ne h f hne, handles]

theorem handles_send (id other : QueueId) (envelope : Envelope) :
    (h.send id envelope).handles other = h.handles other := by
  by_cases hne : other = id
  · subst hne
    rw [handles, send, queue?_change, Option.map_map, handles]
    rfl
  · exact handles_change_ne _ hne

theorem handles_detach (id : QueueId) : (h.detach id).handles id = h.handles id - 1 := by
  rw [handles, detach, queue?_change, handles]
  cases h.queue? id with
  | none => rfl
  | some q => rfl

/-- A queue that is shared has one handle more. -/
theorem handles_share {q : Queue} (hq : h.queue? id = some q) :
    (h.change id fun q => { q with handles := q.handles + 1 }).handles id = h.handles id + 1 := by
  rw [handles, queue?_change, hq, handles, hq]
  rfl

theorem handles_forget (name : String) (id other : QueueId) :
    (h.forget name id).handles other = h.handles other := by
  unfold forget
  split
  · rfl
  · rfl

theorem capacity?_forget (name : String) (id other : QueueId) :
    (h.forget name id).capacity? other = h.capacity? other := by
  unfold forget
  split
  · rfl
  · rfl

theorem mem_entries_forget {entry : String × QueueId}
    (hentry : entry ∈ (h.forget name id).entries) : entry ∈ h.entries := by
  unfold forget at hentry
  split at hentry
  · exact (List.mem_filter.mp hentry).1
  · exact hentry

/-- Of the other names nothing is forgotten. -/
theorem lookup_forget_ne {other : String} (hne : other ≠ name) :
    (h.forget name id).entries.lookup other = h.entries.lookup other := by
  unfold forget
  split
  · show (h.entries.filter fun entry => entry.1 ≠ name).lookup other = _
    generalize h.entries = entries
    induction entries with
    | nil => rfl
    | cons entry rest ih =>
      by_cases hname : entry.1 = name
      · rw [List.filter_cons_of_neg (by simpa using hname), ih, List.lookup_cons, hname,
          beq_false_of_ne hne]
      · rw [List.filter_cons_of_pos (by simpa using hname), List.lookup_cons, List.lookup_cons, ih]
  · rfl

/-- A change of a queue that takes no handle away. -/
theorem Carries.change {f : Queue → Queue} {log' : List Envelope} (hc : h.Carries name id log)
    (hhandles : ∀ q : Queue, q.handles ≤ (f q).handles)
    (hsent : ∀ q : Queue, q.sent.toList = log → (f q).sent.toList = log') :
    (h.change id f).Carries name id log' := by
  obtain ⟨hlookup, hpos⟩ := live?_eq_some_iff.mp hc.live_eq
  obtain ⟨q, hq, hlog⟩ := Option.map_eq_some_iff.mp hc.log_eq
  have hq' : (h.change id f).queue? id = some (f q) := by rw [queue?_change, hq]; rfl
  refine ⟨live?_eq_some_iff.mpr ⟨hlookup, ?_⟩, ?_⟩
  · rw [handles, hq']
    rw [handles, hq] at hpos
    exact Nat.lt_of_lt_of_le hpos (hhandles q)
  · rw [hq', Option.map_some, hsent q hlog]

/-- A name that is in use keeps its queue when it gets another handle. -/
theorem Carries.attach (hc : h.Carries name id log) (capacity : Nat) :
    (h.attach name capacity).1 = id ∧ (h.attach name capacity).2.Carries name id log := by
  unfold Hub.attach
  rw [hc.live_eq]
  exact ⟨rfl, hc.change (fun q => Nat.le_succ _) fun _ hlog => hlog⟩

theorem Carries.send (hc : h.Carries name id log) (envelope : Envelope) :
    (h.send id envelope).Carries name id (log ++ [envelope]) :=
  hc.change (fun _ => Nat.le_refl _) fun q hlog => by rw [Array.toList_push, hlog]

/-- What is sent one after the other. -/
theorem Carries.foldl_send (envelopes : List Envelope) (hc : h.Carries name id log) :
    (envelopes.foldl (fun hub envelope => hub.send id envelope) h).Carries name id
      (log ++ envelopes) := by
  induction envelopes generalizing h log with
  | nil => exact (List.append_nil log).symm ▸ hc
  | cons envelope rest ih =>
    rw [List.foldl_cons, List.append_cons]
    exact ih (hc.send envelope)

theorem nextOrigin_foldl_send (envelopes : List Envelope) :
    (envelopes.foldl (fun hub envelope => hub.send id envelope) h).nextOrigin = h.nextOrigin := by
  induction envelopes generalizing h with
  | nil => rfl
  | cons envelope rest ih => exact ih

theorem Carries.tail_eq (hc : h.Carries name id log) : h.tail id = log.length := by
  obtain ⟨q, hq, hlog⟩ := Option.map_eq_some_iff.mp hc.log_eq
  rw [tail, hq, ← hlog]
  simp

theorem Carries.gives (hc : h.Carries name id log) (position : Nat) :
    ∃ q : Queue, q.sent.toList = log ∧ q.Gives position (h.receive id position) := by
  obtain ⟨q, hq, hlog⟩ := Option.map_eq_some_iff.mp hc.log_eq
  refine ⟨q, hlog, ?_⟩
  rw [receive, hq]
  exact q.gives_receive position

/-- The messages come in the order in which they were sent. -/
theorem Carries.message {position : Nat} {envelope : Envelope} (hc : h.Carries name id log)
    (hgives : (h.receive id position).1 = .message envelope) :
    log[position]? = some envelope ∧ (h.receive id position).2 = position + 1 := by
  obtain ⟨q, rfl, hq⟩ := hc.gives position
  revert hgives hq
  generalize h.receive id position = given
  rintro hgives (hnext | _ | ⟨-, rfl | rfl⟩)
  · cases hgives
    exact ⟨by rw [Array.getElem?_toList, hnext], rfl⟩
  · cases hgives
  · cases hgives
  · cases hgives

/-- A receiver is told how many messages it missed, and comes behind them. -/
theorem Carries.missed {position count : Nat} (hc : h.Carries name id log)
    (hgives : (h.receive id position).1 = .missed count) :
    position + count ≤ log.length ∧ (h.receive id position).2 = position + count := by
  obtain ⟨q, rfl, hq⟩ := hc.gives position
  revert hgives hq
  generalize h.receive id position = given
  rintro hgives (_ | hle | ⟨-, rfl | rfl⟩)
  · cases hgives
  · cases hgives
    exact ⟨by simpa using hle, rfl⟩
  · cases hgives
  · cases hgives

/-- A receiver that gets nothing has passed all that was sent. -/
theorem Carries.drained {position : Nat} (hc : h.Carries name id log)
    (hgives : (h.receive id position).1 = .nothing ∨ (h.receive id position).1 = .closed) :
    log.length ≤ position := by
  obtain ⟨q, rfl, hq⟩ := hc.gives position
  revert hgives hq
  generalize h.receive id position = given
  rintro hgives (_ | _ | ⟨hend, -⟩)
  · rcases hgives with hgives | hgives <;> cases hgives
  · rcases hgives with hgives | hgives <;> cases hgives
  · simpa using hend

/-- What happens elsewhere leaves to a name its queue and what was sent through it. How much of it
is kept for those behind may change at any time. -/
structure Elsewhere (name : String) (id : QueueId) (h h' : Hub) : Prop where
  nextOrigin_le : h.nextOrigin ≤ h'.nextOrigin
  live_eq : h'.live? name = h.live? name
  sent_eq : (h'.queue? id).map Queue.sent = (h.queue? id).map Queue.sent

theorem Carries.elsewhere (hc : h.Carries name id log) (helsewhere : Elsewhere name id h h') :
    h'.Carries name id log where
  live_eq := helsewhere.live_eq.trans hc.live_eq
  log_eq := by
    have hsent := congrArg (Option.map Array.toList) helsewhere.sent_eq
    rw [Option.map_map, Option.map_map] at hsent
    exact hsent.trans hc.log_eq

end Hub

end CanTransport
