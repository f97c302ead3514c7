import CanTransport.Proofs.Bus.Making
import CanTransport.Proofs.Virtual.Sending
/-!
# Delivery on a channel

What the listeners of all buses on a channel get, in whatever order the buses connect, disconnect,
send and receive, and however far their receivers fall behind: of what was said since a connection
began to listen, in its order and each of it once, all that it was not told to have missed.
-/

namespace CanTransport

namespace Peer

variable {i : Nat} {queue : QueueId} {m : Medium} {said : List Said} {p : Peer} {name : String}
  {absent : List Nat}

theorem origin_after (now : Nat) (event : Life.Event) :
    (p.after m now event).bus.origin = p.bus.origin :=
  congrArg Prod.snd (Life.step_after (p.life m) event).address_eq

/-- What a bus does with the hub: it puts into its queue what it says. -/
theorem Kept.hub_after (h : p.Kept i queue m said) (absent : List Nat) (event : Life.Event) :
    ((p.life m).after event).site.medium.hub =
      ((p.saying i m absent event).map Said.envelope).foldl
        (fun hub envelope => hub.send queue envelope) m.hub := by
  cases event with
  | start | subscribe | outside => rfl
  | run id => exact Site.hub_run (p.site m) id
  | act id =>
    show ((p.life m).act id).site.medium.hub = _
    cases (p.life m).moves id with
    | idle hsame hnone =>
      rw [hsame, saying_of_none (hnone _ (by decide))]
      rfl
    | @ends o hfind htodo =>
      have hnone : (p.site m).acting? id .transmit = none :=
        Site.acting?_ne hfind (by rw [htodo]; exact nofun)
      rw [Life.act_of_nil hfind htodo, saying_of_none hnone]
      exact Site.hub_collect _
    | @acts o o' action rest s' hfind htodo hperform =>
      rw [Life.site_goesOn hfind htodo hperform, Site.hub_collect,
        saying_acting absent hfind htodo]
      split
      · rename_i htransmit
        subst htransmit
        simp only [Operation.perform] at hperform
        cases hrequest : o.request with
        | connect | disconnect =>
          simp only [hrequest, Request.wire?] at hperform
          cases hperform
          rfl
        | send frame =>
          simp only [hrequest, Request.wire?] at hperform
          cases hperform
          rw [← h.queue_eq]
          rfl
      · rename_i hne
        exact (Operation.beside_perform hperform).hub_eq hne

/-- Whoever sends neither connects nor disconnects with it. -/
theorem isAway_after {event : Life.Event} {s : Said} (now : Nat)
    (hs : s ∈ p.saying i m absent event) :
    (p.after m now event).bus.isAway = p.bus.isAway := by
  obtain ⟨id, o, rfl, hacting, hrequest, -⟩ := mem_saying hs
  obtain ⟨hfind, haction⟩ := Option.filter_eq_some_iff.mp hacting
  obtain ⟨rest, htodo⟩ : ∃ rest, o.todo = .transmit :: rest := by
    cases hcase : o.todo with
    | nil =>
      rw [hcase] at haction
      cases haction
    | cons action rest =>
      rw [hcase] at haction
      exact ⟨rest, by simpa using haction⟩
  show ((p.site m).advance id).2.bus.isAway = _
  have hperform : ∃ s', { o with todo := rest }.perform (p.site m) .transmit =
      some (s', { o with todo := rest }) ∧ s'.bus = p.bus := by
    simp only [Operation.perform]
    split
    · exact ⟨_, rfl, rfl⟩
    · exact ⟨_, rfl, rfl⟩
  obtain ⟨s', hperform, hbus⟩ := hperform
  rw [Site.advance_goesOn hfind htodo hperform, Site.collect_bus]
  show s'.bus.isAway = _
  rw [hbus]

/-- A bus that was just made on the channel. -/
theorem kept_fresh {b : Bus} (hmade : Site.Made ⟨b, m⟩) (hvirtual : b.transport = .virtual)
    (hqueue : b.queue = queue) : Kept i queue m said { bus := b } where
  sound := Life.sound_of_made hmade
  virtual := hvirtual
  queue_eq := hqueue
  listens o ho := by
    rw [show b.operations = [] from hmade.operations_eq] at ho
    cases ho
  attended := nofun
  latest r hr := by
    rw [show b.receivers = [] from hmade.receivers_eq] at hr
    cases hr
  tasks_nodup := List.nodup_nil
  frames_eq := by
    rw [show b.reception = {} from hmade.reception_eq]
    rfl
  dropped_eq := by
    rw [show b.reception = {} from hmade.reception_eq]
    rfl

theorem speaks_fresh {b : Bus} (hmade : Site.Made ⟨b, m⟩) (hnone : ∀ s ∈ said, s.sender ≠ i) :
    Speaks i said { bus := b } where
  calls_lt s hs hsender := absurd hsender (hnone s hs)
  sends o ho := by
    rw [show b.operations = [] from hmade.operations_eq] at ho
    cases ho

end Peer

namespace Channel

/-- What is known of a channel at every moment. -/
structure Kept (c : Channel) : Prop where
  carries : c.medium.hub.Carries c.name c.queue (c.said.map Said.envelope)
  fresh : c.medium.kernel.Fresh
  peers : ∀ (i : Nat) (p : Peer), c.peers[i]? = some p →
    p.Kept i c.queue c.medium c.said ∧ p.Speaks i c.said ∧
      p.bus.origin < c.medium.hub.nextOrigin
  origins_nodup : (c.peers.map fun p => p.bus.origin).Nodup
  authors : ∀ s ∈ c.said, ∃ p, c.peers[s.sender]? = some p ∧ s.origin = p.bus.origin

variable {c c' : Channel} {event : Event} {medium : Medium}

theorem Kept.outside (h : c.Kept)
    (hspares : Kernel.Spares (fun _ => False) c.medium.kernel medium.kernel)
    (helsewhere : Hub.Elsewhere c.name c.queue c.medium.hub medium.hub) :
    Kept { c with medium := medium } where
  carries := h.carries.elsewhere helsewhere
  fresh := hspares.fresh h.fresh
  peers i p hp := by
    obtain ⟨hkept, hspeaks, horigin⟩ := h.peers i p hp
    exact ⟨hkept.elsewhere hspares, hspeaks, Nat.lt_of_lt_of_le horigin helsewhere.nextOrigin_le⟩
  origins_nodup := h.origins_nodup
  authors := h.authors

theorem Kept.sender_lt (h : c.Kept) : ∀ s ∈ c.said, s.sender < c.peers.length := by
  intro s hs
  obtain ⟨p, hp, -⟩ := h.authors s hs
  exact (List.getElem?_eq_some_iff.mp hp).1

/-- Another bus on the channel finds its queue. -/
theorem Kept.joined {config : BusConfig} {b : Bus} (h : c.Kept)
    (hmake : (Bus.make .virtual c.name config).run c.medium = (.ok b, medium)) :
    Kept { c with medium := medium, peers := c.peers ++ [{ bus := b }] } := by
  obtain ⟨-, hmade⟩ := Bus.made_of_make h.fresh hmake
  obtain ⟨rfl, rfl⟩ := Bus.make_virtual hmake
  obtain ⟨hqueue, hcarries⟩ := h.carries.attach config.listenerCapacity.toNat
  have hnext : (c.medium.hub.attach c.name config.listenerCapacity.toNat).2.nextOrigin =
      c.medium.hub.nextOrigin := by
    unfold Hub.attach
    split <;> rfl
  have hlt : ∀ (i : Nat) (p : Peer), c.peers[i]? = some p → p.bus.origin < c.medium.hub.nextOrigin :=
    fun i p hp => (h.peers i p hp).2.2
  refine ⟨?_, h.fresh, ?_, ?_, ?_⟩
  · exact ⟨hcarries.live_eq, hcarries.log_eq⟩
  · intro i p hp
    rcases Nat.lt_or_ge i c.peers.length with hold | hnew
    · rw [List.getElem?_append_left hold] at hp
      obtain ⟨hkept, hspeaks, horigin⟩ := h.peers i p hp
      refine ⟨hkept.elsewhere (Kernel.Spares.refl _), hspeaks, ?_⟩
      show p.bus.origin < _ + 1
      rw [hnext]
      exact Nat.lt_succ_of_lt horigin
    · rw [List.getElem?_append_right hnew] at hp
      obtain rfl := List.mem_singleton.mp (List.mem_of_getElem? hp)
      refine ⟨Peer.kept_fresh hmade rfl hqueue, Peer.speaks_fresh hmade fun s hs => ?_,
        Nat.lt_succ_self _⟩
      exact Nat.ne_of_lt (Nat.lt_of_lt_of_le (h.sender_lt s hs) hnew)
  · rw [List.map_append, List.nodup_append]
    refine ⟨h.origins_nodup, List.nodup_singleton _, fun origin horigin other hother => ?_⟩
    obtain ⟨p, hp, rfl⟩ := List.mem_map.mp horigin
    obtain ⟨i, hi⟩ := List.mem_iff_getElem?.mp hp
    cases List.mem_singleton.mp hother
    show p.bus.origin ≠ (c.medium.hub.attach c.name config.listenerCapacity.toNat).2.nextOrigin
    rw [hnext]
    exact Nat.ne_of_lt (hlt i p hi)
  · intro s hs
    obtain ⟨p, hp, horigin⟩ := h.authors s hs
    exact ⟨p, (List.getElem?_append_left (h.sender_lt s hs)).trans hp, horigin⟩

/-- What is said with an event of a bus is said by it. -/
theorem said_by {i : Nat} {p : Peer} {s : Said} {event : Life.Event}
    (hs : s ∈ p.saying i c.medium c.absent event) :
    s.sender = i ∧ s.origin = p.bus.origin ∧ s.absent = c.absent := by
  obtain ⟨_, _, -, -, -, hsender, -, hrest⟩ := Peer.mem_saying hs
  exact ⟨hsender, hrest⟩

theorem origins_set {i : Nat} {p p' : Peer} (hpeer : c.peers[i]? = some p)
    (horigin : p'.bus.origin = p.bus.origin) :
    ((c.peers.set i p').map fun p => p.bus.origin) = c.peers.map fun p => p.bus.origin := by
  obtain ⟨hlt, rfl⟩ := List.getElem?_eq_some_iff.mp hpeer
  have hlt' : i < (c.peers.map fun p => p.bus.origin).length := by rwa [List.length_map]
  have hsame : (c.peers.map fun p => p.bus.origin)[i] = c.peers[i].bus.origin := List.getElem_map _
  rw [List.map_set, horigin, ← hsame, List.set_getElem_self]

theorem Kept.authors_on {i : Nat} {p : Peer} (h : c.Kept) (hpeer : c.peers[i]? = some p)
    (event : Life.Event) :
    ∀ s ∈ c.said ++ p.saying i c.medium c.absent event, ∃ q,
      (c.peers.set i (p.after c.medium c.said.length event))[s.sender]? = some q ∧
        s.origin = q.bus.origin := by
  intro s hs
  have hlt := (List.getElem?_eq_some_iff.mp hpeer).1
  have horigin := Peer.origin_after (p := p) (m := c.medium) c.said.length event
  rcases List.mem_append.mp hs with hold | hnew
  · obtain ⟨q, hq, hsaid⟩ := h.authors s hold
    by_cases hsame : i = s.sender
    · subst hsame
      cases hpeer.symm.trans hq
      exact ⟨_, List.getElem?_set_self hlt, hsaid.trans horigin.symm⟩
    · exact ⟨q, (List.getElem?_set_ne hsame).trans hq, hsaid⟩
  · obtain ⟨hfrom, hsaid, -⟩ := said_by hnew
    rw [hfrom]
    exact ⟨_, List.getElem?_set_self hlt, hsaid.trans horigin.symm⟩

/-- What happens on one of the buses. -/
theorem Kept.on {i : Nat} {p : Peer} (h : c.Kept) (hpeer : c.peers[i]? = some p)
    (event : Life.Event) :
    Kept { c with
      medium := ((p.life c.medium).after event).site.medium
      peers := c.peers.set i (p.after c.medium c.said.length event)
      said := c.said ++ p.saying i c.medium c.absent event } := by
  obtain ⟨hkept, hspeaks, horigin⟩ := h.peers i p hpeer
  have hhub := hkept.hub_after c.absent event
  have hnext : ((p.life c.medium).after event).site.medium.hub.nextOrigin =
      c.medium.hub.nextOrigin := by
    rw [hhub, Hub.nextOrigin_foldl_send]
  have hspares : Kernel.Spares (fun _ => False) c.medium.kernel
      ((p.life c.medium).after event).site.medium.kernel :=
    Life.spares_after (w := p.life c.medium) h.fresh event
  refine ⟨?_, hspares.fresh h.fresh, fun j q hq => ?_, ?_, h.authors_on hpeer event⟩
  · show ((p.life c.medium).after event).site.medium.hub.Carries _ _ _
    rw [hhub, List.map_append]
    exact h.carries.foldl_send _
  · -- The bus itself keeps its own account; to all others only what it said is new.
    by_cases hsame : i = j
    · subst hsame
      rw [List.getElem?_set_self (List.getElem?_eq_some_iff.mp hpeer).1] at hq
      cases hq
      refine ⟨(hkept.after h.carries event).append fun s hs habsent => ?_,
        hspeaks.after hkept _ _ event, ?_⟩
      · rw [Peer.isAway_after _ hs]
        exact mem_absent hpeer ((said_by hs).2.2 ▸ habsent)
      · rw [Peer.origin_after]
        exact hnext ▸ horigin
    · rw [List.getElem?_set_ne hsame] at hq
      obtain ⟨hkept', hspeaks', horigin'⟩ := h.peers j q hq
      refine ⟨(hkept'.elsewhere hspares).append fun s hs habsent => ?_,
        hspeaks'.append fun s hs => (said_by hs).1 ▸ hsame, hnext ▸ horigin'⟩
      exact mem_absent hq ((said_by hs).2.2 ▸ habsent)
  · exact origins_set hpeer (Peer.origin_after _ event) ▸ h.origins_nodup

/-- Whatever happens on a channel, what is known of it stays true. -/
theorem Kept.after (h : c.Kept) (event : Event) : (c.after event).Kept := by
  cases event with
  | join config =>
    rcases hmake : (Bus.make .virtual c.name config).run c.medium with ⟨_ | b, medium⟩
    · obtain rfl := Bus.medium_of_make_virtual hmake
      simp only [Channel.after, hmake]
      exact h
    · simp only [Channel.after, hmake]
      exact h.joined hmake
  | on i event =>
    cases hpeer : c.peers[i]? with
    | none =>
      simp only [Channel.after, hpeer]
      exact h
    | some p =>
      simp only [Channel.after, hpeer]
      exact h.on hpeer event
  | outside => exact h

theorem Run.kept (hrun : c.Run c') (h : c.Kept) : c'.Kept := by
  induction hrun with
  | refl => exact h
  | step _ hstep ih =>
    cases hstep with
    | own => exact ih.after _
    | outside hspares helsewhere => exact ih.outside hspares helsewhere

theorem kept_opened {name : String} {config : BusConfig} {m m' : Medium} {b : Bus}
    (hfresh : m.kernel.Fresh) (hproper : m.hub.Proper) (hunused : m.hub.live? name = none)
    (hmake : (Bus.make .virtual name config).run m = (.ok b, m')) : (opened name b m').Kept := by
  obtain ⟨-, hmade⟩ := Bus.made_of_make hfresh hmake
  obtain ⟨rfl, rfl⟩ := Bus.make_virtual hmake
  have hcarries := Hub.carries_attach config.listenerCapacity.toNat hproper hunused
  refine ⟨⟨hcarries.live_eq, hcarries.log_eq⟩, hfresh, fun i p hp => ?_, List.nodup_singleton _, nofun⟩
  obtain rfl := List.mem_singleton.mp (List.mem_of_getElem? hp)
  exact ⟨Peer.kept_fresh hmade rfl rfl, Peer.speaks_fresh hmade nofun, Nat.lt_succ_self _⟩

end Channel

/-! ## What the listeners get -/

namespace Peer

/-- Whether the listener of the bus with a number is to hear of an entry. -/
def listensTo (i : Nat) (p : Peer) (s : Said) : Bool :=
  p.bus.config.receiveOwnMessages || s.sender != i

/-- Whether the task of a connection has handed on what it got and would get nothing more. -/
def isDrained (m : Medium) (p : Peer) (a : Attendance) : Bool :=
  (p.bus.receiver? a.task).any fun r =>
    r.stage.hand.isNone && (m.hub.receive p.bus.queue r.position).1.told.isEmpty

end Peer

/-- What the listener of a connection of the bus with a number got. -/
structure Attendance.Delivered (i : Nat) (c : Channel) (p : Peer) (a : Attendance) : Prop where
  /-- In order and each of it once, of what was said since the connection began to listen and while
  it was there, without the bus's own if it does not want it. -/
  sublist : a.frames.Sublist (((c.said.drop a.since).filter fun s =>
    p.listensTo i s && i ∉ s.absent).map Said.frame)
  /-- All of it, if nothing was missed and nothing is left. -/
  complete : p.isDrained c.medium a = true → a.missed = 0 →
    a.frames = ((c.said.drop a.since).filter (p.listensTo i)).map Said.frame
  balance : p.isDrained c.medium a = true →
    a.frames.length + a.skipped p.bus + a.missed = (c.said.drop a.since).length
  dropped_eq : a.dropped = UInt64.ofNat a.missed

namespace Channel

/-- What is true of a channel at every moment. -/
structure Delivers (c : Channel) : Prop where
  queue_eq : (c.medium.hub.queue? c.queue).map (·.sent.toList) = some (c.said.map Said.envelope)
  /-- A send that reports success has put its frame into the queue once, any other never. -/
  sends : ∀ (i : Nat) (p : Peer), c.peers[i]? = some p → ∀ id o frame outcome,
    (p.site c.medium).operation? id = some o → o.request = .send frame →
    ((p.site c.medium).advance id).1 = .ends outcome →
    (outcome = .ok () ∧ spoken c.said i id = [frame]) ∨
      (outcome = .error .notConnected ∧ spoken c.said i id = [])
  /-- The task of a bus is that of the connection made last. -/
  latest : ∀ (i : Nat) (p : Peer), c.peers[i]? = some p → ∀ r ∈ p.bus.receivers,
    ∃ before a, p.attended = before ++ [a] ∧ a.task = r.id
  frames_eq : ∀ (i : Nat) (p : Peer), c.peers[i]? = some p →
    p.bus.reception.frames = p.attended.flatMap Attendance.frames
  dropped_eq : ∀ (i : Nat) (p : Peer), c.peers[i]? = some p →
    p.bus.reception.stats.dropped = (p.attended.map Attendance.dropped).sum
  delivered : ∀ (i : Nat) (p : Peer), c.peers[i]? = some p → ∀ a ∈ p.attended, a.Delivered i c p

variable {c : Channel} {i : Nat} {p : Peer} {a : Attendance}

theorem Kept.hears_eq (h : c.Kept) (hpeer : c.peers[i]? = some p) :
    ∀ s ∈ c.said, p.bus.hears s = p.listensTo i s := by
  intro s hs
  obtain ⟨q, hq, horigin⟩ := h.authors s hs
  -- No two buses have one number, so that whoever shares it is the sender.
  have hsame : s.origin = p.bus.origin ↔ s.sender = i := by
    rw [horigin]
    refine ⟨fun heq => ?_, fun heq => ?_⟩
    · refine (List.getElem?_inj (l := c.peers.map fun p => p.bus.origin) ?_ h.origins_nodup).mp ?_
      · rw [List.length_map]
        exact h.sender_lt s hs
      · rw [List.getElem?_map, List.getElem?_map, hq, hpeer, Option.map_some, heq, Option.map_some]
    · subst heq
      cases hpeer.symm.trans hq
      rfl
  rw [Bus.hears, Peer.listensTo, Bool.eq_iff_iff]
  simp [hsame]

/-- Whoever has nothing at hand and gets nothing more has passed all that was said. -/
theorem Kept.drained (h : c.Kept) (hpeer : c.peers[i]? = some p)
    (hdrained : p.isDrained c.medium a = true) : ∃ r ∈ p.bus.receivers, r.id = a.task ∧
      r.stage.hand = none ∧ c.said.length ≤ r.position := by
  obtain ⟨r, hfind, hr⟩ := (Option.any_eq_true _ _).mp hdrained
  rw [Bool.and_eq_true, Option.isNone_iff_eq_none, List.isEmpty_iff] at hr
  obtain ⟨hmem, hid⟩ := Bus.receiver?_mem hfind
  refine ⟨r, hmem, hid, hr.1, ?_⟩
  rw [← List.length_map (f := Said.envelope)]
  apply h.carries.drained
  rw [(h.peers i p hpeer).1.queue_eq] at hr
  revert hr
  cases (c.medium.hub.receive c.queue r.position).1 with
  | nothing => exact fun _ => Or.inl rfl
  | closed => exact fun _ => Or.inr rfl
  | message | missed => exact fun hr => nomatch hr.2

theorem Kept.delivered (h : c.Kept) (hpeer : c.peers[i]? = some p) (ha : a ∈ p.attended) :
    a.Delivered i c p := by
  have hkept := (h.peers i p hpeer).1
  obtain ⟨-, position, pending, hfollows, htracks⟩ := hkept.attended a ha
  have hhears : ∀ s ∈ c.said.drop a.since, p.bus.hears s = p.listensTo i s := fun s hs =>
    h.hears_eq hpeer s (List.mem_of_mem_drop hs)
  have hend : p.isDrained c.medium a = true → pending = none ∧ position = c.said.length := by
    intro hdrained
    obtain ⟨r, hmem, hid, hhand, hle⟩ := h.drained hpeer hdrained
    have htrack := htracks r hmem hid
    obtain ⟨taken, hreads, -⟩ := hfollows.reads
    refine ⟨Option.map_eq_none_iff.mp (htrack.holds.symm.trans hhand), ?_⟩
    exact Nat.le_antisymm hreads.position_le (htrack.position_eq ▸ hle)
  refine ⟨?_, fun hdrained hnone => ?_, fun hdrained => ?_, hfollows.dropped_eq⟩
  · have hfilter : ((c.said.drop a.since).filter fun s => p.listensTo i s && i ∉ s.absent) =
        (c.said.drop a.since).filter fun s => p.bus.hears s && !i ∈ s.absent := by
      apply List.filter_congr
      intro s hs
      rw [hhears s hs]
      simp
    rw [hfilter]
    exact hfollows.sublist
  · obtain ⟨rfl, hposition⟩ := hend hdrained
    rw [hfollows.frames_eq hposition hnone, List.filter_congr hhears]
  · obtain ⟨rfl, hposition⟩ := hend hdrained
    have hbalance := hfollows.balance
    rw [List.length_drop]
    omega

/-- Whatever the buses on a channel do and however far they fall behind, what their listeners get is
what was said, but for what they were told to have missed. -/
theorem delivers_of_run {name : String} {config : BusConfig} {m m' : Medium} {b : Bus}
    (hfresh : m.kernel.Fresh) (hproper : m.hub.Proper) (hunused : m.hub.live? name = none)
    (hmake : (Bus.make .virtual name config).run m = (.ok b, m')) {c : Channel}
    (hrun : (opened name b m').Run c) : c.Delivers := by
  have h := hrun.kept (kept_opened hfresh hproper hunused hmake)
  refine ⟨h.carries.log_eq, ?_, fun i p hp => (h.peers i p hp).1.latest,
    fun i p hp => (h.peers i p hp).1.frames_eq, fun i p hp => (h.peers i p hp).1.dropped_eq,
    fun i p hp a ha => h.delivered hp ha⟩
  intro i p hp id o frame outcome hfind hrequest hends
  obtain ⟨htodo, rfl⟩ := Life.advance_eq_ends (w := p.life c.medium) hfind hends
  obtain ⟨hmem, hid⟩ := Site.operation?_mem hfind
  exact hid ▸ ((h.peers i p hp).2.1.sends o hmem frame hrequest).outcome_iff htodo

/-- A call on a bus that nobody disturbs, up to its end. -/
def calling (i : Nat) (id : OperationId) (request : Request) : List Event :=
  (Life.calling id request).map (.on i)

/-- Three sends before anybody reads, one while the second bus is away, and one after that. -/
def bursts (frame : UInt32 → Frame) : List Event :=
  .join { receiveOwnMessages := true } ::
    (calling 0 0 .connect ++ calling 1 0 .connect ++ calling 0 2 (.send (frame 1)) ++
      calling 1 2 (.send (frame 2)) ++ calling 0 3 (.send (frame 3)) ++
      List.replicate 4 (.on 0 (.run 1)) ++ List.replicate 5 (.on 1 (.run 1)) ++
      .on 1 (.start .disconnect) :: List.replicate 3 (.on 1 (.act 3)) ++ List.replicate 3 (.on 1 (.run 1)) ++
      List.replicate 4 (.on 1 (.act 3)) ++ calling 0 4 (.send (frame 4)) ++
      calling 1 4 .connect ++ calling 0 5 (.send (frame 5)) ++
      List.replicate 2 (.on 1 (.run 5)) ++ List.replicate 2 (.on 0 (.run 1)))

/-- Two buses on a queue of two messages: both miss the first frame; the one that does not want its
own gets none of them, and the other nothing that was sent while it was away. -/
theorem delivers_bursts : ∃ b m',
    (Bus.make .virtual "bench" { listenerCapacity := 2 }).run {} = (.ok b, m') ∧
    (let c := (opened "bench" b m').replay (bursts fun n => ⟨n, 0, 1, Frame.padded [7], by decide⟩)
     (c.peers.map fun p => p.attended.map fun a =>
        (a.since, a.frames.map Frame.rawId, a.skipped p.bus, a.missed, p.isDrained c.medium a)) =
      [[(0, [2], 3, 1, true)], [(0, [2, 3], 0, 1, false), (4, [5], 0, 0, true)]] ∧
      c.Delivers) := by
  obtain ⟨b, m', hmake, hfacts⟩ : ∃ b m',
      (Bus.make .virtual "bench" { listenerCapacity := 2 }).run {} = (.ok b, m') ∧
      (let c := (opened "bench" b m').replay
         (bursts fun n => ⟨n, 0, 1, Frame.padded [7], by decide⟩)
       (c.peers.map fun p => p.attended.map fun a =>
          (a.since, a.frames.map Frame.rawId, a.skipped p.bus, a.missed, p.isDrained c.medium a)) =
        [[(0, [2], 3, 1, true)], [(0, [2, 3], 0, 1, false), (4, [5], 0, 0, true)]]) :=
    ⟨_, _, rfl, by decide +kernel⟩
  refine ⟨b, m', hmake, hfacts, ?_⟩
  exact delivers_of_run (fun _ _ => rfl) Hub.proper_empty rfl hmake
    (run_replay _ (by decide +kernel))

end Channel

end CanTransport
