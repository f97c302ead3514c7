import CanTransport.Proofs.Virtual.Fleet
/-!
# What a name stands for

The hub does not count how often a name is used: that an entry may go is read off the handles to its
queue, which drops under way keep up. Still two buses that are there share a queue exactly if their
channels have one name. If drops overlap, an entry can outlive its queue, until the next queue is
made.
-/

namespace CanTransport

namespace Hub

variable {h : Hub} {name : String} {id : QueueId}

theorem Proper.lt_next {capacity : Nat} (hproper : h.Proper)
    (hcapacity : h.capacity? id = some capacity) : id < h.next := by
  obtain ⟨q, hq, -⟩ := Option.map_eq_some_iff.mp hcapacity
  obtain ⟨before, after, heq, -⟩ := List.lookup_eq_some_iff.mp hq
  refine hproper.numbers_lt id ?_
  rw [heq, List.map_append]
  exact List.mem_append_right _ List.mem_cons_self

theorem Proper.handles_next (hproper : h.Proper) : h.handles h.next = 0 := by
  rw [handles, hproper.queue?_next]
  rfl

theorem mem_entries_of_lookup (hlookup : h.entries.lookup name = some id) :
    (name, id) ∈ h.entries := by
  obtain ⟨before, after, heq, -⟩ := List.lookup_eq_some_iff.mp hlookup
  rw [heq]
  exact List.mem_append_right _ List.mem_cons_self

theorem Proper.handles_attach (hproper : h.Proper) (hnone : h.live? name = none) (capacity : Nat)
    (id : QueueId) : (h.attach name capacity).2.handles id =
      if id = h.next then 1 else h.handles id := by
  rw [handles, hproper.queue?_attach hnone]
  split
  · rfl
  · rfl

theorem Proper.capacity?_attach (hproper : h.Proper) (hnone : h.live? name = none)
    (capacity : Nat) (id : QueueId) : (h.attach name capacity).2.capacity? id =
      if id = h.next then some (Queue.ofCapacity capacity).capacity else h.capacity? id := by
  rw [capacity?, hproper.queue?_attach hnone]
  split
  · rfl
  · rfl

end Hub

namespace Fleet

/-- What the hub knows of the buses. -/
structure Kept (f : Fleet) : Prop where
  proper : f.medium.hub.Proper
  virtual : ∀ b ∈ f.berths, b.bus.transport = .virtual
  handles_eq : ∀ id, f.medium.hub.handles id = f.berths.countP (Berth.holds id)
  /-- A queue has the capacity that the first bus on it asked for. -/
  sized : ∀ t ∈ f.tickets, ∃ first, f.tickets.find? (·.queue == t.queue) = some first ∧
    f.medium.hub.capacity? t.queue = some (Queue.ofCapacity first.asked).capacity
  /-- A queue never serves two names. -/
  named : ∀ t ∈ f.tickets, ∀ u ∈ f.tickets, t.queue = u.queue → t.channel = u.channel
  entered : ∀ entry ∈ f.medium.hub.entries,
    ∃ t ∈ f.tickets, t.channel = entry.1 ∧ t.queue = entry.2
  mapped : ∀ b ∈ f.berths, b.phase = .alive → f.queueOf b.bus.channel = some b.bus.queue

variable {f : Fleet} {i : Nat} {b : Berth} {s : Site} {phase : DropPhase} {channel : String}
  {c : BusConfig} {bus : Bus} {m m' : Medium}

theorem kept_initial (m : Medium) : (initial m).Kept where
  proper := Hub.proper_empty
  virtual _ hb := absurd hb List.not_mem_nil
  handles_eq _ := rfl
  sized _ ht := absurd ht List.not_mem_nil
  named _ ht := absurd ht List.not_mem_nil
  entered _ he := absurd he List.not_mem_nil
  mapped _ hb := absurd hb List.not_mem_nil

theorem mem_tickets (hb : b ∈ f.berths) : b.ticket ∈ f.tickets := List.mem_map_of_mem hb

theorem holds_iff {id : QueueId} : b.holds id = true ↔ b.phase ≠ .gone ∧ b.bus.queue = id := by
  simp [Berth.holds]

theorem Kept.handles_pos (h : f.Kept) (hb : b ∈ f.berths) (hphase : b.phase ≠ .gone) :
    0 < f.medium.hub.handles b.bus.queue := by
  rw [h.handles_eq]
  exact List.countP_pos_iff.mpr ⟨b, hb, holds_iff.mpr ⟨hphase, rfl⟩⟩

/-- Whoever has a handle to the queue of an entry is on the channel of the entry. -/
theorem Kept.exists_holder (h : f.Kept) {entry : String × QueueId}
    (hentry : entry ∈ f.medium.hub.entries) (hpos : 0 < f.medium.hub.handles entry.2) :
    ∃ b ∈ f.berths, b.phase ≠ .gone ∧ b.bus.channel = entry.1 ∧ b.bus.queue = entry.2 := by
  rw [h.handles_eq] at hpos
  obtain ⟨b, hb, hholds⟩ := List.countP_pos_iff.mp hpos
  obtain ⟨hphase, hqueue⟩ := holds_iff.mp hholds
  obtain ⟨t, ht, hchannel, hqueue'⟩ := h.entered entry hentry
  have hsame := h.named _ (mem_tickets hb) t ht (hqueue.trans hqueue'.symm)
  exact ⟨b, hb, hphase, hsame.trans hchannel, hqueue⟩

theorem Kept.queue_lt_next (h : f.Kept) {t : Ticket} (ht : t ∈ f.tickets) :
    t.queue < f.medium.hub.next := by
  obtain ⟨first, -, hcapacity⟩ := h.sized t ht
  exact h.proper.lt_next hcapacity

theorem Kept.queue_ne_next (h : f.Kept) {t : Ticket} (ht : t ∈ f.tickets) :
    t.queue ≠ f.medium.hub.next := (h.queue_lt_next ht).ne

/-! ### A bus that is there already -/

/-- What happens on one bus, as far as the hub is concerned. -/
theorem Kept.settled (h : f.Kept) (hb : f.berths[i]? = some b) (hkeeps : b.bus.Keeps s.bus)
    (hproper : s.medium.hub.Proper)
    (hentries : ∀ entry ∈ s.medium.hub.entries, entry ∈ f.medium.hub.entries)
    (hcapacity : ∀ id, s.medium.hub.capacity? id = f.medium.hub.capacity? id)
    (hhandles : ∀ id, s.medium.hub.handles id =
      (f.settle i s phase).berths.countP (Berth.holds id))
    (hmapped : ∀ b' ∈ (f.settle i s phase).berths, b'.phase = .alive →
      s.medium.hub.entries.lookup b'.bus.channel = some b'.bus.queue) :
    (f.settle i s phase).Kept := by
  have htickets := tickets_settle phase hb hkeeps
  refine ⟨hproper, ?_, hhandles, ?_, ?_, ?_, hmapped⟩
  · intro b' hb'
    rcases List.mem_or_eq_of_mem_set hb' with hold | rfl
    · exact h.virtual b' hold
    · exact hkeeps.transport_eq.trans (h.virtual b (List.mem_of_getElem? hb))
  · rw [htickets]
    intro t ht
    obtain ⟨first, hfirst, hsize⟩ := h.sized t ht
    exact ⟨first, hfirst, (hcapacity t.queue).trans hsize⟩
  · rw [htickets]
    exact h.named
  · rw [htickets]
    exact fun entry hentry => h.entered entry (hentries entry hentry)

/-- A bus that goes on has the handles that it had. -/
theorem countP_settle_same (hb : f.berths[i]? = some b) (hkeeps : b.bus.Keeps s.bus)
    (hphase : phase ≠ .gone ↔ b.phase ≠ .gone) (id : QueueId) :
    (f.settle i s phase).berths.countP (Berth.holds id) = f.berths.countP (Berth.holds id) := by
  have hsame : Berth.holds id { bus := s.bus, phase := phase } = b.holds id := by
    rw [Bool.eq_iff_iff, holds_iff, holds_iff, hphase, hkeeps.queue_eq]
  rw [countP_settle hb, hsame]
  split
  · rename_i hholds
    have hpos : 0 < f.berths.countP (Berth.holds id) :=
      List.countP_pos_iff.mpr ⟨b, List.mem_of_getElem? hb, hholds⟩
    omega
  · omega

/-- Of the handles to a queue one less is left when a bus is gone. -/
theorem countP_settle_gone (hb : f.berths[i]? = some b) (hphase : b.phase ≠ .gone)
    (id : QueueId) : (f.settle i s .gone).berths.countP (Berth.holds id) =
      if id = b.bus.queue then f.berths.countP (Berth.holds id) - 1
      else f.berths.countP (Berth.holds id) := by
  have hgone : Berth.holds id { bus := s.bus, phase := .gone } = false := rfl
  rw [countP_settle hb, hgone]
  by_cases hid : id = b.bus.queue
  · rw [if_pos (holds_iff.mpr ⟨hphase, hid.symm⟩), if_pos hid]
    rfl
  · rw [if_neg (fun hholds => hid (holds_iff.mp hholds).2.symm), if_neg hid]
    rfl

/-- Of two buses on a queue neither has the last handle. -/
theorem Kept.handles_eq_one_iff (h : f.Kept) (hb : f.berths[i]? = some b)
    (hphase : b.phase ≠ .gone) : f.medium.hub.handles b.bus.queue = 1 ↔
      ∀ j b', j ≠ i → f.berths[j]? = some b' → b'.phase ≠ .gone → b'.bus.queue ≠ b.bus.queue := by
  have hcount := countP_settle_gone (s := ⟨b.bus, f.medium⟩) hb hphase b.bus.queue
  have hpos := h.handles_pos (List.mem_of_getElem? hb) hphase
  rw [if_pos rfl, ← h.handles_eq] at hcount
  constructor
  · intro hone j b' hne hb' hphase' hqueue
    have hmem : b' ∈ (f.settle i ⟨b.bus, f.medium⟩ .gone).berths :=
      List.mem_of_getElem? ((berth_settle_ne hne).trans hb')
    have hother : 0 < (f.settle i ⟨b.bus, f.medium⟩ .gone).berths.countP
        (Berth.holds b.bus.queue) :=
      List.countP_pos_iff.mpr ⟨b', hmem, holds_iff.mpr ⟨hphase', hqueue⟩⟩
    omega
  · intro hothers
    have hnone : (f.settle i ⟨b.bus, f.medium⟩ .gone).berths.countP
        (Berth.holds b.bus.queue) = 0 := by
      rw [List.countP_eq_zero]
      intro b' hmem hholds
      obtain ⟨hphase', hqueue⟩ := holds_iff.mp hholds
      obtain ⟨j, hj⟩ := List.mem_iff_getElem?.mp hmem
      by_cases hji : j = i
      · subst hji
        cases hj.symm.trans (berth_settle hb)
        exact hphase' rfl
      · exact hothers j b' hji ((berth_settle_ne hji).symm.trans hj) hphase' hqueue
    omega

/-- What callers and tasks do. -/
theorem Kept.went_on (h : f.Kept) (hb : f.berths[i]? = some b) (event : Life.Event) :
    (f.settle i (({ site := ⟨b.bus, f.medium⟩ } : Life).after event).site b.phase).Kept := by
  have hkeeps := Life.keeps_after { site := ⟨b.bus, f.medium⟩ } event
  have hhub := Life.hub_after { site := ⟨b.bus, f.medium⟩ } event
  generalize (({ site := ⟨b.bus, f.medium⟩ } : Life).after event).site = s at hkeeps hhub
  have hcount : ∀ id, (f.settle i s b.phase).berths.countP (Berth.holds id) =
      f.berths.countP (Berth.holds id) := countP_settle_same hb hkeeps Iff.rfl
  have hentries : s.medium.hub.entries = f.medium.hub.entries := by
    rcases hhub with heq | ⟨envelope, heq⟩
    · rw [heq]
    · rw [heq]
      rfl
  refine h.settled hb hkeeps ?_ ?_ ?_ ?_ ?_
  · rcases hhub with heq | ⟨envelope, heq⟩
    · rw [heq]
      exact h.proper
    · rw [heq]
      exact h.proper.change _ _
  · rw [hentries]
    exact fun _ hentry => hentry
  · intro id
    rcases hhub with heq | ⟨envelope, heq⟩
    · rw [heq]
    · rw [heq]
      exact Hub.capacity?_send _ id envelope
  · intro id
    rw [hcount, ← h.handles_eq]
    rcases hhub with heq | ⟨envelope, heq⟩
    · rw [heq]
    · rw [heq]
      exact Hub.handles_send _ id envelope
  · intro b' hb' halive
    rw [hentries]
    rcases List.mem_or_eq_of_mem_set hb' with hold | rfl
    · exact h.mapped b' hold halive
    · show f.queueOf s.bus.channel = some s.bus.queue
      rw [hkeeps.channel_eq, hkeeps.queue_eq]
      exact h.mapped b (List.mem_of_getElem? hb) halive

theorem forgetChannel_eq (hvirtual : bus.transport = .virtual) :
    Site.forgetChannel ⟨bus, m⟩ =
      ⟨bus, { m with hub := m.hub.forget bus.channel bus.queue }⟩ := by
  rw [Site.forgetChannel]
  simp only [hvirtual]
  rfl

/-- A name is forgotten only with the last bus on it. -/
theorem Kept.forgot (h : f.Kept) (hb : f.berths[i]? = some b) (halive : b.phase = .alive) :
    (f.settle i (Site.forgetChannel ⟨b.bus, f.medium⟩) .leaving).Kept := by
  have hmem := List.mem_of_getElem? hb
  have hphase : b.phase ≠ .gone := by rw [halive]; decide
  rw [forgetChannel_eq (h.virtual b hmem)]
  refine h.settled hb (.refl _) (h.proper.forget _ _) (fun _ => Hub.mem_entries_forget)
    (Hub.capacity?_forget _ _) ?_ ?_
  · intro id
    rw [countP_settle_same hb (.refl _) (iff_of_true (by decide) hphase), ← h.handles_eq]
    exact Hub.handles_forget _ _ id
  · intro b' hb' halive'
    obtain ⟨j, hj⟩ := List.mem_iff_getElem?.mp hb'
    by_cases hji : j = i
    · subst hji
      cases hj.symm.trans (berth_settle hb)
      cases halive'
    · have hold := (berth_settle_ne hji).symm.trans hj
      have hlookup := h.mapped b' (List.mem_of_getElem? hold) halive'
      have hphase' : b'.phase ≠ .gone := by rw [halive']; decide
      show (f.medium.hub.forget b.bus.channel b.bus.queue).entries.lookup b'.bus.channel = _
      by_cases hchannel : b'.bus.channel = b.bus.channel
      · -- the other bus has the same queue, so that more than one handle is left
        have hqueue : b'.bus.queue = b.bus.queue := by
          have hlookup' := h.mapped b hmem halive
          rw [← hchannel] at hlookup'
          exact Option.some.inj (hlookup.symm.trans hlookup')
        have hnot : f.medium.hub.handles b.bus.queue ≠ 1 := fun hone =>
          (h.handles_eq_one_iff hb hphase).mp hone j b' hji hold hphase' hqueue
        rw [Hub.forget, if_neg fun hlast => hnot hlast.2]
        exact hlookup
      · rw [Hub.lookup_forget_ne hchannel]
        exact hlookup

theorem letGo_eq (hvirtual : bus.transport = .virtual) :
    (Site.letGo ⟨bus, m⟩).medium.hub = m.hub.detach bus.queue ∧
      bus.Keeps (Site.letGo ⟨bus, m⟩).bus := by
  rw [Site.letGo]
  simp only [hvirtual, Site.hub_collect, Site.collect_bus]
  exact ⟨rfl, hvirtual.symm, rfl, rfl, rfl⟩

theorem Kept.detached (h : f.Kept) (hb : f.berths[i]? = some b) (hleaving : b.phase = .leaving) :
    (f.settle i (Site.letGo ⟨b.bus, f.medium⟩) .gone).Kept := by
  have hphase : b.phase ≠ .gone := by rw [hleaving]; decide
  obtain ⟨hhub, hkeeps⟩ := letGo_eq (m := f.medium) (h.virtual b (List.mem_of_getElem? hb))
  generalize Site.letGo ⟨b.bus, f.medium⟩ = s at hhub hkeeps
  refine h.settled hb hkeeps ?_ ?_ ?_ ?_ ?_
  · rw [hhub]
    exact h.proper.change _ _
  · rw [hhub]
    exact fun _ hentry => hentry
  · rw [hhub]
    exact Hub.capacity?_detach _
  · intro id
    rw [countP_settle_gone hb hphase, hhub, ← h.handles_eq]
    split
    · rename_i hid
      rw [hid]
      exact Hub.handles_detach _
    · rename_i hid
      exact Hub.handles_change_ne _ hid
  · intro b' hb' halive'
    rw [hhub]
    rcases List.mem_or_eq_of_mem_set hb' with hold | rfl
    · exact h.mapped b' hold halive'
    · cases halive'

/-! ### A bus that is made -/

/-- What a bus that is made shares with the hub. -/
structure Joins (h : Hub) (channel : String) (c : BusConfig) (bus : Bus) (h' : Hub) : Prop where
  transport_eq : bus.transport = .virtual
  channel_eq : bus.channel = channel
  config_eq : bus.config = c
  queue_eq : bus.queue = (h.attach channel c.listenerCapacity.toNat).1
  hub_eq : h' = { (h.attach channel c.listenerCapacity.toNat).2 with nextOrigin := h'.nextOrigin }

theorem joins_of_make (h : (Bus.make .virtual channel c).run m = (.ok bus, m')) :
    Joins m.hub channel c bus m'.hub := by
  obtain ⟨rfl, rfl⟩ := Bus.make_virtual h
  exact ⟨rfl, rfl, rfl, rfl, rfl⟩

namespace Joins

variable {h h' : Hub}

theorem proper (hjoins : Joins h channel c bus h') (hproper : h.Proper) : h'.Proper := by
  have hattached := hproper.attach channel c.listenerCapacity.toNat
  rw [hjoins.hub_eq]
  exact ⟨hattached.numbers_lt, hattached.names_nodup⟩

theorem entries_eq (hjoins : Joins h channel c bus h') :
    h'.entries = (h.attach channel c.listenerCapacity.toNat).2.entries := by
  rw [hjoins.hub_eq]

theorem handles_eq (hjoins : Joins h channel c bus h') (id : QueueId) :
    h'.handles id = (h.attach channel c.listenerCapacity.toNat).2.handles id := by
  rw [hjoins.hub_eq]
  rfl

theorem capacity?_eq (hjoins : Joins h channel c bus h') (id : QueueId) :
    h'.capacity? id = (h.attach channel c.listenerCapacity.toNat).2.capacity? id := by
  rw [hjoins.hub_eq]
  rfl

end Joins

/-- What the hub knows of one more bus. -/
theorem Kept.joined (h : f.Kept) (hjoins : Joins f.medium.hub channel c bus m'.hub)
    (hhandles : ∀ id, m'.hub.handles id =
      f.medium.hub.handles id + if id = bus.queue then 1 else 0)
    (hcapacity : ∀ t ∈ f.tickets, m'.hub.capacity? t.queue = f.medium.hub.capacity? t.queue)
    (hsized : ∃ first,
      (f.tickets ++ [Berth.ticket { bus := bus }]).find? (·.queue == bus.queue) = some first ∧
        m'.hub.capacity? bus.queue = some (Queue.ofCapacity first.asked).capacity)
    (hnamed : ∀ t ∈ f.tickets, t.queue = bus.queue → t.channel = bus.channel)
    (hentered : ∀ entry ∈ m'.hub.entries,
      entry ∈ f.medium.hub.entries ∨ entry = (bus.channel, bus.queue))
    (hmapped : ∀ b ∈ f.berths, b.phase = .alive →
      m'.hub.entries.lookup b.bus.channel = some b.bus.queue)
    (hlookup : m'.hub.entries.lookup bus.channel = some bus.queue) :
    Kept { medium := m', berths := f.berths ++ [{ bus := bus }] } := by
  have htickets : tickets { medium := m', berths := f.berths ++ [{ bus := bus }] } =
      f.tickets ++ [Berth.ticket { bus := bus }] := List.map_append
  refine ⟨hjoins.proper h.proper, ?_, ?_, ?_, ?_, ?_, ?_⟩
  · intro b hb
    rcases List.mem_append.mp hb with hold | hnew
    · exact h.virtual b hold
    · cases List.mem_singleton.mp hnew
      exact hjoins.transport_eq
  · intro id
    show m'.hub.handles id = (f.berths ++ [({ bus := bus } : Berth)]).countP (Berth.holds id)
    rw [List.countP_append, ← h.handles_eq, hhandles, List.countP_singleton]
    by_cases hid : id = bus.queue
    · have hholds : Berth.holds id { bus := bus } = true :=
        holds_iff.mpr ⟨DropPhase.noConfusion, hid.symm⟩
      rw [if_pos hid, if_pos hholds]
    · rw [if_neg hid, if_neg fun hholds => hid (holds_iff.mp hholds).2.symm]
  · rw [htickets]
    intro t ht
    rcases List.mem_append.mp ht with hold | hnew
    · obtain ⟨first, hfirst, hsize⟩ := h.sized t hold
      refine ⟨first, ?_, (hcapacity t hold).trans hsize⟩
      rw [List.find?_append, hfirst]
      rfl
    · cases List.mem_singleton.mp hnew
      exact hsized
  · rw [htickets]
    intro t ht u hu hqueue
    rcases List.mem_append.mp ht with hold | hnew
    · rcases List.mem_append.mp hu with hold' | hnew'
      · exact h.named t hold u hold' hqueue
      · cases List.mem_singleton.mp hnew'
        exact hnamed t hold hqueue
    · cases List.mem_singleton.mp hnew
      rcases List.mem_append.mp hu with hold' | hnew'
      · exact (hnamed u hold' hqueue.symm).symm
      · cases List.mem_singleton.mp hnew'
        rfl
  · rw [htickets]
    intro entry hentry
    rcases hentered entry hentry with hold | rfl
    · obtain ⟨t, ht, hentry⟩ := h.entered entry hold
      exact ⟨t, List.mem_append_left _ ht, hentry⟩
    · exact ⟨_, List.mem_append_right _ List.mem_cons_self, rfl, rfl⟩
  · intro b hb halive
    rcases List.mem_append.mp hb with hold | hnew
    · exact hmapped b hold halive
    · cases List.mem_singleton.mp hnew
      exact hlookup

/-- A bus on a channel that is in use gets the queue of the others. -/
theorem Kept.joined_shared (h : f.Kept) {id : QueueId}
    (hlive : f.medium.hub.live? channel = some id)
    (hjoins : Joins f.medium.hub channel c bus m'.hub) :
    Kept { medium := m', berths := f.berths ++ [{ bus := bus }] } := by
  obtain ⟨hlookup, -⟩ := Hub.live?_eq_some_iff.mp hlive
  obtain ⟨t, ht, hchannel, hqueue⟩ := h.entered _ (Hub.mem_entries_of_lookup hlookup)
  obtain ⟨first, hfirst, hsize⟩ := h.sized t ht
  obtain ⟨q, hq, -⟩ := Option.map_eq_some_iff.mp hsize
  simp only at hchannel hqueue
  have hattach := Hub.attach_of_some c.listenerCapacity.toNat hlive
  have hbus : bus.queue = id := by rw [hjoins.queue_eq, hattach]
  have hentries : m'.hub.entries = f.medium.hub.entries := by
    rw [hjoins.entries_eq, hattach]
    rfl
  have hcapacity : ∀ other, m'.hub.capacity? other = f.medium.hub.capacity? other := by
    intro other
    rw [hjoins.capacity?_eq, hattach]
    exact Hub.capacity?_share id other
  refine h.joined hjoins ?_ (fun u _ => hcapacity u.queue) ⟨first, ?_, ?_⟩ ?_ ?_ ?_ ?_
  · intro other
    rw [hjoins.handles_eq, hattach, hbus]
    by_cases hother : other = id
    · rw [hother, if_pos rfl]
      exact Hub.handles_share (hqueue ▸ hq)
    · rw [if_neg hother]
      exact Hub.handles_change_ne _ hother
  · rw [List.find?_append, hbus, ← hqueue, hfirst]
    rfl
  · rw [hcapacity, hbus, ← hqueue]
    exact hsize
  · intro u hu hsame
    have hqueues : u.queue = t.queue := by rw [hsame, hbus, hqueue]
    rw [h.named u hu t ht hqueues, hchannel, hjoins.channel_eq]
  · rw [hentries]
    exact fun entry hentry => Or.inl hentry
  · rw [hentries]
    exact h.mapped
  · rw [hentries, hjoins.channel_eq, hbus]
    exact hlookup

/-- A bus on a channel that is not in use gets a queue of its own. -/
theorem Kept.joined_first (h : f.Kept) (hnone : f.medium.hub.live? channel = none)
    (hjoins : Joins f.medium.hub channel c bus m'.hub) :
    Kept { medium := m', berths := f.berths ++ [{ bus := bus }] } := by
  have hattach := Hub.attach_of_none c.listenerCapacity.toNat hnone
  have hbus : bus.queue = f.medium.hub.next := by rw [hjoins.queue_eq, hattach]
  have hentries : m'.hub.entries =
      f.medium.hub.entries.filter (fun entry => 0 < f.medium.hub.handles entry.2) ++
        [(bus.channel, bus.queue)] := by
    rw [hjoins.entries_eq, hattach, hjoins.channel_eq, hbus]
  have hcapacity : ∀ id, m'.hub.capacity? id = if id = f.medium.hub.next then
      some (Queue.ofCapacity c.listenerCapacity.toNat).capacity else f.medium.hub.capacity? id := by
    intro id
    rw [hjoins.capacity?_eq]
    exact h.proper.capacity?_attach hnone _ id
  have hlookup : ∀ entry ∈ m'.hub.entries, m'.hub.entries.lookup entry.1 = some entry.2 :=
    fun _ => Hub.lookup_of_mem (hjoins.proper h.proper).names_nodup
  rw [hentries] at hlookup
  refine h.joined hjoins ?_ ?_ ⟨Berth.ticket { bus := bus }, ?_, ?_⟩ ?_ ?_ ?_ ?_
  · intro id
    rw [hjoins.handles_eq, h.proper.handles_attach hnone, hbus]
    split
    · rename_i hid
      rw [hid, h.proper.handles_next]
    · rfl
  · intro t ht
    rw [hcapacity, if_neg (h.queue_ne_next ht)]
  · rw [List.find?_append, List.find?_eq_none.mpr]
    · simp [Berth.ticket]
    · intro t ht
      rw [hbus]
      simpa using h.queue_ne_next ht
  · rw [hcapacity, hbus, if_pos rfl, Berth.ticket, hjoins.config_eq]
  · intro t ht hsame
    exact absurd (hsame.trans hbus) (h.queue_ne_next ht)
  · rw [hentries]
    intro entry hentry
    rcases List.mem_append.mp hentry with hold | hnew
    · exact Or.inl (List.mem_filter.mp hold).1
    · exact Or.inr (List.mem_singleton.mp hnew)
  · rw [hentries]
    intro b hb halive
    refine hlookup (b.bus.channel, b.bus.queue) (List.mem_append_left _ ?_)
    refine List.mem_filter.mpr ⟨Hub.mem_entries_of_lookup (h.mapped b hb halive), ?_⟩
    simpa using h.handles_pos hb (by rw [halive]; decide)
  · rw [hentries]
    exact hlookup (bus.channel, bus.queue) (List.mem_append_right _ List.mem_cons_self)

theorem Kept.made (h : f.Kept)
    (hmake : (Bus.make .virtual channel c).run f.medium = (.ok bus, m')) :
    Kept { medium := m', berths := f.berths ++ [{ bus := bus }] } := by
  have hjoins := joins_of_make hmake
  cases hlive : f.medium.hub.live? channel with
  | some id => exact h.joined_shared hlive hjoins
  | none => exact h.joined_first hlive hjoins

end Fleet

end CanTransport
