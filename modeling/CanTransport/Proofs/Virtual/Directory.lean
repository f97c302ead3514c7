import CanTransport.Proofs.Virtual.Names
/-!
# The hub through the lives of the buses

What the hub is for, after any number of buses were made, used and dropped in any order. As long as
the drops do not overlap it has an entry for exactly the names in use; after drops that overlapped
it may have entries of dead queues besides, which go with the next queue that is made.
-/

namespace CanTransport

namespace Fleet

variable {f f' : Fleet} {i : Nat} {b : Berth} {channel : String} {c : BusConfig} {bus : Bus}
  {m m' : Medium} {event : Event}

/-- What an event comes to. -/
inductive Comes (f : Fleet) : Event → Fleet → Prop where
  /-- No bus is made, or there is no such bus, or its drop is not at this point. -/
  | nothing {event : Event} : Comes f event f
  | made {channel : String} {c : BusConfig} {bus : Bus} {m' : Medium}
      (hmake : (Bus.make .virtual channel c).run f.medium = (.ok bus, m')) :
      Comes f (.make channel c) { medium := m', berths := f.berths ++ [{ bus := bus }] }
  | forgot {i : Nat} {b : Berth} (hb : f.berths[i]? = some b) (halive : b.phase = .alive) :
      Comes f (.forget i) (f.settle i (Site.forgetChannel ⟨b.bus, f.medium⟩) .leaving)
  | detached {i : Nat} {b : Berth} (hb : f.berths[i]? = some b) (hleaving : b.phase = .leaving) :
      Comes f (.detach i) (f.settle i (Site.letGo ⟨b.bus, f.medium⟩) .gone)
  | on {i : Nat} {b : Berth} (hb : f.berths[i]? = some b) (event : Life.Event) :
      Comes f (.on i event)
        (f.settle i (({ site := ⟨b.bus, f.medium⟩ } : Life).after event).site b.phase)

theorem comes_after (f : Fleet) (event : Event) : f.Comes event (f.after event) := by
  cases event with
  | make channel c =>
    cases hmake : (Bus.make .virtual channel c).run f.medium with
    | mk result m' =>
      rw [after, hmake]
      cases result with
      | ok bus => exact .made hmake
      | error e =>
        rw [Bus.medium_of_make_virtual hmake]
        exact .nothing
  | forget i =>
    rw [after]
    split
    · rename_i bus hb
      exact .forgot (b := ⟨bus, .alive⟩) hb rfl
    · exact .nothing
  | detach i =>
    rw [after]
    split
    · rename_i bus hb
      exact .detached (b := ⟨bus, .leaving⟩) hb rfl
    · exact .nothing
  | on i event =>
    rw [after]
    split
    · rename_i hb
      exact .on hb event
    · exact .nothing

theorem Kept.comes (h : f.Kept) (hcomes : f.Comes event f') : f'.Kept := by
  cases hcomes with
  | nothing => exact h
  | made hmake => exact h.made hmake
  | forgot hb halive => exact h.forgot hb halive
  | detached hb hleaving => exact h.detached hb hleaving
  | on hb event => exact h.went_on hb event

theorem Kept.foldl_after (h : f.Kept) (events : List Event) : (events.foldl after f).Kept := by
  induction events generalizing f with
  | nil => exact h
  | cons event rest ih => exact ih (h.comes (comes_after f event))

theorem kept_replay (m : Medium) (events : List Event) : (replay m events).Kept :=
  (kept_initial m).foldl_after events

/-! ### Entries that are not used -/

/-- Whether the name of every entry is in use. -/
def Used (f : Fleet) : Prop :=
  ∀ entry ∈ f.medium.hub.entries, ∃ b ∈ f.berths, b.phase = .alive ∧ b.bus.channel = entry.1

theorem isDropping_eq_false_iff : f.isDropping = false ↔ ∀ b ∈ f.berths, b.phase ≠ .leaving := by
  rw [isDropping, List.any_eq_false]
  simp

/-- Whoever has a handle is there, if nobody is about to go. -/
theorem alive_of_ne_gone (hapart : f.isDropping = false) (hb : b ∈ f.berths)
    (hphase : b.phase ≠ .gone) : b.phase = .alive := by
  have hleaving := isDropping_eq_false_iff.mp hapart b hb
  cases hb' : b.phase with
  | alive => rfl
  | leaving => exact absurd hb' hleaving
  | gone => exact absurd hb' hphase

theorem entries_forgetChannel (hvirtual : bus.transport = .virtual) :
    (Site.forgetChannel ⟨bus, m⟩).medium.hub = m.hub.forget bus.channel bus.queue := by
  rw [forgetChannel_eq hvirtual]

/-- A drop by itself leaves no entry that is not used. -/
theorem Used.forgot (hused : f.Used) (h : f.Kept) (hapart : f.isDropping = false)
    (hb : f.berths[i]? = some b) (halive : b.phase = .alive) :
    (f.settle i (Site.forgetChannel ⟨b.bus, f.medium⟩) .leaving).Used := by
  have hmem := List.mem_of_getElem? hb
  have hphase : b.phase ≠ .gone := by rw [halive]; decide
  rw [forgetChannel_eq (h.virtual b hmem)]
  intro entry hentry
  have hother : ∃ j b', j ≠ i ∧ f.berths[j]? = some b' ∧ b'.phase = .alive ∧
      b'.bus.channel = entry.1 := by
    obtain ⟨b', hb', halive', hchannel⟩ := hused entry (Hub.mem_entries_forget hentry)
    obtain ⟨j, hj⟩ := List.mem_iff_getElem?.mp hb'
    by_cases hji : j = i
    · subst hji
      cases hj.symm.trans hb
      -- the entry of the bus that goes is still there, so that another bus has a handle
      have hmany : f.medium.hub.handles b.bus.queue ≠ 1 := by
        intro hone
        rw [settle, Hub.forget, if_pos ⟨h.mapped b hmem halive, hone⟩] at hentry
        have hne : entry.1 ≠ b.bus.channel := by simpa using (List.mem_filter.mp hentry).2
        exact hne hchannel.symm
      rw [Ne, h.handles_eq_one_iff hb hphase] at hmany
      push Not at hmany
      obtain ⟨k, b', hkj, hk, hphase', hqueue⟩ := hmany
      have hmem' := List.mem_of_getElem? hk
      refine ⟨k, b', hkj, hk, alive_of_ne_gone hapart hmem' hphase', ?_⟩
      exact (h.named _ (mem_tickets hmem') _ (mem_tickets hmem) hqueue).trans hchannel
    · exact ⟨j, b', hji, hj, halive', hchannel⟩
  obtain ⟨j, b', hji, hj, halive', hchannel⟩ := hother
  exact ⟨b', List.mem_of_getElem? ((berth_settle_ne hji).trans hj), halive', hchannel⟩

/-- A bus that changes neither entries nor its phase, or that was on its way, is not missed. -/
theorem Used.settled {s : Site} {phase : DropPhase} (hused : f.Used) (hb : f.berths[i]? = some b)
    (hkeeps : b.bus.Keeps s.bus) (hentries : s.medium.hub.entries = f.medium.hub.entries)
    (hphase : b.phase = .alive → phase = .alive) : (f.settle i s phase).Used := by
  intro entry hentry
  have hold : entry ∈ f.medium.hub.entries := hentries ▸ hentry
  obtain ⟨b', hb', halive', hchannel⟩ := hused entry hold
  obtain ⟨j, hj⟩ := List.mem_iff_getElem?.mp hb'
  by_cases hji : j = i
  · subst hji
    cases hj.symm.trans hb
    exact ⟨_, List.mem_of_getElem? (berth_settle hb), hphase halive',
      hkeeps.channel_eq.trans hchannel⟩
  · exact ⟨b', List.mem_of_getElem? ((berth_settle_ne hji).trans hj), halive', hchannel⟩

theorem entries_went_on (f : Fleet) (b : Berth) (event : Life.Event) :
    (({ site := ⟨b.bus, f.medium⟩ } : Life).after event).site.medium.hub.entries =
      f.medium.hub.entries := by
  rcases Life.hub_after { site := ⟨b.bus, f.medium⟩ } event with heq | ⟨envelope, heq⟩
  · rw [heq]
  · rw [heq]
    rfl

/-- The entries after a bus was made: the old ones, of which those of dead queues went if it got a
queue of its own, and its own one. -/
theorem Joins.entries_cases (hjoins : Joins f.medium.hub channel c bus m'.hub)
    {entry : String × QueueId} (hentry : entry ∈ m'.hub.entries) :
    (entry ∈ f.medium.hub.entries ∧
      (f.medium.hub.live? channel = none → 0 < f.medium.hub.handles entry.2)) ∨
    entry = (bus.channel, bus.queue) ∧ bus.queue = f.medium.hub.next := by
  rw [hjoins.entries_eq] at hentry
  have hqueue := hjoins.queue_eq
  cases hlive : f.medium.hub.live? channel with
  | some id =>
    rw [Hub.attach_of_some _ hlive] at hentry
    exact Or.inl ⟨hentry, nofun⟩
  | none =>
    rw [Hub.attach_of_none _ hlive] at hentry hqueue
    rcases List.mem_append.mp hentry with hold | hnew
    · obtain ⟨hmem, hpos⟩ := List.mem_filter.mp hold
      exact Or.inl ⟨hmem, fun _ => by simpa using hpos⟩
    · rw [List.mem_singleton.mp hnew, hjoins.channel_eq, hqueue]
      exact Or.inr ⟨rfl, rfl⟩

theorem Used.made (hused : f.Used)
    (hmake : (Bus.make .virtual channel c).run f.medium = (.ok bus, m')) :
    Used { medium := m', berths := f.berths ++ [{ bus := bus }] } := by
  intro entry hentry
  rcases (joins_of_make hmake).entries_cases hentry with ⟨hold, -⟩ | ⟨rfl, -⟩
  · obtain ⟨b, hb, halive, hchannel⟩ := hused entry hold
    exact ⟨b, List.mem_append_left _ hb, halive, hchannel⟩
  · exact ⟨_, List.mem_append_right _ List.mem_cons_self, rfl, rfl⟩

theorem Used.comes (hused : f.Used) (h : f.Kept)
    (hapart : ∀ i, event = .forget i → f.isDropping = false) (hcomes : f.Comes event f') :
    f'.Used := by
  cases hcomes with
  | nothing => exact hused
  | made hmake => exact hused.made hmake
  | forgot hb halive => exact hused.forgot h (hapart _ rfl) hb halive
  | @detached i b hb hleaving =>
    obtain ⟨hhub, hkeeps⟩ := letGo_eq (m := f.medium) (h.virtual b (List.mem_of_getElem? hb))
    refine hused.settled hb hkeeps (by rw [hhub]; rfl) fun halive => ?_
    cases hleaving.symm.trans halive
  | @on i b hb event =>
    exact hused.settled hb (Life.keeps_after { site := ⟨b.bus, f.medium⟩ } event)
      (entries_went_on f b event) fun halive => halive

theorem dropsApart_cons {rest : List Event} (h : f.dropsApart (event :: rest) = true) :
    (∀ i, event = .forget i → f.isDropping = false) ∧ (f.after event).dropsApart rest = true := by
  cases event with
  | forget i =>
    rw [dropsApart, Bool.and_eq_true, Bool.not_eq_true'] at h
    exact ⟨fun _ _ => h.1, h.2⟩
  | make | detach | on =>
    rw [dropsApart] at h
    · exact ⟨nofun, h⟩
    · exact nofun

theorem Used.foldl_after {events : List Event} (hused : f.Used) (h : f.Kept)
    (hapart : f.dropsApart events = true) : (events.foldl after f).Used := by
  induction events generalizing f with
  | nil => exact hused
  | cons event rest ih =>
    obtain ⟨hevent, hrest⟩ := dropsApart_cons hapart
    have hcomes := comes_after f event
    exact ih (hused.comes h hevent hcomes) (h.comes hcomes) hrest

/-! ### Entries that are gone -/

/-- An entry that is not there comes only with a new queue. -/
theorem Comes.entries (hcomes : f.Comes event f') (h : f.Kept) {entry : String × QueueId}
    (hentry : entry ∈ f'.medium.hub.entries) :
    entry ∈ f.medium.hub.entries ∨ f.medium.hub.next ≤ entry.2 := by
  cases hcomes with
  | nothing => exact Or.inl hentry
  | made hmake =>
    rcases (joins_of_make hmake).entries_cases hentry with ⟨hold, -⟩ | ⟨rfl, hnext⟩
    · exact Or.inl hold
    · exact Or.inr hnext.ge
  | @forgot i b hb halive =>
    have hhub := entries_forgetChannel (m := f.medium) (h.virtual b (List.mem_of_getElem? hb))
    rw [settle, hhub] at hentry
    exact Or.inl (Hub.mem_entries_forget hentry)
  | @detached i b hb hleaving =>
    obtain ⟨hhub, -⟩ := letGo_eq (m := f.medium) (h.virtual b (List.mem_of_getElem? hb))
    rw [settle, hhub] at hentry
    exact Or.inl hentry
  | @on i b hb event =>
    rw [settle, entries_went_on] at hentry
    exact Or.inl hentry

/-- Numbers of queues are only used up. -/
theorem Comes.next_le (hcomes : f.Comes event f') (h : f.Kept) :
    f.medium.hub.next ≤ f'.medium.hub.next := by
  cases hcomes with
  | nothing => exact le_rfl
  | @made channel c bus m' hmake =>
    show _ ≤ m'.hub.next
    rw [(joins_of_make hmake).hub_eq, Hub.attach]
    split
    · exact le_rfl
    · exact Nat.le_succ _
  | @forgot i b hb halive =>
    rw [settle, entries_forgetChannel (h.virtual b (List.mem_of_getElem? hb)), Hub.forget]
    split
    · exact le_rfl
    · exact le_rfl
  | @detached i b hb hleaving =>
    obtain ⟨hhub, -⟩ := letGo_eq (m := f.medium) (h.virtual b (List.mem_of_getElem? hb))
    rw [settle, hhub]
    exact le_rfl
  | @on i b hb event =>
    show _ ≤ (({ site := ⟨b.bus, f.medium⟩ } : Life).after event).site.medium.hub.next
    rcases Life.hub_after { site := ⟨b.bus, f.medium⟩ } event with heq | ⟨envelope, heq⟩
    · rw [heq]
    · rw [heq]
      exact le_rfl

theorem Kept.entries_foldl (h : f.Kept) (events : List Event) {entry : String × QueueId}
    (hentry : entry ∈ (events.foldl after f).medium.hub.entries) :
    entry ∈ f.medium.hub.entries ∨ f.medium.hub.next ≤ entry.2 := by
  induction events generalizing f with
  | nil => exact Or.inl hentry
  | cons event rest ih =>
    have hcomes := comes_after f event
    rcases ih (h.comes hcomes) hentry with hmem | hle
    · exact hcomes.entries h hmem
    · exact Or.inr ((hcomes.next_le h).trans hle)

theorem Kept.entry_lt_next (h : f.Kept) {entry : String × QueueId}
    (hentry : entry ∈ f.medium.hub.entries) : entry.2 < f.medium.hub.next := by
  obtain ⟨t, ht, -, hqueue⟩ := h.entered entry hentry
  exact hqueue ▸ h.queue_lt_next ht

/-- Once a queue was made, the entries of dead queues are gone for good. -/
theorem Kept.swept (h : f.Kept) (hnone : f.medium.hub.live? channel = none)
    (hmake : (Bus.make .virtual channel c).run f.medium = (.ok bus, m'))
    {dead entry : String × QueueId} (hdead : dead ∈ f.medium.hub.entries)
    (hhandles : f.medium.hub.handles dead.2 = 0) (more : List Event)
    (hentry : entry ∈
      (more.foldl after { medium := m', berths := f.berths ++ [{ bus := bus }] }).medium.hub.entries) :
    entry.2 ≠ dead.2 := by
  have hlt := h.entry_lt_next hdead
  have hnext := (Comes.made hmake).next_le h
  intro hsame
  rcases (h.made hmake).entries_foldl more hentry with hmem | hle
  · rcases (joins_of_make hmake).entries_cases hmem with ⟨-, hpos⟩ | ⟨rfl, heq⟩
    · have hentry' := hpos hnone
      rw [hsame] at hentry'
      exact hentry'.ne' hhandles
    · exact absurd (hsame.symm.trans heq) hlt.ne
  · rw [hsame] at hle
    exact Nat.not_le.mpr hlt (hnext.trans hle)

/-! ### What the hub is for -/

/-- What holds of the buses and the hub after some events. -/
structure Finds (m : Medium) (events : List Event) : Prop where
  /-- Buses that are there share a queue exactly if their channels have the same name. -/
  shared : ∀ b ∈ (replay m events).berths, ∀ b' ∈ (replay m events).berths,
    b.phase = .alive → b'.phase = .alive →
      (b.bus.queue = b'.bus.queue ↔ b.bus.channel = b'.bus.channel)
  mapped : ∀ b ∈ (replay m events).berths, b.phase = .alive →
    (replay m events).queueOf b.bus.channel = some b.bus.queue
  /-- The queue of a bus has the capacity that the first bus on it was made with, rounded up. -/
  sized : ∀ b ∈ (replay m events).berths, ∃ first,
    (replay m events).berths.find? (·.bus.queue == b.bus.queue) = some first ∧
      (replay m events).medium.hub.capacity? b.bus.queue =
        some (Queue.ofCapacity first.bus.config.listenerCapacity.toNat).capacity ∧
      Queue.Rounded first.bus.config.listenerCapacity.toNat
        (Queue.ofCapacity first.bus.config.listenerCapacity.toNat).capacity
  /-- A bus is made, unless its channel needs a queue larger than queues can be. -/
  makes : ∀ channel c, c.check = .ok () → channel.isEmpty = false →
    ((replay m events).medium.hub.live? channel = none →
      c.listenerCapacity.toNat ≤ Queue.maxCapacity) →
    ∃ bus m', (Bus.make .virtual channel c).run (replay m events).medium = (.ok bus, m')
  /-- Where every earlier bus on a channel is gone, a bus gets a queue that nobody had before. -/
  fresh : ∀ channel c bus m',
    (∀ b ∈ (replay m events).berths, b.bus.channel = channel → b.phase = .gone) →
    (Bus.make .virtual channel c).run (replay m events).medium = (.ok bus, m') →
      (∀ b ∈ (replay m events).berths, b.bus.queue ≠ bus.queue) ∧
        m'.hub.queue? bus.queue = some (Queue.ofCapacity c.listenerCapacity.toNat) ∧
        Queue.Rounded c.listenerCapacity.toNat (Queue.ofCapacity c.listenerCapacity.toNat).capacity
  /-- As long as drops do not overlap there are entries for exactly the names in use. -/
  exact : (initial m).dropsApart events = true → ∀ name,
    ((replay m events).queueOf name).isSome = true ↔
      ∃ b ∈ (replay m events).berths, b.phase = .alive ∧ b.bus.channel = name
  /-- After any drops an entry is that of a bus, or of a dead queue. -/
  stray : (replay m events).isDropping = false →
    ∀ entry ∈ (replay m events).medium.hub.entries,
      (∃ b ∈ (replay m events).berths,
        b.phase = .alive ∧ b.bus.channel = entry.1 ∧ b.bus.queue = entry.2) ∨
      (replay m events).medium.hub.handles entry.2 = 0
  /-- The next queue that is made is the end of the entries of dead queues. -/
  swept : ∀ channel c bus m', (replay m events).medium.hub.live? channel = none →
    (Bus.make .virtual channel c).run (replay m events).medium = (.ok bus, m') →
      ∀ dead ∈ (replay m events).medium.hub.entries,
        (replay m events).medium.hub.handles dead.2 = 0 →
          ∀ more, ∀ entry ∈ (replay m (events ++ .make channel c :: more)).medium.hub.entries,
            entry.2 ≠ dead.2

theorem Kept.shared_iff {b' : Berth} (h : f.Kept) (hb : b ∈ f.berths) (hb' : b' ∈ f.berths)
    (halive : b.phase = .alive) (halive' : b'.phase = .alive) :
    b.bus.queue = b'.bus.queue ↔ b.bus.channel = b'.bus.channel := by
  constructor
  · exact h.named _ (mem_tickets hb) _ (mem_tickets hb')
  · intro hchannel
    have hlookup := h.mapped b hb halive
    rw [hchannel] at hlookup
    exact Option.some.inj (hlookup.symm.trans (h.mapped b' hb' halive'))

theorem Kept.exists_first (h : f.Kept) (hb : b ∈ f.berths) : ∃ first,
    f.berths.find? (·.bus.queue == b.bus.queue) = some first ∧
      f.medium.hub.capacity? b.bus.queue =
        some (Queue.ofCapacity first.bus.config.listenerCapacity.toNat).capacity ∧
      Queue.Rounded first.bus.config.listenerCapacity.toNat
        (Queue.ofCapacity first.bus.config.listenerCapacity.toNat).capacity := by
  obtain ⟨first, hfirst, hsize⟩ := h.sized _ (mem_tickets hb)
  rw [tickets, List.find?_map] at hfirst
  obtain ⟨b', hb', rfl⟩ := Option.map_eq_some_iff.mp hfirst
  exact ⟨b', hb', hsize, Queue.rounded_ofCapacity (UInt64.toNat_lt _).le⟩

theorem Kept.live?_eq_none (h : f.Kept)
    (hgone : ∀ b ∈ f.berths, b.bus.channel = channel → b.phase = .gone) :
    f.medium.hub.live? channel = none := by
  rw [Option.eq_none_iff_forall_ne_some]
  intro id hlive
  obtain ⟨hlookup, hpos⟩ := Hub.live?_eq_some_iff.mp hlive
  obtain ⟨b, hb, hphase, hchannel, -⟩ := h.exists_holder (Hub.mem_entries_of_lookup hlookup) hpos
  exact hphase (hgone b hb hchannel)

theorem Kept.fresh (h : f.Kept)
    (hgone : ∀ b ∈ f.berths, b.bus.channel = channel → b.phase = .gone)
    (hmake : (Bus.make .virtual channel c).run f.medium = (.ok bus, m')) :
    (∀ b ∈ f.berths, b.bus.queue ≠ bus.queue) ∧
      m'.hub.queue? bus.queue = some (Queue.ofCapacity c.listenerCapacity.toNat) ∧
      Queue.Rounded c.listenerCapacity.toNat
        (Queue.ofCapacity c.listenerCapacity.toNat).capacity := by
  have hnone := h.live?_eq_none hgone
  have hjoins := joins_of_make hmake
  have hqueue : bus.queue = f.medium.hub.next := by
    rw [hjoins.queue_eq, Hub.attach_of_none _ hnone]
  refine ⟨fun b hb => ?_, ?_, Queue.rounded_ofCapacity (UInt64.toNat_lt _).le⟩
  · rw [hqueue]
    exact h.queue_ne_next (mem_tickets hb)
  · rw [hjoins.hub_eq]
    exact (h.proper.queue?_attach hnone c.listenerCapacity.toNat _).trans (if_pos hqueue)

theorem Kept.exact (h : f.Kept) (hused : f.Used) (name : String) :
    (f.queueOf name).isSome = true ↔ ∃ b ∈ f.berths, b.phase = .alive ∧ b.bus.channel = name := by
  constructor
  · intro hsome
    obtain ⟨id, hlookup⟩ := Option.isSome_iff_exists.mp hsome
    exact hused _ (Hub.mem_entries_of_lookup hlookup)
  · rintro ⟨b, hb, halive, rfl⟩
    rw [h.mapped b hb halive]
    rfl

theorem Kept.stray (h : f.Kept) (hdropping : f.isDropping = false) {entry : String × QueueId}
    (hentry : entry ∈ f.medium.hub.entries) :
    (∃ b ∈ f.berths, b.phase = .alive ∧ b.bus.channel = entry.1 ∧ b.bus.queue = entry.2) ∨
      f.medium.hub.handles entry.2 = 0 := by
  rcases Nat.eq_zero_or_pos (f.medium.hub.handles entry.2) with hzero | hpos
  · exact Or.inr hzero
  · obtain ⟨b, hb, hphase, hentry'⟩ := h.exists_holder hentry hpos
    exact Or.inl ⟨b, hb, alive_of_ne_gone hdropping hb hphase, hentry'⟩

/-- However many buses are made, used and dropped, and in whatever order, those that are there find
each other by the name of their channel, and nobody else. -/
theorem finds_replay (m : Medium) (events : List Event) : Finds m events := by
  have h := kept_replay m events
  refine ⟨fun b hb b' hb' => h.shared_iff hb hb', h.mapped, fun b hb => h.exists_first hb,
    fun channel c hcheck hname _ => ⟨_, _, Bus.run_make_virtual hcheck hname⟩,
    fun channel c bus m' => h.fresh, fun hapart name => ?_,
    fun hdropping entry => h.stray hdropping, ?_⟩
  · have hused : (initial m).Used := fun _ hentry => absurd hentry List.not_mem_nil
    exact h.exact (hused.foldl_after (kept_initial m) hapart) name
  · intro channel c bus m' hnone hmake dead hdead hhandles more entry hentry
    refine h.swept hnone hmake hdead hhandles more ?_
    rw [replay, List.foldl_append, List.foldl_cons] at hentry
    have hafter : (replay m events).after (.make channel c) =
        { medium := m', berths := (replay m events).berths ++ [{ bus := bus }] } := by
      rw [after, hmake]
    rw [← hafter]
    exact hentry

/-- Two buses on a channel, of which the second begins its drop before the first has ended its own. -/
def overlapping : List Event :=
  [.make "a" {}, .make "a" { listenerCapacity := 2 }, .forget 0, .forget 1, .detach 0, .detach 1]

/-- Overlapping drops leave an entry of a dead queue, which goes when a queue is made for another
name; the name then stands for nothing, until it gets a new queue. -/
theorem finds_overlapping :
    ((replay {} overlapping).queueOf "a", (replay {} overlapping).medium.hub.handles 0,
        (replay {} overlapping).isDropping) = (some 0, 0, false) ∧
      (replay {} (overlapping ++ [.make "b" {}])).queueOf "a" = none ∧
      (replay {} (overlapping ++ [.make "b" {}, .make "a" {}])).queueOf "a" = some 2 ∧
      ∀ more, ∀ entry ∈ (replay {} (overlapping ++ .make "b" {} :: more)).medium.hub.entries,
        entry.2 ≠ 0 := by
  refine ⟨by decide +kernel, by decide +kernel, by decide +kernel, ?_⟩
  exact (finds_replay {} overlapping).swept "b" {} _ _ (by decide +kernel) rfl ("a", 0)
    (by decide +kernel) (by decide +kernel)

end Fleet

end CanTransport
