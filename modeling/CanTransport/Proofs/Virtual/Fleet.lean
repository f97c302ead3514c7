import CanTransport.Proofs.Bus.Counters
import CanTransport.Proofs.Bus.Making
import CanTransport.Proofs.Virtual.Beside
import CanTransport.Proofs.Virtual.Hub
/-!
# Virtual buses that come and go

Any number of virtual buses on any number of channels, made and dropped in any order. A drop takes
two steps, and between them and around them anything may happen on the other buses. What stays of a
bus all its life is its channel, its queue and its configuration; only a drop changes anything of
the hub but the messages that were sent.
-/

namespace CanTransport

/-! ## What a bus keeps all its life -/

namespace Bus

/-- What a bus is made with. -/
structure Keeps (b b' : Bus) : Prop where
  transport_eq : b'.transport = b.transport
  channel_eq : b'.channel = b.channel
  config_eq : b'.config = b.config
  queue_eq : b'.queue = b.queue

theorem Keeps.refl (b : Bus) : b.Keeps b := ⟨rfl, rfl, rfl, rfl⟩

theorem Keeps.trans {a b c : Bus} (h : a.Keeps b) (h' : b.Keeps c) : a.Keeps c :=
  ⟨h'.transport_eq.trans h.transport_eq, h'.channel_eq.trans h.channel_eq,
    h'.config_eq.trans h.config_eq, h'.queue_eq.trans h.queue_eq⟩

end Bus

namespace Operation

variable {s s' : Site} {o o' : Operation} {action : Action}

theorem channel_enter (h : o.enter s = some (s', o')) : s'.bus.channel = s.bus.channel := by
  obtain ⟨connection, rfl, -⟩ := enter_eq_some h
  rfl

theorem channel_acquire (h : o.acquire s = (s', o')) : s'.bus.channel = s.bus.channel := by
  unfold acquire at h
  simp only at h
  split at h
  · cases h
    rfl
  · split at h
    all_goals
      rename_i hrun
      have hbus := (onKernel_beside hrun).1
      cases h
    · show _ = s.bus.channel
      rw [← hbus]
      rfl
    · rw [hbus]

theorem channel_write (h : o.write s = (s', o')) : s'.bus.channel = s.bus.channel := by
  unfold write at h
  split at h
  · split at h
    all_goals
      rename_i hrun
      have hbus := (onKernel_beside hrun).1
      cases h
      rw [hbus]
  · cases h
    rfl

/-- No action renames a bus. -/
theorem channel_perform (h : o.perform s action = some (s', o')) :
    s'.bus.channel = s.bus.channel := by
  cases action with
  | enter => exact channel_enter h
  | acquire => exact channel_acquire (Option.some.inj h)
  | write => exact channel_write (Option.some.inj h)
  | join =>
    simp only [perform, join] at h
    split at h
    · cases h
      rfl
    · split at h <;> cases h
      rfl
  | cancel | closeSocket | borrow | remember | forget | transmit =>
    simp only [perform] at h
    split at h <;> cases h <;> rfl
  | leave | unpublish | letGo | clearEchoes | check | register | listen | spawn | publish | store
  | raiseFlag | lowerFlag | dropIdle | checkFlag | countSent =>
    cases h
    rfl

theorem bus_keeps_perform (h : o.perform s action = some (s', o')) : s.bus.Keeps s'.bus where
  transport_eq := (framed_perform h).transport_eq
  channel_eq := channel_perform h
  config_eq := (framed_perform h).config_eq
  queue_eq := (beside_perform h).queue_eq

/-- What leaves with an action is sent through the queue of the bus, if through any. -/
theorem hub_parcel? (s : Site) (o : Operation) (action : Action) :
    (s.medium.after (o.parcel? s action)).hub = s.medium.hub ∨
      ∃ envelope, (s.medium.after (o.parcel? s action)).hub =
        s.medium.hub.send s.bus.queue envelope := by
  cases hparcel : o.parcel? s action with
  | none => exact Or.inl rfl
  | some p =>
    cases p with
    | toKernel fd raw answer => exact Or.inl rfl
    | toQueue queue envelope =>
      obtain ⟨-, -, -, rfl, -⟩ := parcel?_eq_toQueue_iff.mp hparcel
      exact Or.inr ⟨envelope, rfl⟩

end Operation

theorem Receiver.keeps_step (s : Site) (r : Receiver) : s.bus.Keeps (r.step s).1.bus := by
  have hbus := (Receiver.acts_step s r).bus_eq
  exact ⟨by rw [hbus], by rw [hbus], by rw [hbus], by rw [hbus]⟩

namespace Life

/-- Whatever happens on a bus, it stays what it was made as. -/
theorem keeps_after (w : Life) (event : Event) : w.site.bus.Keeps (w.after event).site.bus := by
  cases event with
  | start | subscribe | outside => exact ⟨rfl, rfl, rfl, rfl⟩
  | run id =>
    show w.site.bus.Keeps (w.site.run id).bus
    rcases Site.run_eq w.site id with ⟨-, heq⟩ | ⟨r, -, heq⟩
    · rw [heq]
      exact .refl _
    · rw [heq, Site.collect_bus]
      have hkeeps := Receiver.keeps_step w.site r
      exact ⟨hkeeps.transport_eq, hkeeps.channel_eq, hkeeps.config_eq, hkeeps.queue_eq⟩
  | act id =>
    show w.site.bus.Keeps (w.site.advance id).2.bus
    rcases Site.advance_eq w.site id with heq | ⟨o, -, -, -, heq⟩ |
      ⟨o, -, action, rest, s', o', -, -, hperform, heq⟩
    · rw [heq]
      exact .refl _
    · rw [heq, Site.finish_bus]
      exact ⟨rfl, rfl, rfl, rfl⟩
    · rw [heq, Site.collect_bus]
      have hkeeps := Operation.bus_keeps_perform hperform
      exact ⟨hkeeps.transport_eq, hkeeps.channel_eq, hkeeps.config_eq, hkeeps.queue_eq⟩

/-- Whatever happens on a bus, the hub loses and gains nothing but messages. -/
theorem hub_after (w : Life) (event : Event) :
    (w.after event).site.medium.hub = w.site.medium.hub ∨
      ∃ envelope, (w.after event).site.medium.hub =
        w.site.medium.hub.send w.site.bus.queue envelope := by
  cases event with
  | start | subscribe | outside => exact Or.inl rfl
  | run id => exact Or.inl (Site.hub_run w.site id)
  | act id =>
    show (w.site.advance id).2.medium.hub = _ ∨ ∃ envelope, (w.site.advance id).2.medium.hub = _
    rcases Site.advance_eq w.site id with heq | ⟨o, -, -, -, heq⟩ |
      ⟨o, -, action, rest, s', o', -, -, hperform, heq⟩
    · rw [heq]
      exact Or.inl rfl
    · rw [heq, Site.finish, Site.hub_collect]
      exact Or.inl rfl
    · have hhub := Operation.hub_perform hperform
      rw [heq, Site.hub_collect]
      rcases Operation.hub_parcel? w.site { o with todo := rest } action with
        hsame | ⟨envelope, hsent⟩
      · exact Or.inl (hhub.trans hsame)
      · exact Or.inr ⟨envelope, hhub.trans hsent⟩

end Life

/-! ## Several buses -/

/-- How far the drop of a bus has come. -/
inductive DropPhase where
  /-- It has not begun. -/
  | alive
  /-- The hub was told; the handle to the queue is still there. -/
  | leaving
  | gone
deriving DecidableEq, Repr

/-- What stays of a bus: its channel, the queue that it got, and the capacity that it asked for. -/
structure Ticket where
  channel : String
  queue : QueueId
  asked : Nat
deriving DecidableEq, Repr

/-- A bus and how far its drop has come. -/
structure Berth where
  bus : Bus
  phase : DropPhase := .alive

namespace Berth

def ticket (b : Berth) : Ticket where
  channel := b.bus.channel
  queue := b.bus.queue
  asked := b.bus.config.listenerCapacity.toNat

/-- Whether the bus has a handle to a queue. -/
def holds (id : QueueId) (b : Berth) : Bool := b.phase != .gone && b.bus.queue == id

end Berth

/-- The virtual buses made so far, in the order in which they were made, and what they share. -/
structure Fleet where
  medium : Medium
  berths : List Berth := []

namespace Fleet

/-- What may happen next, on the bus with a number where it is about one. -/
inductive Event where
  | make (channel : String) (config : BusConfig)
  /-- The drop of a bus begins: the hub is told. -/
  | forget (i : Nat)
  /-- The drop ends: the bus lets go of its queue and of everything else. -/
  | detach (i : Nat)
  /-- Callers and the reception task of a bus go on. -/
  | on (i : Nat) (event : Life.Event)
deriving DecidableEq

/-- A bus after something happened on it. -/
def settle (f : Fleet) (i : Nat) (s : Site) (phase : DropPhase) : Fleet where
  medium := s.medium
  berths := f.berths.set i { bus := s.bus, phase := phase }

def after (f : Fleet) : Event → Fleet
  | .make channel config =>
    match (Bus.make .virtual channel config).run f.medium with
    | (.ok bus, medium) => { medium := medium, berths := f.berths ++ [{ bus := bus }] }
    | (.error _, medium) => { f with medium := medium }
  | .forget i =>
    match f.berths[i]? with
    | some ⟨bus, .alive⟩ => f.settle i (Site.forgetChannel ⟨bus, f.medium⟩) .leaving
    | _ => f
  | .detach i =>
    match f.berths[i]? with
    | some ⟨bus, .leaving⟩ => f.settle i (Site.letGo ⟨bus, f.medium⟩) .gone
    | _ => f
  | .on i event =>
    match f.berths[i]? with
    | some b => f.settle i (({ site := ⟨b.bus, f.medium⟩ } : Life).after event).site b.phase
    | none => f

/-- The first moment: the hub is empty. -/
def initial (m : Medium) : Fleet := { medium := { m with hub := {} } }

/-- What some events lead to. -/
def replay (m : Medium) (events : List Event) : Fleet := events.foldl after (initial m)

def tickets (f : Fleet) : List Ticket := f.berths.map Berth.ticket

/-- Whether a drop has begun and not ended. -/
def isDropping (f : Fleet) : Bool := f.berths.any (·.phase == .leaving)

/-- Whether no drop begins, in the course of some events, before the last one has ended. -/
def dropsApart (f : Fleet) : List Event → Bool
  | [] => true
  | .forget i :: rest => !f.isDropping && (f.after (.forget i)).dropsApart rest
  | event :: rest => (f.after event).dropsApart rest

/-- What the hub says of a name. -/
def queueOf (f : Fleet) (name : String) : Option QueueId := f.medium.hub.entries.lookup name

variable {f : Fleet} {i : Nat} {b : Berth} {s : Site} {phase : DropPhase}

theorem lt_of_berth (hb : f.berths[i]? = some b) : i < f.berths.length :=
  (List.getElem?_eq_some_iff.mp hb).1

theorem berth_settle (hb : f.berths[i]? = some b) :
    (f.settle i s phase).berths[i]? = some { bus := s.bus, phase := phase } := by
  rw [settle, List.getElem?_set_self (lt_of_berth hb)]

theorem berth_settle_ne {j : Nat} (hne : j ≠ i) :
    (f.settle i s phase).berths[j]? = f.berths[j]? := by
  rw [settle, List.getElem?_set_ne hne.symm]

/-- Whatever happens on a bus leaves every ticket as it was. -/
theorem tickets_settle (phase : DropPhase) (hb : f.berths[i]? = some b) (hkeeps : b.bus.Keeps s.bus) :
    (f.settle i s phase).tickets = f.tickets := by
  have hticket : Berth.ticket { bus := s.bus, phase := phase } = b.ticket := by
    unfold Berth.ticket
    rw [hkeeps.channel_eq, hkeeps.queue_eq, hkeeps.config_eq]
  rw [tickets, settle, List.map_set, hticket, tickets]
  apply List.ext_getElem?
  intro j
  by_cases hj : i = j
  · subst hj
    rw [List.getElem?_set_self (by rw [List.length_map]; exact lt_of_berth hb), List.getElem?_map,
      hb]
    rfl
  · rw [List.getElem?_set_ne hj]

/-- How the handles to a queue change with the phase of one bus. -/
theorem countP_settle (hb : f.berths[i]? = some b) (id : QueueId) :
    (f.settle i s phase).berths.countP (Berth.holds id) =
      f.berths.countP (Berth.holds id) - (if b.holds id then 1 else 0)
        + (if Berth.holds id { bus := s.bus, phase := phase } then 1 else 0) := by
  obtain ⟨hlt, rfl⟩ := List.getElem?_eq_some_iff.mp hb
  rw [settle, List.countP_set hlt]

end Fleet

end CanTransport
