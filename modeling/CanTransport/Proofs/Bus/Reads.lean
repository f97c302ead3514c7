import CanTransport.Proofs.Bus.Actions
import CanTransport.Proofs.Bus.Turns
import CanTransport.Proofs.Reception.Through
/-!
# The reception tasks of sockets

Three loops that read the same events: one record at a time, when the socket is readable, or
several records at once. What one action comes to is said once for all of them, and whatever a task
has at hand and in its queue leads to the same result before and after it.
-/

namespace CanTransport

namespace Transport

/-- Whether reception reads a raw socket. -/
def ReadsSocket : Transport → Prop
  | blocking | cancellable | batched => True
  | _ => False

end Transport

namespace Ending

/-- Where a task goes on after an event. -/
def stage (next : Stage) : Ending → Stage
  | reading => next
  | failed e => .returned (.error e)
  | died => .exited true

end Ending

namespace Receiver

/-- Whether the task is where a socket can bring it. It holds its resource as long as it reads, and
records at hand have been cut to the size of a buffer. -/
def Reads (key : Descriptor) (r : Receiver) : Prop :=
  match r.stage with
  | .top | .receiving => r.handle = some key
  | .holding records => r.handle = some key ∧ records ≠ [] ∧
    ∀ bytes ∈ records, Kernel.truncated bytes = bytes
  | .returned _ | .published | .exited _ => r.handle = none
  | _ => False

/-- Whether the task was told to stop. -/
def Told (s : Site) (r : Receiver) : Prop :=
  if s.bus.transport = .blocking then r.isClosed s = true else r.cancelled = true

/-- A task with a socket. It is told to stop only with an empty queue, and a socket that is not read
by blocking calls stays open as long as it is read. -/
structure Listening (key : Descriptor) (s : Site) (r : Receiver) : Prop where
  resource : ∃ resource, s.bus.resource? key = some resource ∧
    (s.bus.transport ≠ .blocking → resource.socket.closed = false)
  proper : .endOfStream ∉ s.medium.kernel.arrivals key
  told : r.Told s → s.medium.kernel.arrivals key = []

structure Attached (key : Descriptor) (s : Site) (r : Receiver) : Prop where
  socket : s.bus.transport.ReadsSocket
  size_pos : 0 < s.bus.config.batch.size.toNat
  reads : r.Reads key
  listening : r.handle = some key → r.Listening key s

/-- What one action of a task on a socket can come to. -/
inductive Read (key : Descriptor) (s : Site) (r : Receiver) : Site → Receiver → Prop where
  | wait (hstage : r.stage = .top) (hempty : s.medium.kernel.arrivals key = [])
      (htold : ¬ r.Told s) : Read key s r s r
  | look (hstage : r.stage = .top) (htold : ¬ r.Told s) : Read key s r s (r.goTo .receiving)
  | timeout (hstage : r.stage = .receiving) (hempty : s.medium.kernel.arrivals key = []) :
      Read key s r s (r.goTo .top)
  | stop (hstage : r.stage = .top ∨ r.stage = .receiving) (htold : r.Told s) :
      Read key s r s (r.goTo (.returned (.ok ())))
  | take {k : Kernel} {taken : List (List UInt8)} (hstage : r.stage = .receiving)
      (hne : taken ≠ [])
      (hqueue : s.medium.kernel.arrivals key = taken.map .record ++ k.arrivals key) :
      Read key s r (s.withKernel k) (r.goTo (.holding (taken.map Kernel.truncated)))
  | fail {k : Kernel} {number : Errno} {reception : Reception} {ending : Ending}
      (hstage : r.stage = .receiving)
      (hqueue : s.medium.kernel.arrivals key = .failure number :: k.arrivals key)
      (habsorb : s.bus.reception.absorb (.failure number) = (reception, ending)) :
      Read key s r ((s.withKernel k).onReception fun _ => reception) (r.goTo (ending.stage .top))
  | hand {bytes : List UInt8} {rest : List (List UInt8)} {reception : Reception} {ending : Ending}
      (hstage : r.stage = .holding (bytes :: rest))
      (habsorb : s.bus.reception.absorb (.record bytes) = (reception, ending)) :
      Read key s r (s.onReception fun _ => reception)
        (r.goTo (ending.stage (if rest.isEmpty then .top else .holding rest)))
  | finish {outcome : Except Error Unit} (hstage : r.stage = .returned outcome) :
      Read key s r (s.onReception (Reception.finish outcome)) (r.goTo .published)
  | leave (hstage : r.stage = .published) : Read key s r s (r.goTo (.exited false))
  | gone {died : Bool} (hstage : r.stage = .exited died) : Read key s r s r

variable {key : Descriptor} {result : Reception × Ending} {s s' : Site} {r r' : Receiver}

theorem Listening.resource?_eq (hhandle : r.handle = some key) (h : r.Listening key s) :
    ∃ resource, r.resource? s = some resource ∧ resource.key = key ∧
      (s.bus.transport ≠ .blocking → resource.socket.closed = false) := by
  obtain ⟨resource, hfind, hopen⟩ := h.resource
  refine ⟨resource, ?_, (Bus.resource?_mem hfind).2, hopen⟩
  rw [resource?, hhandle, Option.bind_some, hfind]

theorem read_atTop (ha : r.Attached key s) (hstage : r.stage = .top) :
    Read key s r (r.atTop s).1 (r.atTop s).2 := by
  have hsocket := ha.socket
  have hhandle : r.handle = some key := by
    have hreads := ha.reads
    rw [Reads, hstage] at hreads
    exact hreads
  obtain ⟨resource, hresource, hkey, -⟩ := (ha.listening hhandle).resource?_eq hhandle
  unfold atTop
  cases htransport : s.bus.transport with
  | blocking =>
    simp only
    split
    · rename_i hclosed
      exact .stop (Or.inl hstage) (by rw [Told, if_pos htransport]; exact hclosed)
    · rename_i hclosed
      exact .look hstage (by rw [Told, if_pos htransport]; exact hclosed)
  | cancellable =>
    have hne : s.bus.transport ≠ .blocking := by rw [htransport]; decide
    simp only
    split
    · rename_i hcancelled
      exact .stop (Or.inl hstage) (by rw [Told, if_neg hne]; exact hcancelled)
    · rename_i hcancelled
      have htold : ¬ r.Told s := by rw [Told, if_neg hne]; exact hcancelled
      split
      · rename_i hempty
        rw [arrivals, hresource, Option.map_some, Option.getD_some, hkey,
          List.isEmpty_iff] at hempty
        exact .wait hstage hempty htold
      · exact .look hstage htold
  | batched =>
    have hne : s.bus.transport ≠ .blocking := by rw [htransport]; decide
    simp only
    split
    · rename_i hcancelled
      exact .stop (Or.inl hstage) (by rw [Told, if_neg hne]; exact hcancelled)
    · rename_i hcancelled
      exact .look hstage (by rw [Told, if_neg hne]; exact hcancelled)
  | ring => rw [htransport] at hsocket; exact hsocket.elim
  | virtual => rw [htransport] at hsocket; exact hsocket.elim

/-- A failed call is the event at the front of the queue. -/
theorem read_fail {number : Errno} {k : Kernel} (hstage : r.stage = .receiving)
    (hopen : ¬ (s.bus.transport = .blocking ∧ r.isClosed s = true))
    (hqueue : s.medium.kernel.arrivals key = .failure number :: k.arrivals key) :
    Read key s r (r.fail (s.withKernel k) (.os number)).1
      (r.fail (s.withKernel k) (.os number)).2 := by
  unfold fail
  rw [if_neg (show ¬ ((s.withKernel k).bus.transport = .blocking ∧
    r.isClosed (s.withKernel k) = true) from hopen), afterFailure_os]
  by_cases hinterrupted : number = .interrupted
  · have habsorb : s.bus.reception.absorb (.failure number) =
        (s.bus.reception.count Stats.countError, .reading) := by
      simp only [Reception.absorb, if_pos hinterrupted]
    rw [if_pos hinterrupted]
    exact .fail hstage hqueue habsorb
  · rw [if_neg hinterrupted]
    by_cases htransient : number = .tryAgain ∨ number = .timedOut ∨ number = .inProgress
    · have habsorb : s.bus.reception.absorb (.failure number) = (s.bus.reception, .reading) := by
        simp only [Reception.absorb, if_neg hinterrupted, if_pos htransient]
      rw [if_pos htransient]
      exact .fail hstage hqueue habsorb
    · have habsorb : s.bus.reception.absorb (.failure number) =
          (s.bus.reception.count Stats.countError, .failed (.io (.os number))) := by
        simp only [Reception.absorb, if_neg hinterrupted, if_neg htransient]
      rw [if_neg htransient]
      exact .fail hstage hqueue habsorb

/-- An empty queue reports a timeout, which is the end of a task whose socket was closed. -/
theorem read_timeout (hstage : r.stage = .receiving)
    (hempty : s.medium.kernel.arrivals key = []) :
    Read key s r (r.fail s (.os .tryAgain)).1 (r.fail s (.os .tryAgain)).2 := by
  unfold fail
  by_cases hclosed : s.bus.transport = .blocking ∧ r.isClosed s = true
  · rw [if_pos hclosed]
    exact .stop (Or.inr hstage) (by rw [Told, if_pos hclosed.1]; exact hclosed.2)
  · rw [if_neg hclosed]
    exact .timeout hstage hempty

/-- A failure in the queue of a blocking socket is read while the socket is open. -/
theorem Listening.not_closed {event : Arrival} {rest : List Arrival} (h : r.Listening key s)
    (hqueue : s.medium.kernel.arrivals key = event :: rest) :
    ¬ (s.bus.transport = .blocking ∧ r.isClosed s = true) := by
  rintro ⟨htransport, hclosed⟩
  have hempty := h.told (by rw [Told, if_pos htransport]; exact hclosed)
  rw [hempty] at hqueue
  cases hqueue

/-- One receive call takes events from the front of the queue. -/
theorem read_receive (ha : r.Attached key s) (hstage : r.stage = .receiving) :
    Read key s r (r.receive s).1 (r.receive s).2 := by
  have hhandle : r.handle = some key := by
    have hreads := ha.reads
    rw [Reads, hstage] at hreads
    exact hreads
  have hlistening := ha.listening hhandle
  obtain ⟨resource, hresource, rfl, hopen⟩ := hlistening.resource?_eq hhandle
  unfold receive
  rw [hresource]
  simp only
  by_cases hbatched : s.bus.transport = .batched
  · rw [if_pos hbatched]
    have hcall : (if resource.socket.closed = true then throw CanSocket.closedFailure
        else ExceptT.adapt Failure.os (Kernel.receiveMany resource.key
          s.bus.config.batch.size.toNat) : Kernel.Op Failure (List (List UInt8))) =
        ExceptT.adapt Failure.os
          (Kernel.receiveMany resource.key s.bus.config.batch.size.toNat) := by
      rw [hopen (by rw [hbatched]; decide)]
      rfl
    rw [hcall]
    match hqueue : s.medium.kernel.arrivals resource.key with
    | [] =>
      rw [Site.onKernel_adapt (Kernel.receiveMany_nil hqueue)]
      exact read_timeout hstage hqueue
    | .failure number :: rest =>
      obtain ⟨k, hrun, hrest⟩ := Kernel.receiveMany_failure hqueue
      rw [Site.onKernel_adapt hrun]
      exact read_fail hstage (hlistening.not_closed hqueue) (by rw [hqueue, hrest])
    | .record bytes :: rest =>
      obtain ⟨k, first, others, behind, hrun, htaken, hbehind⟩ :=
        Kernel.receiveMany_record ha.size_pos hqueue
      rw [Site.onKernel_adapt hrun]
      exact .take hstage (List.cons_ne_nil first others) (by rw [htaken, hbehind])
    | .endOfStream :: rest =>
      have hproper := hlistening.proper
      rw [hqueue] at hproper
      exact absurd List.mem_cons_self hproper
  · rw [if_neg hbatched]
    have hcall : (if s.bus.transport = .blocking then resource.socket.awaitRecord
        else resource.socket.receive) = ExceptT.adapt Failure.os (Kernel.receive resource.key) := by
      split
      · rfl
      · rename_i hblocking
        rw [CanSocket.receive, hopen hblocking]
        rfl
    rw [hcall]
    match hqueue : s.medium.kernel.arrivals resource.key with
    | [] =>
      rw [Site.onKernel_adapt (Kernel.receive_nil hqueue)]
      exact read_timeout hstage hqueue
    | .failure number :: rest =>
      obtain ⟨k, hrun, hrest⟩ := Kernel.receive_cons hqueue
      rw [Site.onKernel_adapt hrun]
      exact read_fail hstage (hlistening.not_closed hqueue) (by rw [hqueue, hrest])
    | .record bytes :: rest =>
      obtain ⟨k, hrun, hrest⟩ := Kernel.receive_cons hqueue
      rw [Site.onKernel_adapt hrun]
      exact .take hstage (List.cons_ne_nil bytes []) (by rw [hqueue, hrest]; rfl)
    | .endOfStream :: rest =>
      have hproper := hlistening.proper
      rw [hqueue] at hproper
      exact absurd List.mem_cons_self hproper

/-- A record at hand is an event that has been read. -/
theorem read_handleRecord {bytes : List UInt8} {rest : List (List UInt8)}
    (hstage : r.stage = .holding (bytes :: rest)) (hcut : Kernel.truncated bytes = bytes) :
    Read key s r (r.handleRecord s bytes rest).1 (r.handleRecord s bytes rest).2 := by
  unfold handleRecord
  split
  · rename_i hwhole
    have habsorb : s.bus.reception.absorb (.record bytes) =
        ((s.bus.reception.deliverWire ⟨bytes.toArray, hwhole⟩).2,
          if (s.bus.reception.deliverWire ⟨bytes.toArray, hwhole⟩).1 then .reading else .died) := by
      simp only [Reception.absorb, hcut]
      rw [dif_pos hwhole]
    have hread : Read key s r _ _ := .hand hstage habsorb
    rw [handOn_snd]
    cases hreturned : (s.bus.reception.deliverWire ⟨bytes.toArray, hwhole⟩).1 with
    | false =>
      rw [hreturned] at hread
      exact hread
    | true =>
      rw [hreturned] at hread
      exact hread
  · rename_i hwhole
    have habsorb : s.bus.reception.absorb (.record bytes) =
        (s.bus.reception.count Stats.countError, .failed (.shortRead bytes.length wireSize)) := by
      simp only [Reception.absorb, hcut]
      rw [dif_neg hwhole]
    exact .hand hstage habsorb

theorem read_step (ha : r.Attached key s) : Read key s r (r.step s).1 (r.step s).2 := by
  have hreads := ha.reads
  unfold step
  cases hstage : r.stage with
  | top => exact read_atTop ha hstage
  | receiving => exact read_receive ha hstage
  | holding records =>
    rw [Reads, hstage] at hreads
    obtain ⟨-, hne, hcut⟩ := hreads
    cases records with
    | nil => exact absurd rfl hne
    | cons bytes rest => exact read_handleRecord hstage (hcut bytes List.mem_cons_self)
  | returned outcome => exact .finish hstage
  | published => exact .leave hstage
  | exited died => exact .gone hstage
  | looking _ | releasing _ | advancing _ | swept _ | sleeping _ _ =>
    simp [Reads, hstage] at hreads

/-! ## What is left to be read -/

/-- What is at hand, then what waits in the queue, and then the way out lead to a result. -/
def LeadsTo (key : Descriptor) (result : Reception × Ending) (s : Site) (r : Receiver) : Prop :=
  match r.stage with
  | .top | .receiving =>
    s.bus.reception.through (s.medium.kernel.arrivals key) = result
  | .holding records =>
    s.bus.reception.through (records.map .record ++ s.medium.kernel.arrivals key) = result
  | .returned outcome => ∃ ending : Ending, result = (s.bus.reception, ending) ∧
    ending.outcome? = some outcome
  | .published | .exited _ => s.bus.reception = Reception.settle result
  | _ => False

theorem leadsTo_goTo (stage : Stage) : (r.goTo stage).LeadsTo key result s =
    ({ r with stage := stage } : Receiver).LeadsTo key result s := by
  rw [LeadsTo, stage_goTo]
  rfl

/-- After an event that ended it, a task has its result; otherwise the rest is still to come. -/
theorem leadsTo_absorbed {event : Arrival} {more : List Arrival} {reception : Reception}
    {ending : Ending} {next : Stage} (habsorb : s.bus.reception.absorb event = (reception, ending))
    (h : s.bus.reception.through (event :: more) = result) (hreception : s'.bus.reception = reception)
    (hnext : reception.through more = result → (r.goTo next).LeadsTo key result s') :
    (r.goTo (ending.stage next)).LeadsTo key result s' := by
  cases ending with
  | reading =>
    rw [Reception.through_cons_of_reading habsorb] at h
    exact hnext h
  | failed e =>
    rw [Reception.through_cons_of_ended habsorb (by simp)] at h
    show (r.goTo (.returned (.error e))).LeadsTo key result s'
    rw [leadsTo_goTo]
    exact ⟨.failed e, by rw [← h, hreception], rfl⟩
  | died =>
    rw [Reception.through_cons_of_ended habsorb (by simp)] at h
    show (r.goTo (.exited true)).LeadsTo key result s'
    rw [leadsTo_goTo]
    show s'.bus.reception = Reception.settle result
    rw [← h, hreception]
    rfl

theorem handle_of_reading (h : r.Reads key) (hstage : r.stage = .top ∨ r.stage = .receiving) :
    r.handle = some key := by
  rcases hstage with hstage | hstage <;> rw [Reads, hstage] at h <;> exact h

theorem handle_of_reads (h : r.Reads key) : r.handle = none ∨ r.handle = some key := by
  unfold Reads at h
  split at h
  · exact Or.inr h
  · exact Or.inr h
  · exact Or.inr h.1
  · exact Or.inl h
  · exact Or.inl h
  · exact Or.inl h
  · exact h.elim

/-- One action leaves the result as it is. -/
theorem Read.leadsTo (hread : Read key s r s' r') (ha : r.Attached key s)
    (h : r.LeadsTo key result s) : r'.LeadsTo key result s' := by
  cases hread with
  | wait | gone => exact h
  | look hstage | timeout hstage =>
    rw [LeadsTo, hstage] at h
    rw [leadsTo_goTo]
    exact h
  | stop hstage htold =>
    have hhandle := handle_of_reading ha.reads hstage
    have hempty := (ha.listening hhandle).told htold
    have hnow : s.bus.reception.through (s.medium.kernel.arrivals key) = result := by
      rcases hstage with hstage | hstage <;> rw [LeadsTo, hstage] at h <;> exact h
    rw [leadsTo_goTo]
    refine ⟨.reading, ?_, rfl⟩
    rw [← hnow, hempty]
    rfl
  | @take k taken hstage hne hqueue =>
    rw [LeadsTo, hstage, hqueue, ← Reception.through_truncated] at h
    rw [leadsTo_goTo]
    show s.bus.reception.through ((taken.map Kernel.truncated).map .record ++ k.arrivals key) =
      result
    rw [List.map_map]
    exact h
  | @fail k number reception ending hstage hqueue habsorb =>
    rw [LeadsTo, hstage, hqueue] at h
    apply leadsTo_absorbed habsorb h rfl
    intro hmore
    rw [leadsTo_goTo]
    exact hmore
  | @hand bytes rest reception ending hstage habsorb =>
    rw [LeadsTo, hstage] at h
    apply leadsTo_absorbed habsorb h rfl
    intro hmore
    rw [leadsTo_goTo]
    cases rest with
    | nil => exact hmore
    | cons next rest => exact hmore
  | finish hstage =>
    rw [LeadsTo, hstage] at h
    obtain ⟨ending, rfl, houtcome⟩ := h
    rw [leadsTo_goTo]
    cases ending with
    | reading =>
      cases houtcome
      rfl
    | failed e =>
      cases houtcome
      rfl
    | died => cases houtcome
  | leave hstage =>
    rw [LeadsTo, hstage] at h
    rw [leadsTo_goTo]
    exact h

/-- Whoever was not told to stop leaves its loop for a reason. -/
theorem Read.ended (hread : Read key s r s' r') (ha : r.Attached key s)
    (h : r.LeadsTo key result s) (hhandle : r.handle = some key) (htold : ¬ r.Told s)
    (hout : r'.handle = none) : result.2 ≠ .reading := by
  have hended : ∀ {event more reception ending next},
      s.bus.reception.absorb event = (reception, ending) →
      s.bus.reception.through (event :: more) = result →
      (r.goTo (ending.stage next)).handle = none → (r.goTo next).handle = r.handle →
      result.2 ≠ .reading := by
    intro event more reception ending next habsorb hthrough hnone hnext
    cases ending with
    | reading =>
      rw [Ending.stage, hnext, hhandle] at hnone
      cases hnone
    | failed e =>
      rw [← hthrough, Reception.through_cons_of_ended habsorb (by simp)]
      simp
    | died =>
      rw [← hthrough, Reception.through_cons_of_ended habsorb (by simp)]
      simp
  have hreads := ha.reads
  cases hread with
  | wait | look | timeout | take =>
    have hheld : r.handle = none := hout
    rw [hhandle] at hheld
    cases hheld
  | stop hstage hstop => exact absurd hstop htold
  | fail hstage hqueue habsorb =>
    rw [LeadsTo, hstage, hqueue] at h
    exact hended habsorb h hout rfl
  | @hand bytes rest reception ending hstage habsorb =>
    rw [LeadsTo, hstage] at h
    refine hended habsorb h hout ?_
    cases rest <;> rfl
  | finish hstage | leave hstage | gone hstage =>
    rw [Reads, hstage, hhandle] at hreads
    cases hreads

/-- What one action keeps: the task stays what it is, the bus but for its reception too, and a
queue only gets shorter. -/
structure Kept (key : Descriptor) (s : Site) (r : Receiver) (s' : Site) (r' : Receiver) : Prop where
  bus_eq : s'.bus = { s.bus with reception := s'.bus.reception }
  id_eq : r'.id = r.id
  cancelled_eq : r'.cancelled = r.cancelled
  handle_eq : r'.handle = r.handle ∨ r'.handle = none
  queue : s'.medium.kernel.arrivals key <:+ s.medium.kernel.arrivals key
  reads : r'.Reads key

theorem goTo_cancelled (r : Receiver) (stage : Stage) :
    (r.goTo stage).cancelled = r.cancelled := by
  cases stage <;> rfl

theorem reads_goTo (ending : Ending) {next : Stage} (h : (r.goTo next).Reads key) :
    (r.goTo (ending.stage next)).Reads key := by
  cases ending with
  | reading => exact h
  | failed e => exact (rfl : (r.goTo (.returned (.error e))).handle = none)
  | died => exact (rfl : (r.goTo (.exited true)).handle = none)

theorem Read.kept (hread : Read key s r s' r') (hreads : r.Reads key) : Kept key s r s' r' := by
  have hgo : ∀ {s' : Site} {stage : Stage}, s'.bus = { s.bus with reception := s'.bus.reception } →
      s'.medium.kernel.arrivals key <:+ s.medium.kernel.arrivals key →
      (r.goTo stage).Reads key → Kept key s r s' (r.goTo stage) := by
    intro s' stage hbus hqueue hstage
    exact ⟨hbus, id_goTo r stage, goTo_cancelled r stage, goTo_handle r stage, hqueue, hstage⟩
  have hsame : s.medium.kernel.arrivals key <:+ s.medium.kernel.arrivals key :=
    List.suffix_refl _
  cases hread with
  | wait | gone => exact ⟨rfl, rfl, rfl, Or.inl rfl, hsame, hreads⟩
  | look hstage =>
    have hhandle := handle_of_reading hreads (Or.inl hstage)
    exact hgo rfl hsame hhandle
  | timeout hstage =>
    have hhandle := handle_of_reading hreads (Or.inr hstage)
    exact hgo rfl hsame hhandle
  | stop => exact hgo rfl hsame rfl
  | @take k taken hstage hne hqueue =>
    have hhandle := handle_of_reading hreads (Or.inr hstage)
    refine hgo rfl ⟨taken.map .record, hqueue.symm⟩ ⟨hhandle, by simpa using hne, ?_⟩
    · intro bytes hbytes
      obtain ⟨whole, -, rfl⟩ := List.mem_map.mp hbytes
      rw [Kernel.truncated, Kernel.truncated, List.take_take, Nat.min_self]
  | @fail k number reception ending hstage hqueue habsorb =>
    have hhandle := handle_of_reading hreads (Or.inr hstage)
    exact hgo rfl ⟨[.failure number], hqueue.symm⟩ (reads_goTo _ hhandle)
  | @hand bytes rest reception ending hstage habsorb =>
    refine hgo rfl hsame (reads_goTo _ ?_)
    rw [Reads, hstage] at hreads
    obtain ⟨hhandle, -, hcut⟩ := hreads
    cases rest with
    | nil => exact hhandle
    | cons next rest =>
      exact ⟨hhandle, List.cons_ne_nil next rest,
        fun other hother => hcut other (List.mem_cons_of_mem _ hother)⟩
  | finish | leave => exact hgo rfl hsame rfl

/-- How far a task is from its end once it is told to stop. -/
def rank (waiting : Nat) (r : Receiver) : Nat :=
  match r.stage with
  | .top => 10 * waiting + 4
  | .receiving => if waiting = 0 then 5 else 10 * waiting + 3
  | .holding records => 10 * waiting + 5 * records.length + 5
  | .returned _ => 2
  | .published => 1
  | _ => 0

theorem rank_goTo (waiting : Nat) (stage : Stage) :
    (r.goTo stage).rank waiting = ({ r with stage := stage } : Receiver).rank waiting := by
  rw [rank, stage_goTo]
  rfl

theorem rank_ending_le (ending : Ending) {waiting : Nat} {next : Stage}
    (hnext : 2 ≤ (r.goTo next).rank waiting) :
    (r.goTo (ending.stage next)).rank waiting ≤ (r.goTo next).rank waiting := by
  cases ending with
  | reading => exact Nat.le_refl _
  | failed e => exact hnext
  | died => exact Nat.zero_le _

/-- A task that has something to read, or that is told to stop, comes closer to its end. -/
theorem Read.rank_lt (hread : Read key s r s' r')
    (hbusy : s.medium.kernel.arrivals key ≠ [] ∨ r.Told s ∨ r.stage ≠ .top)
    (hexited : r.hasExited = false) :
    r'.rank (s'.medium.kernel.arrivals key).length <
      r.rank (s.medium.kernel.arrivals key).length := by
  cases hread with
  | wait hstage hempty htold =>
    rcases hbusy with hbusy | hbusy | hbusy
    · exact absurd hempty hbusy
    · exact absurd hbusy htold
    · exact absurd hstage hbusy
  | look hstage htold =>
    have hwaiting : (s.medium.kernel.arrivals key).length ≠ 0 := by
      rcases hbusy with hbusy | hbusy | hbusy
      · simpa using hbusy
      · exact absurd hbusy htold
      · exact absurd hstage hbusy
    rw [rank_goTo]
    simp only [rank, hstage, if_neg hwaiting]
    omega
  | timeout hstage hempty =>
    rw [rank_goTo]
    simp only [rank, hstage, hempty]
    decide
  | stop hstage htold =>
    rw [rank_goTo]
    rcases hstage with hstage | hstage <;> simp only [rank, hstage]
    · omega
    · split <;> omega
  | @take k taken hstage hne hqueue =>
    have htaken := List.length_pos_iff.mpr hne
    have hlength : (s.medium.kernel.arrivals key).length =
        taken.length + (k.arrivals key).length := by
      rw [hqueue, List.length_append, List.length_map]
    rw [rank_goTo]
    simp only [rank, hstage, hlength, List.length_map]
    show 10 * (k.arrivals key).length + 5 * taken.length + 5 < _
    rw [if_neg (by omega)]
    omega
  | @fail k number reception ending hstage hqueue habsorb =>
    have hlength : (s.medium.kernel.arrivals key).length = (k.arrivals key).length + 1 := by
      rw [hqueue, List.length_cons]
    have hle : (r.goTo (ending.stage .top)).rank (k.arrivals key).length ≤
        10 * (k.arrivals key).length + 4 :=
      rank_ending_le ending (Nat.le_trans (by decide : 2 ≤ 4) (Nat.le_add_left _ _))
    refine Nat.lt_of_le_of_lt hle ?_
    simp only [rank, hstage, hlength]
    rw [if_neg (by omega)]
    omega
  | @hand bytes rest reception ending hstage habsorb =>
    cases rest with
    | nil =>
      have hle : (r.goTo (ending.stage .top)).rank (s.medium.kernel.arrivals key).length ≤
          10 * (s.medium.kernel.arrivals key).length + 4 :=
        rank_ending_le ending (Nat.le_trans (by decide : 2 ≤ 4) (Nat.le_add_left _ _))
      refine Nat.lt_of_le_of_lt hle ?_
      simp only [rank, hstage, List.length_cons]
      omega
    | cons next rest =>
      have hle : (r.goTo (ending.stage (.holding (next :: rest)))).rank
          (s.medium.kernel.arrivals key).length ≤
          10 * (s.medium.kernel.arrivals key).length + 5 * (next :: rest).length + 5 :=
        rank_ending_le ending (Nat.le_trans (by decide : 2 ≤ 5) (Nat.le_add_left _ _))
      refine Nat.lt_of_le_of_lt hle ?_
      simp only [rank, hstage, List.length_cons]
      omega
  | finish hstage | leave hstage =>
    rw [rank_goTo]
    simp only [rank, hstage]
    omega
  | gone hstage =>
    rw [hasExited, hstage] at hexited
    cases hexited

end Receiver

end CanTransport
