import CanTransport.Bus.Run
import CanTransport.Proofs.Bus.Reads
/-!
# Buses that receive from a socket

A bus that was connected, with everything that comes to its socket until a caller disconnects it.
Events come in any portions between the actions of the task and of the caller, so that a call for
several records finds any run of them.
-/

namespace CanTransport

namespace Site

/-- A bus whose connection is complete, and whose task has not begun to read its socket. -/
structure Attends (key : Descriptor) (id : ReceiverId) (s : Site) : Prop where
  socket : s.bus.transport.ReadsSocket
  size_pos : 0 < s.bus.config.batch.size.toNat
  receivers_eq : ∃ r, s.bus.receivers = [r] ∧ r.id = id ∧ r.stage = .top ∧
    r.handle = some key ∧ r.cancelled = false
  resource : ∃ resource, s.bus.resource? key = some resource ∧ resource.socket.closed = false
  published_eq : s.bus.published = some key
  connection_eq : s.bus.connection = some
    { receiver := id, socket := if s.bus.transport = .blocking then some key else none }
  operations_eq : s.bus.operations = []
  lock_eq : s.bus.lock = none
  proper : .endOfStream ∉ s.medium.kernel.arrivals key

end Site

/-- A bus and the events that came to its socket. -/
structure Intake where
  site : Site
  /-- All events so far, in order. -/
  arrived : List Arrival
  /-- Whether a caller began to disconnect. -/
  stopping : Bool := false

namespace Intake

/-- Whether no task has anything left to read. -/
def Drained (key : Descriptor) (w : Intake) : Prop :=
  ∀ r ∈ w.site.bus.receivers, r.handle = some key → w.site.medium.kernel.arrivals key = []

/-- Whatever happens next. The bus is disconnected once everything was read. -/
inductive Step (key : Descriptor) : Intake → Intake → Prop where
  | arrive {w : Intake} {medium : Medium} {events : List Arrival} (hgoing : w.stopping = false)
      (hproper : .endOfStream ∉ events)
      (hqueue : medium.kernel.arrivals key = w.site.medium.kernel.arrivals key ++ events) :
      Step key w { w with
        site := { w.site with medium := medium }, arrived := w.arrived ++ events }
  | run {w : Intake} (id : ReceiverId) : Step key w { w with site := w.site.run id }
  | disconnect {w : Intake} (hgoing : w.stopping = false) (hdrained : w.Drained key) :
      Step key w { w with site := (w.site.start .disconnect).2, stopping := true }
  | act {w : Intake} (id : OperationId) : Step key w { w with site := (w.site.advance id).2 }

/-- What can be reached from a bus, or from anything reached before. -/
inductive Reaches (key : Descriptor) (w : Intake) : Intake → Prop where
  | refl : Reaches key w w
  | step {w' w'' : Intake} (hreach : Reaches key w w') (hstep : Step key w' w'') :
      Reaches key w w''

/-- The bus with what waits in its queue at first. -/
def start (key : Descriptor) (s : Site) : Intake :=
  { site := s, arrived := s.medium.kernel.arrivals key }

/-- Whether no task and no operation is left that could do anything. -/
def Over (w : Intake) : Prop :=
  w.site.bus.operations = [] ∧ ∀ r ∈ w.site.bus.receivers, r.hasExited = true

/-- What a caller does after the task has been joined. -/
def aftermath : List Action := [.unpublish, .closeSocket, .letGo, .check, .leave]

/-- A connection that nobody has taken. -/
def Connected (key : Descriptor) (id : ReceiverId) (b : Bus) : Prop :=
  b.published = some key ∧ b.lock = none ∧ b.connection = some
    { receiver := id, socket := if b.transport = .blocking then some key else none }

/-- Where the caller is while there is a task. -/
inductive Course (key : Descriptor) (w : Intake) (r : Receiver) : Prop where
  | going (hstopping : w.stopping = false) (hoperations : w.site.bus.operations = [])
      (hconnected : Connected key r.id w.site.bus)
      (htold : r.handle = some key → ¬ r.Told w.site)
  | asked {o : Operation} (hstopping : w.stopping = true)
      (hoperations : w.site.bus.operations = [o]) (htodo : o.todo = [.enter])
      (hrequest : o.request = .disconnect) (hconnected : Connected key r.id w.site.bus)
  | withdrawing {o : Operation} {rest : List Action} (hstopping : w.stopping = true)
      (hoperations : w.site.bus.operations = [o])
      (htodo : o.todo = .unpublish :: .closeSocket :: .join :: rest)
      (hrest : rest <:+ aftermath) (hreceiver : o.receiver = some r.id)
      (htransport : w.site.bus.transport = .blocking)
      (hpublished : w.site.bus.published = some key)
  | closing {o : Operation} {rest : List Action} (hstopping : w.stopping = true)
      (hoperations : w.site.bus.operations = [o]) (htodo : o.todo = .closeSocket :: .join :: rest)
      (hrest : rest <:+ aftermath) (hreceiver : o.receiver = some r.id)
      (htransport : w.site.bus.transport = .blocking) (hhandle : o.handle = some key)
  | cancelling {o : Operation} {rest : List Action} (hstopping : w.stopping = true)
      (hoperations : w.site.bus.operations = [o]) (htodo : o.todo = .cancel :: .join :: rest)
      (hrest : rest <:+ aftermath) (hreceiver : o.receiver = some r.id)
      (htransport : w.site.bus.transport ≠ .blocking)
  | joining {o : Operation} {rest : List Action} (hstopping : w.stopping = true)
      (hoperations : w.site.bus.operations = [o]) (htodo : o.todo = .join :: rest)
      (hrest : rest <:+ aftermath) (hreceiver : o.receiver = some r.id)
      (htold : r.handle = some key → r.Told w.site)

/-- There is a task, and it leads to a result. -/
structure Attending (key : Descriptor) (result : Reception × Ending) (w : Intake) (r : Receiver) :
    Prop where
  receivers_eq : w.site.bus.receivers = [r]
  attached : r.Attached key w.site
  leadsTo : r.LeadsTo key result w.site
  drained : w.stopping = true → r.handle = some key → w.site.medium.kernel.arrivals key = []
  ended : w.stopping = false → r.handle = none → result.2 ≠ .reading
  course : Course key w r

/-- The task is gone, and the result has been published. -/
structure Left (result : Reception × Ending) (w : Intake) : Prop where
  receivers_eq : w.site.bus.receivers = []
  reception_eq : w.site.bus.reception = Reception.settle result
  stopping : w.stopping = true
  course : w.site.bus.operations = [] ∨
    ∃ o, w.site.bus.operations = [o] ∧ o.todo <:+ aftermath

/-- What holds of a bus that receives after every step. -/
def Sound (key : Descriptor) (result : Reception × Ending) (w : Intake) : Prop :=
  (∃ r, Attending key result w r) ∨ Left result w

variable {key : Descriptor} {result : Reception × Ending} {w w' : Intake} {r : Receiver}

/-! ## What the task does not notice -/

/-- A task goes on with what it reads as it is, whatever happens to the rest of the bus. -/
theorem Attending.moved (cancelled : Bool) (h : Attending key result w r)
    (hreceivers : w'.site.bus.receivers = [{ r with cancelled := cancelled }])
    (htransport : w'.site.bus.transport = w.site.bus.transport)
    (hconfig : w'.site.bus.config = w.site.bus.config)
    (hreception : w'.site.bus.reception = w.site.bus.reception)
    (hqueue : r.handle = some key →
      w'.site.medium.kernel.arrivals key = w.site.medium.kernel.arrivals key)
    (hresource : r.handle = some key → ∃ resource, w'.site.bus.resource? key = some resource ∧
      (w'.site.bus.transport ≠ .blocking → resource.socket.closed = false))
    (htold : r.handle = some key → ({ r with cancelled := cancelled } : Receiver).Told w'.site →
      w'.site.medium.kernel.arrivals key = [])
    (hdrained : w'.stopping = true → r.handle = some key →
      w'.site.medium.kernel.arrivals key = [])
    (hended : w'.stopping = false → r.handle = none → result.2 ≠ .reading)
    (hcourse : Course key w' { r with cancelled := cancelled }) :
    Attending key result w' { r with cancelled := cancelled } where
  receivers_eq := hreceivers
  attached := by
    refine ⟨?_, ?_, h.attached.reads, ?_⟩
    · rw [htransport]
      exact h.attached.socket
    · rw [hconfig]
      exact h.attached.size_pos
    · intro hhandle
      refine ⟨hresource hhandle, ?_, htold hhandle⟩
      rw [hqueue hhandle]
      exact (h.attached.listening hhandle).proper
  leadsTo := by
    have hleads := h.leadsTo
    have hreads := h.attached.reads
    unfold Receiver.LeadsTo at hleads ⊢
    unfold Receiver.Reads at hreads
    rw [hreception]
    cases hstage : r.stage <;> simp only [hstage] at hleads hreads ⊢
    case top | receiving =>
      rw [hqueue hreads]
      exact hleads
    case holding records =>
      rw [hqueue hreads.1]
      exact hleads
    all_goals exact hleads
  drained := hdrained
  ended := hended
  course := hcourse

theorem Attending.holds (h : Attending key result w r) (hhandle : r.handle = some key) :
    w.site.bus.holds key = true := by
  simp [Bus.holds, h.receivers_eq, hhandle]

theorem told_congr {s s' : Site} (htransport : s'.bus.transport = s.bus.transport)
    (hresource : r.resource? s' = r.resource? s) : r.Told s' ↔ r.Told s := by
  unfold Receiver.Told Receiver.isClosed
  rw [htransport, hresource]

/-- The caller stays where it is if nothing changes that it depends on. -/
theorem Course.congr {r' : Receiver} (h : Course key w r) (hid : r'.id = r.id)
    (hstopping : w'.stopping = w.stopping)
    (hoperations : w'.site.bus.operations = w.site.bus.operations)
    (hpublished : w'.site.bus.published = w.site.bus.published)
    (hlock : w'.site.bus.lock = w.site.bus.lock)
    (hconnection : w'.site.bus.connection = w.site.bus.connection)
    (htransport : w'.site.bus.transport = w.site.bus.transport)
    (htold : r'.handle = some key →
      r.handle = some key ∧ (r'.Told w'.site ↔ r.Told w.site)) : Course key w' r' := by
  have hconnected : Connected key r.id w.site.bus → Connected key r'.id w'.site.bus := by
    unfold Connected
    rw [hpublished, hlock, hconnection, htransport, hid]
    exact fun hconn => hconn
  cases h with
  | going hgoing hnone hconn htold' =>
    refine .going (hstopping.trans hgoing) (hoperations.trans hnone) (hconnected hconn) ?_
    intro hhandle hstop
    obtain ⟨hold, hiff⟩ := htold hhandle
    exact htold' hold (hiff.mp hstop)
  | asked hgoing hone htodo hrequest hconn =>
    exact .asked (hstopping.trans hgoing) (hoperations.trans hone) htodo hrequest (hconnected hconn)
  | withdrawing hgoing hone htodo hrest hreceiver hblocking hpub =>
    exact .withdrawing (hstopping.trans hgoing) (hoperations.trans hone) htodo hrest
      (by rw [hid]; exact hreceiver) (htransport.trans hblocking) (hpublished.trans hpub)
  | closing hgoing hone htodo hrest hreceiver hblocking hhandle =>
    exact .closing (hstopping.trans hgoing) (hoperations.trans hone) htodo hrest
      (by rw [hid]; exact hreceiver) (htransport.trans hblocking) hhandle
  | cancelling hgoing hone htodo hrest hreceiver hblocking =>
    exact .cancelling (hstopping.trans hgoing) (hoperations.trans hone) htodo hrest
      (by rw [hid]; exact hreceiver) (by rw [htransport]; exact hblocking)
  | joining hgoing hone htodo hrest hreceiver htold' =>
    refine .joining (hstopping.trans hgoing) (hoperations.trans hone) htodo hrest
      (by rw [hid]; exact hreceiver) ?_
    intro hhandle
    obtain ⟨hold, hiff⟩ := htold hhandle
    exact hiff.mpr (htold' hold)

theorem Attending.resource_collect (h : Attending key result w r) (hhandle : r.handle = some key) :
    r.resource? w.site.collect = r.resource? w.site := by
  rw [Receiver.resource?, Receiver.resource?, hhandle, Option.bind_some, Option.bind_some,
    Site.resource?_collect (h.holds hhandle)]

/-- What is given back is not what the task reads. -/
theorem Attending.collect (h : Attending key result w r) :
    Attending key result { w with site := w.site.collect } r := by
  have hbus := Site.collect_bus w.site
  have hqueue : r.handle = some key →
      w.site.collect.medium.kernel.arrivals key = w.site.medium.kernel.arrivals key :=
    fun hhandle => Site.arrivals_collect (h.holds hhandle)
  have htransport : w.site.collect.bus.transport = w.site.bus.transport := by rw [hbus]
  have htold : r.handle = some key → (r.Told w.site.collect ↔ r.Told w.site) :=
    fun hhandle => told_congr htransport (h.resource_collect hhandle)
  apply h.moved r.cancelled
  · show w.site.collect.bus.receivers = _
    rw [hbus]
    exact h.receivers_eq
  · exact htransport
  · show w.site.collect.bus.config = _
    rw [hbus]
  · show w.site.collect.bus.reception = _
    rw [hbus]
  · exact hqueue
  · intro hhandle
    show ∃ resource, w.site.collect.bus.resource? key = some resource ∧ _
    rw [Site.resource?_collect (h.holds hhandle), show w.site.collect.bus.transport = _ from htransport]
    exact (h.attached.listening hhandle).resource
  · intro hhandle hstop
    show w.site.collect.medium.kernel.arrivals key = []
    rw [hqueue hhandle]
    exact (h.attached.listening hhandle).told ((htold hhandle).mp hstop)
  · intro hstopping hhandle
    show w.site.collect.medium.kernel.arrivals key = []
    rw [hqueue hhandle]
    exact h.drained hstopping hhandle
  · exact h.ended
  · apply h.course.congr
    · rfl
    · rfl
    · show w.site.collect.bus.operations = _
      rw [hbus]
    · show w.site.collect.bus.published = _
      rw [hbus]
    · show w.site.collect.bus.lock = _
      rw [hbus]
    · show w.site.collect.bus.connection = _
      rw [hbus]
    · exact htransport
    · exact fun hhandle => ⟨hhandle, htold hhandle⟩

/-! ## How far it is to the end -/

/-- What a caller still has to do; the entrance decides how much that is. -/
def work (todo : List Action) : Nat := if todo = [.enter] then 10 else todo.length + 1

/-- How far a bus that receives nothing more is from its end. -/
def rank (key : Descriptor) (w : Intake) : Nat :=
  (if w.stopping then 0 else 20) + total (w.site.bus.operations.map fun o => work o.todo) +
    total (w.site.bus.receivers.map (Receiver.rank (w.site.medium.kernel.arrivals key).length))

theorem Attending.rank_eq (h : Attending key result w r) :
    w.rank key = (if w.stopping then 0 else 20) + total (w.site.bus.operations.map fun o => work o.todo) +
      r.rank (w.site.medium.kernel.arrivals key).length := by
  rw [rank, h.receivers_eq]
  rfl

/-- Only a task that reads has something left to read. -/
theorem rank_congr {waiting waiting' : Nat} (hreads : r.Reads key)
    (h : r.handle = some key → waiting' = waiting) : r.rank waiting' = r.rank waiting := by
  unfold Receiver.Reads at hreads
  unfold Receiver.rank
  cases hstage : r.stage <;> simp only [hstage] at hreads ⊢
  case top | receiving => rw [h hreads]
  case holding records => rw [h hreads.1]

theorem Attending.rank_collect (h : Attending key result w r) :
    ({ w with site := w.site.collect } : Intake).rank key = w.rank key := by
  have hqueue : r.handle = some key → (w.site.collect.medium.kernel.arrivals key).length =
      (w.site.medium.kernel.arrivals key).length := by
    intro hhandle
    rw [Site.arrivals_collect (h.holds hhandle)]
  rw [h.collect.rank_eq, h.rank_eq]
  show _ + total (w.site.collect.bus.operations.map fun o => work o.todo) + r.rank _ = _
  rw [rank_congr h.attached.reads hqueue, Site.collect_bus]

/-! ## The task -/

theorem Course.not_told (h : Course key w r) (hstopping : w.stopping = false)
    (hhandle : r.handle = some key) : ¬ r.Told w.site := by
  cases h with
  | going hgoing hnone hconn htold => exact htold hhandle
  | asked hgoing | withdrawing hgoing | closing hgoing | cancelling hgoing | joining hgoing =>
    rw [hstopping] at hgoing
    cases hgoing

/-- The bus after an action of its task. -/
def turned (s : Site) (r : Receiver) : Site :=
  (r.step s).1.setBus ((r.step s).1.bus.setReceiver (r.step s).2)

theorem Attending.turned (h : Attending key result w r) :
    Attending key result { w with site := turned w.site r } (r.step w.site).2 := by
  have hread := Receiver.read_step h.attached
  have hkept := hread.kept h.attached.reads
  have hleads := hread.leadsTo h.attached h.leadsTo
  have hbus : (Intake.turned w.site r).bus = { w.site.bus with
      reception := (r.step w.site).1.bus.reception, receivers := [(r.step w.site).2] } := by
    unfold Intake.turned Site.setBus Bus.setReceiver
    rw [hkept.bus_eq]
    simp only [h.receivers_eq, List.map_cons, List.map_nil, hkept.id_eq, if_pos]
  have hqueue : w.site.medium.kernel.arrivals key = [] →
      (Intake.turned w.site r).medium.kernel.arrivals key = [] := by
    intro hempty
    have hsuffix := hkept.queue
    rw [hempty] at hsuffix
    exact List.suffix_nil.mp hsuffix
  have hhandle : (r.step w.site).2.handle = some key → r.handle = some key := by
    intro hsome
    rcases hkept.handle_eq with heq | heq
    · rw [← heq]
      exact hsome
    · rw [heq] at hsome
      cases hsome
  have htold : (r.step w.site).2.handle = some key →
      ((r.step w.site).2.Told (Intake.turned w.site r) ↔ r.Told w.site) := by
    intro hsome
    unfold Receiver.Told Receiver.isClosed Receiver.resource?
    rw [hkept.cancelled_eq, hsome, hhandle hsome, hbus]
    rfl
  refine ⟨?_, ⟨?_, ?_, hkept.reads, ?_⟩, hleads, ?_, ?_, ?_⟩
  · show (Intake.turned w.site r).bus.receivers = _
    rw [hbus]
  · show (Intake.turned w.site r).bus.transport.ReadsSocket
    rw [hbus]
    exact h.attached.socket
  · show 0 < (Intake.turned w.site r).bus.config.batch.size.toNat
    rw [hbus]
    exact h.attached.size_pos
  · intro hsome
    have hlistening := h.attached.listening (hhandle hsome)
    refine ⟨?_, ?_, ?_⟩
    · show ∃ resource, (Intake.turned w.site r).bus.resource? key = some resource ∧
        ((Intake.turned w.site r).bus.transport ≠ .blocking → resource.socket.closed = false)
      rw [hbus]
      exact hlistening.resource
    · exact fun hmem => hlistening.proper (hkept.queue.subset hmem)
    · exact fun hstop => hqueue (hlistening.told ((htold hsome).mp hstop))
  · exact fun hstopping hsome => hqueue (h.drained hstopping (hhandle hsome))
  · intro hstopping hnone
    rcases Receiver.handle_of_reads h.attached.reads with hold | hold
    · exact h.ended hstopping hold
    · exact hread.ended h.attached h.leadsTo hold (h.course.not_told hstopping hold) hnone
  · apply h.course.congr hkept.id_eq
    · rfl
    · show (Intake.turned w.site r).bus.operations = _
      rw [hbus]
    · show (Intake.turned w.site r).bus.published = _
      rw [hbus]
    · show (Intake.turned w.site r).bus.lock = _
      rw [hbus]
    · show (Intake.turned w.site r).bus.connection = _
      rw [hbus]
    · show (Intake.turned w.site r).bus.transport = _
      rw [hbus]
    · exact fun hsome => ⟨hhandle hsome, htold hsome⟩

theorem Attending.run_eq (h : Attending key result w r) (id : ReceiverId) :
    w.site.run id = w.site ∨ w.site.run id = (Intake.turned w.site r).collect := by
  rcases Site.run_eq w.site id with ⟨-, hsame⟩ | ⟨r', hfind, hrun⟩
  · exact Or.inl hsame
  · have hmem := (Bus.receiver?_mem hfind).1
    rw [h.receivers_eq, List.mem_singleton] at hmem
    subst hmem
    exact Or.inr hrun

/-- The task acts, and whoever runs another one does nothing. -/
theorem Attending.run (h : Attending key result w r) (id : ReceiverId) :
    ∃ r', Attending key result { w with site := w.site.run id } r' := by
  rcases h.run_eq id with hsame | hturned
  · rw [hsame]
    exact ⟨r, h⟩
  · rw [hturned]
    exact ⟨(r.step w.site).2, h.turned.collect⟩

theorem Attending.run_lt (h : Attending key result w r)
    (hbusy : w.site.medium.kernel.arrivals key ≠ [] ∨ r.Told w.site ∨ r.stage ≠ .top)
    (hexited : r.hasExited = false) :
    ({ w with site := w.site.run r.id } : Intake).rank key < w.rank key := by
  have hfind : w.site.bus.receiver? r.id = some r := by simp [Bus.receiver?, h.receivers_eq]
  have hrun : w.site.run r.id = (Intake.turned w.site r).collect := by
    rcases Site.run_eq w.site r.id with ⟨hnone, -⟩ | ⟨r', hsome, hrun⟩
    · rw [hfind] at hnone
      cases hnone
    · rw [hfind] at hsome
      cases hsome
      exact hrun
  have hread := Receiver.read_step h.attached
  have hoperations : (Intake.turned w.site r).bus.operations = w.site.bus.operations := by
    show (r.step w.site).1.bus.operations = _
    rw [(hread.kept h.attached.reads).bus_eq]
  have hlt := hread.rank_lt hbusy hexited
  have hcollect := h.turned.rank_collect
  rw [hrun, hcollect, h.turned.rank_eq, h.rank_eq]
  show _ + total ((Intake.turned w.site r).bus.operations.map fun o => work o.todo) + _ < _
  rw [hoperations]
  exact Nat.add_lt_add_left hlt _

end Intake

end CanTransport
