import CanTransport.Proofs.Bus.Intake
/-!
# Disconnecting from a socket

What a caller does to a bus that receives: it takes the connection, tells the task to stop, waits
for it and lets go of everything. Each of its actions keeps what leads the task to its result.
-/

namespace CanTransport

namespace Intake

variable {key : Descriptor} {result : Reception × Ending} {w w' : Intake} {r : Receiver}

theorem told_of_closed {s : Site} {resource : Resource} (htransport : s.bus.transport = .blocking)
    (hhandle : r.handle = some key) (hfind : s.bus.resource? key = some resource)
    (hclosed : resource.socket.closed = true) : r.Told s := by
  unfold Receiver.Told Receiver.isClosed Receiver.resource?
  rw [if_pos htransport, hhandle, Option.bind_some, hfind]
  exact hclosed

theorem told_of_cancelled {s : Site} (htransport : s.bus.transport ≠ .blocking)
    (hcancelled : r.cancelled = true) : r.Told s := by
  unfold Receiver.Told
  rw [if_neg htransport]
  exact hcancelled

theorem advance_other {s : Site} {id : OperationId} (h : ∀ o ∈ s.bus.operations, o.id ≠ id) :
    (s.advance id).2 = s := by
  rcases Site.advance_eq s id with hsame | ⟨o, hmem, hid, -⟩ | ⟨o, hmem, _, _, _, _, hid, -⟩
  · exact hsame
  · exact absurd hid (h o hmem)
  · exact absurd hid (h o hmem)

theorem advance_single {s s' : Site} {o o' : Operation} {action : Action} {rest : List Action}
    (hoperations : s.bus.operations = [o]) (htodo : o.todo = action :: rest)
    (hperform : { o with todo := rest }.perform s action = some (s', o')) :
    (s.advance o.id).2 = (s'.setBus (s'.bus.setOperation o')).collect := by
  unfold Site.advance
  simp [hoperations, htodo, hperform]

/-- An action of the caller that the task does not notice, or only by being told. -/
theorem Attending.advanced {s' : Site} {o o' : Operation} {action : Action} {rest : List Action}
    (cancelled : Bool) (h : Attending key result w r) (hone : w.site.bus.operations = [o])
    (htodo : o.todo = action :: rest)
    (hperform : { o with todo := rest }.perform w.site action = some (s', o'))
    (hsame : s'.bus.operations = [o]) (hid : o'.id = o.id) (hmedium : s'.medium = w.site.medium)
    (h' : Attending key result
      { w with site := s'.setBus { s'.bus with operations := [o'] } }
      { r with cancelled := cancelled })
    (hwork : work o'.todo < work o.todo) :
    (∃ r', Attending key result { w with site := (w.site.advance o.id).2 } r') ∧
      ({ w with site := (w.site.advance o.id).2 } : Intake).rank key < w.rank key := by
  have hset : s'.bus.setOperation o' = { s'.bus with operations := [o'] } := by
    simp only [Bus.setOperation, hsame, List.map_cons, List.map_nil, hid, if_pos]
  rw [advance_single hone htodo hperform, hset]
  refine ⟨⟨_, h'.collect⟩, ?_⟩
  have hcollect := h'.rank_collect
  rw [hcollect, h'.rank_eq, h.rank_eq]
  show (if w.stopping then 0 else 20) + (work o'.todo + 0) +
    r.rank (s'.medium.kernel.arrivals key).length < _
  rw [hone, hmedium]
  show _ + (work o'.todo + 0) + _ < _ + (work o.todo + 0) + _
  omega

/-- What callers do beside the task. -/
theorem Attending.aside {published : Option Descriptor} {connection : Option Connection}
    {lock : Option OperationId} {operations : List Operation} {next : Nat}
    (h : Attending key result w r)
    (hbus : w'.site.bus = { w.site.bus with
      published := published, connection := connection, lock := lock, operations := operations,
      next := next })
    (hmedium : w'.site.medium = w.site.medium)
    (hdrained : w'.stopping = true → r.handle = some key →
      w.site.medium.kernel.arrivals key = [])
    (hended : w'.stopping = false → r.handle = none → result.2 ≠ .reading)
    (hcourse : Course key w' r) : Attending key result w' r := by
  have htold : r.Told w'.site ↔ r.Told w.site := by
    unfold Receiver.Told Receiver.isClosed Receiver.resource?
    rw [hbus]
    rfl
  apply h.moved r.cancelled
  · rw [hbus]
    exact h.receivers_eq
  · rw [hbus]
  · rw [hbus]
  · rw [hbus]
  · intro _
    rw [hmedium]
  · intro hhandle
    rw [hbus]
    exact (h.attached.listening hhandle).resource
  · intro hhandle hstop
    rw [hmedium]
    exact (h.attached.listening hhandle).told (htold.mp hstop)
  · rw [hmedium]
    exact hdrained
  · exact hended
  · exact hcourse

/-- The entrance of a disconnect takes the connection. -/
theorem perform_enter {s : Site} {o : Operation} {id : ReceiverId} {rest : List Action}
    (hconnected : Connected key id s.bus) (hring : s.bus.transport ≠ .ring)
    (hrequest : o.request = .disconnect) :
    { o with todo := rest }.perform s .enter =
      some (s.setBus { s.bus with lock := some o.id, connection := none }, { o with
        receiver := some id
        handle := if s.bus.transport = .blocking then some key else none
        todo := s.bus.transport.teardown false ++ [.leave] }) := by
  obtain ⟨-, hlock, hconnection⟩ := hconnected
  have hnot : (Request.disconnect = Request.connect) = False := by simp
  simp only [Operation.perform, Operation.enter, hlock, hconnection, hrequest, Request.remainder,
    hnot, decide_false, Bool.false_and, if_neg hring]
  rfl

/-- The ways of the three transports to take a connection down. -/
theorem teardown_eq {transport : Transport} (h : transport.ReadsSocket) :
    (transport = .blocking ∧ transport.teardown false =
      [.unpublish, .closeSocket, .join, .letGo, .check]) ∨
    (transport ≠ .blocking ∧ transport.teardown false =
      [.cancel, .join, .unpublish, .closeSocket, .letGo, .check]) := by
  cases transport with
  | blocking => exact Or.inl ⟨rfl, rfl⟩
  | cancellable | batched => exact Or.inr ⟨by decide, rfl⟩
  | ring | virtual => exact h.elim

theorem work_lt {action : Action} {rest : List Action} (hne : action ≠ .enter)
    (hrest : .enter ∉ rest) : work rest < work (action :: rest) := by
  have hsecond : rest ≠ [.enter] := by
    intro heq
    rw [heq] at hrest
    exact hrest List.mem_cons_self
  have hfirst : action :: rest ≠ [.enter] := by simp [hne]
  rw [work, work, if_neg hsecond, if_neg hfirst, List.length_cons]
  omega

theorem not_enter {rest : List Action} (h : rest <:+ aftermath) : .enter ∉ rest := by
  intro hmem
  have haftermath := h.subset hmem
  revert haftermath
  decide

/-- After the entrance the caller has to withdraw the handle, or to cancel the task. -/
theorem Attending.asked {o : Operation} (h : Attending key result w r)
    (hstopping : w.stopping = true) (hone : w.site.bus.operations = [o])
    (htodo : o.todo = [.enter]) (hrequest : o.request = .disconnect)
    (hconnected : Connected key r.id w.site.bus) :
    (∃ r', Attending key result { w with site := (w.site.advance o.id).2 } r') ∧
      ({ w with site := (w.site.advance o.id).2 } : Intake).rank key < w.rank key := by
  have hsocket := h.attached.socket
  have hring : w.site.bus.transport ≠ .ring := by
    intro hring
    rw [hring] at hsocket
    exact hsocket
  refine h.advanced r.cancelled hone htodo (perform_enter hconnected hring hrequest) hone rfl rfl
    (h.aside rfl rfl h.drained h.ended ?_) ?_
  · rcases teardown_eq hsocket with ⟨htransport, hteardown⟩ | ⟨htransport, hteardown⟩
    · exact .withdrawing hstopping rfl (congrArg (· ++ [Action.leave]) hteardown) (by decide) rfl
        htransport hconnected.1
    · exact .cancelling hstopping rfl (congrArg (· ++ [Action.leave]) hteardown) (by decide) rfl
        htransport
  · show work (w.site.bus.transport.teardown false ++ [.leave]) < work o.todo
    rw [htodo]
    rcases teardown_eq hsocket with ⟨-, hteardown⟩ | ⟨-, hteardown⟩
    · rw [hteardown]
      decide
    · rw [hteardown]
      decide

theorem Attending.withdrawing {o : Operation} {rest : List Action} (h : Attending key result w r)
    (hstopping : w.stopping = true) (hone : w.site.bus.operations = [o])
    (htodo : o.todo = .unpublish :: .closeSocket :: .join :: rest)
    (hrest : rest <:+ aftermath) (hreceiver : o.receiver = some r.id)
    (htransport : w.site.bus.transport = .blocking)
    (hpublished : w.site.bus.published = some key) :
    (∃ r', Attending key result { w with site := (w.site.advance o.id).2 } r') ∧
      ({ w with site := (w.site.advance o.id).2 } : Intake).rank key < w.rank key := by
  refine h.advanced r.cancelled hone htodo rfl hone rfl rfl
    (h.aside rfl rfl h.drained h.ended ?_) ?_
  · refine .closing hstopping rfl rfl hrest hreceiver htransport ?_
    show (w.site.bus.published <|> o.handle) = some key
    rw [hpublished]
    rfl
  · rw [htodo]
    exact work_lt (by decide) (by simpa using not_enter hrest)

/-- The close of a blocking socket tells its task to stop. -/
theorem Attending.closing {o : Operation} {rest : List Action} (h : Attending key result w r)
    (hstopping : w.stopping = true) (hone : w.site.bus.operations = [o])
    (htodo : o.todo = .closeSocket :: .join :: rest)
    (hrest : rest <:+ aftermath) (hreceiver : o.receiver = some r.id)
    (htransport : w.site.bus.transport = .blocking) (hhandle : o.handle = some key) :
    (∃ r', Attending key result { w with site := (w.site.advance o.id).2 } r') ∧
      ({ w with site := (w.site.advance o.id).2 } : Intake).rank key < w.rank key := by
  have hperform : ({ o with todo := .join :: rest } : Operation).perform w.site .closeSocket =
      some (w.site.setBus (w.site.bus.closeSocket key), { o with todo := .join :: rest }) := by
    simp only [Operation.perform, hhandle]
  have hclosed : r.handle = some key → ∃ resource,
      (w.site.bus.closeSocket key).resource? key = some resource ∧ resource.socket.closed = true := by
    intro hsome
    obtain ⟨resource, hfind, -⟩ := (h.attached.listening hsome).resource
    exact ⟨_, Bus.resource?_closeSocket hfind, rfl⟩
  refine h.advanced r.cancelled hone htodo hperform hone rfl rfl ?_ ?_
  · apply h.moved r.cancelled
    · exact h.receivers_eq
    · rfl
    · rfl
    · rfl
    · exact fun _ => rfl
    · intro hsome
      obtain ⟨resource, hfind, -⟩ := hclosed hsome
      exact ⟨resource, hfind, fun hne => absurd htransport hne⟩
    · exact fun hsome _ => h.drained hstopping hsome
    · exact h.drained
    · exact h.ended
    · refine .joining hstopping rfl rfl hrest hreceiver ?_
      intro hsome
      obtain ⟨resource, hfind, hmark⟩ := hclosed hsome
      exact told_of_closed htransport hsome hfind hmark
  · rw [htodo]
    exact work_lt (by decide) (by simpa using not_enter hrest)

theorem Attending.cancelling {o : Operation} {rest : List Action} (h : Attending key result w r)
    (hstopping : w.stopping = true) (hone : w.site.bus.operations = [o])
    (htodo : o.todo = .cancel :: .join :: rest)
    (hrest : rest <:+ aftermath) (hreceiver : o.receiver = some r.id)
    (htransport : w.site.bus.transport ≠ .blocking) :
    (∃ r', Attending key result { w with site := (w.site.advance o.id).2 } r') ∧
      ({ w with site := (w.site.advance o.id).2 } : Intake).rank key < w.rank key := by
  have hfind : o.receiver.bind w.site.bus.receiver? = some r := by
    rw [hreceiver]
    simp [Bus.receiver?, h.receivers_eq]
  have hperform : ({ o with todo := .join :: rest } : Operation).perform w.site .cancel =
      some (w.site.setBus (w.site.bus.setReceiver { r with cancelled := true }),
        { o with todo := .join :: rest }) := by
    simp only [Operation.perform, hfind]
  refine h.advanced true hone htodo hperform hone rfl rfl ?_ ?_
  · apply h.moved true
    · show (w.site.bus.receivers.map _) = _
      simp [h.receivers_eq]
    · rfl
    · rfl
    · rfl
    · exact fun _ => rfl
    · exact fun hsome => (h.attached.listening hsome).resource
    · exact fun hsome _ => h.drained hstopping hsome
    · exact h.drained
    · exact h.ended
    · exact .joining hstopping rfl rfl hrest hreceiver fun _ => told_of_cancelled htransport rfl
  · rw [htodo]
    exact work_lt (by decide) (by simpa using not_enter hrest)

theorem Left.rank_eq (h : Left result w) :
    w.rank key = total (w.site.bus.operations.map fun o => work o.todo) := by
  rw [rank, h.receivers_eq, h.stopping, if_pos rfl, Nat.zero_add]
  rfl

/-- An action after which there is no task any more. -/
theorem left_of_acted (s' : Site) (o' : Operation) {o : Operation} (hstopping : w.stopping = true)
    (hone : s'.bus.operations = [o]) (hid : o'.id = o.id) (hreceivers : s'.bus.receivers = [])
    (hreception : s'.bus.reception = Reception.settle result)
    (htodo : o'.todo <:+ aftermath) :
    Left result { w with site := (s'.setBus (s'.bus.setOperation o')).collect } ∧
      ({ w with site := (s'.setBus (s'.bus.setOperation o')).collect } : Intake).rank key =
        work o'.todo := by
  have hbus := Site.collect_bus (s'.setBus (s'.bus.setOperation o'))
  have hoperations : (s'.bus.setOperation o').operations = [o'] := by
    simp only [Bus.setOperation, hone, List.map_cons, List.map_nil, hid, if_pos]
  have hafter : (s'.setBus (s'.bus.setOperation o')).collect.bus.operations = [o'] := by
    rw [hbus]
    exact hoperations
  have hleft : Left result
      { w with site := (s'.setBus (s'.bus.setOperation o')).collect } := by
    refine ⟨?_, ?_, hstopping, Or.inr ⟨o', hafter, htodo⟩⟩
    · show (s'.setBus (s'.bus.setOperation o')).collect.bus.receivers = []
      rw [hbus]
      exact hreceivers
    · show (s'.setBus (s'.bus.setOperation o')).collect.bus.reception = _
      rw [hbus]
      exact hreception
  refine ⟨hleft, ?_⟩
  rw [hleft.rank_eq]
  show total ((s'.setBus (s'.bus.setOperation o')).collect.bus.operations.map _) = _
  rw [hafter]
  rfl

/-- A task that has exited is joined. -/
theorem Attending.joined {o : Operation} {rest : List Action} {died : Bool}
    (h : Attending key result w r) (hstopping : w.stopping = true)
    (hone : w.site.bus.operations = [o]) (htodo : o.todo = .join :: rest)
    (hrest : rest <:+ aftermath) (hreceiver : o.receiver = some r.id)
    (hstage : r.stage = .exited died) :
    Left result { w with site := (w.site.advance o.id).2 } ∧
      ({ w with site := (w.site.advance o.id).2 } : Intake).rank key < w.rank key := by
  have hfind : o.receiver.bind w.site.bus.receiver? = some r := by
    rw [hreceiver]
    simp [Bus.receiver?, h.receivers_eq]
  have hperform : ({ o with todo := rest } : Operation).perform w.site .join =
      some (w.site.setBus { w.site.bus with receivers := [] }, { o with
        todo := rest
        receiver := none
        failure := if died then some (.taskJoin "the listener died") else o.failure }) := by
    simp [Operation.perform, Operation.join, hfind, hstage, h.receivers_eq]
  have hreception : w.site.bus.reception = Reception.settle result := by
    have hleads := h.leadsTo
    rw [Receiver.LeadsTo, hstage] at hleads
    exact hleads
  rw [advance_single hone htodo hperform]
  obtain ⟨hleft, hrank⟩ := left_of_acted (w.site.setBus { w.site.bus with receivers := [] })
    { o with
      todo := rest
      receiver := none
      failure := if died then some (.taskJoin "the listener died") else o.failure }
    hstopping hone rfl rfl hreception hrest
  refine ⟨hleft, ?_⟩
  rw [hrank, h.rank_eq, hone]
  have hlt : work rest < work (.join :: rest) := work_lt (by decide) (not_enter hrest)
  show work rest < _ + (work o.todo + 0) + _
  rw [htodo]
  omega

/-- What a caller does after the join changes nothing of the task, and brings its end closer. -/
theorem perform_aftermath {s : Site} {o : Operation} {action : Action} {rest : List Action}
    (h : action :: rest <:+ aftermath) :
    ∃ s' o', { o with todo := rest }.perform s action = some (s', o') ∧
      s'.bus.operations = s.bus.operations ∧ o'.id = o.id ∧
      s'.bus.receivers = s.bus.receivers ∧ s'.bus.reception = s.bus.reception ∧
      o'.todo <:+ aftermath ∧ work o'.todo < work (action :: rest) := by
  have hrest : rest <:+ aftermath := (List.suffix_cons action rest).trans h
  have haction : action ≠ .enter := by
    rintro rfl
    exact not_enter h List.mem_cons_self
  have hwork := work_lt haction (not_enter hrest)
  simp only [aftermath, List.suffix_cons_iff, List.suffix_nil, List.cons.injEq, or_false,
    reduceCtorEq] at h
  rcases h with ⟨rfl, rfl⟩ | ⟨rfl, rfl⟩ | ⟨rfl, rfl⟩ | ⟨rfl, rfl⟩ | ⟨rfl, rfl⟩
  · exact ⟨_, _, rfl, rfl, rfl, rfl, rfl, hrest, hwork⟩
  · cases hhandle : o.handle with
    | none =>
      exact ⟨s, { o with todo := [.letGo, .check, .leave] },
        by simp only [Operation.perform, hhandle], rfl, rfl, rfl, rfl, hrest, hwork⟩
    | some key =>
      exact ⟨s.setBus (s.bus.closeSocket key), { o with todo := [.letGo, .check, .leave] },
        by simp only [Operation.perform, hhandle], rfl, rfl, rfl, rfl, hrest, hwork⟩
  · exact ⟨_, _, rfl, rfl, rfl, rfl, rfl, hrest, hwork⟩
  · refine ⟨s, { o with todo := [.leave] }, ?_, rfl, rfl, rfl, rfl, hrest, hwork⟩
    simp only [Operation.perform, ite_self]
  · exact ⟨_, _, rfl, rfl, rfl, rfl, rfl, hrest, hwork⟩

/-- What a caller does after the join ends its operation, and the task stays gone. -/
theorem Left.acted {o : Operation} (h : Left result w) (hone : w.site.bus.operations = [o])
    (haftermath : o.todo <:+ aftermath) :
    Left result { w with site := (w.site.advance o.id).2 } ∧
      ({ w with site := (w.site.advance o.id).2 } : Intake).rank key < w.rank key := by
  rw [h.rank_eq, hone]
  show _ ∧ _ < work o.todo + 0
  cases htodo : o.todo with
  | nil =>
    have hfinish : (w.site.advance o.id).2 = w.site.finish o := by
      unfold Site.advance
      simp [hone, htodo]
    have hnone : (w.site.finish o).bus.operations = [] := by
      rw [Site.finish_operations, hone]
      simp
    have hleft : Left result { w with site := w.site.finish o } := by
      refine ⟨?_, ?_, h.stopping, Or.inl hnone⟩
      · show (w.site.finish o).bus.receivers = []
        rw [Site.finish_bus]
        exact h.receivers_eq
      · show (w.site.finish o).bus.reception = _
        rw [Site.finish_bus]
        exact h.reception_eq
    rw [hfinish]
    refine ⟨hleft, ?_⟩
    rw [hleft.rank_eq]
    show total ((w.site.finish o).bus.operations.map _) < _
    rw [hnone]
    decide
  | cons action rest =>
    rw [htodo] at haftermath
    obtain ⟨s', o', hperform, hsame, hid, hreceivers, hreception, hsuffix, hless⟩ :=
      perform_aftermath haftermath
    obtain ⟨hleft, hrank⟩ := left_of_acted s' o' h.stopping (hsame.trans hone) hid
      (hreceivers.trans h.receivers_eq) (hreception.trans h.reception_eq) hsuffix
    rw [advance_single hone htodo hperform]
    refine ⟨hleft, ?_⟩
    rw [hrank]
    exact hless

/-- A caller at the join waits for a task that has not exited. -/
theorem advance_waits {s : Site} {o : Operation} {rest : List Action}
    (hone : s.bus.operations = [o]) (htodo : o.todo = .join :: rest)
    (hfind : o.receiver.bind s.bus.receiver? = some r) (hexited : r.hasExited = false) :
    (s.advance o.id).2 = s := by
  have hperform : ({ o with todo := rest } : Operation).perform s .join = none := by
    simp only [Operation.perform, Operation.join, hfind]
    unfold Receiver.hasExited at hexited
    split
    · rename_i hstage
      rw [hstage] at hexited
      cases hexited
    · rfl
  unfold Site.advance
  simp [hone, htodo, hperform]

/-- An action of the caller, unless it has to wait for the task. -/
theorem Attending.acted {o : Operation} (h : Attending key result w r)
    (hone : w.site.bus.operations = [o]) :
    (w.site.advance o.id).2 = w.site ∧ r.hasExited = false ∧
        (r.handle = some key → r.Told w.site) ∨
      Sound key result { w with site := (w.site.advance o.id).2 } ∧
        ({ w with site := (w.site.advance o.id).2 } : Intake).rank key < w.rank key := by
  have hsame : ∀ {o' : Operation}, w.site.bus.operations = [o'] → o' = o := by
    intro o' hother
    rw [hone] at hother
    exact (List.singleton_inj.mp hother).symm
  cases h.course with
  | going hgoing hnone =>
    rw [hone] at hnone
    cases hnone
  | asked hstopping hone' htodo hrequest hconnected =>
    cases hsame hone'
    have hacted := h.asked hstopping hone htodo hrequest hconnected
    exact Or.inr ⟨Or.inl hacted.1, hacted.2⟩
  | withdrawing hstopping hone' htodo hrest hreceiver htransport hpublished =>
    cases hsame hone'
    have hacted := h.withdrawing hstopping hone htodo hrest hreceiver htransport hpublished
    exact Or.inr ⟨Or.inl hacted.1, hacted.2⟩
  | closing hstopping hone' htodo hrest hreceiver htransport hhandle =>
    cases hsame hone'
    have hacted := h.closing hstopping hone htodo hrest hreceiver htransport hhandle
    exact Or.inr ⟨Or.inl hacted.1, hacted.2⟩
  | cancelling hstopping hone' htodo hrest hreceiver htransport =>
    cases hsame hone'
    have hacted := h.cancelling hstopping hone htodo hrest hreceiver htransport
    exact Or.inr ⟨Or.inl hacted.1, hacted.2⟩
  | joining hstopping hone' htodo hrest hreceiver htold =>
    cases hsame hone'
    cases hexited : r.hasExited with
    | false =>
      have hfind : o.receiver.bind w.site.bus.receiver? = some r := by
        rw [hreceiver]
        simp [Bus.receiver?, h.receivers_eq]
      exact Or.inl ⟨advance_waits hone htodo hfind hexited, rfl, htold⟩
    | true =>
      obtain ⟨died, hstage⟩ : ∃ died, r.stage = .exited died := by
        unfold Receiver.hasExited at hexited
        split at hexited
        · rename_i died hstage
          exact ⟨died, hstage⟩
        · cases hexited
      have hjoined := h.joined hstopping hone htodo hrest hreceiver hstage
      exact Or.inr ⟨Or.inr hjoined.1, hjoined.2⟩

theorem Attending.operations_eq (h : Attending key result w r) :
    w.stopping = false ∧ w.site.bus.operations = [] ∨
      w.stopping = true ∧ ∃ o, w.site.bus.operations = [o] := by
  cases h.course with
  | going hgoing hnone => exact Or.inl ⟨hgoing, hnone⟩
  | asked hstopping hone | withdrawing hstopping hone | closing hstopping hone
  | cancelling hstopping hone | joining hstopping hone => exact Or.inr ⟨hstopping, _, hone⟩

theorem Sound.act (h : Sound key result w) (id : OperationId) :
    Sound key result { w with site := (w.site.advance id).2 } := by
  have hunchanged : (∀ o ∈ w.site.bus.operations, o.id ≠ id) →
      Sound key result { w with site := (w.site.advance id).2 } := by
    intro hother
    rw [advance_other hother]
    exact h
  have hsingle : ∀ {o : Operation}, w.site.bus.operations = [o] → o.id ≠ id →
      Sound key result { w with site := (w.site.advance id).2 } := by
    intro o hone hne
    apply hunchanged
    intro other hmem
    rw [hone, List.mem_singleton] at hmem
    rw [hmem]
    exact hne
  have hnone : w.site.bus.operations = [] →
      Sound key result { w with site := (w.site.advance id).2 } := by
    intro hnil
    apply hunchanged
    intro o hmem
    rw [hnil] at hmem
    cases hmem
  rcases h with ⟨r, hattending⟩ | hleft
  · rcases hattending.operations_eq with ⟨-, hnil⟩ | ⟨-, o, hone⟩
    · exact hnone hnil
    · by_cases hid : o.id = id
      · subst hid
        rcases hattending.acted hone with ⟨hwaits, -⟩ | ⟨hsound, -⟩
        · rw [hwaits]
          exact Or.inl ⟨r, hattending⟩
        · exact hsound
      · exact hsingle hone hid
  · rcases hleft.course with hnil | ⟨o, hone, htodo⟩
    · exact hnone hnil
    · by_cases hid : o.id = id
      · subst hid
        obtain ⟨hacted, -⟩ : Left result { w with site := (w.site.advance o.id).2 } ∧
            ({ w with site := (w.site.advance o.id).2 } : Intake).rank key < w.rank key :=
          hleft.acted hone htodo
        exact Or.inr hacted
      · exact hsingle hone hid

end Intake

end CanTransport
