import CanTransport.Proofs.Bus.Returns
/-!
# Sends among sends

A send asks once whether its bus is connected. While no connect and no disconnect is under way the
answer cannot change, and what senders were given stays open. So the answer alone decides whether
the send reports that the bus is not connected.
-/

namespace CanTransport

/-- An open socket may refuse a record, but not because it is not connected. -/
theorem CanSocket.yields_writeWire {socket : CanSocket} (hopen : socket.closed = false) (raw : Wire)
    (k : Kernel) : (socket.writeWire raw).Yields k fun r _ => r ≠ .error .notConnected := by
  have hclosed : ¬ socket.closed = true := by rw [hopen]; decide
  unfold writeWire
  rw [if_neg hclosed, Kernel.Op.yields_bind, Kernel.Op.yields_orError]
  apply Kernel.Op.Yields.mono (Q := fun _ _ => True) trivial
  rintro (number | n) k' -
  · exact nofun
  · show (if n ≠ wireSize then throw (.shortWrite n wireSize) else pure () :
      Kernel.Op Error Unit).Yields k' _
    split
    · exact nofun
    · exact nofun

theorem Bus.isConnected_of_ne_virtual {b : Bus} (h : b.transport ≠ .virtual) :
    b.isConnected = b.published.isSome := by
  unfold isConnected
  split
  · contradiction
  · rfl

namespace Site

variable {s t : Site}

theorem Aside.isConnected_eq (h : s.Aside t) : t.bus.isConnected = s.bus.isConnected := by
  unfold Bus.isConnected
  rw [h.transport_eq, h.flag_eq, h.published_eq]

end Site

namespace Operation

variable {s t : Site} {o o' : Operation} {action : Action} {rest : List Action} {frame : Frame}

/-- The places of a send behind its question. -/
def admittedPoints : List (List Action) := [
  [.remember, .write, .countSent],
  [.write, .countSent],
  [.transmit, .countSent],
  [.countSent],
  [.forget],
  []]

/-- Where a send is, as far as the answer to its question is concerned. -/
inductive Asks (b : Bus) (o : Operation) : Prop where
  | asking (htodo : o.todo = b.transport.transmission) (hfailure : o.failure = none)
  | refused (hanswer : b.isConnected = false) (htodo : o.todo = [])
      (hfailure : o.failure = some .notConnected)
  | admitted (hanswer : b.isConnected = true) (htodo : o.todo ∈ admittedPoints)
      (hhandle : .write ∈ o.todo → ∃ key, o.handle = some key ∧ b.Opens key)
      (hfailure : o.failure ≠ some .notConnected)

/-- What happens aside does not matter to a send. -/
theorem Asks.aside {id : OperationId} (h : o.Asks s.bus) (haside : s.Aside t)
    (hfind : t.operation? id = some o) : o.Asks t.bus := by
  cases h with
  | asking htodo hfailure =>
    rw [← haside.transport_eq] at htodo
    exact .asking htodo hfailure
  | refused hanswer htodo hfailure =>
    exact .refused (haside.isConnected_eq.trans hanswer) htodo hfailure
  | admitted hanswer htodo hhandle hfailure =>
    refine .admitted (haside.isConnected_eq.trans hanswer) htodo (fun hwrite => ?_) hfailure
    obtain ⟨key, hkey, hopen⟩ := hhandle hwrite
    have hholds := Bus.holds_of_operation (Site.operation?_mem hfind).1 hkey
    exact ⟨key, hkey, haside.opens key hholds hopen⟩

/-- What one action of a send comes to. One that is refused has left everything as it was. -/
structure Moves (s : Site) (o : Operation) (rest : List Action) (s' : Site) (o' : Operation) :
    Prop where
  asks : o'.Asks s.bus
  request_eq : o'.request = o.request
  length_le : o'.todo.length ≤ rest.length
  silent : s.bus.isConnected = false → s' = s

/-- The question of a send on a virtual bus. -/
theorem exists_moves_checkFlag (hvirtual : s.bus.transport = .virtual)
    (hfailure : o.failure = none) : ∃ s' o',
    { o with todo := [.transmit, .countSent] }.perform s .checkFlag = some (s', o') ∧
      o.Moves s [.transmit, .countSent] s' o' := by
  have hflag : s.bus.isConnected = s.bus.flag := by rw [Bus.isConnected, hvirtual]
  by_cases hanswer : s.bus.flag = true
  · refine ⟨s, { o with todo := [.transmit, .countSent] }, by simp [perform, hanswer],
      .admitted (hflag.trans hanswer) ?_ ?_ ?_, rfl, Nat.le_refl _, fun _ => rfl⟩
    · show [Action.transmit, .countSent] ∈ admittedPoints
      decide
    · show .write ∈ [Action.transmit, .countSent] → _
      exact fun hwrite => absurd hwrite (by decide)
    · show o.failure ≠ _
      rw [hfailure]
      exact (Option.some_ne_none _).symm
  · refine ⟨s, { o with todo := [] }.giveUp .notConnected [], by simp [perform, hanswer, giveUp],
      .refused (hflag.trans (by simpa using hanswer)) rfl rfl, rfl, Nat.zero_le _, fun _ => rfl⟩

/-- The question of a send on any other bus: whether there is a handle. -/
theorem exists_moves_borrow (hstocked : s.Stocked) (hother : s.bus.transport ≠ .virtual)
    (hrest : rest ∈ admittedPoints) (hfailure : o.failure = none) : ∃ s' o',
    { o with todo := rest }.perform s .borrow = some (s', o') ∧ o.Moves s rest s' o' := by
  have hanswer := Bus.isConnected_of_ne_virtual hother
  cases hpublished : s.bus.published with
  | none =>
    rw [hpublished] at hanswer
    exact ⟨s, { o with todo := rest }.giveUp .notConnected [], by simp [perform, hpublished],
      .refused hanswer rfl rfl, rfl, Nat.zero_le _, fun _ => rfl⟩
  | some key =>
    rw [hpublished] at hanswer
    have hopen := hstocked.published_open key hpublished
    refine ⟨s, { o with todo := rest, handle := some key }, by simp [perform, hpublished],
      .admitted hanswer hrest (fun _ => ⟨key, rfl, hopen⟩) ?_, rfl, Nat.le_refl _, fun _ => rfl⟩
    show o.failure ≠ _
    rw [hfailure]
    exact (Option.some_ne_none _).symm

theorem exists_moves_asking (hstocked : s.Stocked) (htodo : o.todo = action :: rest)
    (hpoint : o.todo = s.bus.transport.transmission) (hfailure : o.failure = none) :
    ∃ s' o', { o with todo := rest }.perform s action = some (s', o') ∧ o.Moves s rest s' o' := by
  rw [htodo] at hpoint
  by_cases hvirtual : s.bus.transport = .virtual
  · rw [hvirtual] at hpoint
    cases hpoint
    exact exists_moves_checkFlag hvirtual hfailure
  · have hborrow : action = .borrow ∧ rest ∈ admittedPoints := by
      cases htransport : s.bus.transport with
      | virtual => exact absurd htransport hvirtual
      | blocking | cancellable | batched | ring =>
        rw [htransport] at hpoint
        cases hpoint
        exact ⟨rfl, by decide⟩
    obtain ⟨rfl, hrest⟩ := hborrow
    exact exists_moves_borrow hstocked hvirtual hrest hfailure

/-- A write through a socket that is open. -/
theorem exists_moves_write (hanswer : s.bus.isConnected = true) (hrequest : o.request = .send frame)
    (hhandle : ∃ key, o.handle = some key ∧ s.bus.Opens key)
    (hfailure : o.failure ≠ some .notConnected) :
    ∃ s' o', { o with todo := [.countSent] }.perform s .write = some (s', o') ∧
      o.Moves s [.countSent] s' o' := by
  obtain ⟨key, hkey, resource, hresource, hopen⟩ := hhandle
  have hwire : o.request.wire? = some frame.encode := by rw [hrequest]; rfl
  have hyields := CanSocket.yields_writeWire hopen frame.encode s.medium.kernel
  have hconnected : s.bus.isConnected ≠ false := by rw [hanswer]; decide
  rcases hrun : s.onKernel (resource.socket.writeWire frame.encode).run with ⟨result, s'⟩
  have hresult : result ≠ .error .notConnected := by
    rw [← show (s.onKernel (resource.socket.writeWire frame.encode).run).1 = result from
      congrArg Prod.fst hrun]
    exact hyields
  cases result with
  | ok done =>
    refine ⟨s', { o with todo := [.countSent] }, ?_, .admitted hanswer ?_ ?_ hfailure, rfl,
      Nat.le_refl _, fun hnot => absurd hnot hconnected⟩
    · simp [perform, write, hkey, hresource, hwire, hrun]
    · show [Action.countSent] ∈ admittedPoints
      decide
    · show .write ∈ [Action.countSent] → _
      exact fun hwrite => absurd hwrite (by decide)
  | error e =>
    have hcleanup : o.request.cleanup s'.bus.transport = [.forget] ∨
        o.request.cleanup s'.bus.transport = [] := by
      rw [hrequest]
      show (if s'.bus.transport = .ring then [Action.forget] else []) = _ ∨
        (if s'.bus.transport = .ring then [Action.forget] else []) = _
      split
      · exact Or.inl rfl
      · exact Or.inr rfl
    refine ⟨s', { o with todo := [.countSent] }.giveUp e (o.request.cleanup s'.bus.transport), ?_,
      .admitted hanswer ?_ ?_ ?_, rfl, ?_, fun hnot => absurd hnot hconnected⟩
    · simp [perform, write, hkey, hresource, hwire, hrun]
    · show o.request.cleanup s'.bus.transport ∈ _
      rcases hcleanup with h | h <;> rw [h] <;> decide
    · show Action.write ∈ o.request.cleanup s'.bus.transport → _
      rcases hcleanup with h | h <;> rw [h] <;> exact fun hwrite => absurd hwrite (by decide)
    · exact fun heq => hresult (congrArg Except.error (Option.some.inj heq))
    · show (o.request.cleanup s'.bus.transport).length ≤ 1
      rcases hcleanup with h | h <;> rw [h] <;> decide

/-- Behind its question a send changes only the bus, but for its write. -/
theorem exists_perform_eq (haction : action ∈ [.remember, .transmit, .forget, .countSent]) :
    ∃ s', o.perform s action = some (s', o) := by
  simp only [List.mem_cons, List.not_mem_nil, or_false] at haction
  rcases haction with rfl | rfl | rfl | rfl
  · simp only [perform]
    split <;> exact ⟨_, rfl⟩
  · simp only [perform]
    split <;> exact ⟨_, rfl⟩
  · simp only [perform]
    split <;> exact ⟨_, rfl⟩
  · exact ⟨_, rfl⟩

/-- A send never waits, and each of its actions keeps to the answer that it got. -/
theorem Asks.exists_moves (h : o.Asks s.bus) (hstocked : s.Stocked)
    (hrequest : o.request = .send frame) (htodo : o.todo = action :: rest) :
    ∃ s' o', { o with todo := rest }.perform s action = some (s', o') ∧ o.Moves s rest s' o' := by
  cases h with
  | asking hpoint hfailure => exact exists_moves_asking hstocked htodo hpoint hfailure
  | refused _ hnil => rw [hnil] at htodo; cases htodo
  | admitted hanswer hpoint hhandle hfailure =>
    have hquiet : action ∈ [.remember, .transmit, .forget, .countSent] → rest ∈ admittedPoints →
        (.write ∈ rest → .write ∈ o.todo) →
        ∃ s' o', { o with todo := rest }.perform s action = some (s', o') ∧
          o.Moves s rest s' o' := by
      intro haction hrest hwrite
      obtain ⟨s', hperform⟩ := exists_perform_eq (o := { o with todo := rest }) (s := s) haction
      refine ⟨s', _, hperform, .admitted hanswer hrest (fun h => hhandle (hwrite h)) hfailure, rfl,
        Nat.le_refl _, fun hnot => ?_⟩
      rw [hanswer] at hnot
      cases hnot
    rw [htodo] at hpoint hhandle
    simp only [admittedPoints, List.mem_cons, List.cons.injEq, List.not_mem_nil, or_false,
      reduceCtorEq] at hpoint
    rcases hpoint with ⟨rfl, rfl⟩ | ⟨rfl, rfl⟩ | ⟨rfl, rfl⟩ | ⟨rfl, rfl⟩ | ⟨rfl, rfl⟩
    · exact hquiet (by decide) (by decide) fun _ => by rw [htodo]; decide
    · exact exists_moves_write hanswer hrequest (hhandle (by decide)) hfailure
    · exact hquiet (by decide) (by decide) fun h => absurd h (by decide)
    · exact hquiet (by decide) (by decide) fun h => absurd h (by decide)
    · exact hquiet (by decide) (by decide) fun h => absurd h (by decide)

/-- What a send reports. -/
theorem Asks.outcome_iff (h : o.Asks s.bus) (htodo : o.todo = []) :
    o.outcome = .error .notConnected ↔ s.bus.isConnected = false := by
  cases h with
  | asking hpoint =>
    rw [htodo] at hpoint
    revert hpoint
    cases s.bus.transport <;> exact nofun
  | refused hanswer _ hfailure => simp [outcome, hfailure, hanswer]
  | admitted hanswer _ _ hfailure =>
    unfold outcome
    cases hcase : o.failure with
    | none => simp [hanswer]
    | some e =>
      rw [hcase] at hfailure
      simpa [hanswer] using hfailure

end Operation

namespace Life

variable {w w' : Life} {event : Event}

/-- Whether an event begins no connect and no disconnect. -/
def Event.sendsOnly : Event → Prop
  | .start request => request.wire? ≠ none
  | _ => True

/-- Whether no connect and no disconnect is under way. -/
def SendsOnly (w : Life) : Prop := ∀ o ∈ w.site.bus.operations, o.request.wire? ≠ none

/-- While there are only sends, nothing changes that belongs to whoever holds the lock. -/
theorem Step.aside (hstep : Step event w w') (hw : w.Sound) (hsends : w.SendsOnly)
    (hevent : event.sendsOnly) : w.site.Aside w'.site ∧ w'.SendsOnly := by
  cases hstep with
  | start request =>
    refine ⟨Site.aside_start hw.stocked hw.held request, fun o ho => ?_⟩
    rcases List.mem_append.mp ho with hold | hnew
    · exact hsends o hold
    · cases List.mem_singleton.mp hnew
      exact hevent
  | run id =>
    obtain ⟨haside, hoperations, -⟩ := Site.aside_run hw.stocked hw.held id
    refine ⟨haside, fun o ho => ?_⟩
    have hold : o ∈ w.site.bus.operations := by rw [← hoperations]; exact ho
    exact hsends o hold
  | subscribe listener => exact ⟨Site.aside_onReception hw.stocked hw.held _, hsends⟩
  | outside hspares => exact ⟨Site.aside_outside hw.stocked hw.held hspares, hsends⟩
  | act id =>
    have hnever : ∀ {o : Operation}, w.site.operation? id = some o → o.request.wire? ≠ none :=
      fun hfind => hsends _ (Site.operation?_mem hfind).1
    generalize hafter : w.act id = after
    cases hafter ▸ hw.acted id with
    | idle => exact ⟨Site.Aside.refl hw.stocked hw.held, hsends⟩
    | finish hfind hlock htodo =>
      refine ⟨Site.aside_finish hw.stocked _, fun o ho => ?_⟩
      rw [Site.finish_operations, List.mem_filter] at ho
      exact hsends o ho.1
    | send hfind hlock hrequest hperform hpasses =>
      refine ⟨Site.aside_passes hw.stocked hpasses, fun o ho => ?_⟩
      rw [Site.collect_bus] at ho
      rcases Bus.mem_setOperation ho with rfl | ⟨hold, -⟩
      · rw [hpasses.request_eq]
        exact hnever hfind
      · rw [(Operation.framed_perform hperform).operations_eq] at hold
        exact hsends o hold
    | enter hfind hfree htodo =>
      cases hw.waits id _ hfind (by rw [hfree]; exact nofun) with
      | entering hrequest => exact absurd hrequest (hnever hfind)
      | done _ hnil => cases hnil.symm.trans htodo
      | sending _ hactions =>
        rw [htodo] at hactions
        exact absurd (hactions .enter List.mem_cons_self) (by decide)
    | hold hfind _ hproceeds => exact absurd hproceeds.request (hnever hfind)
    | leave hfind _ hproceeds => exact absurd hproceeds.request (hnever hfind)

theorem reception_acted {id : OperationId} {o o' : Operation} {action : Action}
    {rest : List Action} (hfind : w.site.operation? id = some o) (htodo : o.todo = action :: rest)
    (hperform : { o with todo := rest }.perform w.site action = some (w.site, o')) :
    (w.act id).site.bus.reception = w.site.bus.reception := by
  rw [site_act, Site.advance_goesOn hfind htodo hperform, Site.collect_bus]
  rfl

/-- A send that overlaps sends only reports that the bus is not connected exactly if it is not, and
then it has counted nothing. -/
theorem returns_send (hw : w.Sound) (hsends : w.SendsOnly) (frame : Frame) :
    Returns Event.sendsOnly (w.site.start (.send frame)).1
      (fun s s' => w.site.bus.isConnected = false → s'.bus.reception = s.bus.reception)
      (fun outcome => outcome = .error .notConnected ↔ w.site.bus.isConnected = false)
      { w with site := (w.site.start (.send frame)).2 } := by
  have hlt : ∀ o ∈ w.site.bus.operations, o.id < w.site.bus.next := fun o ho => (hw.numbered o ho).1
  have hstart : Step (.start (.send frame)) w { w with site := (w.site.start (.send frame)).2 } :=
    .start _
  obtain ⟨haside, hsends'⟩ := hstart.aside hw hsends nofun
  have hfind : (w.site.start (.send frame)).2.operation? w.site.bus.next =
      some { id := w.site.bus.next, request := .send frame,
             todo := w.site.bus.transport.transmission } := by
    rw [Site.operation?_start _ hlt, if_pos rfl]
    rfl
  show Returns _ w.site.bus.next _ _ _
  -- What carries the run: the answer stays, and the send is where the answer lets it be.
  apply returns_of (I := fun todo v => v.Sound ∧ v.SendsOnly ∧
    v.site.bus.isConnected = w.site.bus.isConnected ∧
    ∃ o, v.site.operation? w.site.bus.next = some o ∧ o.todo = todo ∧ o.request = .send frame ∧
      o.Asks v.site.bus)
  · rintro todo v v' event ⟨hv, hsends, hanswer, o, hfind, htodo, hrequest, hasks⟩ ⟨hevent, hne⟩ hstep
    obtain ⟨haside, hsends'⟩ := hstep.aside hv hsends hevent
    have hfind' := hstep.operation?_eq hv hne hfind
    exact ⟨hstep.sound hv, hsends', haside.isConnected_eq.trans hanswer, o, hfind', htodo, hrequest,
      hasks.aside haside hfind'⟩
  · rintro v ⟨hv, -, hanswer, o, hfind, htodo, -, hasks⟩
    refine ⟨fun _ => ?_, o.outcome, outcome_advance hfind htodo, ?_⟩
    · rw [site_act, Site.advance_ends hfind htodo, Site.finish_bus]
    · rw [← hanswer]
      exact hasks.outcome_iff htodo
  · rintro action rest v ⟨hv, hsends, hanswer, o, hfind, htodo, hrequest, hasks⟩
    obtain ⟨s', o', hperform, hmoves⟩ := hasks.exists_moves hv.stocked hrequest htodo
    obtain ⟨haside, hsends'⟩ := (Step.act w.site.bus.next).aside hv hsends trivial
    have hfind' : (v.act w.site.bus.next).site.operation? w.site.bus.next = some o' := by
      rw [site_act, Site.advance_goesOn hfind htodo hperform]
      exact Site.operation?_acted hfind hperform
    refine ⟨fun hnot => ?_, by rw [Site.advance_goesOn hfind htodo hperform], o'.todo,
      hmoves.length_le, (hv.acted _).sound hv, hsends', haside.isConnected_eq.trans hanswer, o',
      hfind', rfl, hmoves.request_eq.trans hrequest, hmoves.asks.aside haside hfind'⟩
    rw [hmoves.silent (hanswer.trans hnot)] at hperform
    exact reception_acted hfind htodo hperform
  · exact ⟨hstart.sound hw, hsends', haside.isConnected_eq, _, hfind, rfl, rfl,
      .asking rfl rfl⟩

end Life

end CanTransport
