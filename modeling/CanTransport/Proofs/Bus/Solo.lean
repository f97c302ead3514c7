import CanTransport.Proofs.Bus.Flag
/-!
# A bus with one caller

Whoever has a bus to himself begins one call after the other. Then what is seen of the calls is the
one that is under way, a first connect of a virtual bus cannot fail, and a bus that was disconnected
stays as it is.
-/

namespace CanTransport

/-- Whether an event begins a call or replaces the listener. -/
def Life.Event.isNew : Life.Event → Bool
  | .start _ | .subscribe _ => true
  | .act _ | .run _ | .outside => false

/-- A bus without a connection and without anybody about to make one. -/
structure Bus.Bare (b : Bus) : Prop where
  lock_eq : b.lock = none
  connection_eq : b.connection = none
  published_eq : b.published = none
  receivers_eq : b.receivers = []

theorem Bus.Bare.congr {b b' : Bus} (h : b.Bare) (hlock : b'.lock = b.lock)
    (hconnection : b'.connection = b.connection) (hpublished : b'.published = b.published)
    (htasks : b'.tasks = b.tasks) : b'.Bare where
  lock_eq := hlock.trans h.lock_eq
  connection_eq := hconnection.trans h.connection_eq
  published_eq := hpublished.trans h.published_eq
  receivers_eq := by
    have hnone : b.tasks = [] := by
      rw [Bus.tasks, h.receivers_eq]
      rfl
    exact List.map_eq_nil_iff.mp (htasks.trans hnone)

/-- A bus that is bare does not connect by itself, and answers so. On a virtual bus this takes a
connect that has not failed. -/
theorem Bus.Bare.isConnected {w : Life} (h : w.site.bus.Bare) (hw : w.Sound)
    (hrefused : w.site.bus.transport = .virtual → w.refused = false) :
    w.site.bus.isConnected = false := by
  by_cases hvirtual : w.site.bus.transport = .virtual
  · rw [(hw.flag_eq hvirtual h.lock_eq).1, h.connection_eq, hrefused hvirtual]
    rfl
  · rw [Bus.isConnected_of_ne_virtual hvirtual, h.published_eq]
    rfl

/-- A first connect of a virtual bus, which has nothing to fail at. -/
structure Operation.Smooth (b : Bus) (o : Operation) : Prop where
  failure_eq : o.failure = none
  todo : b.connection = none ∧ o.todo = [.enter] ∨
    ∀ action ∈ o.todo, action ∈ [Action.listen, .spawn, .store, .raiseFlag, .leave]

namespace Operation

variable {s s' : Site} {o o' : Operation} {action : Action} {rest : List Action}

theorem Smooth.congr {b b' : Bus} (h : o.Smooth b) (hconnection : b'.connection = b.connection) :
    o.Smooth b' :=
  ⟨h.failure_eq, hconnection ▸ h.todo⟩

theorem Smooth.perform (h : o.Smooth s.bus) (hvirtual : s.bus.transport = .virtual)
    (hrequest : o.request = .connect) (htodo : o.todo = action :: rest)
    (hperform : { o with todo := rest }.perform s action = some (s', o')) :
    o'.Smooth s'.bus := by
  obtain ⟨hfailure, hplan⟩ := h
  rcases hplan with ⟨hconnection, hentering⟩ | hplan
  · rw [htodo] at hentering
    cases hentering
    have hlock : s.bus.lock = none := by
      by_contra hheld
      have hsome := Option.isSome_iff_ne_none.mpr hheld
      simp [Operation.perform, Operation.enter, hsome] at hperform
    rw [show Operation.perform s { o with todo := [] } .enter = _ from
      enter_bare (o := { o with todo := [] }) hlock hconnection] at hperform
    cases hperform
    refine ⟨hfailure, Or.inr fun action haction => ?_⟩
    rw [show o.request = .connect from hrequest, hvirtual] at haction
    exact haction
  · rw [htodo, List.forall_mem_cons] at hplan
    obtain ⟨haction, hrest⟩ := hplan
    simp only [List.mem_cons, List.not_mem_nil, or_false] at haction
    rcases haction with rfl | rfl | rfl | rfl | rfl
    all_goals
      cases hperform
      exact ⟨hfailure, Or.inr hrest⟩

end Operation

namespace Life

variable {w w' : Life} {event : Event} {id : OperationId} {o o' : Operation}

/-- Where there is neither a task nor a call, nothing happens on the bus by itself. -/
theorem Step.bus_eq (hstep : Step event w w') (hold : event.isNew = false)
    (hoperations : w.site.bus.operations = []) (hreceivers : w.site.bus.receivers = []) :
    w'.site.bus = w.site.bus := by
  cases hstep with
  | start | subscribe => cases hold
  | outside => rfl
  | run id =>
    rcases Site.run_eq w.site id with ⟨-, heq⟩ | ⟨r, hfind, -⟩
    · exact congrArg Site.bus heq
    · have hmem := (Bus.receiver?_mem hfind).1
      rw [hreceivers] at hmem
      cases hmem
  | act id =>
    have hnone : w.site.operation? id = none := by
      rw [Site.operation?, hoperations]
      rfl
    rw [act_of_none hnone]

theorem operation?_single (h : w.site.bus.operations = [o]) (hid : o.id = id) :
    w.site.operation? id = some o := by
  rw [Site.operation?, h, List.find?_cons_of_pos (by simpa using hid)]

/-- What comes of the only call with one of its actions, if it does not end with it. -/
theorem act_single (h : w.site.bus.operations = [o]) (hid : o.id = id)
    (hgoes : ∀ outcome, (w.site.advance id).1 ≠ .ends outcome) :
    (w.site.advance id).1 = .waits ∧ w.act id = w ∨ ∃ action rest s' o', o.todo = action :: rest ∧
      { o with todo := rest }.perform w.site action = some (s', o') ∧
      (w.act id).site = (s'.setBus (s'.bus.setOperation o')).collect ∧
      (w.act id).site.bus.operations = [o'] ∧ o'.id = id ∧ o'.request = o.request := by
  have hfind := operation?_single h hid
  cases htodo : o.todo with
  | nil => exact absurd (outcome_advance hfind htodo) (hgoes _)
  | cons action rest =>
    cases hperform : { o with todo := rest }.perform w.site action with
    | none =>
      refine Or.inl ⟨?_, act_of_waiting hfind htodo hperform⟩
      rw [Site.advance_waits_of_none hfind htodo hperform]
    | some result =>
      obtain ⟨s', o'⟩ := result
      have hframed := Operation.framed_perform hperform
      have hsite : (w.act id).site = (s'.setBus (s'.bus.setOperation o')).collect := by
        rw [site_act, Site.advance_goesOn hfind htodo hperform]
      have hid' : o'.id = o.id := hframed.id_eq
      refine Or.inr ⟨action, rest, s', o', rfl, hperform, hsite, ?_, hid'.trans hid,
        hframed.request_eq⟩
      rw [hsite, Site.collect_bus]
      show s'.bus.operations.map _ = [o']
      rw [hframed.operations_eq, h, List.map_singleton, if_pos hid'.symm]

/-- What becomes of the only call with a step that does not end it: nothing, while the connection
stays too, or one of its actions. -/
theorem Step.single (hstep : Step event w w') (hold : event.isNew = false) (hw : w.Sound)
    (h : w.site.bus.operations = [o]) (hid : o.id = id)
    (hgoes : ∀ outcome, event = .act id → (w.site.advance id).1 ≠ .ends outcome) :
    (w'.site.bus.operations = [o] ∧ w'.site.bus.lock = w.site.bus.lock ∧
      w'.site.bus.connection = w.site.bus.connection ∧
      w'.site.bus.published = w.site.bus.published ∧ w'.site.bus.tasks = w.site.bus.tasks) ∨
    ∃ action rest s' o', w' = w.act id ∧ o.todo = action :: rest ∧
      { o with todo := rest }.perform w.site action = some (s', o') ∧
      w'.site = (s'.setBus (s'.bus.setOperation o')).collect ∧
      w'.site.bus.operations = [o'] ∧ o'.id = id ∧ o'.request = o.request := by
  cases hstep with
  | start | subscribe => cases hold
  | outside => exact Or.inl ⟨h, rfl, rfl, rfl, rfl⟩
  | run task =>
    obtain ⟨haside, hoperations, -⟩ := Site.aside_run hw.stocked hw.held task
    exact Or.inl ⟨hoperations.trans h, haside.lock_eq, haside.connection_eq, haside.published_eq,
      haside.tasks_eq⟩
  | act other =>
    by_cases hother : other = id
    · subst hother
      rcases act_single h hid fun outcome => hgoes outcome rfl with ⟨-, hsame⟩ |
        ⟨action, rest, s', o', htodo, hperform, hsite, hrest⟩
      · rw [hsame]
        exact Or.inl ⟨h, rfl, rfl, rfl, rfl⟩
      · exact Or.inr ⟨action, rest, s', o', rfl, htodo, hperform, hsite, hrest⟩
    · have hnone : w.site.operation? other = none := by
        rw [Site.operation?, h,
          List.find?_cons_of_neg (by simpa [hid] using fun heq => hother heq.symm)]
        rfl
      rw [act_of_none hnone]
      exact Or.inl ⟨h, rfl, rfl, rfl, rfl⟩

/-- The end of the only call. -/
theorem act_ends {outcome : Except Error Unit} (h : w.site.bus.operations = [o]) (hid : o.id = id)
    (hends : (w.site.advance id).1 = .ends outcome) :
    o.todo = [] ∧ w.act id = { w with site := w.site.finish o } ∧
      (w.act id).site.bus.operations = [] := by
  have hfind := operation?_single h hid
  obtain ⟨htodo, -⟩ := advance_eq_ends hfind hends
  have hact := act_of_nil hfind htodo
  refine ⟨htodo, hact, ?_⟩
  rw [hact]
  show (w.site.finish o).bus.operations = []
  rw [Site.finish_operations, h, List.filter_cons_of_neg (by simp)]
  rfl

/-- Only a connect that failed leaves that behind. -/
theorem refused_act (hrefused : w.refused = false)
    (h : ∀ o, w.site.operation? id = some o → o.request.connects = true → o.failure = none) :
    (w.act id).refused = false := by
  unfold act
  simp only
  split
  · rename_i o hacting
    split
    · rename_i hconnects
      have hfind := (Option.filter_eq_some_iff.mp hacting).1
      rw [h o hfind hconnects]
      rfl
    · exact hrefused
  · exact hrefused

end Life

end CanTransport
