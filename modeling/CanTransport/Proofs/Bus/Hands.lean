import CanTransport.Proofs.Bus.Lifecycle
/-!
# In whose hands a resource is

Apart from sends there is never more than one resource that anything on a bus refers to: whoever
holds the lock passes it on from hand to hand, lets go of it before the lock is given back, and
takes a new one only when nothing refers to any.
-/

namespace CanTransport

/-- Whether nothing is at hand at the end of some actions, and whenever they may end early; `full`
tells whether something may be at hand at first. -/
def Action.emptied (full : Bool) : List Action → Bool
  | [] => !full
  | action :: rest =>
    match action with
    | .enter => !full
    | .leave | .check => !full && emptied false rest
    | .letGo | .store => emptied false rest
    | .unpublish | .acquire => emptied true rest
    | .cancel | .join | .closeSocket | .clearEchoes | .register | .listen | .spawn | .publish
    | .raiseFlag | .lowerFlag | .dropIdle => emptied full rest
    | .borrow | .checkFlag | .remember | .write | .forget | .transmit | .countSent => false

/-- Nothing but `key` is referred to by what belongs to the bus itself. -/
structure Bus.Points (b : Bus) (key : Descriptor) : Prop where
  idle : ∀ x, b.idle = some x → x = key
  published : ∀ x, b.published = some x → x = key
  connection : ∀ x, b.connection.bind Connection.socket = some x → x = key
  receivers : ∀ r ∈ b.receivers, ∀ x, r.handle = some x → x = key

/-- How resources are passed on among those who connect and disconnect. -/
structure Site.Handed (s : Site) : Prop where
  sole : ∃ key, s.bus.Points key ∧
    ∀ o ∈ s.bus.operations, o.request.wire? = none → ∀ x, o.handle = some x → x = key
  hand : ∀ o ∈ s.bus.operations, o.request.wire? = none →
    Action.emptied o.handle.isSome o.todo = true
  /-- A resource that waits for a connection is the only one, and has not been looked for yet. -/
  waiting : s.bus.idle ≠ none → s.bus.connection = none ∧ s.bus.published = none ∧
    s.bus.receivers = [] ∧ ∀ o ∈ s.bus.operations, o.request.wire? = none →
      o.todo = [.enter] ∨ o.todo = o.request.remainder s.bus.transport

namespace Action

theorem emptied_mono {full : Bool} {actions : List Action} (h : emptied true actions = true) :
    emptied full actions = true := by
  cases full with
  | true => exact h
  | false =>
    induction actions with
    | nil => rfl
    | cons action rest ih =>
      cases action with
      | enter => rfl
      | leave | check => cases h
      | letGo | store | unpublish | acquire => exact h
      | cancel | join | closeSocket | clearEchoes | register | listen | spawn | publish | raiseFlag
      | lowerFlag | dropIdle => exact ih h
      | borrow | checkFlag | remember | write | forget | transmit | countSent => cases h

theorem emptied_remainder {request : Request} (h : request.wire? = none) (transport : Transport) :
    emptied false (request.remainder transport) = true := by
  cases request with
  | connect | disconnect => cases transport <;> decide
  | send frame => cases h

theorem emptied_teardown {request : Request} {transport : Transport} (h : request.wire? = none)
    (hother : transport ≠ .virtual) (reconnecting : Bool) :
    emptied true (transport.teardown reconnecting ++ request.remainder transport) = true := by
  cases request with
  | connect | disconnect =>
    cases transport with
    | virtual => exact absurd rfl hother
    | blocking | cancellable | batched | ring => rfl
  | send frame => cases h

end Action

namespace Operation

variable {s s' : Site} {o o' : Operation} {action : Action} {rest : List Action}

/-- A resource is acquired only when there is neither a connection nor a task. -/
theorem Proceeds.before_acquire {refused : Bool} (h : Proceeds refused s o)
    (htodo : o.todo = .acquire :: rest) :
    s.bus.connection = none ∧ s.bus.published = none ∧ s.bus.receivers = [] := by
  obtain ⟨σ, hholds, hleads⟩ := h.plan
  rw [htodo] at hleads
  obtain ⟨hfinal, -⟩ := Shape.leads_cons (by decide) hleads
  have hfinal := hfinal rfl
  rw [Shape.isFinal, Bool.and_eq_true] at hfinal
  have hgrip := hholds.task
  cases htask : σ.task with
  | taken | started | stored => simp [htask] at hfinal
  | gone =>
    simp only [htask, Bool.and_eq_true, Bool.not_eq_true'] at hfinal
    rw [htask] at hgrip
    refine ⟨hgrip.1, ?_, List.map_eq_nil_iff.mp hgrip.2⟩
    rw [← Option.not_isSome_iff_eq_none, hholds.published, hfinal.2.1]
    decide

/-- What an action of a connect or a disconnect does with resources. -/
structure Hands (s : Site) (o : Operation) (s' : Site) (o' : Operation) : Prop where
  request_eq : o'.request = o.request
  hand : Action.emptied o'.handle.isSome o'.todo = true
  /-- What the bus and the operation refer to is one thing again. -/
  points : ∀ key, s.bus.Points key → (∀ x, o.handle = some x → x = key) →
    ∃ key', s'.bus.Points key' ∧ ∀ x, o'.handle = some x → x = key'
  idle : s.bus.idle = none → s'.bus.idle = none

/-- An action that lets go of things, or leaves them where they are. -/
theorem Hands.fewer (hrequest : o'.request = o.request)
    (hhand : Action.emptied o'.handle.isSome o'.todo = true)
    (hhandle : o'.handle = o.handle ∨ o'.handle = none)
    (hidle : s'.bus.idle = s.bus.idle ∨ s'.bus.idle = none)
    (hpublished : s'.bus.published = s.bus.published)
    (hconnection : s'.bus.connection = s.bus.connection)
    (hreceivers : ∀ r ∈ s'.bus.receivers, ∃ r' ∈ s.bus.receivers, r.handle = r'.handle) :
    Hands s o s' o' where
  request_eq := hrequest
  hand := hhand
  points key hpoints hkey := by
    refine ⟨key, ⟨fun x hx => ?_, ?_, ?_, fun r hr x hx => ?_⟩, fun x hx => ?_⟩
    · rcases hidle with hsame | hnone
      · exact hpoints.idle x (hsame ▸ hx)
      · cases hnone.symm.trans hx
    · rw [hpublished]
      exact hpoints.published
    · rw [hconnection]
      exact hpoints.connection
    · obtain ⟨r', hr', heq⟩ := hreceivers r hr
      exact hpoints.receivers r' hr' x (heq ▸ hx)
    · rcases hhandle with hsame | hnone
      · exact hkey x (hsame ▸ hx)
      · cases hnone.symm.trans hx
  idle hnone := by
    rcases hidle with hsame | hgone
    · exact hsame.trans hnone
    · exact hgone

theorem hands_enter (hrequest : o.request.wire? = none) (hhandle : o.handle = none)
    (hother : s.bus.transport ≠ .virtual)
    (h : { o with todo := rest }.enter s = some (s', o')) : Hands s o s' o' := by
  unfold enter at h
  simp only at h
  split at h
  · cases h
  split at h
  · cases h
    refine .fewer rfl ?_ (Or.inl rfl) (Or.inl rfl) rfl rfl fun r hr => ⟨r, hr, rfl⟩
    simpa [hhandle] using Action.emptied_remainder hrequest s.bus.transport
  · rename_i c hc
    rcases ite_eq_iff.mp h with ⟨-, h⟩ | ⟨-, h⟩
    · cases h
      refine .fewer rfl ?_ (Or.inl rfl) (Or.inl rfl) rfl rfl fun r hr => ⟨r, hr, rfl⟩
      show Action.emptied o.handle.isSome [.leave] = true
      rw [hhandle]
      rfl
    · cases h
      refine ⟨rfl, Action.emptied_mono (Action.emptied_teardown hrequest hother _),
        fun key hpoints _ => ?_, fun hnone => hnone⟩
      refine ⟨key, ⟨hpoints.idle, hpoints.published, nofun, hpoints.receivers⟩, fun x hx => ?_⟩
      exact hpoints.connection x (by rw [hc]; exact hx)

theorem hands_acquire (hrequest : o.request.wire? = none)
    (hbare : s.bus.connection = none ∧ s.bus.published = none ∧ s.bus.receivers = [])
    (hhand : Action.emptied true rest = true)
    (h : { o with todo := rest }.acquire s = (s', o')) : Hands s o s' o' := by
  obtain ⟨hconnection, hpublished, hreceivers⟩ := hbare
  unfold acquire at h
  simp only at h
  split at h
  · rename_i key hidle
    cases h
    refine ⟨rfl, hhand, fun key' hpoints _ => ?_, fun _ => rfl⟩
    refine ⟨key', ⟨nofun, hpoints.published, hpoints.connection, hpoints.receivers⟩, ?_⟩
    rintro x hx
    cases hx
    exact hpoints.idle key hidle
  · rename_i hidle
    split at h
    all_goals
      rename_i hrun
      have hbus := congrArg (·.2.bus) hrun
      simp only [Site.onKernel_bus] at hbus
      cases h
    · rename_i resource _
      refine ⟨rfl, hhand, fun _ _ _ => ⟨resource.key, ⟨?_, ?_, ?_, ?_⟩, ?_⟩, fun _ => ?_⟩
      · simp [Site.setBus, ← hbus, hidle]
      · simp [Site.setBus, ← hbus, hpublished]
      · simp [Site.setBus, ← hbus, hconnection]
      · simp [Site.setBus, ← hbus, hreceivers]
      · rintro x hx
        cases hx
        rfl
      · simp [Site.setBus, ← hbus, hidle]
    · refine .fewer rfl ?_ (Or.inl rfl) ?_ ?_ ?_ ?_
      · show Action.emptied _ (o.request.cleanup _) = true
        rw [cleanup_of_wire?_eq_none hrequest]
        rfl
      · exact Or.inl (congrArg Bus.idle hbus.symm)
      · exact congrArg Bus.published hbus.symm
      · exact congrArg Bus.connection hbus.symm
      · rw [← hbus]
        exact fun r hr => ⟨r, hr, rfl⟩

/-- An operation may end here, with nothing at hand. -/
theorem hands_check (hhand : Action.emptied o.handle.isSome (.check :: rest) = true)
    (h : { o with todo := rest }.perform s .check = some (s', o')) : Hands s o s' o' := by
  rw [Action.emptied, Bool.and_eq_true, Bool.not_eq_true'] at hhand
  obtain ⟨hnone, hrest⟩ := hhand
  simp only [perform] at h
  split at h
  · cases h
    refine .fewer rfl ?_ (Or.inl rfl) (Or.inl rfl) rfl rfl fun r hr => ⟨r, hr, rfl⟩
    show Action.emptied o.handle.isSome [.leave] = true
    rw [hnone]
    rfl
  · cases h
    refine .fewer rfl ?_ (Or.inl rfl) (Or.inl rfl) rfl rfl fun r hr => ⟨r, hr, rfl⟩
    show Action.emptied o.handle.isSome rest = true
    rw [hnone]
    exact hrest

theorem hands_cancel (hhand : Action.emptied o.handle.isSome (.cancel :: rest) = true)
    (h : { o with todo := rest }.perform s .cancel = some (s', o')) : Hands s o s' o' := by
  simp only [perform] at h
  split at h
  · cases h
    exact .fewer rfl hhand (Or.inl rfl) (Or.inl rfl) rfl rfl fun r hr => ⟨r, hr, rfl⟩
  · rename_i r hfind
    cases h
    refine .fewer rfl hhand (Or.inl rfl) (Or.inl rfl) rfl rfl fun t ht => ?_
    rcases Bus.mem_setReceiver ht with rfl | ⟨hold, -⟩
    · obtain ⟨id, -, hr⟩ := Option.bind_eq_some_iff.mp hfind
      exact ⟨r, List.mem_of_find?_eq_some hr, rfl⟩
    · exact ⟨t, hold, rfl⟩

theorem hands_join (hhand : Action.emptied o.handle.isSome (.join :: rest) = true)
    (h : { o with todo := rest }.join s = some (s', o')) : Hands s o s' o' := by
  unfold join at h
  split at h
  · cases h
    exact .fewer rfl hhand (Or.inl rfl) (Or.inl rfl) rfl rfl fun r hr => ⟨r, hr, rfl⟩
  · split at h <;> cases h
    refine .fewer rfl hhand (Or.inl rfl) (Or.inl rfl) rfl rfl fun t ht => ?_
    exact ⟨t, (List.mem_filter.mp ht).1, rfl⟩

/-- What senders found comes to hand. -/
theorem hands_unpublish (hhand : Action.emptied true rest = true)
    (h : { o with todo := rest }.perform s .unpublish = some (s', o')) : Hands s o s' o' := by
  cases h
  refine ⟨rfl, Action.emptied_mono hhand, fun key hpoints hkey => ?_, fun hnone => hnone⟩
  refine ⟨key, ⟨hpoints.idle, nofun, hpoints.connection, hpoints.receivers⟩, fun x hx => ?_⟩
  cases hpublished : s.bus.published with
  | some found =>
    simp only [hpublished] at hx
    cases hx
    exact hpoints.published x hpublished
  | none =>
    simp only [hpublished] at hx
    exact hkey x hx

/-- A new task reads what is at hand. -/
theorem hands_spawn (hhand : Action.emptied o.handle.isSome (.spawn :: rest) = true)
    (h : { o with todo := rest }.perform s .spawn = some (s', o')) : Hands s o s' o' := by
  cases h
  refine ⟨rfl, hhand, fun key hpoints hkey => ⟨key, ⟨hpoints.idle, hpoints.published,
    hpoints.connection, fun r hr x hx => ?_⟩, hkey⟩, fun hnone => hnone⟩
  rcases List.mem_append.mp hr with hold | hnew
  · exact hpoints.receivers r hold x hx
  · cases List.mem_singleton.mp hnew
    exact hkey x hx

/-- What is at hand goes to the connection. -/
theorem hands_store (hhand : Action.emptied false rest = true)
    (h : { o with todo := rest }.perform s .store = some (s', o')) : Hands s o s' o' := by
  cases h
  refine ⟨rfl, hhand, fun key hpoints hkey => ⟨key, ⟨hpoints.idle, hpoints.published,
    fun x hx => ?_, hpoints.receivers⟩, nofun⟩, fun hnone => hnone⟩
  obtain ⟨c, hc, hsocket⟩ := Option.bind_eq_some_iff.mp hx
  obtain ⟨id, -, rfl⟩ := Option.map_eq_some_iff.mp hc
  simp only at hsocket
  split at hsocket
  · exact hkey x hsocket
  · cases hsocket

/-- What was at hand goes from hand to hand, and nothing is at hand where an operation may end. -/
theorem hands_perform (hrequest : o.request.wire? = none) (hother : s.bus.transport ≠ .virtual)
    (htodo : o.todo = action :: rest) (hhand : Action.emptied o.handle.isSome o.todo = true)
    (hbare : action = .acquire →
      s.bus.connection = none ∧ s.bus.published = none ∧ s.bus.receivers = [])
    (h : { o with todo := rest }.perform s action = some (s', o')) : Hands s o s' o' := by
  rw [htodo] at hhand
  have hsame : ∀ r ∈ s.bus.receivers, ∃ r' ∈ s.bus.receivers, r.handle = r'.handle :=
    fun r hr => ⟨r, hr, rfl⟩
  cases action with
  | enter =>
    have hnone : o.handle = none := by simpa [Action.emptied] using hhand
    exact hands_enter hrequest hnone hother h
  | acquire => exact hands_acquire hrequest (hbare rfl) hhand (Option.some.inj h)
  | check => exact hands_check hhand h
  | cancel => exact hands_cancel hhand h
  | join => exact hands_join hhand h
  | unpublish => exact hands_unpublish hhand h
  | spawn => exact hands_spawn hhand h
  | store => exact hands_store hhand h
  | leave =>
    cases h
    rw [Action.emptied, Bool.and_eq_true, Bool.not_eq_true'] at hhand
    obtain ⟨hnone, hrest⟩ := hhand
    refine .fewer rfl ?_ (Or.inl rfl) (Or.inl rfl) rfl rfl hsame
    show Action.emptied o.handle.isSome rest = true
    rw [hnone]
    exact hrest
  | letGo =>
    cases h
    exact .fewer rfl hhand (Or.inr rfl) (Or.inl rfl) rfl rfl hsame
  | dropIdle =>
    cases h
    exact .fewer rfl hhand (Or.inl rfl) (Or.inr rfl) rfl rfl hsame
  | clearEchoes | listen | raiseFlag | lowerFlag =>
    cases h
    exact .fewer rfl hhand (Or.inl rfl) (Or.inl rfl) rfl rfl hsame
  | closeSocket =>
    simp only [perform] at h
    split at h <;> cases h <;> exact .fewer rfl hhand (Or.inl rfl) (Or.inl rfl) rfl rfl hsame
  | register =>
    simp only [perform, register] at h
    cases h
    refine .fewer ?_ ?_ (Or.inl ?_) (Or.inl rfl) rfl rfl hsame
    · split <;> rfl
    · split
      · exact hhand
      · show Action.emptied _ (o.request.cleanup _) = true
        rw [cleanup_of_wire?_eq_none hrequest]
        rfl
    · split <;> rfl
  | publish =>
    cases h
    exact ⟨rfl, hhand, fun key hpoints hkey => ⟨key, ⟨hpoints.idle, hkey, hpoints.connection,
      hpoints.receivers⟩, hkey⟩, fun hnone => hnone⟩
  | borrow | checkFlag | remember | write | forget | transmit | countSent => cases hhand

/-- The only action on a bus whose resource waits takes that resource, or drops it. -/
theorem perform_waiting (hring : s.bus.transport = .ring) (hrequest : o.request.wire? = none)
    (hidle : s.bus.idle ≠ none) (hconnection : s.bus.connection = none)
    (htodo : o.todo = action :: rest)
    (hcase : o.todo = [.enter] ∨ o.todo = o.request.remainder s.bus.transport)
    (h : { o with todo := rest }.perform s action = some (s', o')) :
    s'.bus.idle = none ∨ (s' = s.setBus { s.bus with lock := some o.id } ∧
      o' = { o with todo := o.request.remainder s.bus.transport }) := by
  rcases hcase with hcase | hcase
  · cases htodo.symm.trans hcase
    right
    by_cases hlock : s.bus.lock = none
    · have hbare := enter_bare (o := { o with todo := [] }) hlock hconnection
      cases hbare.symm.trans h
      exact ⟨rfl, rfl⟩
    · have hsome := Option.isSome_iff_ne_none.mpr hlock
      simp [perform, enter, hsome] at h
  · left
    obtain ⟨key, hkey⟩ := Option.ne_none_iff_exists'.mp hidle
    rw [hring] at hcase
    cases hkind : o.request with
    | connect =>
      rw [hkind] at hcase
      cases htodo.symm.trans hcase
      simp only [perform, acquire, hkey] at h
      cases h
      rfl
    | disconnect =>
      rw [hkind] at hcase
      cases htodo.symm.trans hcase
      cases h
      rfl
    | send frame =>
      rw [hkind] at hrequest
      cases hrequest

end Operation

namespace Site.Handed

variable {s s' : Site} {o o' : Operation} {action : Action} {rest : List Action}

/-- Nobody has come to refer to anything, and new operations have yet to enter. -/
theorem fewer (h : s.Handed) (hidle : s'.bus.idle = s.bus.idle)
    (hpublished : s'.bus.published = s.bus.published)
    (hconnection : s'.bus.connection = s.bus.connection)
    (htransport : s'.bus.transport = s.bus.transport)
    (hreceivers : ∀ r ∈ s'.bus.receivers, ∃ r' ∈ s.bus.receivers,
      r.handle = r'.handle ∨ r.handle = none)
    (hoperations : ∀ o ∈ s'.bus.operations, o.request.wire? = none →
      o ∈ s.bus.operations ∨ (o.handle = none ∧ o.todo = [.enter])) : s'.Handed where
  sole := by
    obtain ⟨key, hpoints, hkeys⟩ := h.sole
    refine ⟨key, ⟨?_, ?_, ?_, fun r hr x hx => ?_⟩, fun o ho hrequest x hx => ?_⟩
    · rw [hidle]
      exact hpoints.idle
    · rw [hpublished]
      exact hpoints.published
    · rw [hconnection]
      exact hpoints.connection
    · obtain ⟨r', hr', hsame | hnone⟩ := hreceivers r hr
      · exact hpoints.receivers r' hr' x (hsame ▸ hx)
      · cases hnone.symm.trans hx
    · rcases hoperations o ho hrequest with hold | ⟨hnone, -⟩
      · exact hkeys o hold hrequest x hx
      · cases hnone.symm.trans hx
  hand o ho hrequest := by
    rcases hoperations o ho hrequest with hold | ⟨hnone, htodo⟩
    · exact h.hand o hold hrequest
    · rw [hnone, htodo]
      rfl
  waiting hne := by
    obtain ⟨hbare, hunpublished, hnone, htodos⟩ := h.waiting (hidle ▸ hne)
    refine ⟨hconnection.trans hbare, hpublished.trans hunpublished, ?_, fun o ho hrequest => ?_⟩
    · apply List.eq_nil_iff_forall_not_mem.mpr
      intro r hr
      obtain ⟨r', hr', -⟩ := hreceivers r hr
      rw [hnone] at hr'
      cases hr'
    · rw [htransport]
      rcases hoperations o ho hrequest with hold | ⟨-, htodo⟩
      · exact htodos o hold hrequest
      · exact Or.inl htodo

theorem collect (h : s.Handed) : s.collect.Handed := by
  apply h.fewer
  all_goals rw [collect_bus]
  · exact fun r hr => ⟨r, hr, Or.inl rfl⟩
  · exact fun o ho _ => Or.inl ho

/-- An action of a connect or a disconnect, while no other one has anything at hand. -/
theorem acts (h : s.Handed) (hstocked : s.Stocked) (hmem : o ∈ s.bus.operations)
    (hrequest : o.request.wire? = none) (hother : s.bus.transport ≠ .virtual)
    (hapart : ∀ other ∈ s.bus.operations, other.id ≠ o.id → other.request.wire? = none →
      other.handle = none)
    (htodo : o.todo = action :: rest)
    (hbare : action = .acquire →
      s.bus.connection = none ∧ s.bus.published = none ∧ s.bus.receivers = [])
    (hperform : { o with todo := rest }.perform s action = some (s', o')) :
    (s'.setBus (s'.bus.setOperation o')).collect.Handed := by
  have hframed := Operation.framed_perform hperform
  have hid : o'.id = o.id := hframed.id_eq
  have hhands := Operation.hands_perform hrequest hother htodo (h.hand o hmem hrequest) hbare hperform
  have hothers : ∀ x ∈ (s'.bus.setOperation o').operations, x = o' ∨
      (x ∈ s.bus.operations ∧ x.id ≠ o.id) := by
    intro x hx
    rcases Bus.mem_setOperation hx with rfl | ⟨hold, hne⟩
    · exact Or.inl rfl
    · rw [hframed.operations_eq] at hold
      exact Or.inr ⟨hold, hid ▸ hne⟩
  apply collect
  refine ⟨?_, fun x hx hwire => ?_, fun hidle => ?_⟩
  · obtain ⟨key, hpoints, hkeys⟩ := h.sole
    obtain ⟨key', hpoints', hkey'⟩ := hhands.points key hpoints (hkeys o hmem hrequest)
    refine ⟨key', ⟨hpoints'.idle, hpoints'.published, hpoints'.connection, hpoints'.receivers⟩, ?_⟩
    intro x hx hwire y hy
    rcases hothers x hx with rfl | ⟨hold, hne⟩
    · exact hkey' y hy
    · cases (hapart x hold hne hwire).symm.trans hy
  · rcases hothers x hx with rfl | ⟨hold, -⟩
    · exact hhands.hand
    · exact h.hand x hold hwire
  · have hidle' : s.bus.idle ≠ none := fun hnone => hidle (hhands.idle hnone)
    have hring := hstocked.idle_ring hidle'
    obtain ⟨hconnection, hpublished, hreceivers, htodos⟩ := h.waiting hidle'
    rcases Operation.perform_waiting hring hrequest hidle' hconnection htodo
      (htodos o hmem hrequest) hperform with hnone | ⟨rfl, rfl⟩
    · exact absurd hnone hidle
    · refine ⟨hconnection, hpublished, hreceivers, fun x hx hwire => ?_⟩
      rcases hothers x hx with rfl | ⟨hold, -⟩
      · exact Or.inr rfl
      · exact htodos x hold hwire

end Site.Handed

namespace Life

variable {w w' : Life} {o : Operation} {id : OperationId} {event : Event}

/-- Whoever connects or disconnects without the lock has nothing at hand. -/
theorem Sound.apart (hw : w.Sound) (h : w.site.Handed) (hmem : o ∈ w.site.bus.operations)
    (hrequest : o.request.wire? = none) (hlock : w.site.bus.lock ≠ some o.id) :
    o.handle = none := by
  cases hw.waits o.id o (hw.numbered o hmem).2 hlock with
  | entering _ _ _ hhandle => exact hhandle
  | done _ htodo =>
    have hhand := h.hand o hmem hrequest
    rw [htodo] at hhand
    simpa [Action.emptied] using hhand
  | sending hsend =>
    rw [hsend] at hrequest
    cases hrequest

theorem Acted.handed (hacted : Acted w id w') (hw : w.Sound) (h : w.site.Handed)
    (hother : w.site.bus.transport ≠ .virtual) : w'.site.Handed := by
  cases hacted with
  | idle => exact h
  | finish hfind =>
    apply h.fewer
    all_goals rw [Site.finish_bus]
    · exact fun r hr => ⟨r, hr, Or.inl rfl⟩
    · exact fun o ho _ => Or.inl (List.mem_filter.mp ho).1
  | send hfind _ hsend hperform hpasses =>
    have hframed := Operation.framed_perform hperform
    have hbus := hpasses.bus_eq
    apply Site.Handed.collect
    apply h.fewer
    · exact (congrArg Bus.idle hbus :)
    · exact (congrArg Bus.published hbus :)
    · exact (congrArg Bus.connection hbus :)
    · exact (congrArg Bus.transport hbus :)
    · intro r hr
      have hreceivers := congrArg Bus.receivers hbus
      exact ⟨r, hreceivers ▸ hr, Or.inl rfl⟩
    · intro x hx hwire
      rcases Bus.mem_setOperation hx with rfl | ⟨hold, -⟩
      · rw [hpasses.request_eq, hsend] at hwire
        cases hwire
      · exact Or.inl (hframed.operations_eq ▸ hold)
  | @enter o o' s' hfind hlock htodo hperform hproceeds =>
    obtain ⟨hmem, hid⟩ := Site.operation?_mem hfind
    have hfree : w.site.bus.lock ≠ some id := by
      rw [hlock]
      exact nofun
    have hrequest : o.request.wire? = none := by
      cases hw.waits id _ hfind hfree with
      | entering hrequest => exact hrequest
      | done hrequest => exact hrequest
      | sending _ hsends => cases hsends .enter (by rw [htodo]; exact List.mem_singleton.mpr rfl)
    refine h.acts hw.stocked hmem hrequest hother ?_ htodo nofun hperform
    intro x hx _ hwire
    exact hw.apart h hx hwire (by rw [hlock]; exact nofun)
  | hold hfind hlock hproceeds htodo _ _ hperform =>
    obtain ⟨hmem, hid⟩ := Site.operation?_mem hfind
    refine h.acts hw.stocked hmem hproceeds.request hother ?_ htodo ?_ hperform
    · intro x hx hne hwire
      refine hw.apart h hx hwire fun heq => hne ?_
      rw [hlock] at heq
      exact (Option.some.inj heq).symm.trans hid.symm
    · rintro rfl
      exact hproceeds.before_acquire htodo
  | leave hfind hlock hproceeds htodo hperform =>
    obtain ⟨hmem, hid⟩ := Site.operation?_mem hfind
    refine h.acts hw.stocked hmem hproceeds.request hother ?_ htodo nofun hperform
    intro x hx hne hwire
    refine hw.apart h hx hwire fun heq => hne ?_
    rw [hlock] at heq
    exact (Option.some.inj heq).symm.trans hid.symm

theorem Step.handed (hstep : Step event w w') (hw : w.Sound) (h : w.site.Handed)
    (hother : w.site.bus.transport ≠ .virtual) : w'.site.Handed := by
  cases hstep with
  | start request =>
    refine h.fewer rfl rfl rfl rfl (fun r hr => ⟨r, hr, Or.inl rfl⟩) fun o ho hwire => ?_
    rcases List.mem_append.mp ho with hold | hnew
    · exact Or.inl hold
    · cases List.mem_singleton.mp hnew
      cases request with
      | connect | disconnect => exact Or.inr ⟨rfl, rfl⟩
      | send frame => cases hwire
  | act id => exact (hw.acted id).handed hw h hother
  | run id =>
    show (w.site.run id).Handed
    rcases Site.run_eq w.site id with ⟨-, heq⟩ | ⟨r, hfind, heq⟩
    · rw [heq]
      exact h
    · have hacts := Receiver.acts_step w.site r
      have hbus := hacts.bus_eq
      rw [heq]
      apply Site.Handed.collect
      apply h.fewer
      · exact (congrArg Bus.idle hbus :)
      · exact (congrArg Bus.published hbus :)
      · exact (congrArg Bus.connection hbus :)
      · exact (congrArg Bus.transport hbus :)
      · intro t ht
        have hreceivers := congrArg Bus.receivers hbus
        rcases Bus.mem_setReceiver ht with rfl | ⟨hold, -⟩
        · exact ⟨r, (Bus.receiver?_mem hfind).1, hacts.handle_eq⟩
        · exact ⟨t, hreceivers ▸ hold, Or.inl rfl⟩
      · intro o ho _
        have hoperations := congrArg Bus.operations hbus
        exact Or.inl (hoperations ▸ ho)
  | subscribe | outside =>
    exact h.fewer rfl rfl rfl rfl (fun r hr => ⟨r, hr, Or.inl rfl⟩) fun o ho _ => Or.inl ho

end Life

/-- A ring is made with a resource that nothing but its first connection will look for. -/
theorem Site.Made.handed {s : Site} (h : s.Made) : s.Handed where
  sole := by
    refine ⟨s.bus.idle.getD 0, ⟨fun x hx => ?_, fun x hx => ?_, fun x hx => ?_, fun r hr => ?_⟩,
      fun o ho => ?_⟩
    · rw [hx]
      rfl
    · cases h.published_eq.symm.trans hx
    · rw [h.connection_eq] at hx
      cases hx
    · rw [h.receivers_eq] at hr
      cases hr
    · rw [h.operations_eq] at ho
      cases ho
  hand o ho := by
    rw [h.operations_eq] at ho
    cases ho
  waiting _ := by
    refine ⟨h.connection_eq, h.published_eq, h.receivers_eq, fun o ho => ?_⟩
    rw [h.operations_eq] at ho
    cases ho

end CanTransport
