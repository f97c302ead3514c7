import CanTransport.Proofs.Bus.Lifecycle
/-!
# Operations that return

An operation returns if it never waits again and has only so many actions left, whatever else
happens in between. That a connect finds its task running, that a disconnect finds no connection
and that a send finds no handle is seen at one moment each; what they report is settled then.
-/

namespace CanTransport

/-- An action that changes nothing but who holds the lock and what callers have left to do. -/
def Site.Idles (s s' : Site) : Prop :=
  s'.medium = s.medium ∧
    s'.bus = { s.bus with lock := s'.bus.lock, operations := s'.bus.operations }

namespace Site

variable {s t : Site} {o o' : Operation} {key : Descriptor}

theorem idles_collect (hheld : ∀ r ∈ s.bus.resources, s.bus.holds r.key = true)
    (hmedium : t.medium = s.medium)
    (hbus : t.bus = { s.bus with lock := t.bus.lock, operations := t.bus.operations })
    (hholds : ∀ key, s.bus.holds key = true → t.bus.holds key = true) : s.Idles t.collect := by
  have hresources : t.bus.resources = s.bus.resources := by rw [hbus]
  rw [collect_eq_self]
  · exact ⟨hmedium, hbus⟩
  · intro r hr
    rw [hresources] at hr
    exact hholds r.key (hheld r hr)

/-- What is referred to, once an operation that keeps its handle has acted. -/
theorem holds_setOperation (hnumbered : s.Numbered) (hfind : s.operation? o'.id = some o)
    (hhandle : o'.handle = o.handle) (h : s.bus.holds key = true) :
    (s.bus.setOperation o').holds key = true := by
  simp only [Bus.holds, Bus.setOperation, Bool.or_eq_true] at h ⊢
  refine h.imp_right fun hany => ?_
  obtain ⟨other, hmem, hkey⟩ := List.any_eq_true.mp hany
  apply List.any_eq_true.mpr
  by_cases hid : other.id = o'.id
  · have hsame : other = o := by
      have hfound := (hnumbered other hmem).2
      rw [hid, hfind] at hfound
      exact (Option.some.inj hfound).symm
    refine ⟨o', List.mem_map.mpr ⟨other, hmem, if_pos hid⟩, ?_⟩
    rw [hhandle, ← hsame]
    exact hkey
  · exact ⟨other, List.mem_map.mpr ⟨other, hmem, if_neg hid⟩, hkey⟩

/-- What is referred to, once an operation without a handle has ended. -/
theorem holds_filter (hnumbered : s.Numbered) (hfind : s.operation? o.id = some o)
    (hhandle : o.handle = none) (h : s.bus.holds key = true) :
    ({ s.bus with operations := s.bus.operations.filter (·.id != o.id) } : Bus).holds key = true := by
  simp only [Bus.holds, Bool.or_eq_true] at h ⊢
  refine h.imp_right fun hany => ?_
  obtain ⟨other, hmem, hkey⟩ := List.any_eq_true.mp hany
  refine List.any_eq_true.mpr ⟨other, List.mem_filter.mpr ⟨hmem, ?_⟩, hkey⟩
  rw [bne_iff_ne]
  intro hid
  have hfound := (hnumbered other hmem).2
  rw [hid, hfind] at hfound
  cases hfound
  rw [hhandle] at hkey
  cases hkey

end Site

theorem Operation.outcome_eq_ok_iff {o : Operation} : o.outcome = .ok () ↔ o.failure = none := by
  unfold outcome
  cases o.failure with
  | none => simp
  | some e => simp

namespace Life

/-- Steps that are no actions of an operation. -/
def others (allowed : Event → Prop) (id : OperationId) (event : Event) : Prop :=
  allowed event ∧ event ≠ .act id

/-- An operation returns. Between its actions other steps come that are allowed; every action of its
own is as `own` says, and so is what it reports in the end as `result` says. -/
inductive Returns (allowed : Event → Prop) (id : OperationId) (own : Site → Site → Prop)
    (result : Except Error Unit → Prop) : Life → Prop where
  | ends {w : Life} (h : ∀ w', Run (others allowed id) w w' →
      own w'.site (w'.act id).site ∧
        ∃ outcome, (w'.site.advance id).1 = .ends outcome ∧ result outcome) :
      Returns allowed id own result w
  | goesOn {w : Life} (h : ∀ w', Run (others allowed id) w w' →
      own w'.site (w'.act id).site ∧ (w'.site.advance id).1 = .goesOn)
      (hthen : ∀ w', Run (others allowed id) w w' → Returns allowed id own result (w'.act id)) :
      Returns allowed id own result w

variable {w w' : Life} {event : Event} {allowed : Event → Prop} {id : OperationId}
  {own : Site → Site → Prop} {result : Except Error Unit → Prop} {o : Operation}

theorem Run.preserves {I : Life → Prop} (hrun : Run allowed w w')
    (hstep : ∀ w w' event, I w → allowed event → Step event w w' → I w') (h : I w) : I w' := by
  induction hrun with
  | refl => exact h
  | step _ hallowed hnext ih => exact hstep _ _ _ ih hallowed hnext

/-- An operation returns if something holds of its remaining actions that others keep, and that
each of its own actions keeps with fewer actions to come. -/
theorem returns_of {I : List Action → Life → Prop} {todo : List Action}
    (hothers : ∀ todo w w' event, I todo w → others allowed id event → Step event w w' → I todo w')
    (hends : ∀ w, I [] w → own w.site (w.act id).site ∧
      ∃ outcome, (w.site.advance id).1 = .ends outcome ∧ result outcome)
    (hgoes : ∀ action rest w, I (action :: rest) w → own w.site (w.act id).site ∧
      (w.site.advance id).1 = .goesOn ∧
      ∃ todo, todo.length ≤ rest.length ∧ I todo (w.act id))
    (h : I todo w) : Returns allowed id own result w := by
  have hrun : ∀ todo w w', I todo w → Run (others allowed id) w w' → I todo w' := by
    intro todo w w' hI hrun
    exact hrun.preserves (hothers todo) hI
  have hall : ∀ n todo w, todo.length ≤ n → I todo w → Returns allowed id own result w := by
    intro n
    induction n with
    | zero =>
      intro todo w hlength hI
      rw [List.eq_nil_of_length_eq_zero (Nat.le_zero.mp hlength)] at hI
      exact .ends fun w' hw' => hends w' (hrun [] w w' hI hw')
    | succ n ih =>
      intro todo w hlength hI
      cases todo with
      | nil => exact .ends fun w' hw' => hends w' (hrun [] w w' hI hw')
      | cons action rest =>
        have hnow := fun w' hw' => hgoes action rest w' (hrun _ w w' hI hw')
        refine .goesOn (fun w' hw' => ⟨(hnow w' hw').1, (hnow w' hw').2.1⟩) fun w' hw' => ?_
        obtain ⟨-, -, todo, hless, hI'⟩ := hnow w' hw'
        rw [List.length_cons] at hlength
        exact ih todo _ (by omega) hI'
  exact hall todo.length todo w (Nat.le_refl _) h

theorem Returns.mono {allowed : Event → Prop} {own own' : Site → Site → Prop}
    {result result' : Except Error Unit → Prop} (h : Returns allowed id own result w)
    (hown : ∀ t t', own t t' → own' t t') (hresult : ∀ outcome, result outcome → result' outcome) :
    Returns allowed id own' result' w := by
  induction h with
  | ends h =>
    refine .ends fun w' hrun => ?_
    obtain ⟨hact, outcome, hends, hreport⟩ := h w' hrun
    exact ⟨hown _ _ hact, outcome, hends, hresult outcome hreport⟩
  | goesOn h _ ih =>
    refine .goesOn (fun w' hrun => ?_) ih
    obtain ⟨hact, hgoes⟩ := h w' hrun
    exact ⟨hown _ _ hact, hgoes⟩

/-! ## What others leave of an operation -/

/-- While others act an operation stays as it is, or begins. -/
theorem Step.operation?_or (hstep : Step event w w') (hw : w.Sound) (hne : event ≠ .act id) :
    w'.site.operation? id = w.site.operation? id ∨
      id = w.site.bus.next ∧ ∃ request, w'.site.operation? id =
        some { id := id, request := request, todo := request.start w.site.bus.transport } := by
  cases hstep with
  | start request =>
    have hfind := Site.operation?_start request (fun o ho => (hw.numbered o ho).1) id
    by_cases hnew : id = w.site.bus.next
    · rw [if_pos hnew, ← hnew] at hfind
      exact Or.inr ⟨hnew, request, hfind⟩
    · rw [if_neg hnew] at hfind
      exact Or.inl hfind
  | act other =>
    refine Or.inl (Site.operation?_advance_ne _ ?_)
    rintro rfl
    exact hne rfl
  | run other =>
    obtain ⟨-, hoperations, -⟩ := Site.aside_run hw.stocked hw.held other
    exact Or.inl (congrArg (List.find? fun o : Operation => o.id == id) hoperations)
  | subscribe | outside => exact Or.inl rfl

theorem Step.operation?_eq (hstep : Step event w w') (hw : w.Sound) (hne : event ≠ .act id)
    (h : w.site.operation? id = some o) : w'.site.operation? id = some o := by
  rcases hstep.operation?_or hw hne with heq | ⟨hnew, -⟩
  · exact heq.trans h
  · obtain ⟨hmem, hid⟩ := Site.operation?_mem h
    have hlt := (hw.numbered o hmem).1
    rw [hid, hnew] at hlt
    exact absurd hlt (Nat.lt_irrefl _)

theorem outcome_advance (h : w.site.operation? id = some o) (htodo : o.todo = []) :
    (w.site.advance id).1 = .ends o.outcome := by
  rw [Site.advance_ends h htodo]

/-! ## Operations that find nothing to do -/

theorem site_act (w : Life) (id : OperationId) : (w.act id).site = (w.site.advance id).2 := rfl

/-- An action that only touches the lock and the operation itself. -/
theorem idles_act {action : Action} {rest : List Action} {o' : Operation} {s' : Site}
    (hw : w.Sound) (hfind : w.site.operation? id = some o) (htodo : o.todo = action :: rest)
    (hperform : { o with todo := rest }.perform w.site action = some (s', o'))
    (hs' : s' = w.site.setBus { w.site.bus with lock := s'.bus.lock })
    (hhandle : o'.handle = o.handle) : w.site.Idles (w.act id).site := by
  have hid : o'.id = id :=
    (Operation.framed_perform hperform).id_eq.trans (Site.operation?_mem hfind).2
  rw [site_act, Site.advance_goesOn hfind htodo hperform]
  apply Site.idles_collect hw.held
  · rw [hs']
    rfl
  · show s'.bus.setOperation o' = _
    rw [hs']
    rfl
  · intro key hholds
    show (s'.bus.setOperation o').holds key = true
    rw [hs']
    exact Site.holds_setOperation hw.numbered (hid ▸ hfind) hhandle hholds

theorem idles_finish (hw : w.Sound) (hfind : w.site.operation? id = some o) (htodo : o.todo = [])
    (hhandle : o.handle = none) : w.site.Idles (w.act id).site := by
  have hid := (Site.operation?_mem hfind).2
  rw [site_act, Site.advance_ends hfind htodo]
  refine Site.idles_collect hw.held rfl rfl fun key hholds => ?_
  exact Site.holds_filter hw.numbered (hid ▸ hfind) hhandle hholds

/-- The task of a connection, if it has not exited. -/
theorem Sound.exists_running (hw : w.Sound) (hlock : w.site.bus.lock = none)
    (hrunning : ∃ r ∈ w.site.bus.receivers, r.hasExited = false) :
    ∃ c r, w.site.bus.connection = some c ∧ w.site.bus.receiver? c.receiver = some r ∧
      r.hasExited = false := by
  obtain ⟨r, hr, hexited⟩ := hrunning
  cases hw.free hlock with
  | bare _ htasks =>
    rw [List.map_eq_nil_iff.mp htasks] at hr
    cases hr
  | connected hconnection htasks =>
    obtain ⟨r', hreceivers, -, hfind⟩ := Bus.exists_receiver? htasks
    rw [hreceivers] at hr
    cases List.mem_singleton.mp hr
    exact ⟨_, _, hconnection, hfind, hexited⟩

theorem Sound.entering (hw : w.Sound) (hlock : w.site.bus.lock = none)
    (hfind : w.site.operation? id = some o) (htodo : o.todo = [.enter]) :
    o.failure = none ∧ o.handle = none := by
  cases hw.waits id o hfind (by rw [hlock]; exact nofun) with
  | entering _ _ hfailure hhandle => exact ⟨hfailure, hhandle⟩
  | done _ hnil => rw [hnil] at htodo; cases htodo
  | sending _ hsends =>
    rw [htodo] at hsends
    exact absurd (hsends _ List.mem_cons_self) (by decide)

/-- An operation that has nothing but the lock to give back, and the idle resource to drop. -/
theorem returns_plain (hw : w.Sound) (hfind : w.site.operation? id = some o)
    (hfailure : o.failure = none) (hhandle : o.handle = none)
    (hplan : ∀ action ∈ o.todo, action = .dropIdle ∨ action = .leave) :
    Returns (fun _ => True) id (fun s s' => .dropIdle ∉ o.todo → s.Idles s') (· = .ok ()) w := by
  apply returns_of (I := fun todo w => w.Sound ∧ todo ⊆ o.todo ∧ ∃ o, w.site.operation? id = some o ∧
    o.todo = todo ∧ o.failure = none ∧ o.handle = none)
  · rintro todo w w' event ⟨hw, htodo, o, hfind, ho⟩ ⟨-, hne⟩ hstep
    exact ⟨hstep.sound hw, htodo, o, hstep.operation?_eq hw hne hfind, ho⟩
  · rintro w ⟨hw, -, o, hfind, htodo, hfailure, hhandle⟩
    exact ⟨fun _ => idles_finish hw hfind htodo hhandle, o.outcome, outcome_advance hfind htodo,
      Operation.outcome_eq_ok_iff.mpr hfailure⟩
  · rintro action rest w ⟨hw, hsub, o', hfind, htodo, hfailure, hhandle⟩
    obtain ⟨haction, hrest⟩ := List.cons_subset.mp hsub
    have hsome : ∃ s', { o' with todo := rest }.perform w.site action =
          some (s', { o' with todo := rest }) ∧
        (.dropIdle ∉ o.todo → s' = w.site.setBus { w.site.bus with lock := s'.bus.lock }) := by
      rcases hplan action haction with rfl | rfl
      · exact ⟨_, rfl, fun hnot => absurd haction hnot⟩
      · exact ⟨_, rfl, fun _ => rfl⟩
    obtain ⟨s', hperform, hidle⟩ := hsome
    refine ⟨fun hnot => idles_act hw hfind htodo hperform (hidle hnot) rfl,
      by rw [Site.advance_goesOn hfind htodo hperform], rest, Nat.le_refl _,
      (hw.acted id).sound hw, hrest, { o' with todo := rest }, ?_, rfl, hfailure, hhandle⟩
    rw [site_act, Site.advance_goesOn hfind htodo hperform]
    exact Site.operation?_acted hfind hperform
  · exact ⟨hw, fun _ h => h, o, hfind, rfl, hfailure, hhandle⟩

/-- A connect that finds the task of its connection running returns, and does nothing but take the
lock and give it back. -/
theorem returns_connect_running (hw : w.Sound) (hlock : w.site.bus.lock = none)
    (hfind : w.site.operation? id = some o) (hrequest : o.request = .connect)
    (htodo : o.todo = [.enter])
    (hrunning : ∃ r ∈ w.site.bus.receivers, r.hasExited = false) :
    (w.site.advance id).1 = .goesOn ∧ w.site.Idles (w.act id).site ∧
      Returns (fun _ => True) id Site.Idles (· = .ok ()) (w.act id) := by
  obtain ⟨c, r, hconnection, hreceiver, hexited⟩ := hw.exists_running hlock hrunning
  obtain ⟨hfailure, hhandle⟩ := hw.entering hlock hfind htodo
  have hperform : { o with todo := [] }.perform w.site .enter =
      some (w.site.setBus { w.site.bus with lock := some o.id }, { o with todo := [.leave] }) :=
    Operation.enter_running (o := { o with todo := [] }) hlock hconnection hreceiver hexited hrequest
  have hacted : (w.act id).site.operation? id = some { o with todo := [.leave] } := by
    rw [site_act, Site.advance_goesOn hfind htodo hperform]
    exact Site.operation?_acted hfind hperform
  refine ⟨by rw [Site.advance_goesOn hfind htodo hperform],
    idles_act hw hfind htodo hperform rfl rfl, ?_⟩
  have hreturns := returns_plain ((hw.acted id).sound hw) hacted hfailure hhandle
    (fun action hmem => Or.inr (List.mem_singleton.mp hmem))
  exact hreturns.mono (fun _ _ hidles => hidles (by simp)) fun _ h => h

/-- A disconnect that finds no connection returns. -/
theorem returns_disconnect_bare (hw : w.Sound) (hlock : w.site.bus.lock = none)
    (hfind : w.site.operation? id = some o) (hrequest : o.request = .disconnect)
    (htodo : o.todo = [.enter]) (hconnection : w.site.bus.connection = none) :
    (w.site.advance id).1 = .goesOn ∧
      Returns (fun _ => True) id (fun _ _ => True) (· = .ok ()) (w.act id) := by
  obtain ⟨hfailure, hhandle⟩ := hw.entering hlock hfind htodo
  have hperform : { o with todo := [] }.perform w.site .enter =
      some (w.site.setBus { w.site.bus with lock := some o.id },
        { o with todo := o.request.remainder w.site.bus.transport }) :=
    Operation.enter_bare (o := { o with todo := [] }) hlock hconnection
  have hplan : ∀ action ∈ o.request.remainder w.site.bus.transport,
      action = .dropIdle ∨ action = .leave := by
    rw [hrequest]
    unfold Request.remainder
    cases w.site.bus.transport <;> decide
  have hacted : (w.act id).site.operation? id =
      some { o with todo := o.request.remainder w.site.bus.transport } := by
    rw [site_act, Site.advance_goesOn hfind htodo hperform]
    exact Site.operation?_acted hfind hperform
  refine ⟨by rw [Site.advance_goesOn hfind htodo hperform], ?_⟩
  exact (returns_plain ((hw.acted id).sound hw) hacted hfailure hhandle hplan).mono
    (fun _ _ _ => trivial) fun _ h => h

end Life

end CanTransport
