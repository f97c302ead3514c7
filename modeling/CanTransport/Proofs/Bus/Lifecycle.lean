import CanTransport.Proofs.Bus.Callers
import CanTransport.Proofs.Bus.Making
import CanTransport.Proofs.Bus.Plans
import CanTransport.Proofs.Bus.RingOrder
import CanTransport.Proofs.Bus.Tasks
/-!
# The life of a bus

A bus with any number of callers and with whatever ends its reception task, in any order of
actions. Whenever the lock is free there is a connection with its task, or neither; whoever holds
the lock is on its way to such a state.
-/

namespace CanTransport

/-- Whether the next action of a task is the one that its listener does not survive. -/
def Site.bereaves (s : Site) (id : ReceiverId) : Bool :=
  match s.bus.receiver? id with
  | some r => !r.hasDied && (r.step s).2.hasDied
  | none => false

/-- A bus, and what is remembered of its life. -/
structure Life where
  site : Site
  /-- Whether the task that was started last was ended by its listener. -/
  died : Bool := false
  /-- Whether the connect that ended last had failed. -/
  refused : Bool := false

namespace Life

/-- One action of an operation. -/
def act (w : Life) (id : OperationId) : Life where
  site := (w.site.advance id).2
  died := w.died && (w.site.acting? id .spawn).isNone
  refused :=
    match w.site.acting? id .leave with
    | some o => if o.request.connects then o.failure.isSome else w.refused
    | none => w.refused

/-- One action of a task. -/
def run (w : Life) (id : ReceiverId) : Life :=
  { w with site := w.site.run id, died := w.died || w.site.bereaves id }

inductive Event where
  | start (request : Request)
  | act (id : OperationId)
  | run (id : ReceiverId)
  | subscribe (listener : Listener)
  | outside
deriving DecidableEq

/-- Whatever happens next: a caller begins an operation or replaces the listener, an operation or a
task performs one action, or something happens that is no action of the bus. -/
inductive Step : Event → Life → Life → Prop where
  | start {w : Life} (request : Request) :
      Step (.start request) w { w with site := (w.site.start request).2 }
  | act {w : Life} (id : OperationId) : Step (.act id) w (w.act id)
  | run {w : Life} (id : ReceiverId) : Step (.run id) w (w.run id)
  | subscribe {w : Life} (listener : Listener) : Step (.subscribe listener) w
      { w with site := w.site.onReception (Reception.subscribe listener) }
  | outside {w : Life} {medium : Medium}
      (hspares : Kernel.Spares (fun _ => False) w.site.medium.kernel medium.kernel) :
      Step .outside w { w with site := { w.site with medium := medium } }

/-- Steps of which each is allowed. -/
inductive Run (allowed : Event → Prop) (w : Life) : Life → Prop where
  | refl : Run allowed w w
  | step {w' w'' : Life} {event : Event} (hrun : Run allowed w w') (hallowed : allowed event)
      (hstep : Step event w' w'') : Run allowed w w''

theorem Run.trans {allowed : Event → Prop} {w w' w'' : Life} (h : Run allowed w w')
    (h' : Run allowed w' w'') : Run allowed w w'' := by
  induction h' with
  | refl => exact h
  | step _ hallowed hstep ih => exact .step ih hallowed hstep

/-- What a bus that was just made can come to. -/
def Reachable (s : Site) (w : Life) : Prop := Run (fun _ => True) { site := s } w

/-- The step of an event, where outside nothing happens. -/
def after (w : Life) : Event → Life
  | .start request => { w with site := (w.site.start request).2 }
  | .act id => w.act id
  | .run id => w.run id
  | .subscribe listener => { w with site := w.site.onReception (Reception.subscribe listener) }
  | .outside => w

/-- The steps of some events, one after the other. -/
def replay (s : Site) (events : List Event) : Life := events.foldl after { site := s }

theorem step_after (w : Life) (event : Event) : Step event w (w.after event) := by
  cases event with
  | start request => exact .start request
  | act id => exact .act id
  | run id => exact .run id
  | subscribe listener => exact .subscribe listener
  | outside => exact @Step.outside w w.site.medium (Kernel.Spares.refl _)

theorem reachable_replay (s : Site) (events : List Event) : Reachable s (replay s events) := by
  have hall : ∀ w, Reachable s w → Reachable s (events.foldl after w) := by
    induction events with
    | nil => exact fun w h => h
    | cons event rest ih => exact fun w h => ih _ (.step h trivial (step_after w event))
  exact hall _ .refl

end Life

/-- An operation without the lock: one that waits for it or has given it back, or a send. -/
inductive Operation.Waits (o : Operation) : Prop where
  | entering (hrequest : o.request.wire? = none) (htodo : o.todo = [.enter])
      (hfailure : o.failure = none) (hhandle : o.handle = none)
  | done (hrequest : o.request.wire? = none) (htodo : o.todo = [])
  | sending {frame : Frame} (hrequest : o.request = .send frame)
      (htodo : ∀ action ∈ o.todo, action.sends = true)

/-- What nobody changes who does not hold the lock. -/
structure Site.Aside (s t : Site) : Prop where
  transport_eq : t.bus.transport = s.bus.transport
  connection_eq : t.bus.connection = s.bus.connection
  tasks_eq : t.bus.tasks = s.bus.tasks
  published_eq : t.bus.published = s.bus.published
  flag_eq : t.bus.flag = s.bus.flag
  lock_eq : t.bus.lock = s.bus.lock
  stocked : t.Stocked
  held : ∀ r ∈ t.bus.resources, t.bus.holds r.key = true
  opens : ∀ key, t.bus.holds key = true → s.bus.Opens key → t.bus.Opens key

/-- What holds of a bus at every moment of its life. -/
structure Life.Sound (w : Life) : Prop where
  stocked : w.site.Stocked
  held : ∀ r ∈ w.site.bus.resources, w.site.bus.holds r.key = true
  numbered : w.site.Numbered
  free : w.site.bus.lock = none → w.site.bus.Settled w.refused
  waits : ∀ id o, w.site.operation? id = some o → w.site.bus.lock ≠ some id → o.Waits
  holder : ∀ id, w.site.bus.lock = some id →
    ∃ o, w.site.operation? id = some o ∧ o.Proceeds w.refused w.site

namespace Site

variable {s s' t : Site} {o o' : Operation}

theorem Aside.settled {refused : Bool} (h : s.Aside t) (hsettled : s.bus.Settled refused) :
    t.bus.Settled refused := by
  cases hsettled with
  | connected hconnection htasks hpublished hflag hrefused =>
    refine .connected (h.connection_eq.trans hconnection) (h.tasks_eq.trans htasks) ?_ ?_ hrefused
    · rw [h.published_eq, h.transport_eq, hpublished]
    · rw [h.flag_eq, h.transport_eq, hflag]
  | bare hconnection htasks hpublished hflag =>
    refine .bare (h.connection_eq.trans hconnection) (h.tasks_eq.trans htasks)
      (h.published_eq.trans hpublished) ?_
    rw [h.flag_eq, h.transport_eq, hflag]

theorem Aside.proceeds {refused : Bool} {id : OperationId} (h : s.Aside t)
    (hfind : t.operation? id = some o) (hproceeds : o.Proceeds refused s) :
    o.Proceeds refused t := by
  apply hproceeds.frame h.stocked h.transport_eq h.tasks_eq h.connection_eq h.published_eq h.flag_eq
  intro key hkey hopen
  exact h.opens key (Bus.holds_of_operation (operation?_mem hfind).1 hkey) hopen

/-- What is done aside, and what is given back behind it. -/
theorem aside_collect (hstocked : s.Stocked)
    (hbus : t.bus = { s.bus with
      reception := t.bus.reception
      echoes := t.bus.echoes
      operations := t.bus.operations
      receivers := t.bus.receivers })
    (htasks : t.bus.tasks = s.bus.tasks)
    (hspares : Kernel.Spares (fun _ => False) s.medium.kernel t.medium.kernel) :
    s.Aside t.collect where
  transport_eq := by rw [collect_bus, hbus]
  connection_eq := by rw [collect_bus, hbus]
  tasks_eq := by rw [collect_bus]; exact htasks
  published_eq := by rw [collect_bus, hbus]
  flag_eq := by rw [collect_bus, hbus]
  lock_eq := by rw [collect_bus, hbus]
  stocked := by
    apply Stocked.collect
    apply hstocked.congr _ _ _ _ hspares
    all_goals rw [hbus]
  held := held_collect t
  opens key hholds hopen := by
    rw [holds_collect] at hholds
    exact opens_collect hholds (hopen.congr (by rw [hbus]))

theorem Aside.refl {s : Site} (hstocked : s.Stocked)
    (hheld : ∀ r ∈ s.bus.resources, s.bus.holds r.key = true) : s.Aside s :=
  ⟨rfl, rfl, rfl, rfl, rfl, rfl, hstocked, hheld, fun _ _ hopen => hopen⟩

theorem aside_start {s : Site} (hstocked : s.Stocked)
    (hheld : ∀ r ∈ s.bus.resources, s.bus.holds r.key = true) (request : Request) :
    s.Aside (s.start request).2 := by
  refine ⟨rfl, rfl, rfl, rfl, rfl, rfl, ?_, fun r hr => ?_, fun key _ hopen => hopen.congr rfl⟩
  · exact hstocked.congr rfl rfl rfl rfl (Kernel.Spares.refl _)
  · have hholds := hheld r hr
    simp only [Bus.holds, Site.start, Site.setBus, Bool.or_eq_true, List.any_append] at hholds ⊢
    tauto

theorem aside_onReception {s : Site} (hstocked : s.Stocked)
    (hheld : ∀ r ∈ s.bus.resources, s.bus.holds r.key = true) (change : Reception → Reception) :
    s.Aside (s.onReception change) := by
  refine ⟨rfl, rfl, rfl, rfl, rfl, rfl, ?_, hheld, fun key _ hopen => hopen.congr rfl⟩
  exact hstocked.congr rfl rfl rfl rfl (Kernel.Spares.refl _)

theorem aside_outside {s : Site} {medium : Medium} (hstocked : s.Stocked)
    (hheld : ∀ r ∈ s.bus.resources, s.bus.holds r.key = true)
    (hspares : Kernel.Spares (fun _ => False) s.medium.kernel medium.kernel) :
    s.Aside { s with medium := medium } := by
  refine ⟨rfl, rfl, rfl, rfl, rfl, rfl, ?_, hheld, fun key _ hopen => hopen⟩
  exact hstocked.congr rfl rfl rfl rfl hspares

/-- A task leaves everything but itself and what it shares with its bus. -/
theorem aside_run {s : Site} (hstocked : s.Stocked)
    (hheld : ∀ r ∈ s.bus.resources, s.bus.holds r.key = true) (id : ReceiverId) :
    s.Aside (s.run id) ∧ (s.run id).bus.operations = s.bus.operations ∧
      (s.run id).bus.next = s.bus.next := by
  rcases run_eq s id with ⟨-, heq⟩ | ⟨r, hfind, heq⟩
  · rw [heq]
    exact ⟨⟨rfl, rfl, rfl, rfl, rfl, rfl, hstocked, hheld, fun _ _ hopen => hopen⟩, rfl, rfl⟩
  · have hacts := Receiver.acts_step s r
    have hbus := hacts.bus_eq
    rw [heq]
    refine ⟨aside_collect hstocked ?_ ?_ hacts.spares, ?_, ?_⟩
    · show (r.step s).1.bus.setReceiver _ = _
      rw [hbus]
      rfl
    · show ((r.step s).1.bus.setReceiver _).tasks = _
      rw [Bus.tasks_setReceiver, hbus]
      rfl
    · rw [collect_bus]
      show (r.step s).1.bus.operations = _
      rw [hbus]
    · rw [collect_bus]
      show (r.step s).1.bus.next = _
      rw [hbus]

theorem aside_setOperation {s : Site} (hstocked : s.Stocked) (o : Operation) :
    s.Aside (s.setBus (s.bus.setOperation o)).collect :=
  aside_collect hstocked rfl rfl (Kernel.Spares.refl _)

theorem aside_finish {s : Site} (hstocked : s.Stocked) (o : Operation) : s.Aside (s.finish o) :=
  aside_collect hstocked rfl rfl (Kernel.Spares.refl _)

theorem aside_passes {s s' : Site} {o o' : Operation} (hstocked : s.Stocked)
    (hpasses : o.Passes s s' o') : s.Aside (s'.setBus (s'.bus.setOperation o')).collect := by
  have hbus := hpasses.bus_eq
  apply aside_collect hstocked
  · show s'.bus.setOperation o' = _
    rw [hbus]
    rfl
  · show s'.bus.tasks = _
    rw [hbus]
    rfl
  · exact hpasses.spares

end Site

namespace Life

variable {w w' : Life} {event : Event}

/-- A step by which no operation comes to hold the lock or gives it back. -/
theorem Sound.aside (h : Sound w) (haside : w.site.Aside w'.site) (hrefused : w'.refused = w.refused)
    (hnumbered : w'.site.Numbered)
    (hwaits : ∀ id o, w'.site.operation? id = some o → w.site.bus.lock ≠ some id → o.Waits)
    (hholder : ∀ id, w.site.bus.lock = some id →
      w'.site.operation? id = w.site.operation? id) : Sound w' where
  stocked := haside.stocked
  held := haside.held
  numbered := hnumbered
  free hlock := by
    rw [hrefused]
    exact haside.settled (h.free (haside.lock_eq ▸ hlock))
  waits id o hfind hne := hwaits id o hfind (haside.lock_eq ▸ hne)
  holder id hlock := by
    rw [haside.lock_eq] at hlock
    obtain ⟨o, hfind, hproceeds⟩ := h.holder id hlock
    have hfind' : w'.site.operation? id = some o := (hholder id hlock).trans hfind
    exact ⟨o, hfind', by rw [hrefused]; exact haside.proceeds hfind' hproceeds⟩

theorem Sound.start (h : Sound w) (request : Request) :
    Sound { w with site := (w.site.start request).2 } := by
  have hfind := Site.operation?_start request fun o ho => (h.numbered o ho).1
  refine h.aside (Site.aside_start h.stocked h.held request) rfl (h.numbered.start request) ?_ ?_
  · intro id o ho hne
    rw [hfind] at ho
    split at ho
    · cases ho
      cases request with
      | connect | disconnect => exact .entering rfl rfl rfl rfl
      | send frame => exact .sending rfl (Operation.sends_start _ frame)
    · exact h.waits id o ho hne
  · intro id hlock
    rw [hfind, if_neg]
    rintro rfl
    obtain ⟨o, ho, -⟩ := h.holder _ hlock
    obtain ⟨hmem, hid⟩ := Site.operation?_mem ho
    exact Nat.lt_irrefl _ (hid ▸ (h.numbered o hmem).1)

/-- What touches neither the callers nor the connection. -/
theorem Sound.elsewhere (h : Sound w) (haside : w.site.Aside w'.site)
    (hrefused : w'.refused = w.refused)
    (hoperations : w'.site.bus.operations = w.site.bus.operations)
    (hnext : w'.site.bus.next = w.site.bus.next) : Sound w' := by
  have hfind : ∀ id, w'.site.operation? id = w.site.operation? id := by
    intro id
    rw [Site.operation?, hoperations]
    rfl
  refine h.aside haside hrefused (h.numbered.congr hoperations hnext) ?_ ?_
  · intro id o ho hne
    exact h.waits id o (hfind id ▸ ho) hne
  · exact fun id _ => hfind id

theorem Sound.subscribe (h : Sound w) (listener : Listener) :
    Sound { w with site := w.site.onReception (Reception.subscribe listener) } :=
  h.elsewhere (Site.aside_onReception h.stocked h.held _) rfl rfl rfl

theorem Sound.outside (h : Sound w) {medium : Medium}
    (hspares : Kernel.Spares (fun _ => False) w.site.medium.kernel medium.kernel) :
    Sound { w with site := { w.site with medium := medium } } :=
  h.elsewhere (Site.aside_outside h.stocked h.held hspares) rfl rfl rfl

end Life

namespace Operation

variable {s s' : Site} {o o' : Operation} {action : Action} {rest : List Action}

theorem Proceeds.exists_action {refused : Bool} (h : Proceeds refused s o) :
    ∃ action rest, o.todo = action :: rest ∧ action ≠ .enter := by
  obtain ⟨σ, -, hleads⟩ := h.plan
  cases htodo : o.todo with
  | nil => rw [htodo] at hleads; cases hleads
  | cons action rest =>
    refine ⟨action, rest, rfl, ?_⟩
    rintro rfl
    rw [htodo] at hleads
    obtain ⟨-, σ', hafter, -⟩ := Shape.leads_cons (by decide) hleads
    cases hafter

end Operation

namespace Life

variable {w : Life} {s' : Site} {o o' : Operation} {id : OperationId} {action : Action}
  {rest : List Action} {died : Bool}

theorem Sound.finished (h : Sound w) (hfind : w.site.operation? id = some o)
    (hlock : w.site.bus.lock ≠ some id) :
    Sound { w with site := w.site.finish o } := by
  have hid := (Site.operation?_mem hfind).2
  refine h.aside (Site.aside_finish h.stocked o) rfl (h.numbered.finish o) ?_ ?_
  · intro other found hother hne
    rw [Site.operation?_finish] at hother
    split at hother
    · cases hother
    · exact h.waits other found hother hne
  · intro other hother
    rw [Site.operation?_finish, if_neg]
    rintro rfl
    exact hlock (hid ▸ hother)

/-- An action of whoever holds the lock, or of an operation that comes to hold it. -/
theorem Sound.held_by (h : Sound w) (hfind : w.site.operation? id = some o)
    (hlock : w.site.bus.lock = none ∨ w.site.bus.lock = some id)
    (hperform : { o with todo := rest }.perform w.site action = some (s', o'))
    (hlock' : s'.bus.lock = some id)
    (hproceeds : o'.Proceeds w.refused s') :
    Sound { w with site := (s'.setBus (s'.bus.setOperation o')).collect, died := died } := by
  have haside := Site.aside_setOperation hproceeds.stocked o'
  have hfind' := Site.operation?_acted hfind hperform
  have hlock'' := haside.lock_eq.trans hlock'
  refine ⟨haside.stocked, haside.held, h.numbered.acted hfind hperform, ?_, ?_, ?_⟩
  · intro hfree
    rw [hlock''] at hfree
    cases hfree
  · intro other found hother hne
    by_cases hsame : other = id
    · rw [hsame] at hne
      exact absurd hlock'' hne
    · rw [Site.operation?_acted_ne hfind hperform hsame] at hother
      refine h.waits other found hother ?_
      rcases hlock with hnone | hsome
      · rw [hnone]
        exact nofun
      · rw [hsome]
        exact fun heq => hsame (Option.some.inj heq).symm
  · intro other hother
    rw [hlock''] at hother
    cases hother
    exact ⟨o', hfind', haside.proceeds hfind' hproceeds⟩

/-- The lock is given back. -/
theorem Sound.released (h : Sound w) (hfind : w.site.operation? id = some o)
    (hlock : w.site.bus.lock = some id) (htodo : o.todo = .leave :: rest)
    (hproceeds : o.Proceeds w.refused w.site)
    (hperform : { o with todo := rest }.perform w.site .leave = some (s', o')) :
    Sound { w with
      site := (s'.setBus (s'.bus.setOperation o')).collect
      refused := if o.request.connects then o.failure.isSome else w.refused } := by
  have hfind' := Site.operation?_acted hfind hperform
  have hothers : ∀ other, other ≠ id →
      (s'.setBus (s'.bus.setOperation o')).collect.operation? other = w.site.operation? other :=
    fun other hne => Site.operation?_acted_ne hfind hperform hne
  have hnumbered := h.numbered.acted hfind hperform
  obtain ⟨rfl, hsettled, -⟩ := hproceeds.leave htodo
  have hrequest := hproceeds.request
  cases hperform
  have hstocked : (w.site.setBus { w.site.bus with lock := none }).Stocked :=
    h.stocked.congr rfl rfl rfl rfl (Kernel.Spares.refl _)
  have haside := Site.aside_setOperation hstocked { o with todo := [] }
  refine ⟨haside.stocked, haside.held, hnumbered, fun _ => ?_, ?_, ?_⟩
  · apply haside.settled
    cases hsettled with
    | connected hconnection htasks hpublished hflag hrefused =>
      exact .connected hconnection htasks hpublished hflag hrefused
    | bare hconnection htasks hpublished hflag =>
      exact .bare hconnection htasks hpublished hflag
  · intro other found hother _
    by_cases hsame : other = id
    · rw [hsame] at hother
      cases hfind'.symm.trans hother
      exact .done hrequest rfl
    · rw [hothers other hsame] at hother
      refine h.waits other found hother ?_
      rw [hlock]
      exact fun heq => hsame (Option.some.inj heq).symm
  · intro other hother
    cases haside.lock_eq.symm.trans hother

theorem Sound.sent {frame : Frame} (h : Sound w) (hfind : w.site.operation? id = some o)
    (hlock : w.site.bus.lock ≠ some id) (hrequest : o.request = .send frame)
    (hperform : { o with todo := rest }.perform w.site action = some (s', o'))
    (hpasses : o.Passes w.site s' o') :
    Sound { w with site := (s'.setBus (s'.bus.setOperation o')).collect } := by
  have hfind' := Site.operation?_acted hfind hperform
  refine h.aside (Site.aside_passes h.stocked hpasses) rfl
    (h.numbered.acted hfind hperform) ?_ ?_
  · intro other found hother hne
    by_cases hsame : other = id
    · rw [hsame] at hother
      cases hfind'.symm.trans hother
      exact .sending (hpasses.request_eq.trans hrequest) hpasses.todo
    · rw [Site.operation?_acted_ne hfind hperform hsame] at hother
      exact h.waits other found hother hne
  · intro other hother
    apply Site.operation?_acted_ne hfind hperform
    rintro rfl
    exact hlock hother

/-- What one action of an operation can come to. -/
inductive Acted (w : Life) (id : OperationId) : Life → Prop where
  /-- There is no such operation, or it waits. -/
  | idle : Acted w id w
  | finish {o : Operation} (hfind : w.site.operation? id = some o)
      (hlock : w.site.bus.lock ≠ some id) (htodo : o.todo = []) :
      Acted w id { w with site := w.site.finish o }
  | send {o o' : Operation} {frame : Frame} {action : Action} {rest : List Action} {s' : Site}
      (hfind : w.site.operation? id = some o) (hlock : w.site.bus.lock ≠ some id)
      (hrequest : o.request = .send frame)
      (hperform : { o with todo := rest }.perform w.site action = some (s', o'))
      (hpasses : o.Passes w.site s' o') (htodo : o.todo = action :: rest) :
      Acted w id { w with site := (s'.setBus (s'.bus.setOperation o')).collect }
  | enter {o o' : Operation} {s' : Site} (hfind : w.site.operation? id = some o)
      (hlock : w.site.bus.lock = none) (htodo : o.todo = [.enter])
      (hperform : { o with todo := [] }.perform w.site .enter = some (s', o'))
      (hproceeds : o'.Proceeds w.refused s') (hlock' : s'.bus.lock = some id) :
      Acted w id { w with site := (s'.setBus (s'.bus.setOperation o')).collect }
  | hold {o o' : Operation} {action : Action} {rest : List Action} {s' : Site}
      (hfind : w.site.operation? id = some o) (hlock : w.site.bus.lock = some id)
      (hproceeds : o.Proceeds w.refused w.site) (htodo : o.todo = action :: rest)
      (henter : action ≠ .enter) (hleave : action ≠ .leave)
      (hperform : { o with todo := rest }.perform w.site action = some (s', o')) :
      Acted w id { w with
        site := (s'.setBus (s'.bus.setOperation o')).collect
        died := w.died && action != .spawn }
  | leave {o o' : Operation} {rest : List Action} {s' : Site}
      (hfind : w.site.operation? id = some o) (hlock : w.site.bus.lock = some id)
      (hproceeds : o.Proceeds w.refused w.site) (htodo : o.todo = .leave :: rest)
      (hperform : { o with todo := rest }.perform w.site .leave = some (s', o')) :
      Acted w id { w with
        site := (s'.setBus (s'.bus.setOperation o')).collect
        refused := if o.request.connects then o.failure.isSome else w.refused }

theorem act_of_none (h : w.site.operation? id = none) : w.act id = w := by
  simp [act, Site.advance_of_none h, Site.acting?, h]

theorem act_of_nil (hfind : w.site.operation? id = some o) (htodo : o.todo = []) :
    w.act id = { w with site := w.site.finish o } := by
  have hnone : ∀ action, w.site.acting? id action = none := by
    intro action
    apply Site.acting?_ne hfind
    rw [htodo]
    exact nofun
  simp [act, Site.advance_ends hfind htodo, hnone]

theorem act_of_cons (hfind : w.site.operation? id = some o) (htodo : o.todo = action :: rest) :
    w.act id = {
      site := (w.site.advance id).2
      died := w.died && action != .spawn
      refused := if action = .leave ∧ o.request.connects = true then o.failure.isSome
        else w.refused } := by
  have hdied : (w.site.acting? id .spawn).isNone = (action != .spawn) := by
    by_cases hspawn : action = .spawn
    · rw [Site.acting?_eq hfind (by rw [htodo, hspawn]; rfl), hspawn]
      rfl
    · rw [Site.acting?_ne hfind (by simpa [htodo] using hspawn), bne_iff_ne.mpr hspawn]
      rfl
  unfold act
  rw [hdied]
  by_cases hleave : action = .leave
  · rw [Site.acting?_eq hfind (by rw [htodo, hleave]; rfl)]
    simp [hleave]
  · rw [Site.acting?_ne hfind (by simpa [htodo] using hleave)]
    simp [hleave]

/-- Only a task that has not exited, and a lock that is held, are waited for. -/
theorem act_of_waiting (hfind : w.site.operation? id = some o) (htodo : o.todo = action :: rest)
    (hperform : { o with todo := rest }.perform w.site action = none) : w.act id = w := by
  have hspawn : action ≠ .spawn := by
    rintro rfl
    cases hperform
  have hleave : action ≠ .leave := by
    rintro rfl
    cases hperform
  rw [act_of_cons hfind htodo, Site.advance_waits_of_none hfind htodo hperform,
    bne_iff_ne.mpr hspawn]
  simp [hleave]

theorem act_of_perform (hfind : w.site.operation? id = some o) (htodo : o.todo = action :: rest)
    (hleave : action ≠ .leave)
    (hperform : { o with todo := rest }.perform w.site action = some (s', o')) :
    w.act id = { w with
      site := (s'.setBus (s'.bus.setOperation o')).collect
      died := w.died && action != .spawn } := by
  rw [act_of_cons hfind htodo, Site.advance_goesOn hfind htodo hperform]
  simp [hleave]

/-- What an action of whoever holds the lock comes to. -/
theorem Sound.acted_holding (h : Sound w) (hfind : w.site.operation? id = some o)
    (hlock : w.site.bus.lock = some id) : Acted w id (w.act id) := by
  obtain ⟨_, hsame, hproceeds⟩ := h.holder id hlock
  cases hfind.symm.trans hsame
  obtain ⟨action, rest, htodo, henter⟩ := hproceeds.exists_action
  by_cases hleave : action = .leave
  · subst hleave
    rw [act_of_cons hfind htodo, Site.advance_goesOn hfind htodo rfl]
    simp only [true_and, show (Action.leave != Action.spawn) = true from rfl, Bool.and_true]
    exact .leave hfind hlock hproceeds htodo rfl
  · cases hperform : { o with todo := rest }.perform w.site action with
    | none =>
      rw [act_of_waiting hfind htodo hperform]
      exact .idle
    | some result =>
      rw [act_of_perform hfind htodo hleave hperform]
      exact .hold hfind hlock hproceeds htodo henter hleave hperform

/-- What an action of any other operation comes to. -/
theorem Sound.acted_waiting (h : Sound w) (hfind : w.site.operation? id = some o)
    (hlock : w.site.bus.lock ≠ some id) : Acted w id (w.act id) := by
  cases h.waits id o hfind hlock with
  | done hrequest htodo =>
    rw [act_of_nil hfind htodo]
    exact .finish hfind hlock htodo
  | entering hrequest htodo hfailure hhandle =>
    by_cases hfree : w.site.bus.lock = none
    · obtain ⟨s', o', henter, hproceeds, hlock'⟩ :=
        Operation.proceeds_enter (o := { o with todo := [] }) (h.free hfree) h.stocked hfree
          hrequest hfailure
      rw [act_of_perform hfind htodo (by decide) henter]
      simp only [show (Action.enter != Action.spawn) = true from rfl, Bool.and_true]
      refine .enter hfind hfree htodo henter hproceeds ?_
      rw [hlock', (Site.operation?_mem hfind).2]
    · have hperform : { o with todo := [] }.perform w.site .enter = none := by
        have hsome := Option.isSome_iff_ne_none.mpr hfree
        simp [Operation.perform, Operation.enter, hsome]
      rw [act_of_waiting hfind htodo hperform]
      exact .idle
  | sending hrequest hsends =>
    cases htodo : o.todo with
    | nil =>
      rw [act_of_nil hfind htodo]
      exact .finish hfind hlock htodo
    | cons action rest =>
      have haction : action.sends = true := hsends action (by rw [htodo]; exact List.mem_cons_self)
      have hleave : action ≠ .leave := by
        rintro rfl
        cases haction
      have hspawn : action ≠ .spawn := by
        rintro rfl
        cases haction
      cases hperform : { o with todo := rest }.perform w.site action with
      | none =>
        rw [act_of_waiting hfind htodo hperform]
        exact .idle
      | some result =>
        rw [act_of_perform hfind htodo hleave hperform]
        simp only [bne_iff_ne.mpr hspawn, Bool.and_true]
        exact .send hfind hlock hrequest hperform
          (Operation.passes_perform hrequest htodo hsends hperform) htodo

theorem Sound.acted (h : Sound w) (id : OperationId) : Acted w id (w.act id) := by
  cases hfind : w.site.operation? id with
  | none =>
    rw [act_of_none hfind]
    exact .idle
  | some o =>
    by_cases hlock : w.site.bus.lock = some id
    · exact h.acted_holding hfind hlock
    · exact h.acted_waiting hfind hlock

theorem Acted.sound {w' : Life} (hacted : Acted w id w') (h : Sound w) : Sound w' := by
  cases hacted with
  | idle => exact h
  | finish hfind hlock htodo => exact h.finished hfind hlock
  | send hfind hlock hrequest hperform hpasses => exact h.sent hfind hlock hrequest hperform hpasses
  | enter hfind hlock htodo hperform hproceeds hlock' =>
    exact h.held_by hfind (Or.inl hlock) hperform hlock' hproceeds
  | hold hfind hlock hproceeds htodo henter hleave hperform =>
    have hlock' := ((Operation.keeps_perform hperform).lock_eq henter hleave).trans hlock
    exact h.held_by hfind (Or.inr hlock) hperform hlock'
      (hproceeds.perform htodo hleave hperform)
  | leave hfind hlock hproceeds htodo hperform =>
    exact h.released hfind hlock htodo hproceeds hperform

theorem Sound.run (h : Sound w) (id : ReceiverId) : Sound (w.run id) := by
  obtain ⟨haside, hoperations, hnext⟩ := Site.aside_run h.stocked h.held id
  exact h.elsewhere haside rfl hoperations hnext

theorem Step.sound {w' : Life} {event : Event} (hstep : Step event w w') (h : Sound w) :
    Sound w' := by
  cases hstep with
  | start request => exact h.start request
  | act id => exact (h.acted id).sound h
  | run id => exact h.run id
  | subscribe listener => exact h.subscribe listener
  | outside hspares => exact h.outside hspares

theorem Run.sound {w' : Life} {allowed : Event → Prop} (hrun : Run allowed w w') (h : Sound w) :
    Sound w' := by
  induction hrun with
  | refl => exact h
  | step _ _ hstep ih => exact hstep.sound ih

end Life

/-- A bus that was just made. -/
structure Site.Made (s : Site) : Prop where
  stocked : s.Stocked
  held : ∀ r ∈ s.bus.resources, s.bus.holds r.key = true
  operations_eq : s.bus.operations = []
  receivers_eq : s.bus.receivers = []
  connection_eq : s.bus.connection = none
  published_eq : s.bus.published = none
  flag_eq : s.bus.flag = false
  lock_eq : s.bus.lock = none
  reception_eq : s.bus.reception = {}

theorem Site.made_of_fresh {transport : Transport} {channel : String} {c : BusConfig} {m : Medium}
    (hfresh : m.kernel.Fresh) (origin : Nat) (queue : QueueId) :
    Site.Made ⟨{ Bus.fresh transport channel c with origin := origin, queue := queue }, m⟩ where
  stocked := ⟨hfresh, nofun, nofun, nofun, fun hne => absurd rfl hne⟩
  held := nofun
  operations_eq := rfl
  receivers_eq := rfl
  connection_eq := rfl
  published_eq := rfl
  flag_eq := rfl
  lock_eq := rfl
  reception_eq := rfl

/-- A ring is made with a resource for its first connection. -/
theorem Bus.made_ring {channel : String} {c : BusConfig} {m m' : Medium} {b : Bus}
    (hfresh : m.kernel.Fresh) (h : (Bus.make .ring channel c).run m = (.ok b, m')) :
    b.transport = .ring ∧ Site.Made ⟨b, m'⟩ := by
  obtain ⟨-, resource, hrun, rfl⟩ := Bus.make_ring h
  have hnew := Resource.sparing_acquireRing channel c m.kernel hfresh
  have hopen := Resource.gives_acquireRing channel c m.kernel
  unfold Kernel.Op.Sparing Kernel.Op.Yields at hnew
  unfold Kernel.Op.Yields at hopen
  rw [hrun] at hnew hopen
  obtain ⟨hspares, hacquired⟩ := hnew
  refine ⟨rfl, ⟨hspares.fresh hfresh, ?_, nofun, ?_, fun _ => rfl⟩, ?_, rfl, rfl, rfl, rfl, rfl, rfl,
    rfl⟩
  · intro r hr
    cases List.mem_singleton.mp hr
    exact (hacquired resource rfl).key_lt
  · intro key hkey
    cases hkey
    exact ⟨resource, by simp [Bus.resource?], hopen resource rfl⟩
  · intro r hr
    cases List.mem_singleton.mp hr
    exact Bus.holds_of_idle rfl

/-- A bus is made without a connection and without anybody who uses it. -/
theorem Bus.made_of_make {transport : Transport} {channel : String} {c : BusConfig} {m m' : Medium}
    {b : Bus} (hfresh : m.kernel.Fresh)
    (h : (Bus.make transport channel c).run m = (.ok b, m')) :
    b.transport = transport ∧ Site.Made ⟨b, m'⟩ := by
  cases transport with
  | ring => exact Bus.made_ring hfresh h
  | virtual =>
    obtain ⟨rfl, rfl⟩ := Bus.make_virtual h
    refine ⟨rfl, Site.made_of_fresh ?_ _ _⟩
    exact hfresh
  | blocking | cancellable | batched =>
    obtain ⟨rfl, rfl⟩ := Bus.make_socket (by decide) (by decide) h
    have hspares : Kernel.Spares (fun _ => False) m.kernel
        ((lookUp channel).run m.kernel).2 := (Kernel.sparing_index channel m.kernel).1
    exact ⟨rfl, Site.made_of_fresh (hspares.fresh hfresh) 0 0⟩

theorem Life.sound_of_made {s : Site} (h : s.Made) : Life.Sound { site := s } where
  stocked := h.stocked
  held := h.held
  numbered := by
    intro o ho
    rw [h.operations_eq] at ho
    cases ho
  free _ := by
    refine .bare h.connection_eq ?_ h.published_eq ?_
    · rw [Bus.tasks, h.receivers_eq]
      rfl
    · rw [h.flag_eq, Bool.and_false]
  waits id o hfind := by
    rw [Site.operation?, h.operations_eq] at hfind
    cases hfind
  holder id hlock := nomatch h.lock_eq.symm.trans hlock

/-- The transport of a bus never changes. -/
theorem Life.Step.transport_eq {w w' : Life} {event : Life.Event} (hstep : Life.Step event w w')
    (h : w.Sound) : w'.site.bus.transport = w.site.bus.transport := by
  cases hstep with
  | start | subscribe | outside => rfl
  | run id => exact (Site.aside_run h.stocked h.held id).1.transport_eq
  | act id =>
    show (w.site.advance id).2.bus.transport = _
    rcases Site.advance_eq w.site id with heq | ⟨o, -, -, -, heq⟩ |
      ⟨o, -, action, rest, s', o', -, -, hperform, heq⟩
    · rw [heq]
    · rw [heq, Site.finish_bus]
    · rw [heq, Site.collect_bus]
      exact (Operation.framed_perform hperform).transport_eq

theorem Life.Run.transport_eq {w w' : Life} {allowed : Life.Event → Prop}
    (hrun : Life.Run allowed w w') (h : w.Sound) :
    w'.site.bus.transport = w.site.bus.transport := by
  induction hrun with
  | refl => rfl
  | step hrun _ hstep ih => exact (hstep.transport_eq (hrun.sound h)).trans ih

end CanTransport
