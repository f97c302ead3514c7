import CanTransport.Proofs.Bus.Returns
import CanTransport.Proofs.Bus.Supervision
import Mathlib.Data.List.Nodup
/-!
# Watching a bus

Notes that are taken along a run: which event published what, when there is a new task, when a task
acts in its loop and how the loop returns. What one step is for those who watch is one of six things,
on every transport.
-/

namespace CanTransport

namespace Stage

/-- Whether a task there has not left its loop. -/
def loops : Stage → Bool
  | .returned _ | .published | .exited _ => false
  | _ => true

/-- How the loop of a task there has returned. -/
def outcome? : Stage → Option (Except Error Unit)
  | .returned outcome => some outcome
  | _ => none

theorem isOver_of_loops {stage : Stage} (h : stage.loops = true) : stage.isOver = false := by
  cases stage with
  | returned _ | published | exited _ => cases h
  | _ => rfl

/-- A task that is not over acts in its loop, or its loop has returned. -/
theorem loops_or_returned {stage : Stage} (h : stage.isOver = false) :
    stage.loops = true ∧ stage.outcome? = none ∨ ∃ outcome, stage = .returned outcome := by
  cases stage with
  | published | exited _ => cases h
  | returned outcome => exact Or.inr ⟨outcome, rfl⟩
  | _ => exact Or.inl ⟨rfl, rfl⟩

end Stage

theorem Receiver.stage_of_hasDied {r : Receiver} (h : r.hasDied = true) :
    r.stage = .exited true := by
  unfold hasDied at h
  cases hstage : r.stage with
  | exited died =>
    rw [hstage] at h
    rw [show died = true from h]
  | _ => rw [hstage] at h; cases h

namespace Bus

/-- The tasks of a bus and where they are. -/
def stages (b : Bus) : List (ReceiverId × Stage) := b.receivers.map fun r => (r.id, r.stage)

theorem tasks_eq_stages (b : Bus) : b.tasks = b.stages.map Prod.fst := by
  rw [tasks, stages, List.map_map]
  rfl

theorem stages_setReceiver (b : Bus) (r : Receiver) : (b.setReceiver r).stages =
    b.stages.map fun t => if t.1 = r.id then (r.id, r.stage) else t := by
  simp only [stages, setReceiver, List.map_map]
  apply List.map_congr_left
  intro other _
  simp only [Function.comp_apply]
  split <;> rfl

end Bus

/-- The state that is published of a loop that returned. -/
def ReceptionState.ofOutcome : Except Error Unit → ReceptionState
  | .ok () => .stopped
  | .error e => .failed e.text

theorem Reception.published_finish (outcome : Except Error Unit) (r : Reception) :
    (r.finish outcome).published = .ofOutcome outcome :: r.published := by
  cases outcome <;> rfl

theorem Reception.deliveries_finish (outcome : Except Error Unit) (r : Reception) :
    (r.finish outcome).deliveries = r.deliveries := by
  cases outcome <;> rfl

namespace Life

/-- Steps, and what is noted of each. -/
inductive Noted {α : Type} (note : Event → Life → Life → List α) (w : Life) : List α → Life → Prop
    where
  | refl : Noted note w [] w
  | step {log : List α} {w' w'' : Life} {event : Event} (hrun : Noted note w log w')
      (hstep : Step event w' w'') : Noted note w (log ++ note event w' w'') w''

theorem Noted.run {α : Type} {note : Event → Life → Life → List α} {w w' : Life} {log : List α}
    (h : Noted note w log w') : Run (fun _ => True) w w' := by
  induction h with
  | refl => exact .refl
  | step _ hstep ih => exact .step ih trivial hstep

theorem Noted.append {α : Type} {note : Event → Life → Life → List α} {w w' w'' : Life}
    {log log' : List α} (h : Noted note w log w') (h' : Noted note w' log' w'') :
    Noted note w (log ++ log') w'' := by
  induction h' with
  | refl =>
    rw [List.append_nil]
    exact h
  | step _ hstep ih =>
    rw [← List.append_assoc]
    exact .step ih hstep

/-- What is noted of the steps of some events. -/
def taken {α : Type} (note : Event → Life → Life → List α) (w : Life) : List Event → List α
  | [] => []
  | event :: rest => note event w (w.after event) ++ taken note (w.after event) rest

theorem noted_taken {α : Type} (note : Event → Life → Life → List α) (w : Life)
    (events : List Event) : Noted note w (taken note w events) (events.foldl after w) := by
  induction events generalizing w with
  | nil => exact .refl
  | cons event rest ih =>
    have hfirst : Noted note w (note event w (w.after event)) (w.after event) :=
      .step .refl (step_after w event)
    exact hfirst.append (ih (w.after event))

theorem noted_replay {α : Type} (note : Event → Life → Life → List α) (s : Site)
    (events : List Event) : Noted note { site := s } (taken note { site := s } events)
      (replay s events) := noted_taken note _ events

/-! ## Notes -/

inductive Entry where
  /-- An event published a state. -/
  | published (cause : Event) (state : ReceptionState)
  /-- There is a new task. -/
  | spawned (task : ReceiverId)
  /-- A task performed an action of its loop. -/
  | looped (task : ReceiverId)
  /-- The loop of a task returned. -/
  | returned (task : ReceiverId) (outcome : Except Error Unit)

namespace Entry

def state? : Entry → Option ReceptionState
  | .published _ state => some state
  | _ => none

end Entry

section

variable (w w' : Life)

/-- The states that were published meanwhile, in order. -/
def news : List ReceptionState :=
  (w'.site.bus.reception.published.take
    (w'.site.bus.reception.published.length - w.site.bus.reception.published.length)).reverse

/-- The tasks that were not there before. -/
def newcomers : List ReceiverId := w'.site.bus.tasks.filter (· ∉ w.site.bus.tasks)

/-- What is seen of a loop when its task acts. -/
def turns : Event → List Entry
  | .run id =>
    match w.site.bus.receiver? id, w'.site.bus.receiver? id with
    | some r, some r' =>
      if r.stage.loops then .looped id :: r'.stage.outcome?.toList.map (.returned id) else []
    | _, _ => []
  | _ => []

end

/-- The notes of one step. -/
def notes (event : Event) (w w' : Life) : List Entry :=
  turns w w' event ++ (news w w').map (.published event) ++ (newcomers w w').map .spawned

variable {w w' : Life} {event : Event} {id : OperationId} {o o' : Operation}

theorem news_eq {new : List ReceptionState}
    (h : w'.site.bus.reception.published = new ++ w.site.bus.reception.published) :
    news w w' = new.reverse := by
  have hlength : (new ++ w.site.bus.reception.published).length -
      w.site.bus.reception.published.length = new.length := by
    rw [List.length_append]
    omega
  rw [news, h, hlength, List.take_left]

theorem newcomers_eq_nil (h : ∀ id ∈ w'.site.bus.tasks, id ∈ w.site.bus.tasks) :
    newcomers w w' = [] := by
  rw [newcomers, List.filter_eq_nil_iff]
  intro id hid
  simpa using h id hid

/-- An event by which no task acts, and after which there is no new one. -/
theorem notes_eq_nil (hevent : ∀ id, event ≠ .run id)
    (hpublished : w'.site.bus.reception.published = w.site.bus.reception.published)
    (htasks : ∀ id ∈ w'.site.bus.tasks, id ∈ w.site.bus.tasks) : notes event w w' = [] := by
  have hsame : w'.site.bus.reception.published = [] ++ w.site.bus.reception.published :=
    hpublished
  have hnews : news w w' = [] := news_eq hsame
  have hnone := newcomers_eq_nil htasks
  have hturns : turns w w' event = [] := by
    cases event with
    | run id => exact absurd rfl (hevent id)
    | start _ | act _ | subscribe _ | outside => rfl
  rw [notes, hturns, hnews, hnone]
  rfl

/-! ## What a step is for those who watch -/

end Life

/-- Whether an action neither fails nor starts a task. -/
def Action.isSafe : Action → Bool
  | .leave | .cancel | .unpublish | .closeSocket | .letGo | .clearEchoes | .listen | .publish
  | .store | .raiseFlag | .lowerFlag | .dropIdle => true
  | _ => false

namespace Operation

variable {s s' : Site} {o o' : Operation} {action : Action}

theorem perform_safe (hsafe : action.isSafe = true) (h : o.perform s action = some (s', o')) :
    o'.failure = o.failure ∧ o'.todo = o.todo := by
  cases action with
  | cancel | closeSocket =>
    simp only [perform] at h
    split at h <;> cases h <;> exact ⟨rfl, rfl⟩
  | leave | unpublish | letGo | clearEchoes | listen | publish | store | raiseFlag | lowerFlag
  | dropIdle =>
    cases h
    exact ⟨rfl, rfl⟩
  | enter | join | check | acquire | register | spawn | borrow | checkFlag | remember | write
  | forget | transmit | countSent => cases hsafe

/-- An operation that has failed does not recover. -/
theorem perform_failed (hfailed : o.failure.isSome = true)
    (h : o.perform s action = some (s', o')) : o'.failure.isSome = true := by
  cases action with
  | enter =>
    simp only [perform, enter] at h
    split at h
    · cases h
    · split at h
      · cases h
        exact hfailed
      · split at h
        all_goals
          split at h <;> cases h
          · exact hfailed
          · exact hfailed
  | join =>
    simp only [perform, join] at h
    split at h
    · cases h
      exact hfailed
    · split at h <;> cases h
      split
      · rfl
      · exact hfailed
  | acquire =>
    simp only [perform, acquire] at h
    split at h
    · cases h
      exact hfailed
    · split at h <;> cases h
      · exact hfailed
      · rfl
  | write =>
    simp only [perform, write] at h
    split at h
    · split at h <;> cases h
      · exact hfailed
      · rfl
    · cases h
      rfl
  | register =>
    cases h
    unfold register
    split
    · exact hfailed
    · rfl
  | check | checkFlag =>
    cases h
    split
    · exact hfailed
    · first | exact hfailed | rfl
  | borrow =>
    simp only [perform] at h
    split at h <;> cases h
    · rfl
    · exact hfailed
  | cancel | closeSocket | remember | forget | transmit =>
    simp only [perform] at h
    split at h <;> cases h <;> exact hfailed
  | leave | unpublish | letGo | clearEchoes | listen | spawn | publish | store | raiseFlag
  | lowerFlag | dropIdle | countSent =>
    cases h
    exact hfailed

end Operation

namespace Shape

variable {transport : Transport} {connects owed : Bool} {σ : Shape} {action : Action}
  {rest : List Action}

/-- Once a task is started, a plan goes on with it and without risk. -/
theorem started_after (htask : σ.task = .started ∨ σ.task = .stored) (hleave : action ≠ .leave)
    (h : σ.leads transport connects owed (action :: rest) = true) :
    action.isSafe = true ∧ ∃ σ' : Shape, (σ'.task = .started ∨ σ'.task = .stored) ∧
      σ'.leads transport connects owed rest = true := by
  obtain ⟨hfinal, σ', hafter, hleads⟩ := leads_cons hleave h
  have hnever : action.mayFail = false := by
    by_contra hmay
    have hcertain := hfinal (by simpa using hmay)
    rcases htask with htask | htask
    · simp [isFinal, htask] at hcertain
    · simp [isFinal, htask] at hcertain
  have hgoes : action.isSafe = true ∧ (σ'.task = .started ∨ σ'.task = .stored) := by
    cases action with
    | check | acquire | register => cases hnever
    | leave => exact absurd rfl hleave
    | join | spawn =>
      rcases htask with htask | htask
      · simp [after, htask] at hafter
      · simp [after, htask] at hafter
    | enter | borrow | checkFlag | remember | write | forget | transmit | countSent =>
      cases hafter
    | store =>
      obtain ⟨-, heq⟩ := Option.ite_none_right_eq_some.mp hafter
      cases heq
      exact ⟨rfl, Or.inr rfl⟩
    | publish | closeSocket =>
      obtain ⟨-, heq⟩ := Option.ite_none_right_eq_some.mp hafter
      cases heq
      exact ⟨rfl, htask⟩
    | unpublish | letGo | raiseFlag | lowerFlag | cancel | clearEchoes | listen | dropIdle =>
      cases hafter
      exact ⟨rfl, htask⟩
  exact ⟨hgoes.1, σ', hgoes.2, hleads⟩

/-- Once a task is started, a plan holds no more risks. -/
theorem safe_of_leads (htask : σ.task = .started ∨ σ.task = .stored)
    (h : σ.leads transport connects owed rest = true) : ∀ action ∈ rest, action.isSafe = true := by
  induction rest generalizing σ with
  | nil => cases h
  | cons action rest ih =>
    by_cases hleave : action = .leave
    · rw [leads, if_pos hleave, Bool.and_eq_true, List.isEmpty_iff] at h
      rw [h.1, hleave]
      simp [Action.isSafe]
    · obtain ⟨hsafe, σ', htask', hleads⟩ := started_after htask hleave h
      intro other hother
      rcases List.mem_cons.mp hother with rfl | hmem
      · exact hsafe
      · exact ih htask' hleads other hmem

/-- Only a connect starts a task. -/
theorem connects_of_leads (htask : σ.task = .started ∨ σ.task = .stored)
    (h : σ.leads transport connects owed rest = true) : connects = true := by
  induction rest generalizing σ with
  | nil => cases h
  | cons action rest ih =>
    by_cases hleave : action = .leave
    · rw [leads, if_pos hleave, Bool.and_eq_true] at h
      have hfinal := h.2
      rcases htask with htask | htask
      · simp [isFinal, htask] at hfinal
      · simp only [isFinal, htask, Bool.and_eq_true] at hfinal
        exact hfinal.2.1.1
    · obtain ⟨-, σ', htask', hleads⟩ := started_after htask hleave h
      exact ih htask' hleads

end Shape

namespace Life

/-- What one step is for those who watch, and what they note. -/
inductive Watch (w w' : Life) : Event → List Entry → Prop where
  /-- Nothing is seen. -/
  | quiet {event : Event}
      (hpublished : w'.site.bus.reception.published = w.site.bus.reception.published)
      (hstages : w'.site.bus.stages = w.site.bus.stages) : Watch w w' event []
  /-- A task that has exited was waited for. -/
  | joined {event : Event} {task : ReceiverId} {died : Bool}
      (hpublished : w'.site.bus.reception.published = w.site.bus.reception.published)
      (hstages : w.site.bus.stages = [(task, .exited died)])
      (hstages' : w'.site.bus.stages = []) : Watch w w' event []
  /-- A task is started, by an operation that has not failed and that has no risks left. -/
  | spawned {id : OperationId} {o o' : Operation}
      (hpublished : w'.site.bus.reception.published =
        .running :: w.site.bus.reception.published)
      (hstages : w.site.bus.stages = [])
      (hstages' : w'.site.bus.stages = [(w.site.bus.next, .top)])
      (hnext : w.site.bus.next < w'.site.bus.next)
      (hfind : w.site.operation? id = some o) (hfailure : o.failure = none)
      (hfind' : w'.site.operation? id = some o') (hfailure' : o'.failure = none)
      (hsafe : ∀ action ∈ o'.todo, action.isSafe = true) :
      Watch w w' (.act id) [.published (.act id) .running, .spawned w.site.bus.next]
  /-- A task acts in its loop; a listener may end it. -/
  | turned {id : ReceiverId} {stage stage' : Stage}
      (hpublished : w'.site.bus.reception.published = w.site.bus.reception.published)
      (hstages : w.site.bus.stages = [(id, stage)]) (hloops : stage.loops = true)
      (hstages' : w'.site.bus.stages = [(id, stage')])
      (hgoes : stage'.isOver = false ∨ stage' = .exited true ∧
        ∃ d ∈ w'.site.bus.reception.deliveries, d.returned = false)
      (hring : w.site.bus.transport = .ring → stage.rings = true → stage'.rings = true) :
      Watch w w' (.run id) (.looped id :: stage'.outcome?.toList.map (.returned id))
  /-- A task publishes how its loop returned. -/
  | finished {id : ReceiverId} {outcome : Except Error Unit}
      (hpublished : w'.site.bus.reception.published =
        .ofOutcome outcome :: w.site.bus.reception.published)
      (hstages : w.site.bus.stages = [(id, .returned outcome)])
      (hstages' : w'.site.bus.stages = [(id, .published)]) :
      Watch w w' (.run id) [.published (.run id) (.ofOutcome outcome)]
  /-- A task that has published its end exits. -/
  | exited {id : ReceiverId}
      (hpublished : w'.site.bus.reception.published = w.site.bus.reception.published)
      (hstages : w.site.bus.stages = [(id, .published)])
      (hstages' : w'.site.bus.stages = [(id, .exited false)]) : Watch w w' (.run id) []

end Life

namespace Operation

variable {s s' : Site} {o o' : Operation} {action : Action}

theorem stages_cancel (hnodup : s.bus.tasks.Nodup)
    (h : o.perform s .cancel = some (s', o')) : s'.bus.stages = s.bus.stages := by
  simp only [perform] at h
  split at h
  · cases h
    rfl
  · rename_i r hfind
    obtain ⟨id, -, hfind⟩ := Option.bind_eq_some_iff.mp hfind
    have hmem := (Bus.receiver?_mem hfind).1
    cases h
    refine (Bus.stages_setReceiver s.bus _).trans ?_
    rw [List.map_congr_left, List.map_id]
    intro t ht
    obtain ⟨other, hother, rfl⟩ := List.mem_map.mp ht
    split
    · rename_i hid
      rw [List.inj_on_of_nodup_map hnodup hother hmem hid]
      rfl
    · rfl

theorem stages_join (h : o.perform s .join = some (s', o')) :
    s'.bus.stages = s.bus.stages ∨
      ∃ task died, (task, .exited died) ∈ s.bus.stages ∧
        s'.bus.stages = s.bus.stages.filter (·.1 != task) := by
  simp only [perform, join] at h
  split at h
  · cases h
    exact Or.inl rfl
  · rename_i r hfind
    obtain ⟨id, -, hfind⟩ := Option.bind_eq_some_iff.mp hfind
    have hmem := (Bus.receiver?_mem hfind).1
    split at h
    · rename_i died hstage
      cases h
      refine Or.inr ⟨r.id, died, List.mem_map.mpr ⟨r, hmem, by rw [hstage]⟩, ?_⟩
      rw [Bus.stages, Bus.stages, List.filter_map]
      rfl
    · cases h

end Operation

namespace Life

variable {w w' : Life} {event : Event} {id : OperationId} {o o' : Operation} {s' : Site}
  {action : Action} {rest : List Action}

/-- There is one task at most. -/
theorem Sound.stages_eq (hw : w.Sound) : ∀ t ∈ w.site.bus.stages, w.site.bus.stages = [t] := by
  intro t ht
  obtain ⟨r, hr, rfl⟩ := List.mem_map.mp ht
  rw [Bus.stages, hw.receivers_eq r hr]
  rfl

theorem Sound.tasks_nodup (hw : w.Sound) : w.site.bus.tasks.Nodup := by
  cases hreceivers : w.site.bus.receivers with
  | nil => simp [Bus.tasks, hreceivers]
  | cons r rest =>
    rw [Bus.tasks, hw.receivers_eq r (by rw [hreceivers]; exact List.mem_cons_self)]
    exact List.nodup_singleton _

/-- Nothing is noted of a step that leaves what is published and where the tasks are. -/
theorem watch_quiet (hevent : ∀ id, event ≠ .run id)
    (hpublished : w'.site.bus.reception.published = w.site.bus.reception.published)
    (hstages : w'.site.bus.stages = w.site.bus.stages) : Watch w w' event (notes event w w') := by
  have htasks : w'.site.bus.tasks = w.site.bus.tasks := by
    rw [Bus.tasks_eq_stages, Bus.tasks_eq_stages, hstages]
  rw [notes_eq_nil hevent hpublished fun id hid => htasks ▸ hid]
  exact .quiet hpublished hstages

/-- Any action of an operation but the start of a task. -/
theorem watch_performed (hw : w.Sound) (hspawn : action ≠ .spawn)
    (hperform : o.perform w.site action = some (s', o'))
    (hbus : w'.site.bus = ((s'.setBus (s'.bus.setOperation o')).collect).bus) :
    Watch w w' (.act id) (notes (.act id) w w') := by
  have hkeeps := Operation.keeps_perform hperform
  have hpublished : w'.site.bus.reception.published = w.site.bus.reception.published := by
    rw [hbus, Site.collect_bus]
    exact hkeeps.published_eq hspawn
  have hstages : w'.site.bus.stages = s'.bus.stages := by
    rw [hbus, Site.collect_bus]
    rfl
  by_cases hjoin : action = .join
  · subst hjoin
    rcases Operation.stages_join hperform with hsame | ⟨task, died, hmem, hgone⟩
    · exact watch_quiet nofun hpublished (hstages.trans hsame)
    · have hone := hw.stages_eq _ hmem
      have hnone : s'.bus.stages = [] := by
        rw [hgone, hone]
        simp
      have htasks : w'.site.bus.tasks = [] := by
        rw [Bus.tasks_eq_stages, hstages, hnone]
        rfl
      have hnotes : notes (.act id) w w' = [] :=
        notes_eq_nil nofun hpublished (by rw [htasks]; exact nofun)
      rw [hnotes]
      exact .joined hpublished hone (hstages.trans hnone)
  · by_cases hcancel : action = .cancel
    · subst hcancel
      have hsame := Operation.stages_cancel hw.tasks_nodup hperform
      exact watch_quiet nofun hpublished (hstages.trans hsame)
    · have hsame := hkeeps.receivers_eq hspawn hjoin hcancel
      exact watch_quiet nofun hpublished (hstages.trans (by rw [Bus.stages, hsame]; rfl))

/-- The start of a task. -/
theorem watch_spawned (hproceeds : o.Proceeds w.refused w.site)
    (hfind : w.site.operation? id = some o) (htodo : o.todo = .spawn :: rest)
    (hperform : { o with todo := rest }.perform w.site .spawn = some (s', o'))
    (hsite : w'.site = (s'.setBus (s'.bus.setOperation o')).collect) :
    Watch w w' (.act id) (notes (.act id) w w') := by
  have hfind' : w'.site.operation? id = some o' := by
    rw [hsite]
    exact Site.operation?_acted hfind hperform
  obtain ⟨σ, hholds, hleads⟩ := hproceeds.plan
  rw [htodo] at hleads
  obtain ⟨-, σ', hafter, hrest⟩ := Shape.leads_cons (by decide) hleads
  obtain ⟨⟨htask, habsent⟩, heq⟩ := Option.ite_none_right_eq_some.mp hafter
  have hgrip := hholds.task
  have hmishap := hholds.mishap
  rw [htask] at hgrip
  rw [habsent] at hmishap
  have hfailure : o.failure = none := hmishap
  have hnone : w.site.bus.receivers = [] := List.map_eq_nil_iff.mp hgrip.2
  have hsafe : ∀ action ∈ rest, action.isSafe = true := by
    cases heq
    exact Shape.safe_of_leads (Or.inl rfl) hrest
  have hbus : w'.site.bus = { s'.bus.setOperation o' with
      resources := w'.site.bus.resources } := by
    rw [hsite, Site.collect_bus]
    rfl
  cases hperform
  have hpublished : w'.site.bus.reception.published =
      [.running] ++ w.site.bus.reception.published := by
    rw [hbus]
    rfl
  have hstages : w.site.bus.stages = [] := by rw [Bus.stages, hnone, List.map_nil]
  have hstages' : w'.site.bus.stages = [(w.site.bus.next, .top)] := by
    rw [hbus]
    show List.map _ (w.site.bus.receivers ++ [_]) = _
    rw [hnone]
    rfl
  have hnext : w'.site.bus.next = w.site.bus.next + 1 := by
    rw [hbus]
    rfl
  have hnew : newcomers w w' = [w.site.bus.next] := by
    simp [newcomers, Bus.tasks_eq_stages, hstages, hstages']
  have hnotes : notes (.act id) w w' =
      [.published (.act id) .running, .spawned w.site.bus.next] := by
    rw [notes, news_eq hpublished, hnew]
    rfl
  rw [hnotes]
  exact .spawned hpublished hstages hstages' (by omega) hfind hfailure hfind' hfailure hsafe

theorem watch_act (hw : w.Sound) (id : OperationId) :
    Watch w (w.act id) (.act id) (notes (.act id) w (w.act id)) := by
  have hacted := hw.acted id
  generalize w.act id = w' at hacted ⊢
  cases hacted with
  | idle => exact watch_quiet nofun rfl rfl
  | finish =>
    have hevent : ∀ task, Event.act id ≠ .run task := nofun
    apply watch_quiet hevent
    · rw [Site.finish_bus]
    · rw [Site.finish_bus]
      rfl
  | @send o o' frame action rest s' hfind hlock hrequest hperform hpasses =>
    have hspawn : action ≠ .spawn := by
      rintro rfl
      cases hperform
      have hlength := congrArg (fun b : Bus => b.receivers.length) hpasses.bus_eq
      simp [Site.setBus, Site.onReception] at hlength
    exact watch_performed hw hspawn hperform rfl
  | enter _ _ _ hperform => exact watch_performed hw (by decide) hperform rfl
  | @hold o o' action rest s' hfind _ hproceeds htodo _ _ hperform =>
    by_cases hspawn : action = .spawn
    · subst hspawn
      exact watch_spawned hproceeds hfind htodo hperform rfl
    · exact watch_performed hw hspawn hperform rfl
  | leave _ _ _ _ hperform => exact watch_performed hw (by decide) hperform rfl

/-- What is noted when a task acts. -/
theorem notes_run {id : ReceiverId} {r r' : Receiver} {new : List ReceptionState}
    (hfind : w.site.bus.receiver? id = some r) (hfind' : w'.site.bus.receiver? id = some r')
    (htasks : w'.site.bus.tasks = w.site.bus.tasks)
    (hpublished : w'.site.bus.reception.published = new ++ w.site.bus.reception.published) :
    notes (.run id) w w' =
      (if r.stage.loops then .looped id :: r'.stage.outcome?.toList.map (.returned id) else []) ++
        new.reverse.map (.published (.run id)) := by
  have hnone : newcomers w w' = [] := newcomers_eq_nil fun id hid => htasks ▸ hid
  rw [notes, turns, hfind, hfind', news_eq hpublished, hnone, List.map_nil, List.append_nil]

/-- An action of a task that has left its loop. -/
theorem watch_over {r : Receiver} {id : ReceiverId} (hloops : r.stage.loops = false)
    (hstages : w.site.bus.stages = [(id, r.stage)])
    (hstages' : w'.site.bus.stages = [(id, (r.step w.site).2.stage)])
    (hreception : w'.site.bus.reception = (r.step w.site).1.bus.reception)
    (hnotes : ∀ {new : List ReceptionState},
      w'.site.bus.reception.published = new ++ w.site.bus.reception.published →
      notes (.run id) w w' = new.reverse.map (.published (.run id))) :
    Watch w w' (.run id) (notes (.run id) w w') := by
  cases hstage : r.stage with
  | returned outcome =>
    have hpublished : w'.site.bus.reception.published =
        [.ofOutcome outcome] ++ w.site.bus.reception.published := by
      rw [hreception, Receiver.step, hstage]
      exact Reception.published_finish outcome _
    rw [Receiver.step, hstage, Receiver.stage_goTo] at hstages'
    rw [hstage] at hstages
    rw [hnotes hpublished]
    exact .finished hpublished hstages hstages'
  | published =>
    have hpublished : w'.site.bus.reception.published =
        [] ++ w.site.bus.reception.published := by
      rw [hreception, Receiver.step, hstage]
      rfl
    rw [Receiver.step, hstage, Receiver.stage_goTo] at hstages'
    rw [hstage] at hstages
    rw [hnotes hpublished]
    exact .exited hpublished hstages hstages'
  | exited died =>
    have hpublished : w'.site.bus.reception.published =
        [] ++ w.site.bus.reception.published := by
      rw [hreception, Receiver.step, hstage]
      rfl
    rw [Receiver.step, hstage, hstage] at hstages'
    rw [hstage] at hstages
    rw [hnotes hpublished]
    exact .quiet hpublished (hstages'.trans hstages.symm)
  | top | receiving | holding _ | looking _ | releasing _ | advancing _ | swept _ | sleeping _ _ =>
    rw [hstage] at hloops
    cases hloops

theorem watch_run (hw : w.Sound) (id : ReceiverId) :
    Watch w (w.run id) (.run id) (notes (.run id) w (w.run id)) := by
  rcases Site.run_eq w.site id with ⟨hnone, heq⟩ | ⟨r, hfind, heq⟩
  · have hbus : (w.run id).site.bus = w.site.bus := congrArg Site.bus heq
    have hnotes : notes (.run id) w (w.run id) = [] := by
      have hsame : (w.run id).site.bus.reception.published =
          [] ++ w.site.bus.reception.published := by
        rw [hbus]
        rfl
      have hnew : newcomers w (w.run id) = [] :=
        newcomers_eq_nil fun id hid => by rwa [hbus] at hid
      rw [notes, turns, hnone, news_eq hsame, hnew]
      rfl
    rw [hnotes]
    exact .quiet (by rw [hbus]) (by rw [hbus])
  · obtain ⟨hmem, hid⟩ := Bus.receiver?_mem hfind
    have hreceivers := hw.receivers_eq r hmem
    have hacts := Receiver.acts_step w.site r
    have hreceivers' : (w.run id).site.bus.receivers = [(r.step w.site).2] := by
      show (w.site.run id).bus.receivers = _
      rw [heq, Site.collect_bus]
      show ((r.step w.site).1.bus.setReceiver _).receivers = _
      rw [hacts.bus_eq]
      simp [Bus.setReceiver, hreceivers, hacts.id_eq]
    have hreception : (w.run id).site.bus.reception = (r.step w.site).1.bus.reception := by
      show (w.site.run id).bus.reception = _
      rw [heq, Site.collect_bus]
      rfl
    have hid' : (r.step w.site).2.id = id := hacts.id_eq.trans hid
    have hfind' : (w.run id).site.bus.receiver? id = some (r.step w.site).2 := by
      rw [Bus.receiver?, hreceivers', List.find?_singleton, if_pos (by simpa using hid')]
    have hstages : w.site.bus.stages = [(id, r.stage)] := by
      rw [Bus.stages, hreceivers, List.map_singleton, hid]
    have hstages' : (w.run id).site.bus.stages = [(id, (r.step w.site).2.stage)] := by
      rw [Bus.stages, hreceivers', List.map_singleton, hid']
    have htasks : (w.run id).site.bus.tasks = w.site.bus.tasks := by
      rw [Bus.tasks_eq_stages, Bus.tasks_eq_stages, hstages, hstages']
      rfl
    cases hloops : r.stage.loops with
    | true =>
      have hgoing : r.isOver = false := Stage.isOver_of_loops hloops
      have hring : w.site.bus.transport = .ring → r.stage.rings = true →
          (r.step w.site).2.stage.rings = true := fun htransport hrings =>
        (Receiver.rings_step htransport hrings).2
      have hcontinues : w.site.bus.reception.Continues (w.run id).site.bus.reception ∧
          ((r.step w.site).2.stage.isOver = false ∨ (r.step w.site).2.stage = .exited true ∧
            ∃ d ∈ (w.run id).site.bus.reception.deliveries, d.returned = false) := by
        rw [hreception]
        cases hacts.report with
        | silent hcontinues hover => exact ⟨hcontinues, Or.inl (hover.trans hgoing)⟩
        | dies hcontinues _ hdied hlistener =>
          exact ⟨hcontinues, Or.inr ⟨Receiver.stage_of_hasDied hdied, hlistener⟩⟩
        | ends hstage =>
          rw [hstage] at hloops
          cases hloops
      have hpublished : (w.run id).site.bus.reception.published =
          [] ++ w.site.bus.reception.published := hcontinues.1.published_eq
      rw [notes_run hfind hfind' htasks hpublished, if_pos hloops, List.reverse_nil, List.map_nil,
        List.append_nil]
      exact .turned hpublished hstages hloops hstages' hcontinues.2 hring
    | false =>
      have hnotes : ∀ {new : List ReceptionState},
          (w.run id).site.bus.reception.published = new ++ w.site.bus.reception.published →
          notes (.run id) w (w.run id) = new.reverse.map (.published (.run id)) := by
        intro new hpublished
        rw [notes_run hfind hfind' htasks hpublished, hloops]
        rfl
      exact watch_over hloops hstages hstages' hreception hnotes

theorem Step.watch (hstep : Step event w w') (hw : w.Sound) :
    Watch w w' event (notes event w w') := by
  cases hstep with
  | start | subscribe | outside => exact watch_quiet nofun rfl rfl
  | act id => exact watch_act hw id
  | run id => exact watch_run hw id

/-! ## What every step leaves -/

/-- Calls of listeners stay on record. -/
theorem Step.deliveries_kept (hstep : Step event w w') :
    w.site.bus.reception.deliveries <+: w'.site.bus.reception.deliveries := by
  cases hstep with
  | start | subscribe | outside => exact List.prefix_rfl
  | act id =>
    have hsame : (w.site.advance id).2.bus.reception.deliveries =
        w.site.bus.reception.deliveries := by
      rcases Site.advance_eq w.site id with heq | ⟨o, -, -, -, heq⟩ |
        ⟨o, -, action, rest, s', o', -, -, hperform, heq⟩
      · rw [heq]
      · rw [heq, Site.finish_bus]
      · rw [heq, Site.collect_bus]
        exact (Operation.keeps_perform hperform).deliveries_eq
    exact hsame ▸ List.prefix_rfl
  | run id =>
    show _ <+: (w.site.run id).bus.reception.deliveries
    rcases Site.run_eq w.site id with ⟨-, heq⟩ | ⟨r, -, heq⟩
    · exact heq.symm ▸ List.prefix_rfl
    · rw [heq, Site.collect_bus]
      show _ <+: (r.step w.site).1.bus.reception.deliveries
      cases (Receiver.acts_step w.site r).report with
      | silent hcontinues => exact hcontinues.deliveries
      | dies hcontinues => exact hcontinues.deliveries
      | ends _ hreception =>
        have hsame : (r.step w.site).1.bus.reception.deliveries =
            w.site.bus.reception.deliveries := by
          rw [hreception, Reception.deliveries_finish]
        exact hsame ▸ List.prefix_rfl

/-- Numbers are given in order. -/
theorem Step.next_le (hstep : Step event w w') (hw : w.Sound) :
    w.site.bus.next ≤ w'.site.bus.next := by
  cases hstep with
  | start => exact Nat.le_succ _
  | subscribe | outside => exact Nat.le_refl _
  | run id => exact Nat.le_of_eq (Site.aside_run hw.stocked hw.held id).2.2.symm
  | act id =>
    show _ ≤ (w.site.advance id).2.bus.next
    rcases Site.advance_eq w.site id with heq | ⟨o, -, -, -, heq⟩ |
      ⟨o, -, action, rest, s', o', -, -, hperform, heq⟩
    · rw [heq]
    · rw [heq, Site.finish_bus]
    · rw [heq, Site.collect_bus]
      exact (Operation.keeps_perform hperform).next_le

/-- What every action of an operation keeps of it, every step keeps. -/
theorem Step.operation_keeps {P : Operation → Prop} (hstep : Step event w w') (hw : w.Sound)
    (hP : ∀ {s s' : Site} {o o' : Operation} {action : Action} {rest : List Action}, P o →
      o.todo = action :: rest → { o with todo := rest }.perform s action = some (s', o') → P o')
    (hlt : id < w.site.bus.next) (h : ∀ o, w.site.operation? id = some o → P o) :
    ∀ o, w'.site.operation? id = some o → P o := by
  intro o' hfind'
  by_cases hevent : event = .act id
  · subst hevent
    cases hstep
    rw [site_act] at hfind'
    cases hfind : w.site.operation? id with
    | none =>
      rw [Site.advance_of_none hfind, hfind] at hfind'
      cases hfind'
    | some o =>
      cases htodo : o.todo with
      | nil =>
        rw [Site.advance_ends hfind htodo, Site.operation?_finish,
          if_pos (Site.operation?_mem hfind).2.symm] at hfind'
        cases hfind'
      | cons action rest =>
        cases hperform : { o with todo := rest }.perform w.site action with
        | none =>
          rw [Site.advance_waits_of_none hfind htodo hperform] at hfind'
          exact h o' hfind'
        | some result =>
          rw [Site.advance_goesOn hfind htodo hperform,
            Site.operation?_acted hfind hperform] at hfind'
          cases hfind'
          exact hP (h o hfind) htodo hperform
  · rcases hstep.operation?_or hw hevent with heq | ⟨hnew, -⟩
    · exact h o' (heq ▸ hfind')
    · exact absurd hnew (Nat.ne_of_lt hlt)

end Life

end CanTransport
