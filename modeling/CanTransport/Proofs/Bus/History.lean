import CanTransport.Proofs.Bus.Watching
/-!
# What is published over time

The notes of a run are whole episodes and the beginning of another: an operation publishes that a
task runs and starts it, the task goes round its loop, the loop returns, and the task publishes how.
Only a listener that does not return breaks this off.
-/

namespace CanTransport

namespace Life

/-- A task from its start to the end that it publishes. -/
structure Episode where
  /-- The operation that started the task. -/
  starter : OperationId
  task : ReceiverId
  /-- Actions of its loop. -/
  turns : Nat
  outcome : Except Error Unit

/-- What is noted of a task in its loop. -/
def opening (starter : OperationId) (task : ReceiverId) (turns : Nat) : List Entry :=
  .published (.act starter) .running :: .spawned task :: List.replicate turns (.looped task)

/-- What is noted of an episode. The task publishes itself how its loop returned. -/
def Episode.entries (e : Episode) : List Entry :=
  opening e.starter e.task e.turns ++
    [.returned e.task e.outcome, .published (.run e.task) (.ofOutcome e.outcome)]

/-- The new task that an entry is about. -/
def Entry.task? : Entry → Option ReceiverId
  | .spawned task => some task
  | _ => none

/-- That a task runs and that one has ended, in turn. -/
inductive Alternates : List ReceptionState → Prop where
  | nil : Alternates []
  | running : Alternates [.running]
  | ended {state : ReceptionState} {rest : List ReceptionState}
      (hended : state.isTerminal = true) (h : Alternates rest) :
      Alternates (.running :: state :: rest)

/-- What is published over time, as it was noted up to some moment. -/
structure History (log : List Entry) (w : Life) : Prop where
  /-- The notes miss nothing that is published, and no task. -/
  states_eq : w.site.bus.reception.published.reverse = .idle :: log.filterMap Entry.state?
  announced : ∀ r ∈ w.site.bus.receivers, .spawned r.id ∈ log
  /-- A bus is published as running once for each task. -/
  running_eq : (log.filterMap Entry.state?).count .running = (log.filterMap Entry.task?).length
  /-- As long as listeners return there are whole episodes of one task after the other, and the
  beginning of one more. -/
  episodes : (∀ d ∈ w.site.bus.reception.deliveries, d.returned = true) →
    ∃ episodes : List Episode, (episodes.map Episode.task).Pairwise (· < ·) ∧
      log <+: episodes.flatMap Episode.entries
  alternates : (∀ d ∈ w.site.bus.reception.deliveries, d.returned = true) →
    Alternates (log.filterMap Entry.state?)
  /-- The loop of a ring never fails. -/
  ring : w.site.bus.transport = .ring →
    ∀ reason, .failed reason ∉ w.site.bus.reception.published

variable {w w' w'' : Life} {event : Event} {log log' : List Entry} {id : OperationId}

/-! ## Alternation -/

theorem isTerminal_ofOutcome (outcome : Except Error Unit) :
    (ReceptionState.ofOutcome outcome).isTerminal = true := by
  cases outcome <;> rfl

theorem Alternates.beginning {states states' : List ReceptionState} (h : Alternates states)
    (hinitial : states' <+: states) : Alternates states' := by
  induction h generalizing states' with
  | nil =>
    rw [List.prefix_nil.mp hinitial]
    exact .nil
  | running =>
    rcases List.prefix_cons_iff.mp hinitial with rfl | ⟨rest, rfl, hrest⟩
    · exact .nil
    · rw [List.prefix_nil.mp hrest]
      exact .running
  | ended hended _ ih =>
    rcases List.prefix_cons_iff.mp hinitial with rfl | ⟨rest, rfl, hrest⟩
    · exact .nil
    · rcases List.prefix_cons_iff.mp hrest with rfl | ⟨rest', rfl, hrest'⟩
      · exact .running
      · exact .ended hended (ih hrest')

@[simp] theorem states_opening (starter : OperationId) (task : ReceiverId) (turns : Nat) :
    (opening starter task turns).filterMap Entry.state? = [.running] := by
  simp [opening, Entry.state?]

theorem alternates_episodes (episodes : List Episode) :
    Alternates ((episodes.flatMap Episode.entries).filterMap Entry.state?) := by
  induction episodes with
  | nil => exact .nil
  | cons e rest ih =>
    rw [List.flatMap_cons, List.filterMap_append, Episode.entries, List.filterMap_append,
      states_opening]
    exact .ended (isTerminal_ofOutcome e.outcome) ih

/-! ## Episodes -/

theorem opening_succ (starter : OperationId) (task : ReceiverId) (turns : Nat) :
    opening starter task (turns + 1) = opening starter task turns ++ [.looped task] := by
  rw [opening, List.replicate_succ', opening]
  rfl

/-- A later task comes behind all others. -/
theorem increasing_concat {episodes : List Episode} {e : Episode}
    (hincreasing : (episodes.map Episode.task).Pairwise (· < ·))
    (hlt : ∀ other ∈ episodes, other.task < e.task) :
    ((episodes ++ [e]).map Episode.task).Pairwise (· < ·) := by
  rw [List.map_append, List.pairwise_append]
  refine ⟨hincreasing, List.pairwise_singleton _ _, ?_⟩
  intro earlier hearlier later hlater
  obtain ⟨other, hother, rfl⟩ := List.mem_map.mp hearlier
  rw [List.mem_singleton.mp hlater]
  exact hlt other hother

/-- What was noted so far: whole episodes, and what has been of the task that has not published its
end. -/
inductive Orderly (b : Bus) (log : List Entry) : Prop where
  | settled {episodes : List Episode} (hlog : log = episodes.flatMap Episode.entries)
      (hincreasing : (episodes.map Episode.task).Pairwise (· < ·))
      (hlt : ∀ e ∈ episodes, e.task < b.next)
      (hstages : ∀ t ∈ b.stages, t.2 = .published ∨ t.2 = .exited false)
  | underway {episodes : List Episode} {starter : OperationId} {task : ReceiverId} {turns : Nat}
      {stage : Stage}
      (hlog : log = episodes.flatMap Episode.entries ++ (opening starter task turns ++
        stage.outcome?.toList.map (.returned task)))
      (hincreasing : (episodes.map Episode.task).Pairwise (· < ·))
      (hlt : ∀ e ∈ episodes, e.task < task) (htask : task < b.next)
      (hstages : b.stages = [(task, stage)]) (hgoing : stage.isOver = false)

/-- Nothing is noted, and no task goes anywhere. -/
theorem Orderly.congr {b b' : Bus} (h : Orderly b log) (hstages : b'.stages = b.stages)
    (hnext : b.next ≤ b'.next) : Orderly b' log := by
  cases h with
  | settled hlog hincreasing hlt hover =>
    exact .settled hlog hincreasing (fun e he => Nat.lt_of_lt_of_le (hlt e he) hnext)
      (hstages ▸ hover)
  | underway hlog hincreasing hlt htask hone hgoing =>
    exact .underway hlog hincreasing hlt (Nat.lt_of_lt_of_le htask hnext) (hstages.trans hone)
      hgoing

theorem Watch.orderly (h : Watch w w' event log') (horderly : Orderly w.site.bus log)
    (hnext : w.site.bus.next ≤ w'.site.bus.next)
    (hlisteners : ∀ d ∈ w'.site.bus.reception.deliveries, d.returned = true) :
    Orderly w'.site.bus (log ++ log') := by
  cases h with
  | quiet _ hstages =>
    rw [List.append_nil]
    exact horderly.congr hstages hnext
  | joined _ hone hnone =>
    rw [List.append_nil]
    cases horderly with
    | settled hlog hincreasing hlt hover =>
      refine .settled hlog hincreasing (fun e he => Nat.lt_of_lt_of_le (hlt e he) hnext) ?_
      rw [hnone]
      exact fun t ht => absurd ht List.not_mem_nil
    | underway hlog hincreasing hlt htask hstages hgoing =>
      cases hstages.symm.trans hone
      cases hgoing
  | @spawned id _ _ _ hnone hone hnew =>
    cases horderly with
    | @settled episodes hlog hincreasing hlt hover =>
      have hlog' : log ++ [.published (.act id) .running, .spawned w.site.bus.next] =
          episodes.flatMap Episode.entries ++ (opening id w.site.bus.next 0 ++
            Stage.top.outcome?.toList.map (.returned w.site.bus.next)) := by
        rw [hlog]
        rfl
      exact .underway hlog' hincreasing hlt hnew hone rfl
    | underway _ _ _ _ hstages =>
      cases hnone.symm.trans hstages
  | @turned id stage stage' _ hone hloops hone' hgoes hring =>
    cases horderly with
    | settled _ _ _ hover =>
      rcases hover (id, stage) (by rw [hone]; exact List.mem_cons_self) with rfl | rfl
      · cases hloops
      · cases hloops
    | @underway episodes starter task turns _ hlog hincreasing hlt htask hstages hgoing =>
      cases hstages.symm.trans hone
      have hgoing' : stage'.isOver = false := by
        rcases hgoes with hgoing' | ⟨-, d, hd, hfailed⟩
        · exact hgoing'
        · rw [hlisteners d hd] at hfailed
          cases hfailed
      have houtcome : stage.outcome? = none := by
        rcases Stage.loops_or_returned hgoing with ⟨-, hnone⟩ | ⟨outcome, rfl⟩
        · exact hnone
        · cases hloops
      have hlog' : log ++ .looped id :: stage'.outcome?.toList.map (.returned id) =
          episodes.flatMap Episode.entries ++ (opening starter id (turns + 1) ++
            stage'.outcome?.toList.map (.returned id)) := by
        rw [hlog, houtcome, opening_succ]
        simp
      exact .underway hlog' hincreasing hlt (Nat.lt_of_lt_of_le htask hnext) hone' hgoing'
  | @finished id outcome _ hone hone' =>
    cases horderly with
    | settled _ _ _ hover =>
      rcases hover (id, .returned outcome) (by rw [hone]; exact List.mem_cons_self) with heq | heq
      · cases heq
      · cases heq
    | @underway episodes starter task turns _ hlog hincreasing hlt htask hstages hgoing =>
      cases hstages.symm.trans hone
      have hlog' : log ++ [.published (.run id) (.ofOutcome outcome)] =
          (episodes ++ [Episode.mk starter id turns outcome]).flatMap Episode.entries := by
        rw [hlog, List.flatMap_append]
        simp [Episode.entries, Stage.outcome?]
      refine .settled hlog' (increasing_concat hincreasing hlt) ?_ ?_
      · intro e he
        apply Nat.lt_of_lt_of_le _ hnext
        rcases List.mem_append.mp he with hold | hnew
        · exact Nat.lt_trans (hlt e hold) htask
        · cases List.mem_singleton.mp hnew
          exact htask
      · rw [hone']
        intro t ht
        cases List.mem_singleton.mp ht
        exact Or.inl rfl
  | @exited id _ hone hone' =>
    rw [List.append_nil]
    cases horderly with
    | settled hlog hincreasing hlt hover =>
      refine .settled hlog hincreasing (fun e he => Nat.lt_of_lt_of_le (hlt e he) hnext) ?_
      rw [hone']
      intro t ht
      cases List.mem_singleton.mp ht
      exact Or.inr rfl
    | underway _ _ _ _ hstages hgoing =>
      cases hstages.symm.trans hone
      cases hgoing

/-- Whole episodes and the beginning of one more. -/
theorem Orderly.episodes {b : Bus} (h : Orderly b log) :
    ∃ episodes : List Episode, (episodes.map Episode.task).Pairwise (· < ·) ∧
      log <+: episodes.flatMap Episode.entries := by
  cases h with
  | @settled episodes hlog hincreasing => exact ⟨episodes, hincreasing, hlog ▸ List.prefix_rfl⟩
  | @underway episodes starter task turns stage hlog hincreasing hlt =>
    obtain ⟨outcome, houtcome⟩ : ∃ outcome, stage.outcome?.toList <+: [outcome] := by
      cases stage.outcome? with
      | none => exact ⟨.ok (), List.nil_prefix⟩
      | some outcome => exact ⟨outcome, List.prefix_rfl⟩
    refine ⟨episodes ++ [⟨starter, task, turns, outcome⟩], increasing_concat hincreasing hlt, ?_⟩
    rw [hlog, List.flatMap_append, List.flatMap_singleton, List.prefix_append_right_inj,
      Episode.entries, List.prefix_append_right_inj]
    have hreturned := houtcome.map (Entry.returned task)
    exact hreturned.trans (List.prefix_append [_] [_])

/-! ## Along a run -/

/-- What a step publishes is what is noted of it. -/
theorem Watch.states_eq (h : Watch w w' event log') :
    w'.site.bus.reception.published.reverse =
      w.site.bus.reception.published.reverse ++ log'.filterMap Entry.state? := by
  cases h with
  | quiet hpublished | joined hpublished | exited hpublished =>
    rw [hpublished, List.filterMap_nil, List.append_nil]
  | spawned hpublished | finished hpublished =>
    rw [hpublished, List.reverse_cons]
    rfl
  | @turned id stage stage' hpublished =>
    have hnone : (Entry.looped id :: stage'.outcome?.toList.map (.returned id)).filterMap
        Entry.state? = [] := by
      cases stage'.outcome? <;> rfl
    rw [hpublished, hnone, List.append_nil]

theorem Watch.running_eq (h : Watch w w' event log') :
    (log'.filterMap Entry.state?).count .running = (log'.filterMap Entry.task?).length := by
  cases h with
  | quiet | joined | exited | spawned => rfl
  | @finished id outcome => cases outcome <;> rfl
  | @turned id stage stage' => cases stage'.outcome? <;> rfl

/-- On a ring tasks stay where its actions lead, so none of them fails. -/
theorem Watch.rings (h : Watch w w' event log') (hring : w.site.bus.transport = .ring)
    (hrings : ∀ t ∈ w.site.bus.stages, t.2.rings = true)
    (hnever : ∀ reason, .failed reason ∉ w.site.bus.reception.published) :
    (∀ t ∈ w'.site.bus.stages, t.2.rings = true) ∧
      ∀ reason, .failed reason ∉ w'.site.bus.reception.published := by
  cases h with
  | quiet hpublished hstages =>
    rw [hpublished, hstages]
    exact ⟨hrings, hnever⟩
  | joined hpublished _ hnone =>
    rw [hpublished, hnone]
    exact ⟨fun t ht => absurd ht List.not_mem_nil, hnever⟩
  | spawned hpublished _ hone =>
    rw [hpublished, hone]
    refine ⟨?_, ?_⟩
    · intro t ht
      cases List.mem_singleton.mp ht
      rfl
    · intro reason hmem
      rcases List.mem_cons.mp hmem with heq | hold
      · cases heq
      · exact hnever reason hold
  | @turned id stage stage' hpublished hone _ hone' _ hstays =>
    rw [hpublished, hone']
    refine ⟨?_, hnever⟩
    intro t ht
    cases List.mem_singleton.mp ht
    exact hstays hring (hrings (id, stage) (by rw [hone]; exact List.mem_cons_self))
  | @finished id outcome hpublished hone hone' =>
    rw [hpublished, hone']
    have hreturned := hrings (id, .returned outcome) (by rw [hone]; exact List.mem_cons_self)
    refine ⟨?_, ?_⟩
    · intro t ht
      cases List.mem_singleton.mp ht
      rfl
    · intro reason hmem
      rcases List.mem_cons.mp hmem with heq | hold
      · cases outcome with
        | ok done => cases heq
        | error e => cases hreturned
      · exact hnever reason hold
  | exited hpublished _ hone =>
    rw [hpublished, hone]
    refine ⟨?_, hnever⟩
    intro t ht
    cases List.mem_singleton.mp ht
    rfl

/-- A task that was not there before is noted. -/
theorem spawned_mem_notes {r : Receiver} (hr : r ∈ w'.site.bus.receivers)
    (hnew : r.id ∉ w.site.bus.tasks) : .spawned r.id ∈ notes event w w' := by
  apply List.mem_append_right
  apply List.mem_map_of_mem
  rw [newcomers, List.mem_filter]
  exact ⟨List.mem_map_of_mem hr, by simpa using hnew⟩

/-- What holds of the notes at every moment. -/
structure Kept (log : List Entry) (w : Life) : Prop where
  states_eq : w.site.bus.reception.published.reverse = .idle :: log.filterMap Entry.state?
  announced : ∀ r ∈ w.site.bus.receivers, .spawned r.id ∈ log
  running_eq : (log.filterMap Entry.state?).count .running = (log.filterMap Entry.task?).length
  orderly : (∀ d ∈ w.site.bus.reception.deliveries, d.returned = true) → Orderly w.site.bus log
  rings : w.site.bus.transport = .ring → (∀ t ∈ w.site.bus.stages, t.2.rings = true) ∧
    ∀ reason, .failed reason ∉ w.site.bus.reception.published

theorem kept_of_made {s : Site} (hmade : s.Made) : Kept [] { site := s } where
  states_eq := by
    rw [hmade.reception_eq]
    rfl
  announced := by
    rw [hmade.receivers_eq]
    exact fun t ht => absurd ht List.not_mem_nil
  running_eq := rfl
  orderly _ := by
    have hnone : ([] : List Entry) = List.flatMap Episode.entries [] := rfl
    refine .settled hnone List.Pairwise.nil (fun e he => absurd he List.not_mem_nil) ?_
    rw [Bus.stages, hmade.receivers_eq]
    exact fun t ht => absurd ht List.not_mem_nil
  rings _ := by
    rw [hmade.reception_eq, Bus.stages, hmade.receivers_eq]
    refine ⟨fun t ht => absurd ht List.not_mem_nil, ?_⟩
    intro reason hmem
    cases List.mem_singleton.mp hmem

theorem Kept.step (h : Kept log w) (hw : w.Sound) (hstep : Step event w w') :
    Kept (log ++ notes event w w') w' := by
  have hwatch := hstep.watch hw
  refine ⟨?_, ?_, ?_, ?_, ?_⟩
  · rw [hwatch.states_eq, h.states_eq, List.filterMap_append]
    rfl
  · intro r hr
    by_cases hold : r.id ∈ w.site.bus.tasks
    · obtain ⟨other, hother, hid⟩ := List.mem_map.mp hold
      rw [← hid]
      exact List.mem_append_left _ (h.announced other hother)
    · exact List.mem_append_right _ (spawned_mem_notes hr hold)
  · rw [List.filterMap_append, List.count_append, h.running_eq, hwatch.running_eq,
      List.filterMap_append, List.length_append]
  · intro hlisteners
    have hbefore : ∀ d ∈ w.site.bus.reception.deliveries, d.returned = true :=
      fun d hd => hlisteners d (hstep.deliveries_kept.subset hd)
    exact hwatch.orderly (h.orderly hbefore) (hstep.next_le hw) hlisteners
  · intro hring
    rw [hstep.transport_eq hw] at hring
    obtain ⟨hrings, hnever⟩ := h.rings hring
    exact hwatch.rings hring hrings hnever

theorem Noted.sound {α : Type} {note : Event → Life → Life → List α} {log : List α}
    (hrun : Noted note w log w') (hw : w.Sound) : w'.Sound := hrun.run.sound hw

theorem Noted.kept {s : Site} (hmade : s.Made) (hrun : Noted notes { site := s } log w) :
    Kept log w := by
  induction hrun with
  | refl => exact kept_of_made hmade
  | step hrun hstep ih => exact ih.step (hrun.sound (sound_of_made hmade)) hstep

theorem Kept.history (h : Kept log w) : History log w := by
  refine ⟨h.states_eq, h.announced, h.running_eq, fun hlisteners => ?_, fun hlisteners => ?_,
    fun hring => (h.rings hring).2⟩
  · exact (h.orderly hlisteners).episodes
  · obtain ⟨episodes, -, hinitial⟩ := (h.orderly hlisteners).episodes
    exact (alternates_episodes episodes).beginning (hinitial.filterMap Entry.state?)

/-! ## Operations that fail -/

/-- Whoever publishes that a task runs has not failed, and will not. -/
theorem Watch.caller (h : Watch w w' event log') {state : ReceptionState}
    (hmem : .published (.act id) state ∈ log') :
    ∃ o o', w.site.operation? id = some o ∧ o.failure = none ∧
      w'.site.operation? id = some o' ∧ o'.failure = none ∧
      ∀ action ∈ o'.todo, action.isSafe = true := by
  cases h with
  | quiet | joined | exited => cases hmem
  | spawned _ _ _ _ hfind hfailure hfind' hfailure' hsafe =>
    rcases List.mem_cons.mp hmem with heq | hrest
    · cases heq
      exact ⟨_, _, hfind, hfailure, hfind', hfailure', hsafe⟩
    · cases List.mem_singleton.mp hrest
  | turned =>
    rcases List.mem_cons.mp hmem with heq | hrest
    · cases heq
    · obtain ⟨outcome, -, heq⟩ := List.mem_map.mp hrest
      cases heq
  | finished => cases List.mem_singleton.mp hmem

/-- An operation that has published does not fail. -/
theorem Noted.caller {s : Site} (hmade : s.Made) (hrun : Noted notes { site := s } log w)
    {state : ReceptionState} (hmem : .published (.act id) state ∈ log) :
    id < w.site.bus.next ∧ ∀ o, w.site.operation? id = some o →
      o.failure = none ∧ ∀ action ∈ o.todo, action.isSafe = true := by
  induction hrun with
  | refl => cases hmem
  | step hrun hstep ih =>
    have hw := hrun.sound (sound_of_made hmade)
    rcases List.mem_append.mp hmem with hold | hnew
    · obtain ⟨hlt, hsafe⟩ := ih hold
      refine ⟨Nat.lt_of_lt_of_le hlt (hstep.next_le hw), ?_⟩
      apply hstep.operation_keeps hw _ hlt hsafe
      rintro s s' o o' action rest ⟨hfailure, hsafe⟩ htodo hperform
      rw [htodo] at hsafe
      obtain ⟨hfailure', htodo'⟩ :=
        Operation.perform_safe (hsafe action List.mem_cons_self) hperform
      rw [hfailure', htodo']
      exact ⟨hfailure, fun other hother => hsafe other (List.mem_cons_of_mem _ hother)⟩
    · obtain ⟨o, o', hfind, -, hfind', hfailure', hsafe⟩ := (hstep.watch hw).caller hnew
      obtain ⟨ho, hid⟩ := Site.operation?_mem hfind
      have hlt := hid ▸ (hw.numbered o ho).1
      refine ⟨Nat.lt_of_lt_of_le hlt (hstep.next_le hw), ?_⟩
      intro other hother
      cases hfind'.symm.trans hother
      exact ⟨hfailure', hsafe⟩

/-- An operation that has failed publishes nothing from then on. -/
theorem Noted.failed (hrun : Noted notes w log w') (hw : w.Sound) (hlt : id < w.site.bus.next)
    (hfailed : ∀ o, w.site.operation? id = some o → o.failure.isSome = true) :
    (∀ state, .published (.act id) state ∉ log) ∧ id < w'.site.bus.next ∧
      ∀ o, w'.site.operation? id = some o → o.failure.isSome = true := by
  induction hrun with
  | refl => exact ⟨fun _ => List.not_mem_nil, hlt, hfailed⟩
  | step hrun hstep ih =>
    have hw' := hrun.sound hw
    obtain ⟨hnever, hlt', hfailed'⟩ := ih
    refine ⟨?_, Nat.lt_of_lt_of_le hlt' (hstep.next_le hw'), ?_⟩
    · intro state hmem
      rcases List.mem_append.mp hmem with hold | hnew
      · exact hnever state hold
      · obtain ⟨o, -, hfind, hfailure, -⟩ := (hstep.watch hw').caller hnew
        have hsome := hfailed' o hfind
        rw [hfailure] at hsome
        cases hsome
    · apply hstep.operation_keeps hw' _ hlt' hfailed'
      intro s s' o o' action rest hsome _ hperform
      have hsome' : ({ o with todo := rest } : Operation).failure.isSome = true := hsome
      exact Operation.perform_failed hsome' hperform

/-- What is published on any transport is that the bus was never connected and then, in turn, that a
task runs and how it ended: each task is announced by the operation that starts it, before its loop,
and publishes its end itself, before the next is announced. An operation that fails has published
nothing and publishes nothing. A ring never publishes a failure. -/
theorem history_of_run {transport : Transport} {channel : String} {c : BusConfig}
    {m m' : Medium} {b : Bus} (hfresh : m.kernel.Fresh)
    (hmake : (Bus.make transport channel c).run m = (.ok b, m')) :
    (∀ log w, Noted notes { site := ⟨b, m'⟩ } log w → History log w) ∧
    ∀ log u log' w, Noted notes { site := ⟨b, m'⟩ } log u → Noted notes u log' w →
      ∀ o ∈ u.site.bus.operations, o.failure.isSome = true →
        ∀ state, .published (.act o.id) state ∉ log ++ log' := by
  obtain ⟨-, hmade⟩ := Bus.made_of_make hfresh hmake
  refine ⟨fun log w hrun => (hrun.kept hmade).history, ?_⟩
  intro log u log' w hbefore hafter o ho hfailed state hmem
  have hu := hbefore.sound (sound_of_made hmade)
  obtain ⟨hlt, hfind⟩ := hu.numbered o ho
  rcases List.mem_append.mp hmem with hold | hnew
  · obtain ⟨hfailure, -⟩ := (hbefore.caller hmade hold).2 o hfind
    rw [hfailure] at hfailed
    cases hfailed
  · have hstays : ∀ other, u.site.operation? o.id = some other → other.failure.isSome = true := by
      intro other hother
      cases hfind.symm.trans hother
      exact hfailed
    exact (hafter.failed hu hlt hstays).1 state hnew

/-- A connect whose socket cannot be bound. -/
def refusedConnect : List Event := [.start .connect, .act 0, .act 0]

/-- It ends, and another one starts a task, which finds that the device is gone. -/
def failedTask : List Event :=
  List.replicate 3 (.act 0) ++ calling 1 .connect ++ List.replicate 4 (.run 2)

theorem history_of_failures : ∃ b m',
    (Bus.make .blocking "can0" {}).run
      { kernel := { faults := [("bind can", .noDevice)], greeting := [.failure .noDevice] } } =
        (.ok b, m') ∧
    (let u := replay ⟨b, m'⟩ refusedConnect
     let w := failedTask.foldl after u
     let log := taken notes { site := ⟨b, m'⟩ } refusedConnect ++ taken notes u failedTask
     u.site.bus.operations.map (fun o => (o.id, o.failure.isSome)) = [(0, true)] ∧
      log.filterMap Entry.state? = [.running, .failed (Error.text (.io (.os .noDevice)))] ∧
      w.site.bus.reception.deliveries = [] ∧
      (∀ state, .published (.act 0) state ∉ log) ∧ History log w) := by
  obtain ⟨m, b, m', hm, hfresh, hmake, hfailed, hstates, hdeliveries⟩ :
      ∃ (m : Medium) (b : Bus) (m' : Medium),
        m = { kernel := { faults := [("bind can", .noDevice)],
                          greeting := [.failure .noDevice] } } ∧ m.kernel.Fresh ∧
        (Bus.make .blocking "can0" {}).run m = (.ok b, m') ∧
        (let u := replay ⟨b, m'⟩ refusedConnect
         let w := failedTask.foldl after u
         let log := taken notes { site := ⟨b, m'⟩ } refusedConnect ++ taken notes u failedTask
         u.site.bus.operations.map (fun o => (o.id, o.failure.isSome)) = [(0, true)] ∧
          log.filterMap Entry.state? = [.running, .failed (Error.text (.io (.os .noDevice)))] ∧
          w.site.bus.reception.deliveries = []) :=
    ⟨_, _, _, rfl, fun _ _ => rfl, rfl, by decide +kernel, by decide +kernel, by decide +kernel⟩
  have hbefore := noted_taken notes { site := ⟨b, m'⟩ } refusedConnect
  have hafter := noted_taken notes (replay ⟨b, m'⟩ refusedConnect) failedTask
  obtain ⟨hhistory, hnever⟩ := history_of_run hfresh hmake
  obtain ⟨o, ho, htold⟩ := List.mem_map.mp (hfailed ▸ List.mem_singleton_self (0, true))
  rw [Prod.mk.injEq] at htold
  refine ⟨b, m', hm ▸ hmake, hfailed, hstates, hdeliveries, ?_, ?_⟩
  · rw [← htold.1]
    exact hnever _ _ _ _ hbefore hafter o ho htold.2
  · exact hhistory _ _ (hbefore.append hafter)

end Life

end CanTransport
