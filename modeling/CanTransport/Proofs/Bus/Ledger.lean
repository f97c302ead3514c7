import CanTransport.Proofs.Bus.Sends
import CanTransport.Proofs.Bus.Supplies
/-!
# The books of a ring

What is noted of the tasks of a bus with a ring, whatever happens to it: each slot that a task
consumes, what the kernel answers when it is asked how many packets were lost, and how many slots a
sweep had at its end. The counters of the bus are the sums of these notes, and the notes of each
task are whole sweeps, and perhaps some slots of one more.
-/

namespace CanTransport

namespace Ledger

/-- Whatever happens to a bus: a task performs one action, a caller begins an operation or performs
an action of one or replaces the listener, the bus is dropped, or something else happens to what
buses share. -/
inductive Event where
  | run (task : ReceiverId)
  | start (request : Request)
  | act (id : OperationId)
  | subscribe (listener : Listener)
  | drop
  | outside (medium : Medium)

/-- What an event makes of a bus. -/
def after (s : Site) : Event → Site
  | .run task => s.run task
  | .start request => (s.start request).2
  | .act id => (s.advance id).2
  | .subscribe listener => s.onReception (Reception.subscribe listener)
  | .drop => s.drop
  | .outside medium => { s with medium := medium }

/-- Others may do anything, also with the memory of a ring, but no number of a socket is given
twice. -/
def Event.Possible (s : Site) : Event → Prop
  | .outside medium => Kernel.Spares (fun _ => False) s.medium.kernel medium.kernel
  | _ => True

inductive Entry where
  /-- A task consumed a slot. -/
  | consumed (task : ReceiverId) (slot : Consumed)
  /-- The kernel answered a task how many packets were lost. -/
  | asked (task : ReceiverId) (answer : Except Errno Nat)
  /-- A sweep of a task came to its end, and had counted its slots. -/
  | swept (task : ReceiverId) (slots : Nat)
deriving DecidableEq

namespace Entry

def task : Entry → ReceiverId
  | .consumed task _ | .asked task _ | .swept task _ => task

def slot? : Entry → Option Consumed
  | .consumed _ slot => some slot
  | _ => none

def answer? : Entry → Option (Except Errno Nat)
  | .asked _ answer => some answer
  | _ => none

end Entry

/-- What is noted of an event. -/
def notes (s : Site) : Event → List Entry
  | .run task =>
    match s.bus.receiver? task with
    | none => []
    | some r =>
      (r.consumption? s).toList.map (.consumed task) ++
        (s.medium.kernel.answers (s.run task).medium.kernel).map (.asked task) ++
        r.stage.ended?.toList.map (.swept task)
  | _ => []

/-- Events, one after the other, and what is noted of them. -/
inductive Run (s : Site) : List Entry → Site → Prop where
  | refl : Run s [] s
  | step {log : List Entry} {s' : Site} {event : Event} (hrun : Run s log s')
      (hpossible : event.Possible s') : Run s (log ++ notes s' event) (after s' event)

/-- The slots that were consumed, in order. -/
def slots (log : List Entry) : List Consumed := log.filterMap Entry.slot?

/-- The answers of the kernel, in order. -/
def answers (log : List Entry) : List (Except Errno Nat) := log.filterMap Entry.answer?

/-- How many slots had a fate. -/
def count (log : List Entry) (fate : Fate) : Nat := (slots log).countP fun c => c.fate = fate

/-- How many slots were counted as drops. -/
def drops (log : List Entry) : Nat :=
  count log .misplaced + count log .unsupported + count log .malformed

/-- A sweep: its slots, and what was answered behind it. -/
structure Pass where
  slots : List Consumed
  answers : List (Except Errno Nat)

/-- What is noted of a sweep. It has counted the slots that it consumed. -/
def Pass.entries (task : ReceiverId) (p : Pass) : List Entry :=
  p.slots.map (.consumed task) ++ p.answers.map (.asked task) ++ [.swept task p.slots.length]

/-- The notes of one task are whole sweeps and the slots of one more. The kernel is asked once
behind a sweep in which a slot said that packets were lost, and not behind any other. The last sweep
is under way, unless a listener did not return from it. -/
structure Sweeps (log : List Entry) (s : Site) (task : ReceiverId) (passes : List Pass)
    (rest : List Consumed) : Prop where
  own_eq : log.filter (fun entry => entry.task = task) =
    passes.flatMap (Pass.entries task) ++ rest.map (.consumed task)
  asked : ∀ p ∈ passes, p.answers.length = if p.slots.any Consumed.losing then 1 else 0
  stage : ∀ stage, (task, stage) ∈ s.bus.stages →
    stage = .exited true ∨ stage.tally = (rest.length, rest.any Consumed.losing)
  rest : rest = [] ∨
    (∃ stage, (task, stage) ∈ s.bus.stages ∧
      stage.tally = (rest.length, rest.any Consumed.losing)) ∨
    ∃ d ∈ s.bus.reception.deliveries, d.returned = false

/-- What the notes add up to for a reception, from what it was before. -/
structure Sums (base : Reception) (log : List Entry) (r : Reception) : Prop where
  frames_eq : r.frames.map Except.ok = base.frames.map Except.ok ++
    ((slots log).filterMap Consumed.arrival?).map Frame.ofWire
  delivered_eq : r.deliveries.length = base.deliveries.length + count log .delivered
  received_eq : r.stats.received = base.stats.received + UInt64.ofNat (count log .delivered)
  dropped_eq : r.stats.dropped =
    base.stats.dropped + UInt64.ofNat (drops log + Kernel.losses (answers log))
  errors_eq : r.stats.errors = base.stats.errors

variable {log log' : List Entry} {s s' : Site} {base r r' : Reception} {task : ReceiverId}
  {c : Consumed} {passes : List Pass} {rest : List Consumed}

/-! ## Sums -/

theorem slots_append (log log' : List Entry) : slots (log ++ log') = slots log ++ slots log' :=
  List.filterMap_append

theorem answers_append (log log' : List Entry) :
    answers (log ++ log') = answers log ++ answers log' :=
  List.filterMap_append

theorem count_append (log log' : List Entry) (fate : Fate) :
    count (log ++ log') fate = count log fate + count log' fate := by
  rw [count, slots_append, List.countP_append]
  rfl

theorem losses_append (answers answers' : List (Except Errno Nat)) :
    Kernel.losses (answers ++ answers') = Kernel.losses answers + Kernel.losses answers' := by
  rw [Kernel.losses, List.filterMap_append, List.sum_append]
  rfl

/-- Every slot has one of the fates. -/
theorem length_slots (log : List Entry) : (slots log).length =
    count log .delivered + count log .outgoing + count log .echo + drops log := by
  unfold drops count
  induction slots log with
  | nil => rfl
  | cons c rest ih =>
    simp only [List.length_cons, List.countP_cons, ih]
    cases c.fate <;> simp <;> omega

theorem Sums.refl (base : Reception) : Sums base [] base :=
  ⟨(List.append_nil _).symm, rfl, (UInt64.add_zero _).symm, (UInt64.add_zero _).symm, rfl⟩

/-- Nothing is noted, and nothing changes that is counted. -/
theorem Sums.congr (h : Sums base log r) (hdeliveries : r'.deliveries = r.deliveries)
    (hstats : r'.stats = { r.stats with sent := r'.stats.sent }) : Sums base log r' := by
  refine ⟨?_, ?_, ?_, ?_, ?_⟩
  · rw [Reception.frames, hdeliveries]
    exact h.frames_eq
  · rw [hdeliveries]
    exact h.delivered_eq
  · rw [hstats]
    exact h.received_eq
  · rw [hstats]
    exact h.dropped_eq
  · rw [hstats]
    exact h.errors_eq

theorem count_consumed (task : ReceiverId) (c : Consumed) (fate : Fate) :
    count (log ++ [.consumed task c]) fate = count log fate + if c.fate = fate then 1 else 0 := by
  rw [count_append]
  simp [count, slots, Entry.slot?, List.countP_singleton]

theorem drops_consumed (task : ReceiverId) (c : Consumed) :
    drops (log ++ [.consumed task c]) = drops log + if c.fate.isDrop then 1 else 0 := by
  simp only [drops, count_consumed]
  cases c.fate <;> simp +arith [Fate.isDrop]

/-- One more in a counter. -/
theorem add_ofNat_succ (a : UInt64) (n : Nat) :
    a + UInt64.ofNat (n + 1) = a + UInt64.ofNat n + 1 := by
  rw [UInt64.ofNat_add, ← UInt64.add_assoc]
  rfl

/-- A slot is consumed. -/
theorem Sums.consumed (h : Sums base log r) (htakes : r.Takes c r') (task : ReceiverId) :
    Sums base (log ++ [.consumed task c]) r' := by
  have hslots : slots (log ++ [.consumed task c]) = slots log ++ [c] := slots_append _ _
  have hanswers : answers (log ++ [.consumed task c]) = answers log :=
    (answers_append _ _).trans (List.append_nil _)
  have hframes : base.frames.map Except.ok ++
      ((slots log ++ [c]).filterMap Consumed.arrival?).map Frame.ofWire =
      r.frames.map Except.ok ++ c.arrival?.toList.map Frame.ofWire := by
    rw [List.filterMap_append, List.map_append, h.frames_eq, List.append_assoc]
    cases harrival : c.arrival? <;> simp [harrival]
  cases htakes with
  | @delivered _ raw d hfate hrecord hframe hdeliveries hstats =>
    have harrival : c.arrival? = some raw := (if_pos hfate).trans hrecord
    refine ⟨?_, ?_, ?_, ?_, ?_⟩
    · rw [hslots, hframes, Reception.frames, hdeliveries, List.map_append, List.map_append,
        harrival]
      simp [Reception.frames, hframe]
    · rw [hdeliveries, List.length_append, count_consumed, h.delivered_eq, if_pos hfate]
      rfl
    · rw [hstats, count_consumed, if_pos hfate, add_ofNat_succ, ← h.received_eq]
      rfl
    · rw [hstats, drops_consumed, hanswers, hfate]
      exact h.dropped_eq
    · rw [hstats]
      exact h.errors_eq
  | skipped hfate =>
    have hne : c.fate ≠ .delivered := by rcases hfate with h | h <;> rw [h] <;> decide
    have hkept : c.fate.isDrop = false := by rcases hfate with h | h <;> rw [h] <;> rfl
    refine ⟨?_, ?_, ?_, ?_, h.errors_eq⟩
    · rw [hslots, hframes, Consumed.arrival?_of_ne hne]
      simp
    · rw [count_consumed, if_neg hne]
      exact h.delivered_eq
    · rw [count_consumed, if_neg hne]
      exact h.received_eq
    · rw [drops_consumed, hanswers, hkept]
      exact h.dropped_eq
  | dropped hfate hdeliveries hstats =>
    have hne : c.fate ≠ .delivered := by
      intro hdelivered
      rw [hdelivered] at hfate
      cases hfate
    refine ⟨?_, ?_, ?_, ?_, ?_⟩
    · rw [hslots, hframes, Reception.frames, hdeliveries, Consumed.arrival?_of_ne hne]
      simp [Reception.frames]
    · rw [hdeliveries, count_consumed, if_neg hne]
      exact h.delivered_eq
    · rw [hstats, count_consumed, if_neg hne]
      exact h.received_eq
    · rw [hstats, drops_consumed, hanswers, if_pos hfate, Nat.add_right_comm, add_ofNat_succ,
        ← h.dropped_eq]
      rfl
    · rw [hstats]
      exact h.errors_eq

/-- A sweep ends. -/
theorem Sums.swept (h : Sums base log r) (hdeliveries : r'.deliveries = r.deliveries)
    {new : List (Except Errno Nat)} {n : Nat}
    (hstats : r'.stats = r.stats.countDropped (Kernel.losses new)) :
    Sums base (log ++ (new.map (.asked task) ++ [.swept task n])) r' := by
  have hslots : slots (new.map (.asked task) ++ [.swept task n]) = [] := by
    simp [slots, Entry.slot?]
  have hanswers : answers (new.map (.asked task) ++ [.swept task n]) = new := by
    rw [answers_append]
    simp [answers, Entry.answer?, List.filterMap_map, Function.comp_def]
  have hcount : ∀ fate, count (log ++ (new.map (.asked task) ++ [.swept task n])) fate =
      count log fate := by
    intro fate
    rw [count_append, count, count, hslots]
    rfl
  refine ⟨?_, ?_, ?_, ?_, ?_⟩
  · rw [slots_append, hslots, List.append_nil, Reception.frames, hdeliveries]
    exact h.frames_eq
  · rw [hdeliveries, hcount]
    exact h.delivered_eq
  · rw [hstats, hcount]
    exact h.received_eq
  · have hdrops : drops (log ++ (new.map (.asked task) ++ [.swept task n])) = drops log := by
      simp only [drops, hcount]
    rw [hstats, hdrops, answers_append, hanswers, losses_append, ← Nat.add_assoc,
      UInt64.ofNat_add, ← UInt64.add_assoc, ← h.dropped_eq]
    rfl
  · rw [hstats]
    exact h.errors_eq

/-! ## Events -/

/-- What is left alone by all but the tasks. -/
structure Apart (s s' : Site) : Prop where
  crew : s.bus.Crew s'.bus
  deliveries_eq : s'.bus.reception.deliveries = s.bus.reception.deliveries
  stats_eq : s'.bus.reception.stats =
    { s.bus.reception.stats with sent := s'.bus.reception.stats.sent }
  enabled_eq : s'.bus.echoes.enabled = s.bus.echoes.enabled
  next_le : s.bus.next ≤ s'.bus.next

theorem Apart.refl (s : Site) : Apart s s := ⟨.same rfl, rfl, rfl, rfl, Nat.le_refl _⟩

theorem Apart.collect (h : Apart s s') : Apart s s'.collect := by
  have hstages : s'.collect.bus.stages = s'.bus.stages := by
    rw [Site.collect_bus]
    rfl
  refine ⟨?_, ?_, ?_, ?_, ?_⟩
  · cases h.crew with
    | same hsame => exact .same (hstages.trans hsame)
    | joined hmem hgone => exact .joined hmem (hstages.trans hgone)
    | spawned hnew hnext =>
      refine .spawned (hstages.trans hnew) ?_
      rw [Site.collect_bus]
      exact hnext
  · rw [Site.collect_bus]
    exact h.deliveries_eq
  · rw [Site.collect_bus]
    exact h.stats_eq
  · rw [Site.collect_bus]
    exact h.enabled_eq
  · rw [Site.collect_bus]
    exact h.next_le

theorem apart_advance (h : s.Supplied) (id : OperationId) : Apart s (s.advance id).2 := by
  rcases Site.advance_eq s id with heq | ⟨o, -, -, -, heq⟩ |
    ⟨o, -, action, rest, s', o', -, -, hperform, heq⟩
  · rw [heq]
    exact .refl s
  · have hfinished : Apart s (s.setBus { s.bus with
        operations := s.bus.operations.filter (·.id != o.id) }) :=
      ⟨.same rfl, rfl, rfl, rfl, Nat.le_refl _⟩
    rw [heq]
    exact hfinished.collect
  · have hkeeps := Operation.keeps_perform hperform
    have hacted : Apart s (s'.setBus (s'.bus.setOperation o')) := by
      refine ⟨?_, hkeeps.deliveries_eq, hkeeps.stats_eq,
        (Operation.framed_perform hperform).enabled_eq, hkeeps.next_le⟩
      cases Operation.crew_perform h.nodup hperform with
      | same hsame => exact .same hsame
      | joined hmem hgone => exact .joined hmem hgone
      | spawned hnew hnext => exact .spawned hnew hnext
    rw [heq]
    exact hacted.collect

/-- Only the tasks themselves do anything about the slots. -/
theorem apart_after {event : Event} (h : s.Supplied) (hrun : ∀ task, event ≠ .run task) :
    Apart s (after s event) := by
  cases event with
  | run task => exact absurd rfl (hrun task)
  | start request => exact ⟨.same rfl, rfl, rfl, rfl, Nat.le_succ _⟩
  | act id => exact apart_advance h id
  | subscribe listener => exact ⟨.same rfl, rfl, rfl, rfl, Nat.le_refl _⟩
  | drop =>
    have hletGo : Apart s (s.setBus { s.bus with
        alive := false, flag := false, idle := none, published := none, connection := none }) :=
      ⟨.same rfl, rfl, rfl, rfl, Nat.le_refl _⟩
    rw [after, Site.drop_eq h.transport_eq]
    exact hletGo.collect
  | outside medium => exact ⟨.same rfl, rfl, rfl, rfl, Nat.le_refl _⟩

theorem supplied_after {event : Event} (h : s.Supplied) (hpossible : event.Possible s) :
    (after s event).Supplied := by
  cases event with
  | run task => exact h.run task
  | start request => exact h.started request
  | act id => exact h.advanced id
  | subscribe listener =>
    exact h.fewer rfl rfl h.fresh (fun _ hkey => hkey) (fun _ ho => Or.inl ho) rfl (Nat.le_refl _)
  | drop => exact h.dropped
  | outside medium =>
    exact h.fewer rfl rfl (hpossible.fresh h.fresh) (fun _ hkey => hkey)
      (fun _ ho => Or.inl ho) rfl (Nat.le_refl _)

theorem notes_eq_nil {event : Event} (hrun : ∀ task, event ≠ .run task) : notes s event = [] := by
  cases event with
  | run task => exact absurd rfl (hrun task)
  | _ => rfl

/-! ## Sweeps -/

/-- A task is in one place. -/
theorem stage_unique (h : s.Supplied) {stage stage' : Stage} (hmem : (task, stage) ∈ s.bus.stages)
    (hmem' : (task, stage') ∈ s.bus.stages) : stage' = stage := by
  have hnodup := h.nodup
  rw [Bus.tasks_eq_stages] at hnodup
  exact congrArg Prod.snd (List.inj_on_of_nodup_map hnodup hmem' hmem rfl)

/-- A task about which nothing was noted has consumed nothing. -/
theorem Sweeps.rest_eq_nil (h : Sweeps log s task passes rest)
    (hnone : ∀ entry ∈ log, entry.task ≠ task) : rest = [] := by
  have hown := h.own_eq
  rw [List.filter_eq_nil_iff.mpr (by simpa using hnone)] at hown
  have hrest := (List.append_eq_nil_iff.mp hown.symm).2
  exact List.map_eq_nil_iff.mp hrest

/-- The other events leave every sweep as it is. -/
theorem Sweeps.apart (h : Sweeps log s task passes rest) (hsupplied : s.Supplied)
    (hnumbered : ∀ entry ∈ log, entry.task < s.bus.next) (hapart : Apart s s') :
    Sweeps log s' task passes rest := by
  have hstill : rest = [] ∨ (∃ stage, (task, stage) ∈ s'.bus.stages ∧
      stage.tally = (rest.length, rest.any Consumed.losing)) ∨
      ∃ d ∈ s'.bus.reception.deliveries, d.returned = false := by
    rcases h.rest with hnil | ⟨stage, hmem, htally⟩ | hdied
    · exact Or.inl hnil
    · cases hapart.crew with
      | same hsame => exact Or.inr (Or.inl ⟨stage, hsame ▸ hmem, htally⟩)
      | @joined joined died hgone hstages =>
        by_cases htask : task = joined
        · subst htask
          -- Whoever waited for the task found that it had exited, so not within a sweep.
          rw [stage_unique hsupplied hgone hmem] at htally
          exact Or.inl (List.length_eq_zero_iff.mp (congrArg Prod.fst htally).symm)
        · refine Or.inr (Or.inl ⟨stage, ?_, htally⟩)
          rw [hstages, List.mem_filter]
          exact ⟨hmem, by simpa using htask⟩
      | spawned hstages =>
        refine Or.inr (Or.inl ⟨stage, ?_, htally⟩)
        rw [hstages]
        exact List.mem_append_left _ hmem
    · exact Or.inr (Or.inr (hapart.deliveries_eq ▸ hdied))
  refine ⟨h.own_eq, h.asked, ?_, hstill⟩
  intro stage hmem
  cases hapart.crew with
  | same hsame => exact h.stage stage (hsame ▸ hmem)
  | joined _ hstages =>
    rw [hstages] at hmem
    exact h.stage stage (List.mem_filter.mp hmem).1
  | spawned hstages =>
    rw [hstages] at hmem
    rcases List.mem_append.mp hmem with hold | hnew
    · exact h.stage stage hold
    · cases List.mem_singleton.mp hnew
      refine Or.inr ?_
      rw [h.rest_eq_nil fun entry hentry => Nat.ne_of_lt (hnumbered entry hentry)]
      rfl

/-! ## Actions of a task -/

section Run

variable {t t' : Receiver}

/-- What happens to a bus when one of its tasks performs an action. -/
structure Ran (s : Site) (t : Receiver) (s' : Site) (t' : Receiver) : Prop where
  beat : Receiver.Beat s t s' t'
  mem : (t.id, t.stage) ∈ s.bus.stages
  stages_eq : s'.bus.stages =
    s.bus.stages.map fun place => if place.1 = t.id then (t.id, t'.stage) else place
  notes_eq : notes s (.run t.id) = (t.consumption? s).toList.map (.consumed t.id) ++
    (s.medium.kernel.answers s'.medium.kernel).map (.asked t.id) ++
    t.stage.ended?.toList.map (.swept t.id)
  exited : ∀ died, t.stage = .exited died → t'.stage = .exited died

theorem ran_run (h : s.Supplied) (hfind : s.bus.receiver? t.id = some t) :
    ∃ t', Ran s t (s.run t.id) t' := by
  have ht := (Bus.receiver?_mem hfind).1
  have hacts := Receiver.acts_step s t
  have hrun : s.run t.id =
      ((t.step s).1.setBus ((t.step s).1.bus.setReceiver (t.step s).2)).collect := by
    rcases Site.run_eq s t.id with ⟨hnone, -⟩ | ⟨other, hother, heq⟩
    · cases hnone.symm.trans hfind
    · cases hother.symm.trans hfind
      exact heq
  refine ⟨(t.step s).2, ?_, List.mem_map_of_mem ht, ?_, ?_, ?_⟩
  · refine (h.beat ht).congr ?_ ?_
    · rw [hrun, Site.inquiries_collect]
      rfl
    · rw [hrun, Site.collect_bus]
      rfl
  · have hstages : (t.step s).1.bus.stages = s.bus.stages := by
      rw [hacts.bus_eq]
      rfl
    rw [hrun, Site.collect_bus]
    show ((t.step s).1.bus.setReceiver (t.step s).2).stages = _
    rw [Bus.stages_setReceiver, hacts.id_eq, hstages]
  · simp only [notes, hfind]
  · intro died hstage
    rw [Receiver.step, hstage]
    exact hstage

theorem Ran.notes_task (h : Ran s t s' t') : ∀ entry ∈ notes s (.run t.id), entry.task = t.id := by
  intro entry hentry
  rw [h.notes_eq] at hentry
  simp only [List.mem_append, List.mem_map] at hentry
  rcases hentry with (⟨c, -, rfl⟩ | ⟨answer, -, rfl⟩) | ⟨slots, -, rfl⟩ <;> rfl

/-- Another task leaves the sweep of a task as it is. -/
theorem Sweeps.ran_other (h : Sweeps log s task passes rest) (hran : Ran s t s' t')
    (hne : t.id ≠ task) : Sweeps (log ++ notes s (.run t.id)) s' task passes rest := by
  have hmem : ∀ stage, (task, stage) ∈ s'.bus.stages ↔ (task, stage) ∈ s.bus.stages := by
    intro stage
    rw [hran.stages_eq, List.mem_map]
    constructor
    · rintro ⟨⟨id, place⟩, hplace, heq⟩
      simp only at heq
      split at heq
      · cases heq
        exact absurd rfl hne
      · cases heq
        exact hplace
    · intro hplace
      exact ⟨_, hplace, if_neg (Ne.symm hne)⟩
  refine ⟨?_, h.asked, ?_, ?_⟩
  · have hnone : (notes s (.run t.id)).filter (fun entry => entry.task = task) = [] := by
      rw [List.filter_eq_nil_iff]
      intro entry hentry
      rw [hran.notes_task entry hentry]
      simpa using hne
    rw [List.filter_append, hnone, List.append_nil]
    exact h.own_eq
  · exact fun stage hstage => h.stage stage ((hmem stage).mp hstage)
  · rcases h.rest with hnil | ⟨stage, hstage, htally⟩ | ⟨d, hd, hdied⟩
    · exact Or.inl hnil
    · exact Or.inr (Or.inl ⟨stage, (hmem stage).mpr hstage, htally⟩)
    · exact Or.inr (Or.inr ⟨d, hran.beat.deliveries_kept hd, hdied⟩)

/-- An action of a task is a part of its sweep, or the end of it. -/
theorem Sweeps.ran_own (h : Sweeps log s t.id passes rest) (hsupplied : s.Supplied)
    (hran : Ran s t s' t') : ∃ passes' rest',
      Sweeps (log ++ notes s (.run t.id)) s' t.id passes' rest' := by
  have hmem : (t.id, t'.stage) ∈ s'.bus.stages := by
    rw [hran.stages_eq]
    exact List.mem_map.mpr ⟨_, hran.mem, if_pos rfl⟩
  have hplace' : ∀ stage, (t.id, stage) ∈ s'.bus.stages → stage = t'.stage := by
    intro stage hstage
    rw [hran.stages_eq, List.mem_map] at hstage
    obtain ⟨⟨id, place⟩, hplace, heq⟩ := hstage
    simp only at heq
    split at heq
    · cases heq
      rfl
    · rename_i hid
      cases heq
      exact absurd rfl hid
  have hplace := h.stage _ hran.mem
  -- A task in its loop has not exited, so its place tells how far its sweep has come.
  have hloops : t.stage.loops = true → t.stage.tally = (rest.length, rest.any Consumed.losing) := by
    intro hgoing
    rcases hplace with hexited | htally
    · rw [hexited] at hgoing
      cases hgoing
    · exact htally
  have hown : (log ++ notes s (.run t.id)).filter (fun entry => entry.task = t.id) =
      passes.flatMap (Pass.entries t.id) ++ rest.map (.consumed t.id) ++
        notes s (.run t.id) := by
    rw [List.filter_append, h.own_eq, List.filter_eq_self.mpr]
    exact fun entry hentry => by simpa using hran.notes_task entry hentry
  rw [hran.notes_eq] at hown ⊢
  cases hran.beat with
  | moves hconsumption hended hanswers hdeliveries hstats htally hhandle =>
    rw [hconsumption, hended, hanswers] at hown ⊢
    refine ⟨passes, rest, hown.trans (List.append_nil _), h.asked, ?_, ?_⟩
    · intro stage hstage
      rw [hplace' stage hstage]
      exact hplace.imp (hran.exited true) htally.trans
    · rcases h.rest with hnil | ⟨stage, hstage, htally'⟩ | hdied
      · exact Or.inl hnil
      · rw [stage_unique hsupplied hran.mem hstage] at htally'
        exact Or.inr (Or.inl ⟨t'.stage, hmem, htally.trans htally'⟩)
      · exact Or.inr (Or.inr (hdeliveries ▸ hdied))
  | @consumes c hconsumption hended hanswers htakes hgoing hgoes =>
    rw [hconsumption, hended, hanswers] at hown ⊢
    have htally : t.stage.tally.1 + 1 = (rest ++ [c]).length ∧
        (t.stage.tally.2 || c.losing) = (rest ++ [c]).any Consumed.losing := by
      rw [hloops hgoing, List.length_append, List.any_append]
      simp
    refine ⟨passes, rest ++ [c], ?_, h.asked, ?_, Or.inr ?_⟩
    · rw [hown]
      simp
    · intro stage hstage
      rw [hplace' stage hstage, ← htally.1, ← htally.2]
      exact hgoes.symm.imp And.left And.right
    · rw [← htally.1, ← htally.2]
      exact hgoes.imp (fun hgo => ⟨t'.stage, hmem, hgo.2⟩) And.right
  | @ends slots losing hconsumption hended htally hlength hdeliveries hstats htally' hgoing =>
    rw [hconsumption, hended] at hown ⊢
    obtain ⟨hslots, hlosing⟩ := Prod.mk.inj (htally.symm.trans (hloops hgoing))
    refine ⟨passes ++ [⟨rest, s.medium.kernel.answers s'.medium.kernel⟩], [], ?_, ?_, ?_,
      Or.inl rfl⟩
    · rw [hown, hslots]
      simp [Pass.entries]
    · intro p hp
      rcases List.mem_append.mp hp with hold | hnew
      · exact h.asked p hold
      · rw [List.mem_singleton.mp hnew, hlength, hlosing]
    · intro stage hstage
      rw [hplace' stage hstage]
      exact Or.inr htally'

theorem Sums.ran (h : Sums base log s.bus.reception) (hran : Ran s t s' t') :
    Sums base (log ++ notes s (.run t.id)) s'.bus.reception := by
  rw [hran.notes_eq]
  cases hran.beat with
  | moves hconsumption hended hanswers hdeliveries hstats =>
    rw [hconsumption, hended, hanswers]
    show Sums base (log ++ []) _
    rw [List.append_nil]
    refine h.congr hdeliveries ?_
    rw [hstats]
  | consumes hconsumption hended hanswers htakes =>
    rw [hconsumption, hended, hanswers]
    exact h.consumed htakes t.id
  | ends hconsumption hended htally hlength hdeliveries hstats =>
    rw [hconsumption, hended]
    exact h.swept hdeliveries hstats

theorem Ran.slots_notes (h : Ran s t s' t') :
    slots (notes s (.run t.id)) = (t.consumption? s).toList := by
  rw [h.notes_eq]
  simp [slots, Entry.slot?, List.filterMap_map, Function.comp_def]

end Run

/-! ## Runs -/

/-- What holds of a bus and of all that was noted of its tasks since it was the first. -/
structure Kept (first : Bus) (log : List Entry) (s : Site) : Prop where
  supplied : s.Supplied
  enabled_eq : s.bus.echoes.enabled = first.echoes.enabled
  /-- The next task is a new one. -/
  numbered : ∀ entry ∈ log, entry.task < s.bus.next
  sums : Sums first.reception log s.bus.reception
  sweeps : ∀ task, ∃ passes rest, Sweeps log s task passes rest
  /-- Each slot had its fate from the echoes that were awaited then. -/
  judged : ∀ c ∈ slots log, ∃ e : Echoes,
    e.enabled = first.echoes.enabled ∧ c.fate = e.fate c.packet

variable {first : Bus}

theorem Kept.apart {event : Event} (h : Kept first log s) (hpossible : event.Possible s)
    (hrun : ∀ task, event ≠ .run task) :
    Kept first (log ++ notes s event) (after s event) := by
  have hapart := apart_after h.supplied hrun
  rw [notes_eq_nil hrun, List.append_nil]
  refine ⟨supplied_after h.supplied hpossible, hapart.enabled_eq.trans h.enabled_eq, ?_,
    h.sums.congr hapart.deliveries_eq hapart.stats_eq, ?_, h.judged⟩
  · exact fun entry hentry => Nat.lt_of_lt_of_le (h.numbered entry hentry) hapart.next_le
  · intro task
    obtain ⟨passes, rest, hsweeps⟩ := h.sweeps task
    exact ⟨passes, rest, hsweeps.apart h.supplied h.numbered hapart⟩

theorem Kept.run (h : Kept first log s) (task : ReceiverId) :
    Kept first (log ++ notes s (.run task)) (s.run task) := by
  cases hfind : s.bus.receiver? task with
  | none =>
    have hsame : s.run task = s := by simp only [Site.run, hfind]
    have hnone : notes s (.run task) = [] := by simp only [notes, hfind]
    rw [hsame, hnone, List.append_nil]
    exact h
  | some t =>
    obtain ⟨ht, rfl⟩ := Bus.receiver?_mem hfind
    obtain ⟨t', hran⟩ := ran_run h.supplied hfind
    obtain ⟨hbus, henabled, -⟩ := Site.run_kept h.supplied.transport_eq
      (fun r hr => Receiver.sweeps_of_rings (h.supplied.rings r hr)) t.id
    refine ⟨h.supplied.run t.id, henabled.trans h.enabled_eq, ?_, h.sums.ran hran, ?_, ?_⟩
    · intro entry hentry
      rw [hbus]
      rcases List.mem_append.mp hentry with hold | hnew
      · exact h.numbered entry hold
      · rw [hran.notes_task entry hnew]
        exact h.supplied.lt t.id (List.mem_map_of_mem ht)
    · intro other
      obtain ⟨passes, rest, hsweeps⟩ := h.sweeps other
      by_cases hother : t.id = other
      · subst hother
        exact hsweeps.ran_own h.supplied hran
      · exact ⟨passes, rest, hsweeps.ran_other hran hother⟩
    · intro c hc
      rw [slots_append, hran.slots_notes, List.mem_append, Option.mem_toList] at hc
      rcases hc with hold | hnew
      · exact h.judged c hold
      · exact ⟨s.bus.echoes, h.enabled_eq, Receiver.fate_consumption hnew⟩

/-- Whatever happens next. -/
theorem Kept.after {event : Event} (h : Kept first log s) (hpossible : event.Possible s) :
    Kept first (log ++ notes s event) (after s event) := by
  cases event with
  | run task => exact h.run task
  | start | act | subscribe | drop | outside => exact h.apart hpossible nofun

/-- By induction on what happens. -/
theorem Run.kept (hrun : Run s log s') (h : Kept first [] s) : Kept first log s' := by
  induction hrun with
  | refl => exact h
  | step _ hpossible ih => exact ih.after hpossible

/-- A bus that was just made has nothing noted of it. -/
theorem kept_of_make {channel : String} {c : BusConfig} {m m' : Medium} {b : Bus}
    (hfresh : m.kernel.Fresh) (h : (Bus.make .ring channel c).run m = (.ok b, m')) :
    Kept b [] ⟨b, m'⟩ := by
  have hsupplied := Bus.supplied_of_make hfresh h
  obtain ⟨-, resource, -, rfl⟩ := Bus.make_ring h
  refine ⟨hsupplied, rfl, ?_, .refl _, ?_, ?_⟩
  · exact fun entry hentry => absurd hentry List.not_mem_nil
  · refine fun task => ⟨[], [], rfl, ?_, ?_, Or.inl rfl⟩
    · exact fun p hp => absurd hp List.not_mem_nil
    · exact fun stage hstage => absurd hstage List.not_mem_nil
  · exact fun c hc => absurd hc List.not_mem_nil

end Ledger

end CanTransport
