import CanTransport.Proofs.Bus.Waiting
import CanTransport.Proofs.Probe.Courier
/-!
# Errands come to an end

A courier waits for nothing but a task that has been told to stop, and that task exits if it is
allowed to act. So an errand ends whatever else happens meanwhile, if only the courier and the task
move again and again.
-/

namespace CanTransport.Probe.Courier

variable {s : Site} {d d' d'' : Courier} {e : Errand} {o : Operation} {mover : Mover}
  {allowed : Mover → Prop} {id : OperationId} {request : Request}
  {next : Except Error Unit → Errand} {task : ReceiverId} {r : Receiver} {w w' : Life}

/-- The errand of a courier comes to its end: there is always somebody who can move and with whose
next move the end is nearer, whatever the others do before. -/
inductive Ends : Courier → Prop where
  | ended {d : Courier} {result : Result} (hplace : d.place = .between (.ended result)) : Ends d
  | turn {d : Courier} (mover : Mover)
      (hmoves : ∀ d', Run (· ≠ mover) d d' → ∃ d'', Step d' mover d'')
      (hthen : ∀ d' d'', Run (· ≠ mover) d d' → Step d' mover d'' → Ends d'') : Ends d

theorem Reachable.run (h : Reachable s e d) (hrun : Run allowed d d') : Reachable s e d' := by
  induction hrun with
  | refl => exact h
  | step _ _ hstep ih => exact ih.step hstep

/-! ## What is known of a courier whose calls are considerate -/

theorem Reachable.underway (h : Reachable s e d) (hmade : s.Made)
    (hplace : d.place = .calling id request next) :
    ∃ o, d.life.site.bus.operations = [o] ∧ o.id = id := by
  obtain ⟨log, hkept⟩ := h.exists_kept hmade
  cases hkept.underway with
  | between hother => cases hplace.symm.trans hother
  | calling hcalling hoperations hid =>
    cases hplace.symm.trans hcalling
    exact ⟨_, hoperations, hid⟩

theorem Reachable.considerate (h : Reachable s e d) (hmade : s.Made)
    (hbegin : Life.Considerate { site := s }) : d.life.Considerate := by
  induction h with
  | refl => exact hbegin
  | @step d d' mover hrun _ hstep ih =>
    have hreach : Reachable s e d := hrun
    cases hstep with
    | calls => exact ih.start _
    | acts hplace | returns hplace =>
      obtain ⟨o, hone, hid⟩ := hreach.underway hmade hplace
      exact ih.act hone hid
    | pauses => exact ih
    | task id => exact ih.run id
    | others hstep => exact ih.outside hstep

/-! ## While the courier does not move -/

/-- What the others do leaves the call what it is, and a task that has exited stays so. -/
theorem Run.beside (hrun : Run (· ≠ .courier) d d') (hw : d.life.Sound) :
    d'.place = d.place ∧ d'.life.site.bus.operations = d.life.site.bus.operations ∧
      d'.life.Sound ∧ ∀ o : Operation, o.Awaits d'.life.site.bus → o.Awaits d.life.site.bus := by
  induction hrun with
  | refl => exact ⟨rfl, rfl, hw, fun _ h => h⟩
  | step _ hallowed hstep ih =>
    obtain ⟨hplace, hoperations, hsound, hawaits⟩ := ih
    cases hstep with
    | calls | acts | returns | pauses => exact absurd rfl hallowed
    | task task =>
      have hsame := (Site.aside_run hsound.stocked hsound.held task).2.1
      exact ⟨hplace, hsame.trans hoperations, hsound.run task,
        fun o h => hawaits o (Life.awaits_of_run hsound h)⟩
    | others hstep =>
      have hsound' := hstep.sound hsound
      cases hstep with
      | outside => exact ⟨hplace, hoperations, hsound', hawaits⟩

/-! ## While a task does not move that is waited for -/

/-- A call that waits for a task that has not exited. -/
structure WaitsFor (task : ReceiverId) (w : Life) (o : Operation) (r : Receiver) : Prop where
  operations_eq : w.site.bus.operations = [o]
  todo : o.todo.head? = some .join
  receiver_eq : o.receiver = some task
  find : w.site.bus.receiver? task = some r
  live : r.hasExited = false

theorem WaitsFor.awaits (h : WaitsFor task w o r) : o.Awaits w.site.bus :=
  ⟨r, by rw [h.receiver_eq]; exact h.find, h.live⟩

/-- While others act, the task that is waited for stays where it is. -/
theorem WaitsFor.step (h : WaitsFor task w o r) (hw : w.Steady) {event : Life.Event}
    (hstep : Life.Step event w w') (hne : event ≠ .run task)
    (hone : w'.site.bus.operations = [o]) : ∃ r', WaitsFor task w' o r' ∧ r'.stage = r.stage ∧
      (r.stage.loops = true → r'.portion w'.site = r.portion w.site) := by
  obtain ⟨r', hfind, hstands⟩ := hstep.stands hne h.find h.live
  refine ⟨r', ⟨hone, h.todo, h.receiver_eq, hfind, ?_⟩, hstands.stage_eq,
    fun hloops => hw.portion_stands h.find hloops hstands⟩
  rw [hstands.task_eq]
  exact h.live

/-- What the others do leaves the call and the task where they are. -/
theorem Run.waiting (hrun : Run (· ≠ .task task) d d') (hreach : Reachable s e d)
    (hmade : s.Made) (hbegin : Life.Considerate { site := s })
    (hplace : d.place = .calling id request next) (h : WaitsFor task d.life o r) :
    d'.place = d.place ∧ ∃ r', WaitsFor task d'.life o r' ∧ r'.stage = r.stage ∧
      (r.stage.loops = true → r'.portion d'.life.site = r.portion d.life.site) := by
  induction hrun with
  | refl => exact ⟨rfl, r, h, rfl, fun _ => rfl⟩
  | @step d' d'' mover hrun hallowed hstep ih =>
    obtain ⟨hsame, r', h', hstage, hportion⟩ := ih
    have hreach' := hreach.run hrun
    have hsteady := (hreach'.considerate hmade hbegin).steady
    have hw := hsteady.sound
    have hplace' : d'.place = .calling id request next := hsame.trans hplace
    obtain ⟨o', hone, hid⟩ := hreach'.underway hmade hplace'
    obtain rfl : o = o' := List.singleton_inj.mp (h'.operations_eq.symm.trans hone)
    have hwaits := (hw.waits_iff hone hid).mpr ⟨h'.todo, h'.awaits⟩
    have haside : ∀ {event : Life.Event} {w : Life}, Life.Step event d'.life w →
        event ≠ .run task → w.site.bus.operations = [o] → ∃ r'', WaitsFor task w o r'' ∧
          r''.stage = r.stage ∧
          (r.stage.loops = true → r''.portion w.site = r.portion d.life.site) := by
      intro event w hstep hne hone
      obtain ⟨r'', h'', hstage', hportion'⟩ := h'.step hsteady hstep hne hone
      exact ⟨r'', h'', hstage'.trans hstage,
        fun hloops => (hportion' (hstage ▸ hloops)).trans (hportion hloops)⟩
    cases hstep with
    | calls hother => cases hplace'.symm.trans hother
    | pauses hother => cases hplace'.symm.trans hother
    | returns hother hends =>
      cases hplace'.symm.trans hother
      cases hwaits.symm.trans hends
    | acts hother =>
      cases hplace'.symm.trans hother
      have hact := Life.act_of_waits (Life.operation?_single hone hid) hwaits
      exact ⟨hsame, haside (.act id) nofun (hact.symm ▸ hone)⟩
    | task other =>
      have hne : (Life.Event.run other) ≠ .run task := by
        rintro heq
        cases heq
        exact hallowed rfl
      exact ⟨hsame, haside (.run other) hne
        ((Site.aside_run hw.stocked hw.held other).2.1.trans hone)⟩
    | others hstep =>
      refine ⟨hsame, haside hstep nofun ?_⟩
      cases hstep with
      | outside => exact hone

/-! ## The end of a call -/

section

variable (hmade : s.Made) (hbegin : Life.Considerate { site := s })

/-- What is under way ends with the errand behind it, if every call with less to do does. -/
def EndsBelow (s : Site) (e : Errand) (id : OperationId) (request : Request)
    (next : Except Error Unit → Errand) (n : Nat) : Prop :=
  ∀ d o, Reachable s e d → d.place = .calling id request next →
    d.life.site.bus.operations = [o] → o.labor < n → Ends d

include hmade hbegin

/-- The next action of a call that does not wait. -/
theorem ends_of_goes {n : Nat} (hbelow : EndsBelow s e id request next n)
    (hthen : ∀ outcome d, Reachable s e d → d.place = .between (next outcome) → Ends d)
    (hreach : Reachable s e d) (hplace : d.place = .calling id request next)
    (hone : d.life.site.bus.operations = [o]) (hlabor : o.labor ≤ n)
    (hgoes : ¬ (o.todo.head? = some .join ∧ o.Awaits d.life.site.bus)) : Ends d := by
  have hw := (hreach.considerate hmade hbegin).steady.sound
  have hlater : ∀ d', Run (· ≠ .courier) d d' → Reachable s e d' ∧
      d'.place = .calling id request next ∧ d'.life.site.bus.operations = [o] ∧ o.id = id ∧
      (d'.life.site.advance id).1 ≠ .waits := by
    intro d' hrun
    obtain ⟨hsame, hoperations, hw', hawaits⟩ := hrun.beside hw
    have hreach' := hreach.run hrun
    have hplace' := hsame.trans hplace
    have hone' := hoperations.trans hone
    obtain ⟨o', hone'', hid⟩ := hreach'.underway hmade hplace'
    obtain rfl : o = o' := List.singleton_inj.mp (hone'.symm.trans hone'')
    exact ⟨hreach', hplace', hone', hid, fun hwaits =>
      hgoes (((hw'.waits_iff hone' hid).mp hwaits).imp_right (hawaits o))⟩
  refine .turn .courier (fun d' hrun => ?_) fun d' d'' hrun hstep => ?_
  · obtain ⟨-, hplace', -⟩ := hlater d' hrun
    by_cases hends : ∃ outcome, (d'.life.site.advance id).1 = .ends outcome
    · obtain ⟨outcome, hends⟩ := hends
      exact ⟨_, .returns hplace' hends⟩
    · exact ⟨_, .acts hplace' fun outcome heq => hends ⟨outcome, heq⟩⟩
  · obtain ⟨hreach', hplace', hone', hid, hnot⟩ := hlater d' hrun
    cases hstep with
    | calls hother => cases hplace'.symm.trans hother
    | pauses hother => cases hplace'.symm.trans hother
    | returns hother hends =>
      cases hplace'.symm.trans hother
      exact hthen _ _ (hreach'.step (.returns hplace' hends)) rfl
    | acts hother hgoes =>
      cases hplace'.symm.trans hother
      have hnext := hreach'.step (.acts hplace' hgoes)
      rcases Life.act_single hone' hid hgoes with ⟨hwaits, -⟩ |
        ⟨action, rest, s', o', htodo, hperform, -, hone'', -⟩
      · exact absurd hwaits hnot
      · exact hbelow _ o' hnext hplace' hone''
          (Nat.lt_of_lt_of_le (Operation.labor_perform htodo hperform) hlabor)

/-- The task that a call waits for exits, and then the call goes on. -/
theorem ends_of_waits {n k : Nat} (hbelow : EndsBelow s e id request next n)
    (hthen : ∀ outcome d, Reachable s e d → d.place = .between (next outcome) → Ends d)
    (hreach : Reachable s e d) (hplace : d.place = .calling id request next)
    (hlabor : o.labor ≤ n) (hwaits : WaitsFor task d.life o r)
    (hremains : r.stage.remains (r.portion d.life.site) < k) : Ends d := by
  induction k generalizing d r with
  | zero => exact absurd hremains (Nat.not_lt_zero _)
  | succ k ih =>
    refine .turn (.task task) (fun d' _ => ⟨_, .task task⟩) fun d' d'' hrun hstep => ?_
    obtain ⟨hsame, r', hwaits', hstage, hportion⟩ :=
      hrun.waiting hreach hmade hbegin hplace hwaits
    have hreach' := hreach.run hrun
    have hplace' := hsame.trans hplace
    obtain ⟨hsteady, -, hwarns⟩ := hreach'.considerate hmade hbegin
    cases hstep
    have hnext := hreach'.step (.task task)
    have hone : (d'.life.run task).site.bus.operations = [o] :=
      (Site.aside_run hsteady.sound.stocked hsteady.sound.held task).2.1.trans hwaits'.operations_eq
    have hfind := hwaits'.find
    have hfind' : (d'.life.run task).site.bus.receiver? task = some (r'.step d'.life.site).2 :=
      Site.receiver?_run hfind
    have hdismissed : r'.Dismissed d'.life.site :=
      (hwarns o (hwaits'.operations_eq ▸ List.mem_singleton_self o)).dismissed hwaits'.todo r'
        (by rw [hwaits'.receiver_eq]; exact hfind)
    have hless := Receiver.remains_step hdismissed hwaits'.live
      (hsteady.fits (Bus.receiver?_mem hfind).1)
    have hbefore : r'.stage.remains (r'.portion d'.life.site) =
        r.stage.remains (r.portion d.life.site) := by
      rw [hstage]
      exact Stage.remains_congr hportion
    have hafter : (r'.step d'.life.site).2.stage.remains
        ((r'.step d'.life.site).2.portion (d'.life.run task).site) =
          (r'.step d'.life.site).2.stage.remains (r'.portion d'.life.site) :=
      Stage.remains_congr (hsteady.portion_run hfind)
    cases hlive : (r'.step d'.life.site).2.hasExited with
    | false =>
      have hlower : (r'.step d'.life.site).2.stage.remains
          ((r'.step d'.life.site).2.portion (d'.life.run task).site) < k := by omega
      exact ih hnext hplace' ⟨hone, hwaits'.todo, hwaits'.receiver_eq, hfind', hlive⟩ hlower
    | true =>
      refine ends_of_goes hmade hbegin hbelow hthen hnext hplace' hone hlabor ?_
      rintro ⟨-, t, ht, hexited⟩
      rw [hwaits'.receiver_eq] at ht
      cases hfind'.symm.trans ht
      rw [hlive] at hexited
      cases hexited

/-- Every call ends. -/
theorem endsBelow (hthen : ∀ outcome d, Reachable s e d → d.place = .between (next outcome) →
    Ends d) (n : Nat) : EndsBelow s e id request next n := by
  induction n with
  | zero => exact fun _ _ _ _ _ hlabor => absurd hlabor (Nat.not_lt_zero _)
  | succ n ih =>
    intro d o hreach hplace hone hlabor
    have hlabor := Nat.le_of_lt_succ hlabor
    by_cases hgoes : o.todo.head? = some .join ∧ o.Awaits d.life.site.bus
    · obtain ⟨htodo, r, hr, hlive⟩ := hgoes
      obtain ⟨task, htask, hfind⟩ := Option.bind_eq_some_iff.mp hr
      exact ends_of_waits hmade hbegin ih hthen hreach hplace hlabor
        ⟨hone, htodo, htask, hfind, hlive⟩ (Nat.lt_succ_self _)
    · exact ends_of_goes hmade hbegin ih hthen hreach hplace hone hlabor hgoes

/-- A call that is under way ends with the errand behind it. -/
theorem ends_of_calling (hthen : ∀ outcome d, Reachable s e d →
    d.place = .between (next outcome) → Ends d) (hreach : Reachable s e d)
    (hplace : d.place = .calling id request next) : Ends d := by
  obtain ⟨o, hone, -⟩ := hreach.underway hmade hplace
  exact endsBelow hmade hbegin hthen (o.labor + 1) d o hreach hplace hone (Nat.lt_succ_self _)

/-- The rest of an errand comes to its end if no number becomes too large in it. -/
theorem ends_of_between (hsmall : ∀ d, Reachable s e d → d.place ≠ .between .overflow)
    (e' : Errand) : ∀ d, Reachable s e d → d.place = .between e' → Ends d := by
  induction e' with
  | ended result => exact fun d _ hplace => .ended hplace
  | overflow => exact fun d hreach hplace => absurd hplace (hsmall d hreach)
  | call request next ih =>
    intro d hreach hplace
    have hw := (hreach.considerate hmade hbegin).steady.sound
    refine .turn .courier (fun d' hrun => ?_) fun d' d'' hrun hstep => ?_
    · exact ⟨_, .calls ((hrun.beside hw).1.trans hplace)⟩
    · have hplace' := (hrun.beside hw).1.trans hplace
      cases hstep with
      | calls hother =>
        cases hplace'.symm.trans hother
        exact ends_of_calling hmade hbegin ih ((hreach.run hrun).step (.calls hplace')) rfl
      | acts hother | returns hother | pauses hother => cases hplace'.symm.trans hother
  | pause ms next ih =>
    intro d hreach hplace
    have hw := (hreach.considerate hmade hbegin).steady.sound
    refine .turn .courier (fun d' hrun => ?_) fun d' d'' hrun hstep => ?_
    · exact ⟨_, .pauses ((hrun.beside hw).1.trans hplace)⟩
    · have hplace' := (hrun.beside hw).1.trans hplace
      cases hstep with
      | pauses hother =>
        cases hplace'.symm.trans hother
        exact ih _ ((hreach.run hrun).step (.pauses hplace')) rfl
      | acts hother | returns hother | calls hother => cases hplace'.symm.trans hother

/-- From wherever it is, an errand comes to its end if no number becomes too large in it. -/
theorem Reachable.ends (hreach : Reachable s e d)
    (hsmall : ∀ d, Reachable s e d → d.place ≠ .between .overflow) : Ends d := by
  cases hplace : d.place with
  | between e' => exact ends_of_between hmade hbegin hsmall e' d hreach hplace
  | calling id request next =>
    exact ends_of_calling hmade hbegin
      (fun outcome => ends_of_between hmade hbegin hsmall (next outcome)) hreach hplace

end

end CanTransport.Probe.Courier
