import CanTransport.Probe.Run
import CanTransport.Proofs.Bus.Lifecycle
/-!
# A session with one bus

A session lets the tasks of its bus go as far as they can whenever a call has to wait, behind each
call, and in each pause. That is one of the orders in which a call, the tasks and the clock can act.
-/

namespace CanTransport

/-- An event that no call makes: a task acts, or something happens outside. -/
def Life.Event.ofOthers : Life.Event → Prop
  | .run _ | .outside => True
  | _ => False

namespace Life

variable {w w' w'' : Life} {id : OperationId}

/-! ## Tasks that go as far as they can -/

theorem run_runToRest (task : ReceiverId) (fuel : Nat) (w : Life) :
    ∃ w', Run Event.ofOthers w w' ∧ w'.site = Site.runToRest task fuel w.site := by
  induction fuel generalizing w with
  | zero => exact ⟨w, .refl, rfl⟩
  | succ fuel ih =>
    unfold Site.runToRest
    cases w.site.bus.receiver? task with
    | none => exact ⟨w, .refl, rfl⟩
    | some r =>
      simp only
      split
      · obtain ⟨w', hrun, hsite⟩ := ih (w.run task)
        have hfirst : Run Event.ofOthers w (w.run task) :=
          .step .refl (show Event.ofOthers (.run task) from trivial) (.run task)
        exact ⟨w', hfirst.trans hrun, hsite⟩
      · exact ⟨w, .refl, rfl⟩

theorem run_runAll (kind : Site → Receiver → Bool) (w : Life) :
    ∃ w', Run Event.ofOthers w w' ∧ w'.site = Site.runAll kind w.site := by
  have hall : ∀ (receivers : List Receiver) (w : Life), ∃ w', Run Event.ofOthers w w' ∧
      w'.site = receivers.foldl
        (fun s r => if kind s r then Site.runToRest r.id s.work s else s) w.site := by
    intro receivers
    induction receivers with
    | nil => exact fun w => ⟨w, .refl, rfl⟩
    | cons r rest ih =>
      intro w
      rw [List.foldl_cons]
      split
      · obtain ⟨w', hfirst, hsite⟩ := run_runToRest r.id w.site.work w
        obtain ⟨w'', hrest, hsite'⟩ := ih w'
        exact ⟨w'', hfirst.trans hrest, hsite ▸ hsite'⟩
      · exact ih w
  exact hall w.site.bus.receivers w

/-! ## A call that goes as far as it can -/

/-- What a call and others do before the call returns. -/
inductive Advances (id : OperationId) (w : Life) : Life → Prop where
  | refl : Advances id w w
  | act {w' : Life} (h : Advances id w w')
      (hgoes : ∀ outcome, (w'.site.advance id).1 ≠ .ends outcome) : Advances id w (w'.act id)
  | others {w' w'' : Life} {event : Event} (h : Advances id w w') (hothers : event.ofOthers)
      (hstep : Step event w' w'') : Advances id w w''

theorem Advances.trans (h : Advances id w w') (h' : Advances id w' w'') : Advances id w w'' := by
  induction h' with
  | refl => exact h
  | act _ hgoes ih => exact .act ih hgoes
  | others _ hothers hstep ih => exact .others ih hothers hstep

theorem Advances.run (h : Run Event.ofOthers w w') : Advances id w w' := by
  induction h with
  | refl => exact .refl
  | step _ hothers hstep ih => exact .others ih hothers hstep

/-- How far a call gets by itself. -/
theorem advances_far (id : OperationId) (fuel : Nat) (w : Life) : ∃ w', Advances id w w' ∧
    ((∃ outcome, Site.advanceFar id fuel w.site = (.ends outcome, (w'.act id).site) ∧
        (w'.site.advance id).1 = .ends outcome) ∨
      (Site.advanceFar id fuel w.site).2 = w'.site ∧
        ∀ outcome, (Site.advanceFar id fuel w.site).1 ≠ .ends outcome) := by
  induction fuel generalizing w with
  | zero => exact ⟨w, .refl, Or.inr ⟨rfl, fun _ => nofun⟩⟩
  | succ fuel ih =>
    unfold Site.advanceFar
    rcases hadvance : w.site.advance id with ⟨progress, next⟩
    have hsite : (w.act id).site = next := congrArg Prod.snd hadvance
    cases progress with
    | ends outcome =>
      exact ⟨w, .refl, Or.inl ⟨outcome, by rw [hsite], congrArg Prod.fst hadvance⟩⟩
    | waits =>
      have hgoes : ∀ outcome, (w.site.advance id).1 ≠ .ends outcome := by
        rw [hadvance]
        exact fun _ => nofun
      exact ⟨w.act id, .act .refl hgoes, Or.inr ⟨hsite.symm, fun _ => nofun⟩⟩
    | goesOn =>
      have hgoes : ∀ outcome, (w.site.advance id).1 ≠ .ends outcome := by
        rw [hadvance]
        exact fun _ => nofun
      obtain ⟨w', hadvances, hend⟩ := ih (w.act id)
      refine ⟨w', Advances.trans (.act .refl hgoes) hadvances, ?_⟩
      rw [← hsite]
      exact hend

end Life

namespace Probe

/-- A session with one bus. -/
def sessionOf (m : Member) (s : Site) : Session where
  medium := s.medium
  members := [{ m with bus := s.bus }]

variable {m : Member} {w : Life} {s : Site} {t : Session} {id : OperationId}
  {outcome : Except Error Unit}

theorem visit_sessionOf {α : Type} {name : String} (hname : m.name = name) (default : α)
    (f : Site → α × Site) (s : Site) :
    (sessionOf m s).visit name default f = ((f s).1, sessionOf m (f s).2) := by
  simp [Session.visit, sessionOf, hname]

theorem visit_sessionOf_of_ne {α : Type} {name : String} (hname : m.name ≠ name) (default : α)
    (f : Site → α × Site) (s : Site) :
    (sessionOf m s).visit name default f = (default, sessionOf m s) := by
  simp [Session.visit, sessionOf, hname]

theorem forEach_sessionOf (f : Site → Site) (s : Site) :
    (sessionOf m s).forEach f = sessionOf m (f s) := rfl

theorem reception_sessionOf (hname : m.name = probed) (s : Site) :
    reception (sessionOf m s) = s.bus.reception := by
  simp [reception, Session.find?, sessionOf, hname]

/-- Tasks that a session runs are tasks of its bus. -/
theorem exists_run_forEach (kind : Site → Receiver → Bool) (w : Life) :
    ∃ w', Life.Run Life.Event.ofOthers w w' ∧
      (sessionOf m w.site).forEach (Site.runAll kind) = sessionOf m w'.site := by
  obtain ⟨w', hrun, hsite⟩ := Life.run_runAll kind w
  refine ⟨w', hrun, ?_⟩
  rw [forEach_sessionOf, hsite]

/-! ## Pauses -/

/-- A clock that is set is something that happens outside. -/
theorem run_setNow (w : Life) (now : Nat) : ∃ w', Life.Run Life.Event.ofOthers w w' ∧
    (sessionOf m w.site).setNow now = sessionOf m w'.site :=
  ⟨_, .step .refl (show Life.Event.ofOthers .outside from trivial)
    (@Life.Step.outside w { w.site.medium with now := now } (Kernel.Spares.refl _)), rfl⟩

theorem run_wakeUntil (target fuel : Nat) (w : Life) : ∃ w', Life.Run Life.Event.ofOthers w w' ∧
    (sessionOf m w.site).wakeUntil target fuel = sessionOf m w'.site := by
  induction fuel generalizing w with
  | zero => exact ⟨w, .refl, rfl⟩
  | succ fuel ih =>
    unfold Session.wakeUntil
    split
    · rename_i deadline order name task hfirst
      split
      · obtain ⟨u, hclock, hset⟩ := run_setNow (m := m) w
          (max (sessionOf m w.site).medium.now deadline)
        simp only [hset]
        by_cases hname : m.name = name
        · obtain ⟨v, hrun, hsite⟩ := Life.run_runToRest task u.site.work u
          obtain ⟨w', hrest, hwaken⟩ := ih v
          refine ⟨w', (hclock.trans hrun).trans hrest, ?_⟩
          rw [visit_sessionOf hname, ← hwaken, hsite]
        · obtain ⟨w', hrest, hwaken⟩ := ih u
          refine ⟨w', hclock.trans hrest, ?_⟩
          rw [visit_sessionOf_of_ne hname, ← hwaken]
      · exact ⟨w, .refl, rfl⟩
    · exact ⟨w, .refl, rfl⟩

/-- In a pause of a session the tasks act, and the clock moves. -/
theorem exists_run_settle (ms : Nat) (w : Life) : ∃ w', Life.Run Life.Event.ofOthers w w' ∧
    (sessionOf m w.site).settle ms = sessionOf m w'.site := by
  have hall : ∀ u : Life, ∃ u', Life.Run Life.Event.ofOthers u u' ∧
      (sessionOf m u.site).runAll = sessionOf m u'.site := fun u => exists_run_forEach _ u
  obtain ⟨u, hbefore, hfirst⟩ := hall w
  unfold Session.settle
  simp only [hfirst]
  obtain ⟨u', hwaking, hwaken⟩ := run_wakeUntil (m := m)
    (if (sessionOf m u.site).hasThread then (sessionOf m u.site).medium.now
      else (sessionOf m u.site).medium.now + ms)
    ((ms + 1) * total ((sessionOf m u.site).members.map fun m => m.bus.receivers.length)) u
  rw [hwaken]
  obtain ⟨u'', hclock, hset⟩ := run_setNow (m := m) u' _
  rw [hset]
  obtain ⟨w', hafter, hlast⟩ := hall u''
  exact ⟨w', ((hbefore.trans hwaking).trans hclock).trans hafter, hlast⟩

/-! ## Calls -/

/-- A call that a session completes has ended. If it reports that the bus is not connected, the
session can have given it up. -/
theorem advances_complete (hname : m.name = probed) (fuel : Nat) (w : Life)
    (h : Session.complete probed id fuel (sessionOf m w.site) = (outcome, t))
    (hreported : outcome ≠ .error .notConnected) :
    ∃ w', Life.Advances id w w' ∧ (w'.site.advance id).1 = .ends outcome ∧
      t = sessionOf m (w'.act id).site := by
  induction fuel generalizing w with
  | zero =>
    cases h
    exact absurd rfl hreported
  | succ fuel ih =>
    unfold Session.complete at h
    rw [visit_sessionOf hname] at h
    obtain ⟨u, hadvances, ⟨reported, hfar, hends⟩ | ⟨hsite, hgoes⟩⟩ :=
      Life.advances_far id Site.actions w
    · rw [hfar] at h
      cases h
      exact ⟨u, hadvances, hends, rfl⟩
    · have hawake : ∃ u', Life.Run Life.Event.ofOthers u u' ∧
          (sessionOf m u.site).runAwake = sessionOf m u'.site := exists_run_forEach _ u
      obtain ⟨u', hothers, hawake⟩ := hawake
      split at h
      · rename_i reported s' heq
        exact absurd (congrArg Prod.fst heq) (hgoes reported)
      · rename_i heq
        cases heq
        rw [hsite, hawake] at h
        obtain ⟨w', hrest, hends, ht⟩ := ih u' h
        exact ⟨w', (hadvances.trans (.run hothers)).trans hrest, hends, ht⟩

/-- A call that a session performs has ended when it returns; then threads may have gone on. -/
theorem advances_request (hname : m.name = probed) {request : Request}
    (hsite : w.site = (s.start request).2)
    (h : (sessionOf m s).request probed request = (outcome, t))
    (hreported : outcome ≠ .error .notConnected) :
    ∃ w' w'', Life.Advances s.bus.next w w' ∧ (w'.site.advance s.bus.next).1 = .ends outcome ∧
      Life.Run Life.Event.ofOthers (w'.act s.bus.next) w'' ∧ t = sessionOf m w''.site := by
  rw [Session.request, visit_sessionOf hname, ← hsite] at h
  have hid : (s.start request).1 = s.bus.next := rfl
  rcases hcomplete : Session.complete probed (s.start request).1 4 (sessionOf m w.site) with
    ⟨reported, u⟩
  simp only [hcomplete] at h
  cases h
  obtain ⟨w', hadvances, hends, rfl⟩ := advances_complete hname 4 w hcomplete hreported
  have hthreads : ∃ w'', Life.Run Life.Event.ofOthers (w'.act s.bus.next) w'' ∧
      (sessionOf m (w'.act s.bus.next).site).runThreads = sessionOf m w''.site :=
    exists_run_forEach _ _
  obtain ⟨w'', hothers, hsession⟩ := hthreads
  exact ⟨w', w'', hadvances, hends, hothers, hsession⟩

end Probe

end CanTransport
