import CanTransport.Proofs.Bus.Holdings
import CanTransport.Proofs.Bus.Watching
import CanTransport.Proofs.Ring.Fates
/-!
# The sweeps of a task

One action of a task on a ring seen as a part of its sweep: it consumes the slot under the cursor,
or it ends the sweep and asks how many packets were lost if a slot said so, or neither. The sweep
itself keeps count of its slots and remembers such a slot.
-/

namespace CanTransport

namespace Stage

/-- The slots that were consumed in the sweep of a task there, and whether one of them said that
packets were lost. -/
def tally : Stage → Nat × Bool
  | .looking sweep | .swept sweep => (sweep.consumed, sweep.losing)
  | .releasing sweep | .advancing sweep => (sweep.consumed + 1, sweep.losing)
  | _ => (0, false)

/-- The slots of a sweep that is at its end. -/
def ended? : Stage → Option Nat
  | .swept sweep => some sweep.consumed
  | _ => none

end Stage

namespace Kernel

/-- How often it was asked how many packets were lost. -/
def inquiries (k : Kernel) : Nat := k.trace.count .statistics

/-- The answers to what was asked between two moments. -/
def answers (k k' : Kernel) : List (Except Errno Nat) :=
  List.replicate (k'.inquiries - k.inquiries) (statistics.run k).1

/-- The packets lost according to some answers. -/
def losses (answers : List (Except Errno Nat)) : Nat := (answers.filterMap Except.toOption).sum

theorem answers_of_eq {k k' : Kernel} (h : k'.inquiries = k.inquiries) : k.answers k' = [] := by
  rw [answers, h, Nat.sub_self, List.replicate_zero]

theorem answers_congr {k k' k'' : Kernel} (h : k''.inquiries = k'.inquiries) :
    k.answers k'' = k.answers k' := by
  rw [answers, answers, h]

theorem trace_perform (call : Call) (k : Kernel) :
    (perform call).Yields k fun _ k' => k'.trace = k.trace ++ [call] := by
  unfold Op.Yields
  rw [run_perform]
  split <;> rfl

/-- The question is recorded, whatever the answer. -/
theorem trace_statistics (k : Kernel) :
    (statistics.run k).2.trace = k.trace ++ [.statistics] := by
  have hyields : statistics.Yields k fun _ k' => k'.trace = k.trace ++ [.statistics] := by
    unfold statistics
    rw [Op.yields_bind]
    refine Op.Yields.mono (trace_perform .statistics k) fun r k' htrace => ?_
    cases r with
    | error number => exact htrace
    | ok done =>
      obtain ⟨_, _, _, _, _, _, _, _, drops, _, _, _⟩ := k'
      cases drops with
      | nil => exact htrace
      | cons n rest => exact htrace
  exact hyields

theorem answers_statistics (k : Kernel) :
    k.answers (statistics.run k).2 = [(statistics.run k).1] := by
  have hcount : (statistics.run k).2.inquiries = k.inquiries + 1 := by
    rw [inquiries, inquiries, trace_statistics, List.count_append, List.count_singleton_self]
  rw [answers, hcount, Nat.add_sub_cancel_left, List.replicate_one]

theorem inquiries_release (r : Resource) (k : Kernel) :
    (r.release.run k).2.inquiries = k.inquiries := by
  rw [inquiries, inquiries, trace_release, List.count_append, Nat.add_eq_left,
    List.count_eq_zero]
  simp

end Kernel

namespace Site

theorem inquiries_releaseAll (s : Site) (l : List Resource) :
    (s.releaseAll l).medium.kernel.inquiries = s.medium.kernel.inquiries := by
  induction l generalizing s with
  | nil => rfl
  | cons r l ih =>
    rw [releaseAll, ih]
    exact Kernel.inquiries_release r s.medium.kernel

theorem inquiries_collect (s : Site) :
    s.collect.medium.kernel.inquiries = s.medium.kernel.inquiries := by
  unfold collect
  split
  split
  · rfl
  · exact inquiries_releaseAll _ _

end Site

namespace Receiver

/-- The slot that the next action of a task consumes. -/
def consumption? (s : Site) (r : Receiver) : Option Consumed :=
  match r.stage with
  | .looking sweep => do
    let (fd, g) ← r.ring? s
    let m := s.medium.kernel.memory fd
    let status := Slot.status m (sweep.base g)
    let packet := Slot.packet? m g.slotSize (sweep.base g)
    if sweep.consumed < g.slotCount ∧ Slot.hasBit status Slot.userBit = true then
      some { losing := Slot.hasBit status Slot.losingBit, packet := packet,
             fate := s.bus.echoes.fate packet }
    else none
  | _ => none

theorem fate_consumption {s : Site} {r : Receiver} {c : Consumed} (h : r.consumption? s = some c) :
    c.fate = s.bus.echoes.fate c.packet := by
  unfold consumption? at h
  split at h
  · obtain ⟨⟨fd, g⟩, -, hslot⟩ := Option.bind_eq_some_iff.mp h
    simp only at hslot
    split at hslot
    · cases hslot
      rfl
    · cases hslot
  · cases h

/-- What one action of a task comes to in its sweep. A task in its loop keeps its resource. -/
inductive Beat (s : Site) (r : Receiver) (s' : Site) (r' : Receiver) : Prop where
  /-- No slot is consumed, and no sweep ends. -/
  | moves (hconsumption : r.consumption? s = none) (hended : r.stage.ended? = none)
      (hanswers : s.medium.kernel.answers s'.medium.kernel = [])
      (hdeliveries : s'.bus.reception.deliveries = s.bus.reception.deliveries)
      (hstats : s'.bus.reception.stats = s.bus.reception.stats)
      (htally : r'.stage.tally = r.stage.tally)
      (hhandle : r'.stage.loops = true → r.stage.loops = true ∧ r'.handle = r.handle)
  /-- The slot under the cursor is consumed; a listener may end the task. -/
  | consumes {c : Consumed} (hconsumption : r.consumption? s = some c)
      (hended : r.stage.ended? = none)
      (hanswers : s.medium.kernel.answers s'.medium.kernel = [])
      (htakes : s.bus.reception.Takes c s'.bus.reception) (hloops : r.stage.loops = true)
      (hgoes : r'.handle = r.handle ∧
          r'.stage.tally = (r.stage.tally.1 + 1, r.stage.tally.2 || c.losing) ∨
        r'.stage = .exited true ∧ ∃ d ∈ s'.bus.reception.deliveries, d.returned = false)
  /-- The sweep ends, and the kernel is asked if a slot of it said that packets were lost. -/
  | ends {slots : Nat} {losing : Bool} (hconsumption : r.consumption? s = none)
      (hended : r.stage.ended? = some slots) (htally : r.stage.tally = (slots, losing))
      (hlength : (s.medium.kernel.answers s'.medium.kernel).length = if losing then 1 else 0)
      (hdeliveries : s'.bus.reception.deliveries = s.bus.reception.deliveries)
      (hstats : s'.bus.reception.stats = s.bus.reception.stats.countDropped
        (Kernel.losses (s.medium.kernel.answers s'.medium.kernel)))
      (htally' : r'.stage.tally = (0, false)) (hloops : r.stage.loops = true)
      (hhandle : r'.handle = r.handle)

variable {s s' : Site} {r r' : Receiver} {place : Stage} {sweep : Sweep}

theorem consumption?_eq_none (hstage : r.stage = place) (h : ∀ sweep, place ≠ .looking sweep) :
    r.consumption? s = none := by
  unfold consumption?
  split
  · rename_i sweep hlooking
    exact absurd (hstage.symm.trans hlooking) (h sweep)
  · rfl

/-- A task that only goes to another place. -/
theorem Beat.move (stage : Stage) (hstage : r.stage = place)
    (hconsumption : r.consumption? s = none) (hended : place.ended? = none)
    (htally : stage.tally = place.tally) (hloops : place.loops = true) :
    Beat s r s (r.goTo stage) := by
  subst hstage
  refine .moves hconsumption hended (Kernel.answers_of_eq rfl) rfl rfl ?_ ?_
  · rw [stage_goTo]
    exact htally
  · rw [stage_goTo]
    intro hstage
    refine ⟨hloops, ?_⟩
    cases stage with
    | returned _ | published | exited _ => cases hstage
    | _ => rfl

theorem beat_atTop (hring : s.bus.transport = .ring) (hstage : r.stage = .top) :
    Beat s r (r.atTop s).1 (r.atTop s).2 := by
  have hconsumption : r.consumption? s = none := consumption?_eq_none hstage nofun
  unfold atTop
  simp only [hring]
  split
  · exact .move (.returned (.ok ())) hstage hconsumption rfl rfl rfl
  · exact .move (.looking { cursor := r.cursor }) hstage hconsumption rfl rfl rfl

/-- What the verdict about a packet makes of a task and its bus. -/
theorem look_eq {g : Geometry} {m : Memory} {sweep' : Sweep} {p : Option Slot.Packet}
    (hlook : sweep.look g m = some (p, sweep')) :
    (r.look s g m sweep).1 = s.setBus { s.bus with
        echoes := (s.bus.echoes.judge p).2
        reception := ((s.bus.echoes.judge p).1.settle s.bus.reception).2 } ∧
      (r.look s g m sweep).2 = r.goTo
        (if ((s.bus.echoes.judge p).1.settle s.bus.reception).1 then .releasing sweep'
         else .exited true) := by
  unfold look
  rw [hlook]
  simp only
  cases (s.bus.echoes.judge p).1 with
  | outgoing | echo | unusable => exact ⟨rfl, rfl⟩
  | arrival raw => exact ⟨rfl, rfl⟩

/-- A listener that does not return is called by a record that is handed on. -/
theorem exists_unreturned {verdict : Verdict} {reception : Reception}
    (h : (verdict.settle reception).1 = false) :
    ∃ d ∈ (verdict.settle reception).2.deliveries, d.returned = false := by
  cases verdict with
  | outgoing | echo | unusable => cases h
  | arrival raw => exact Reception.exists_not_returned h

theorem beat_look {fd : Descriptor} {g : Geometry} (hring : r.ring? s = some (fd, g))
    (hstage : r.stage = .looking sweep) :
    Beat s r (r.look s g (s.medium.kernel.memory fd) sweep).1
      (r.look s g (s.medium.kernel.memory fd) sweep).2 := by
  have hended : r.stage.ended? = none := by rw [hstage]; rfl
  have hloops : r.stage.loops = true := by rw [hstage]; rfl
  by_cases hopen : sweep.consumed < g.slotCount ∧
      Slot.hasBit (Slot.status (s.medium.kernel.memory fd) (sweep.base g)) Slot.userBit = true
  · have hlook := show sweep.look g (s.medium.kernel.memory fd) = some _ by
      rw [Sweep.look, if_pos hopen.1]
      exact if_pos hopen.2
    obtain ⟨hsite, htask⟩ := look_eq (r := r) (s := s) hlook
    have hconsumption := show r.consumption? s = some _ by
      simp only [consumption?, hstage, hring, Option.bind_eq_bind, Option.bind_some]
      exact if_pos hopen
    rw [hsite, htask]
    refine .consumes hconsumption hended (Kernel.answers_of_eq rfl)
      (s.bus.echoes.takes_settle _ _ _) hloops ?_
    split
    · refine Or.inl ⟨rfl, ?_⟩
      rw [stage_goTo, hstage]
      rfl
    · rename_i hreturned
      exact Or.inr ⟨rfl, exists_unreturned (by simpa using hreturned)⟩
  · have hlook : sweep.look g (s.medium.kernel.memory fd) = none := by
      unfold Sweep.look
      split
      · rename_i hlt
        exact if_neg fun huser => hopen ⟨hlt, huser⟩
      · rfl
    have hconsumption : r.consumption? s = none := by
      simp only [consumption?, hstage, hring, Option.bind_eq_bind, Option.bind_some]
      exact if_neg hopen
    unfold look
    rw [hlook]
    exact .move (.swept sweep) hstage hconsumption rfl rfl rfl

/-- What is asked and counted at the end of a sweep. -/
theorem countLost_eq (s : Site) :
    (countLost s).bus.reception.deliveries = s.bus.reception.deliveries ∧
      s.medium.kernel.answers (countLost s).medium.kernel =
        [(Kernel.statistics.run s.medium.kernel).1] ∧
      (countLost s).bus.reception.stats = s.bus.reception.stats.countDropped
        (Kernel.losses [(Kernel.statistics.run s.medium.kernel).1]) := by
  have hanswers := Kernel.answers_statistics s.medium.kernel
  unfold countLost
  rcases hrun : s.onKernel Kernel.statistics.run with ⟨number | n, s'⟩
  all_goals
    have hbus : s.bus = s'.bus := congrArg (·.2.bus) hrun
    have hkernel : (Kernel.statistics.run s.medium.kernel).2 = s'.medium.kernel :=
      congrArg (·.2.medium.kernel) hrun
    have hanswer : (Kernel.statistics.run s.medium.kernel).1 =
        (s.onKernel Kernel.statistics.run).1 := rfl
    rw [hrun] at hanswer
    rw [hkernel] at hanswers
  · refine ⟨by rw [hbus], hanswers, ?_⟩
    rw [hanswer, hbus]
    show _ = ({ s'.bus.reception.stats with
      dropped := s'.bus.reception.stats.dropped + UInt64.ofNat 0 } : Stats)
    simp
  · refine ⟨by rw [hbus]; rfl, hanswers, ?_⟩
    rw [hanswer, hbus]
    rfl

theorem beat_endSweep (g : Geometry) (hstage : r.stage = .swept sweep) :
    Beat s r (r.endSweep s g sweep).1 (r.endSweep s g sweep).2 := by
  have hconsumption : r.consumption? s = none := consumption?_eq_none hstage nofun
  have hlost : ∃ s', s' = (if sweep.losing then countLost s else s) ∧
      (s.medium.kernel.answers s'.medium.kernel).length = (if sweep.losing then 1 else 0) ∧
      s'.bus.reception.deliveries = s.bus.reception.deliveries ∧
      s'.bus.reception.stats = s.bus.reception.stats.countDropped
        (Kernel.losses (s.medium.kernel.answers s'.medium.kernel)) := by
    refine ⟨_, rfl, ?_⟩
    obtain ⟨hdeliveries, hanswers, hstats⟩ := countLost_eq s
    split
    · rw [hanswers]
      exact ⟨rfl, hdeliveries, hstats⟩
    · rw [Kernel.answers_of_eq rfl]
      refine ⟨rfl, rfl, ?_⟩
      show _ = ({ s.bus.reception.stats with
        dropped := s.bus.reception.stats.dropped + UInt64.ofNat 0 } : Stats)
      simp
  obtain ⟨s', hs', hlength, hdeliveries, hstats⟩ := hlost
  have hended : r.stage.ended? = some sweep.consumed := by rw [hstage]; rfl
  have htally : r.stage.tally = (sweep.consumed, sweep.losing) := by rw [hstage]; rfl
  have hloops : r.stage.loops = true := by rw [hstage]; rfl
  unfold endSweep
  simp only [← hs']
  split
  · exact .ends hconsumption hended htally hlength hdeliveries hstats rfl hloops rfl
  · exact .ends hconsumption hended htally hlength hdeliveries hstats rfl hloops rfl

/-- What one action of a task comes to in its sweep, as long as the task has a ring to read. -/
theorem beat_step (hring : s.bus.transport = .ring) (hrings : r.stage.rings = true)
    (hhas : r.stage.loops = true → ∃ fd g, r.ring? s = some (fd, g)) :
    Beat s r (r.step s).1 (r.step s).2 := by
  have honRing : ∀ {action : Descriptor → Geometry → Memory → Site × Receiver},
      r.stage.loops = true →
      (∀ fd g, r.ring? s = some (fd, g) → Beat s r (action fd g (s.medium.kernel.memory fd)).1
        (action fd g (s.medium.kernel.memory fd)).2) →
      Beat s r (r.onRing s action).1 (r.onRing s action).2 := by
    intro action hloops h
    obtain ⟨fd, g, hring?⟩ := hhas hloops
    unfold onRing
    rw [show (r.resource? s).bind Resource.ring = some (fd, g) from hring?]
    exact h fd g hring?
  unfold step
  cases hstage : r.stage with
  | top => exact beat_atTop hring hstage
  | receiving | holding _ => rw [hstage] at hrings; cases hrings
  | looking sweep =>
    exact honRing (by rw [hstage]; rfl) fun fd g hring? => beat_look hring? hstage
  | releasing sweep =>
    refine honRing (by rw [hstage]; rfl) fun fd g _ => ?_
    exact .moves (consumption?_eq_none hstage nofun) (by rw [hstage]; rfl)
      (Kernel.answers_of_eq rfl) rfl rfl (by rw [stage_goTo, hstage]; rfl)
      fun _ => ⟨by rw [hstage]; rfl, rfl⟩
  | advancing sweep =>
    refine honRing (by rw [hstage]; rfl) fun fd g _ => ?_
    have hconsumption : r.consumption? s = none := consumption?_eq_none hstage nofun
    exact .move (.looking (sweep.advance g)) hstage hconsumption rfl rfl rfl
  | swept sweep => exact honRing (by rw [hstage]; rfl) fun fd g _ => beat_endSweep g hstage
  | sleeping deadline order =>
    have hconsumption : r.consumption? s = none := consumption?_eq_none hstage nofun
    simp only
    split
    · exact .move (.returned (.ok ())) hstage hconsumption rfl rfl rfl
    · split
      · exact .move .top hstage hconsumption rfl rfl rfl
      · exact .moves hconsumption (by rw [hstage]; rfl) (Kernel.answers_of_eq rfl) rfl rfl rfl
          fun hloops => ⟨hloops, rfl⟩
  | returned outcome =>
    refine .moves (consumption?_eq_none hstage nofun) (by rw [hstage]; rfl)
      (Kernel.answers_of_eq rfl) (Reception.deliveries_finish outcome _) ?_
      (by rw [stage_goTo, hstage]; rfl) nofun
    cases outcome <;> rfl
  | published =>
    exact .moves (consumption?_eq_none hstage nofun) (by rw [hstage]; rfl)
      (Kernel.answers_of_eq rfl) rfl rfl (by rw [stage_goTo, hstage]; rfl) nofun
  | exited died =>
    exact .moves (consumption?_eq_none hstage nofun) (by rw [hstage]; rfl)
      (Kernel.answers_of_eq rfl) rfl rfl rfl fun hloops => ⟨hloops, rfl⟩

/-- Only the reception and what the kernel was asked matter behind the action. -/
theorem Beat.congr {s'' : Site} (h : Beat s r s' r')
    (hinquiries : s''.medium.kernel.inquiries = s'.medium.kernel.inquiries)
    (hreception : s''.bus.reception = s'.bus.reception) : Beat s r s'' r' := by
  have hanswers := Kernel.answers_congr (k := s.medium.kernel) hinquiries
  cases h with
  | moves hconsumption hended hnone hdeliveries hstats htally hhandle =>
    exact .moves hconsumption hended (hanswers.trans hnone) (hreception ▸ hdeliveries)
      (hreception ▸ hstats) htally hhandle
  | consumes hconsumption hended hnone htakes hloops hgoes =>
    exact .consumes hconsumption hended (hanswers.trans hnone) (hreception ▸ htakes) hloops
      (hreception ▸ hgoes)
  | ends hconsumption hended htally hlength hdeliveries hstats htally' hloops hhandle =>
    rw [← hanswers] at hlength hstats
    exact .ends hconsumption hended htally hlength (hreception ▸ hdeliveries)
      (hreception ▸ hstats) htally' hloops hhandle

/-- Calls of a listener are not forgotten. -/
theorem Beat.deliveries_kept (h : Beat s r s' r') {d : Delivery}
    (hd : d ∈ s.bus.reception.deliveries) : d ∈ s'.bus.reception.deliveries := by
  cases h with
  | moves _ _ _ hdeliveries => exact hdeliveries ▸ hd
  | consumes _ _ _ htakes => exact htakes.deliveries_kept hd
  | ends _ _ _ _ hdeliveries => exact hdeliveries ▸ hd

/-- A task in its loop keeps its resource. -/
theorem Beat.handle (h : Beat s r s' r') (hloops : r'.stage.loops = true) :
    r.stage.loops = true ∧ r'.handle = r.handle := by
  cases h with
  | moves _ _ _ _ _ _ hhandle => exact hhandle hloops
  | consumes _ _ _ _ hgoing hgoes =>
    rcases hgoes with ⟨hhandle, -⟩ | ⟨hexited, -⟩
    · exact ⟨hgoing, hhandle⟩
    · rw [hexited] at hloops
      cases hloops
  | ends _ _ _ _ _ _ _ hgoing hhandle => exact ⟨hgoing, hhandle⟩

end Receiver

end CanTransport
