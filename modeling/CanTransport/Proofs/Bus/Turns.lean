import CanTransport.Bus.Receiver
import CanTransport.Proofs.Kernel.Inventory
import CanTransport.Proofs.Ring.Handover
/-!
# The reception task of a ring

What one action of the task comes to: it is a step of the reader of its ring, or it leaves the ring
alone. Only a look hands a packet on, and then the echoes decide what becomes of it.
-/

namespace CanTransport

namespace Verdict

/-- The record that is left to be handed on, as a frame. -/
def frames : Verdict → List Frame
  | .arrival raw => (Frame.ofWire raw).toOption.toList
  | _ => []

end Verdict

namespace Reception

/-- The frames that listeners got, in order. -/
def frames (r : Reception) : List Frame := r.deliveries.map Delivery.frame

theorem frames_deliverWire (raw : Wire) (r : Reception) :
    (r.deliverWire raw).2.frames = r.frames ++ (Frame.ofWire raw).toOption.toList := by
  unfold deliverWire
  cases Frame.ofWire raw with
  | ok frame => simp [deliver, frames, Except.toOption]
  | error e => simp [count, frames, Except.toOption]

@[simp] theorem frames_count (change : Stats → Stats) (r : Reception) :
    (r.count change).frames = r.frames := rfl

@[simp] theorem frames_finish (outcome : Except Error Unit) (r : Reception) :
    (r.finish outcome).frames = r.frames := by
  cases outcome <;> rfl

end Reception

/-- Whether the actions on a ring lead there: records are at hand on sockets only, and no error ends
the loop. -/
def Stage.rings : Stage → Bool
  | .receiving | .holding _ | .returned (.error _) => false
  | _ => true

namespace Receiver

/-- Where the task is as the reader of its ring. -/
def phase (r : Receiver) : Phase :=
  match r.stage with
  | .looking sweep => .looking sweep
  | .releasing sweep => .releasing sweep
  | .advancing sweep => .advancing sweep
  | .swept sweep => .resting sweep.cursor
  | _ => .resting r.cursor

/-- Whether the task is where a ring can bring it; records are at hand on sockets only. -/
def Sweeps (r : Receiver) : Prop :=
  match r.stage with
  | .receiving | .holding _ => False
  | _ => True

/-- The packet socket and the geometry of the ring that the task reads. -/
def ring? (s : Site) (r : Receiver) : Option (Descriptor × Geometry) :=
  (r.resource? s).bind Resource.ring

/-- The packet that the next action of the task hands on, and the socket of its ring. -/
def handing? (s : Site) (r : Receiver) : Option (Descriptor × Option Slot.Packet) :=
  match r.stage with
  | .looking sweep => do
    let (fd, g) ← r.ring? s
    let (p, _) ← sweep.look g (s.medium.kernel.memory fd)
    return (fd, p)
  | _ => none

/-- What one action of a task on a ring can come to. A task that ends lets go of its ring. -/
inductive Turn (s : Site) (r : Receiver) : Site → Receiver → Prop where
  | aside {s' : Site} {r' : Receiver}
      (hhanding : r.handing? s = none)
      (hbus : s'.bus = { s.bus with reception := s'.bus.reception })
      (hframes : s'.bus.reception.frames = s.bus.reception.frames)
      (hspares : Kernel.Spares (fun _ => True) s.medium.kernel s'.medium.kernel)
      (hphase : r'.handle = none ∨ r'.handle = r.handle ∧ r'.phase = r.phase) : Turn s r s' r'
  | start {r' : Receiver} {cursor : Nat} (hphase : r.phase = .resting cursor)
      (hhandle : r'.handle = r.handle) (hphase' : r'.phase = .looking { cursor }) : Turn s r s r'
  | stop {r' : Receiver} {fd : Descriptor} {g : Geometry} {sweep : Sweep}
      (hring : r.ring? s = some (fd, g)) (hstage : r.stage = .looking sweep)
      (hlook : sweep.look g (s.medium.kernel.memory fd) = none)
      (hhandle : r'.handle = r.handle) (hphase' : r'.phase = .resting sweep.cursor) :
      Turn s r s r'
  | take {s' : Site} {r' : Receiver} {fd : Descriptor} {g : Geometry} {sweep sweep' : Sweep}
      {p : Option Slot.Packet}
      (hring : r.ring? s = some (fd, g)) (hstage : r.stage = .looking sweep)
      (hlook : sweep.look g (s.medium.kernel.memory fd) = some (p, sweep'))
      (hbus : s'.bus = { s.bus with
        reception := s'.bus.reception, echoes := (s.bus.echoes.judge p).2 })
      (hframes : s'.bus.reception.frames =
        s.bus.reception.frames ++ (s.bus.echoes.judge p).1.frames)
      (hmedium : s'.medium = s.medium)
      (hphase' : r'.handle = none ∨ r'.handle = r.handle ∧ r'.phase = .releasing sweep') :
      Turn s r s' r'
  | release {r' : Receiver} {fd : Descriptor} {g : Geometry} {sweep : Sweep}
      (hring : r.ring? s = some (fd, g)) (hstage : r.stage = .releasing sweep)
      (hhandle : r'.handle = r.handle) (hphase' : r'.phase = .advancing sweep) :
      Turn s r (s.onKernel (Kernel.setMemory fd
        (sweep.release g (s.medium.kernel.memory fd)))).2 r'
  | advance {r' : Receiver} {fd : Descriptor} {g : Geometry} {sweep : Sweep}
      (hring : r.ring? s = some (fd, g)) (hstage : r.stage = .advancing sweep)
      (hhandle : r'.handle = r.handle) (hphase' : r'.phase = .looking (sweep.advance g)) :
      Turn s r s r'

theorem handing?_of_stage_ne {s : Site} {r : Receiver} (h : ∀ sweep, r.stage ≠ .looking sweep) :
    r.handing? s = none := by
  unfold handing?
  split
  · rename_i sweep hstage
    exact absurd hstage (h sweep)
  · rfl

theorem handing?_of_ring?_eq_none {s : Site} {r : Receiver} (h : r.ring? s = none) :
    r.handing? s = none := by
  unfold handing?
  split
  · rw [h]
    rfl
  · rfl

/-- A task that leaves its loop. -/
theorem Turn.leave {s : Site} {r : Receiver} (outcome : Except Error Unit)
    (hhanding : r.handing? s = none) : Turn s r s (r.goTo (.returned outcome)) :=
  .aside hhanding rfl rfl (Kernel.Spares.refl _) (Or.inl rfl)

@[simp] theorem id_goTo (r : Receiver) (stage : Stage) : (r.goTo stage).id = r.id := by
  cases stage <;> rfl

@[simp] theorem stage_goTo (r : Receiver) (stage : Stage) : (r.goTo stage).stage = stage := by
  cases stage <;> rfl

theorem goTo_handle (r : Receiver) (stage : Stage) :
    (r.goTo stage).handle = r.handle ∨ (r.goTo stage).handle = none := by
  cases stage <;> first | exact Or.inl rfl | exact Or.inr rfl

/-- The task after a record was handed on. -/
theorem handOn_snd (s : Site) (r : Receiver) (raw : Wire) (next : Stage) :
    (r.handOn s raw next).2 =
      r.goTo (if (s.bus.reception.deliverWire raw).1 then next else .exited true) := rfl

theorem turn_atTop {s : Site} {r : Receiver} (hring : s.bus.transport = .ring)
    (hstage : r.stage = .top) : Turn s r (r.atTop s).1 (r.atTop s).2 := by
  unfold atTop
  simp only [hring]
  split
  · exact Turn.leave _ (handing?_of_stage_ne (by simp [hstage]))
  · exact .start (by simp [phase, hstage]) rfl rfl

theorem turn_look {s : Site} {r : Receiver} {fd : Descriptor} {g : Geometry} {sweep : Sweep}
    (hring : r.ring? s = some (fd, g)) (hstage : r.stage = .looking sweep) :
    Turn s r (r.look s g (s.medium.kernel.memory fd) sweep).1
      (r.look s g (s.medium.kernel.memory fd) sweep).2 := by
  unfold look
  cases hlook : sweep.look g (s.medium.kernel.memory fd) with
  | none => exact .stop hring hstage hlook rfl rfl
  | some taken =>
    obtain ⟨p, sweep'⟩ := taken
    cases hverdict : (s.bus.echoes.judge p).1 with
    | outgoing | echo =>
      simp only [hverdict]
      exact .take hring hstage hlook rfl (by simp [hverdict, Verdict.frames, Site.setBus]) rfl
        (Or.inr ⟨rfl, rfl⟩)
    | unusable =>
      simp only [hverdict]
      exact .take hring hstage hlook rfl
        (by simp [hverdict, Verdict.frames, Site.setBus, Site.count, Site.onReception]) rfl
        (Or.inr ⟨rfl, rfl⟩)
    | arrival raw =>
      simp only [hverdict]
      refine .take hring hstage hlook rfl ?_ rfl ?_
      · rw [hverdict]
        exact Reception.frames_deliverWire raw _
      · rw [handOn_snd]
        split
        · exact Or.inr ⟨rfl, rfl⟩
        · exact Or.inl rfl

theorem spares_countLost (s : Site) :
    Kernel.Spares (fun _ => True) s.medium.kernel (countLost s).medium.kernel := by
  have hspares : Kernel.Spares (fun _ => True) s.medium.kernel
      (Kernel.statistics.run s.medium.kernel).2 := (Kernel.sparing_statistics _).1
  unfold countLost
  rcases hrun : s.onKernel Kernel.statistics.run with ⟨_ | _, s'⟩
  all_goals
    have hkernel : s'.medium.kernel = (Kernel.statistics.run s.medium.kernel).2 :=
      congrArg (·.2.medium.kernel) hrun.symm
    rw [← hkernel] at hspares
    exact hspares

theorem quiet_countLost (s : Site) :
    Kernel.Quiet s.medium.kernel (countLost s).medium.kernel := by
  have hquiet : Kernel.Quiet s.medium.kernel (Kernel.statistics.run s.medium.kernel).2 :=
    Kernel.Op.silent_statistics s.medium.kernel
  unfold countLost
  rcases hrun : s.onKernel Kernel.statistics.run with ⟨_ | _, s'⟩
  all_goals
    have hkernel : s'.medium.kernel = (Kernel.statistics.run s.medium.kernel).2 :=
      congrArg (·.2.medium.kernel) hrun.symm
    rw [← hkernel] at hquiet
    exact hquiet

theorem bus_countLost (s : Site) :
    (countLost s).bus = { s.bus with reception := (countLost s).bus.reception } ∧
      (countLost s).bus.reception.frames = s.bus.reception.frames := by
  unfold countLost
  rcases hrun : s.onKernel Kernel.statistics.run with ⟨_ | _, s'⟩
  all_goals
    have hbus : s'.bus = s.bus := congrArg (·.2.bus) hrun.symm
    simp [Site.count, Site.onReception, hbus]

theorem turn_endSweep {s : Site} {r : Receiver} {sweep : Sweep} (g : Geometry)
    (hstage : r.stage = .swept sweep) :
    Turn s r (r.endSweep s g sweep).1 (r.endSweep s g sweep).2 := by
  have hphase : r.phase = .resting sweep.cursor := by simp [phase, hstage]
  have hlost : ∃ s', s' = (if sweep.losing then countLost s else s) ∧
      s'.bus = { s.bus with reception := s'.bus.reception } ∧
      s'.bus.reception.frames = s.bus.reception.frames ∧
      Kernel.Spares (fun _ => True) s.medium.kernel s'.medium.kernel := by
    refine ⟨_, rfl, ?_⟩
    split
    · exact ⟨(bus_countLost s).1, (bus_countLost s).2, spares_countLost s⟩
    · exact ⟨rfl, rfl, Kernel.Spares.refl _⟩
  obtain ⟨s', hs', hbus, hframes, hspares⟩ := hlost
  have hhanding : r.handing? s = none := handing?_of_stage_ne (by simp [hstage])
  unfold endSweep
  simp only [← hs']
  split
  · exact .aside hhanding hbus hframes hspares (Or.inr ⟨rfl, hphase.symm⟩)
  · exact .aside hhanding hbus hframes hspares (Or.inr ⟨rfl, hphase.symm⟩)

/-- An action on a ring, for a task that has one; a task without one leaves. -/
theorem turn_onRing {s : Site} {r : Receiver}
    {action : Descriptor → Geometry → Memory → Site × Receiver}
    (h : ∀ fd g, r.ring? s = some (fd, g) →
      Turn s r (action fd g (s.medium.kernel.memory fd)).1
        (action fd g (s.medium.kernel.memory fd)).2) :
    Turn s r (r.onRing s action).1 (r.onRing s action).2 := by
  unfold onRing
  cases hring : (r.resource? s).bind Resource.ring with
  | none => exact Turn.leave _ (handing?_of_ring?_eq_none hring)
  | some ring => exact h ring.1 ring.2 hring

theorem turn_step {s : Site} {r : Receiver} (hring : s.bus.transport = .ring)
    (hsweeps : r.Sweeps) : Turn s r (r.step s).1 (r.step s).2 := by
  unfold step
  cases hstage : r.stage with
  | top => exact turn_atTop hring hstage
  | receiving | holding _ => simp [Sweeps, hstage] at hsweeps
  | looking sweep => exact turn_onRing fun fd g h => turn_look h hstage
  | releasing sweep => exact turn_onRing fun fd g h => .release h hstage rfl rfl
  | advancing sweep => exact turn_onRing fun fd g h => .advance h hstage rfl rfl
  | swept sweep => exact turn_onRing fun fd g _ => turn_endSweep g hstage
  | sleeping deadline order =>
    have hphase : r.phase = .resting r.cursor := by simp [phase, hstage]
    have hhanding : r.handing? s = none := handing?_of_stage_ne (by simp [hstage])
    simp only
    split
    · exact Turn.leave _ hhanding
    · split
      · exact .aside hhanding rfl rfl (Kernel.Spares.refl _) (Or.inr ⟨rfl, hphase.symm⟩)
      · exact .aside hhanding rfl rfl (Kernel.Spares.refl _) (Or.inr ⟨rfl, rfl⟩)
  | returned outcome =>
    exact .aside (handing?_of_stage_ne (by simp [hstage])) rfl (Reception.frames_finish _ _)
      (Kernel.Spares.refl _) (Or.inl rfl)
  | published =>
    exact .aside (handing?_of_stage_ne (by simp [hstage])) rfl rfl (Kernel.Spares.refl _)
      (Or.inl rfl)
  | exited died =>
    exact .aside (handing?_of_stage_ne (by simp [hstage])) rfl rfl (Kernel.Spares.refl _)
      (Or.inr ⟨rfl, rfl⟩)

/-- Only a task that hands a packet on has the echoes judge it. -/
theorem Turn.judged {s s' : Site} {r r' : Receiver} (h : Turn s r s' r') :
    (r.handing? s = none ∧ s'.bus = { s.bus with reception := s'.bus.reception } ∧
      s'.bus.reception.frames = s.bus.reception.frames) ∨
    ∃ fd p, r.handing? s = some (fd, p) ∧
      s'.bus = { s.bus with
        reception := s'.bus.reception, echoes := (s.bus.echoes.judge p).2 } ∧
      s'.bus.reception.frames = s.bus.reception.frames ++ (s.bus.echoes.judge p).1.frames := by
  cases h with
  | aside hhanding hbus hframes => exact Or.inl ⟨hhanding, hbus, hframes⟩
  | start hphase =>
    refine Or.inl ⟨handing?_of_stage_ne fun sweep hstage => ?_, rfl, rfl⟩
    rw [phase, hstage] at hphase
    cases hphase
  | stop hring hstage hlook =>
    exact Or.inl ⟨by simp [handing?, hstage, hring, hlook], rfl, rfl⟩
  | take hring hstage hlook hbus hframes hmedium hphase =>
    rename_i fd g sweep sweep' p
    exact Or.inr ⟨fd, p, by simp [handing?, hstage, hring, hlook], hbus, hframes⟩
  | release hring hstage | advance hring hstage =>
    exact Or.inl ⟨handing?_of_stage_ne (by simp [hstage]), rfl, rfl⟩

theorem onRing_snd {s : Site} {r : Receiver} {P : Receiver → Prop}
    {action : Descriptor → Geometry → Memory → Site × Receiver}
    (hleave : P (r.goTo (.returned (.ok ())))) (h : ∀ fd g m, P (action fd g m).2) :
    P (r.onRing s action).2 := by
  unfold onRing
  split
  · exact hleave
  · exact h _ _ _

/-- A task stays the same task, and where the actions on a ring lead. -/
theorem rings_step {s : Site} {r : Receiver} (hring : s.bus.transport = .ring)
    (hrings : r.stage.rings = true) :
    (r.step s).2.id = r.id ∧ (r.step s).2.stage.rings = true := by
  have hgo : ∀ stage : Stage, stage.rings = true →
      (r.goTo stage).id = r.id ∧ (r.goTo stage).stage.rings = true := by
    intro stage h
    rw [stage_goTo]
    exact ⟨id_goTo r stage, h⟩
  have hleave := hgo (.returned (.ok ())) rfl
  unfold step
  cases hstage : r.stage with
  | top =>
    unfold atTop
    simp only [hring]
    split
    · exact hleave
    · exact hgo _ rfl
  | receiving | holding _ => rw [hstage] at hrings; cases hrings
  | looking sweep =>
    apply onRing_snd (P := fun r' => r'.id = r.id ∧ r'.stage.rings = true) hleave
    intro fd g m
    unfold look
    split
    · exact hgo _ rfl
    · simp only
      split
      · exact hgo _ rfl
      · exact hgo _ rfl
      · exact hgo _ rfl
      · rw [handOn_snd]
        split
        · exact hgo _ rfl
        · exact hgo _ rfl
  | releasing sweep =>
    exact onRing_snd (P := fun r' => r'.id = r.id ∧ r'.stage.rings = true) hleave fun _ _ _ => hgo _ rfl
  | advancing sweep =>
    exact onRing_snd (P := fun r' => r'.id = r.id ∧ r'.stage.rings = true) hleave fun _ _ _ => hgo _ rfl
  | swept sweep =>
    apply onRing_snd (P := fun r' => r'.id = r.id ∧ r'.stage.rings = true) hleave
    intro fd g m
    unfold endSweep
    simp only
    split
    · exact ⟨id_goTo _ _, rfl⟩
    · exact ⟨id_goTo _ _, rfl⟩
  | sleeping deadline order =>
    simp only
    split
    · exact hleave
    · split
      · exact hgo _ rfl
      · exact ⟨rfl, hrings⟩
  | returned outcome => exact hgo _ rfl
  | published => exact hgo _ rfl
  | exited died => exact ⟨rfl, hrings⟩

theorem sweeps_of_rings {r : Receiver} (h : r.stage.rings = true) : r.Sweeps := by
  unfold Sweeps
  cases hstage : r.stage with
  | receiving | holding _ => rw [hstage] at h; cases h
  | _ => trivial

theorem rings_or_failed {r : Receiver} (h : r.Sweeps) :
    r.stage.rings = true ∨ ∃ e, r.stage = .returned (.error e) := by
  unfold Sweeps at h
  cases hstage : r.stage with
  | receiving | holding _ => rw [hstage] at h; exact h.elim
  | returned outcome =>
    cases outcome with
    | ok done => exact Or.inl rfl
    | error e => exact Or.inr ⟨e, rfl⟩
  | _ => exact Or.inl rfl

/-- A task stays the same task, and on its ring. -/
theorem kept_step {s : Site} {r : Receiver} (hring : s.bus.transport = .ring)
    (hsweeps : r.Sweeps) : (r.step s).2.id = r.id ∧ (r.step s).2.Sweeps := by
  rcases rings_or_failed hsweeps with hrings | ⟨e, hstage⟩
  · obtain ⟨hid, hrings'⟩ := rings_step hring hrings
    exact ⟨hid, sweeps_of_rings hrings'⟩
  · unfold step
    rw [hstage]
    exact ⟨id_goTo r _, sweeps_of_rings rfl⟩

end Receiver

end CanTransport
