import CanTransport.Proofs.Bus.Backlog
import CanTransport.Proofs.Bus.Beats
import CanTransport.Proofs.Bus.Stopping
import CanTransport.Proofs.Ring.Header
import Mathlib.Data.List.Nodup
/-!
# Packets on their way out

A ring also shows the copies of packets that this machine sends. A task that meets one hands nothing
on, asks no echo, and gives the slot back. It looks at the length first, though: a copy that is no
record is counted as a drop before its kind matters.
-/

namespace CanTransport

variable {m : Memory} {size base : Nat}

/-- What the copy of an outgoing packet does to a reception. -/
def Slot.Header.tapped (h : Slot.Header) (r : Reception) : Reception :=
  if h.captured = wireSize then r else r.count (Stats.countDropped 1)

theorem Slot.Header.tapped_eq_self_iff {h : Slot.Header} {r : Reception} :
    h.tapped r = r ↔ h.captured = wireSize := by
  unfold tapped
  split
  · rename_i hrecord
    exact iff_of_true rfl hrecord
  · rename_i hother
    refine iff_of_false (fun hsame => ?_) hother
    have hdropped : r.stats.dropped + UInt64.ofNat 1 = r.stats.dropped :=
      congrArg (fun r : Reception => r.stats.dropped) hsame
    simp at hdropped

/-- The kind decides only about records; the echoes stay in any case. -/
theorem Echoes.judge_of_outgoing (e : Echoes) (hinside : (Slot.header m base).Inside size)
    (hkind : (Slot.header m base).kind = Slot.outgoing) :
    e.judge (Slot.packet? m size base) =
      (if (Slot.header m base).captured = wireSize then .outgoing else .unusable, e) := by
  rw [Slot.packet?_eq, if_pos hinside]
  split
  · rw [hkind, judge_outgoing]
  · refine judge_no_record ?_ e
    intro raw kind hrecord
    cases hrecord

theorem Echoes.settle_of_outgoing (e : Echoes) (hinside : (Slot.header m base).Inside size)
    (hkind : (Slot.header m base).kind = Slot.outgoing) (r : Reception) :
    (e.judge (Slot.packet? m size base)).1.settle r = (true, (Slot.header m base).tapped r) := by
  rw [judge_of_outgoing e hinside hkind, Slot.Header.tapped]
  split
  · rfl
  · rfl

/-! ## A task that goes on -/

/-- A site whose task has gone on to a stage. -/
def Site.moveTo (s : Site) (r : Receiver) (stage : Stage) : Site :=
  s.setBus (s.bus.setReceiver (r.goTo stage))

/-- A site on which the memory of a packet socket is another. -/
def Site.withMemory (s : Site) (fd : Descriptor) (m : Memory) : Site :=
  (s.onKernel (Kernel.setMemory fd m)).2

theorem Receiver.handle_goTo {r : Receiver} {stage : Stage} (hloops : stage.loops = true) :
    (r.goTo stage).handle = r.handle := by
  cases stage with
  | returned _ | published | exited _ => cases hloops
  | _ => rfl

theorem Receiver.onRing_eq {s : Site} {r : Receiver} {fd : Descriptor} {g : Geometry}
    (hring : r.ring? s = some (fd, g))
    (action : Descriptor → Geometry → Memory → Site × Receiver) :
    r.onRing s action = action fd g (s.medium.kernel.memory fd) := by
  unfold onRing
  rw [show (r.resource? s).bind Resource.ring = some (fd, g) from hring]

/-- A task that keeps its resource is put back among the others. -/
theorem Bus.holds_setReceiver {b : Bus} {r r' : Receiver} (hnodup : b.tasks.Nodup)
    (hr : r ∈ b.receivers) (hid : r'.id = r.id) (hhandle : r'.handle = r.handle)
    (key : Descriptor) : (b.setReceiver r').holds key = b.holds key := by
  have hhandles : (b.setReceiver r').receivers.map Receiver.handle =
      b.receivers.map Receiver.handle := by
    simp only [setReceiver, List.map_map]
    apply List.map_congr_left
    intro other hother
    rw [Function.comp_apply]
    split
    · rename_i hsame
      have heq : other = r :=
        List.inj_on_of_nodup_map hnodup hother hr (hsame.trans hid)
      rw [hhandle, heq]
    · rfl
  have hany : ∀ receivers : List Receiver, receivers.any (·.handle == some key) =
      (receivers.map Receiver.handle).any (· == some key) := by
    intro receivers
    rw [List.any_map]
    rfl
  simp only [holds, hany, hhandles]
  rfl

namespace Site

variable {s s' : Site} {r : Receiver} {id : ReceiverId} {stage : Stage}

/-- A task that remains in its loop only moves: nothing is given back, and it keeps its ring. -/
theorem run_going (hheld : ∀ x ∈ s.bus.resources, s.bus.holds x.key = true)
    (hnodup : s.bus.tasks.Nodup) (hfind : s.bus.receiver? id = some r)
    (hstep : r.step s = (s', r.goTo stage)) (hloops : stage.loops = true) :
    s.run id = s'.moveTo r stage ∧ (s.run id).bus.receiver? id = some (r.goTo stage) ∧
      (r.goTo stage).ring? (s.run id) = r.ring? s := by
  have hacts := Receiver.acts_step s r
  have hhandle := Receiver.handle_goTo (r := r) hloops
  have hresource := resource?_run hfind
  have hnew := receiver?_run hfind
  rw [hstep] at hacts hresource hnew
  refine ⟨?_, hnew, ?_⟩
  · have hmem := (Bus.receiver?_mem hfind).1
    rw [run_of_receiver? hfind, hstep]
    apply collect_eq_self
    intro x hx
    have hbus := hacts.bus_eq
    have hholds : (s'.bus.setReceiver (r.goTo stage)).holds x.key = s'.bus.holds x.key := by
      apply Bus.holds_setReceiver (r := r)
      · rw [hbus]
        exact hnodup
      · rw [hbus]
        exact hmem
      · exact hacts.id_eq
      · exact hhandle
    have hx' : x ∈ s.bus.resources := by
      have hresources : s'.bus.resources = s.bus.resources := by rw [hbus]
      exact hresources ▸ hx
    show (s'.bus.setReceiver (r.goTo stage)).holds x.key = true
    rw [hholds, hbus]
    exact hheld x hx'
  · rw [Receiver.ring?, hresource hhandle, Receiver.ring?]

end Site

namespace Receiver

variable {s : Site} {r : Receiver} {sweep : Sweep} {fd : Descriptor} {g : Geometry}

/-- What a sweep keeps of a slot: whether packets were lost before it. -/
def passing (g : Geometry) (m : Memory) (sweep : Sweep) : Sweep :=
  { sweep with
    losing := sweep.losing || Slot.hasBit (Slot.status m (sweep.base g)) Slot.losingBit }

/-- A task looks at a slot that belongs to it and holds the copy of an outgoing packet. -/
theorem step_looking (hstage : r.stage = .looking sweep) (hring : r.ring? s = some (fd, g))
    (hturn : sweep.consumed < g.slotCount)
    (howned : g.owned (s.medium.kernel.memory fd) sweep.cursor = true)
    (hinside : (Slot.header (s.medium.kernel.memory fd) (sweep.base g)).Inside g.slotSize)
    (hkind : (Slot.header (s.medium.kernel.memory fd) (sweep.base g)).kind = Slot.outgoing) :
    r.step s = (s.onReception (Slot.header (s.medium.kernel.memory fd) (sweep.base g)).tapped,
      r.goTo (.releasing (passing g (s.medium.kernel.memory fd) sweep))) := by
  have hlook : sweep.look g (s.medium.kernel.memory fd) =
      some (Slot.packet? (s.medium.kernel.memory fd) g.slotSize (sweep.base g),
        passing g (s.medium.kernel.memory fd) sweep) := by
    rw [Sweep.look, if_pos hturn]
    exact if_pos howned
  have hjudge := Echoes.judge_of_outgoing s.bus.echoes hinside hkind
  have hsettle := Echoes.settle_of_outgoing s.bus.echoes hinside hkind s.bus.reception
  obtain ⟨hsite, htask⟩ := look_eq (r := r) (s := s) hlook
  rw [hsettle] at hsite htask
  rw [hjudge] at hsite
  unfold step
  rw [hstage]
  simp only
  rw [onRing_eq hring]
  exact Prod.ext hsite htask

theorem step_releasing (hstage : r.stage = .releasing sweep) (hring : r.ring? s = some (fd, g)) :
    r.step s = (s.withMemory fd (sweep.release g (s.medium.kernel.memory fd)),
      r.goTo (.advancing sweep)) := by
  unfold step
  rw [hstage]
  simp only
  rw [onRing_eq hring]
  rfl

theorem step_advancing (hstage : r.stage = .advancing sweep) (hring : r.ring? s = some (fd, g)) :
    r.step s = (s, r.goTo (.looking (sweep.advance g))) := by
  unfold step
  rw [hstage]
  simp only
  rw [onRing_eq hring]

end Receiver

namespace Life

variable {w w' : Life} {id : ReceiverId} {r : Receiver}

/-- As long as others act, a task stays where it is and keeps its ring. -/
theorem Run.stands (hrun : Run (· ≠ .run id) w w') (hfind : w.site.bus.receiver? id = some r)
    (hexited : r.hasExited = false) :
    ∃ r', w'.site.bus.receiver? id = some r' ∧ r'.stage = r.stage ∧
      ∀ ring, r.ring? w.site = some ring → r'.ring? w'.site = some ring := by
  induction hrun with
  | refl => exact ⟨r, hfind, rfl, fun _ hring => hring⟩
  | step _ hother hstep ih =>
    obtain ⟨r', hfind', hstage, hrings⟩ := ih
    have hexited' : r'.hasExited = false := by
      rw [Receiver.hasExited, hstage]
      exact hexited
    obtain ⟨r'', hfind'', hstands⟩ := hstep.stands hother hfind' hexited'
    refine ⟨r'', hfind'', hstands.stage_eq.trans hstage, ?_⟩
    exact fun ring hring => hstands.ring?_eq (hrings ring hring)

theorem Run.reachable {allowed : Event → Prop} {s : Site} (hreach : Reachable s w)
    (hrun : Run allowed w w') : Reachable s w' := by
  induction hrun with
  | refl => exact hreach
  | step _ _ hstep ih => exact ih.step trivial hstep

/-- A task of a ring that remains in its loop. -/
theorem Steady.run_going {s' : Site} {stage : Stage} (h : w.Steady)
    (htransport : w.site.bus.transport = .ring) (hfind : w.site.bus.receiver? id = some r)
    (hstep : r.step w.site = (s', r.goTo stage)) (hloops : stage.loops = true) :
    (w.run id).site = s'.moveTo r stage ∧
      (w.run id).site.bus.receiver? id = some (r.goTo stage) ∧
      (r.goTo stage).ring? (w.run id).site = r.ring? w.site :=
  Site.run_going h.sound.held (h.supplied htransport).nodup hfind hstep hloops

/-- The sweep over the copy of an outgoing packet, in three actions of the task, whatever others do
between them. The look leaves the echoes alone, and the reception exactly if the packet has a
record's length; otherwise it counts a drop. The release writes the status, and the advance moves
the cursor. -/
theorem only_released_iff {channel : String} {c : BusConfig} {m m' : Medium} {b : Bus}
    (hfresh : m.kernel.Fresh) (hmake : (Bus.make .ring channel c).run m = (.ok b, m'))
    (hreach : Reachable ⟨b, m'⟩ w) (hfind : w.site.bus.receiver? id = some r) {sweep : Sweep}
    (hstage : r.stage = .looking sweep) {fd : Descriptor} {g : Geometry}
    (hring : r.ring? w.site = some (fd, g)) (hturn : sweep.consumed < g.slotCount)
    (howned : g.owned (w.site.medium.kernel.memory fd) sweep.cursor = true)
    (hinside : (Slot.header (w.site.medium.kernel.memory fd) (sweep.base g)).Inside g.slotSize)
    (hkind : (Slot.header (w.site.medium.kernel.memory fd) (sweep.base g)).kind = Slot.outgoing) :
    let header := Slot.header (w.site.medium.kernel.memory fd) (sweep.base g)
    let passed := Receiver.passing g (w.site.medium.kernel.memory fd) sweep
    (w.run id).site = (w.site.onReception header.tapped).moveTo r (.releasing passed) ∧
    (w.run id).site.bus.echoes = w.site.bus.echoes ∧
    ((w.run id).site.bus.reception = w.site.bus.reception ↔ header.captured = wireSize) ∧
    (header.captured ≠ wireSize →
      (w.run id).site.bus.reception = w.site.bus.reception.count (Stats.countDropped 1)) ∧
    ∀ w₁, Run (· ≠ .run id) (w.run id) w₁ → ∃ r₁, w₁.site.bus.receiver? id = some r₁ ∧
      (w₁.run id).site = (w₁.site.withMemory fd
        (Slot.setStatus (w₁.site.medium.kernel.memory fd) (sweep.base g) 0)).moveTo r₁
          (.advancing passed) ∧
      ∀ w₂, Run (· ≠ .run id) (w₁.run id) w₂ → ∃ r₂, w₂.site.bus.receiver? id = some r₂ ∧
        (w₂.run id).site = w₂.site.moveTo r₂ (.looking (passed.advance g)) := by
  intro header passed
  have hsteady := steady_of_make hfresh hmake
  have hring_of : ∀ {u : Life}, Reachable ⟨b, m'⟩ u → u.site.bus.transport = .ring :=
    fun hu => (hu.transport_eq hsteady.sound).trans (Bus.made_of_make hfresh hmake).1
  obtain ⟨hsite, hfind', hring'⟩ := (hreach.steady hsteady).run_going (hring_of hreach) hfind
    (Receiver.step_looking hstage hring hturn howned hinside hkind) rfl
  have hreception : (w.run id).site.bus.reception = header.tapped w.site.bus.reception := by
    rw [hsite]
    rfl
  refine ⟨hsite, ?_, ?_, ?_, ?_⟩
  · rw [hsite]
    rfl
  · rw [hreception]
    exact Slot.Header.tapped_eq_self_iff
  · intro hother
    rw [hreception]
    exact if_neg hother
  intro w₁ hrun₁
  have hreach₁ := Run.reachable (hreach.step trivial (.run id)) hrun₁
  obtain ⟨r₁, hfind₁, hstage₁, hrings₁⟩ := hrun₁.stands hfind' rfl
  have hring₁ := hrings₁ (fd, g) (hring'.trans hring)
  obtain ⟨hsite₁, hfind₁', hring₁'⟩ := (hreach₁.steady hsteady).run_going (hring_of hreach₁)
    hfind₁ (Receiver.step_releasing hstage₁ hring₁) rfl
  refine ⟨r₁, hfind₁, hsite₁, ?_⟩
  intro w₂ hrun₂
  have hreach₂ := Run.reachable (hreach₁.step trivial (.run id)) hrun₂
  obtain ⟨r₂, hfind₂, hstage₂, hrings₂⟩ := hrun₂.stands hfind₁' rfl
  have hring₂ := hrings₂ (fd, g) (hring₁'.trans hring₁)
  obtain ⟨hsite₂, -, -⟩ := (hreach₂.steady hsteady).run_going (hring_of hreach₂)
    hfind₂ (Receiver.step_advancing hstage₂ hring₂) rfl
  exact ⟨r₂, hfind₂, hsite₂⟩

/-- A ring bus was made and connected, its region was filled, and its task is about to look at the
first slot. -/
theorem exists_looking (memory : Memory) : ∃ b m' w r,
    (Bus.make .ring "can0" {}).run {} = (.ok b, m') ∧ Reachable ⟨b, m'⟩ w ∧
    w.site.bus.receiver? 1 = some r ∧ r.stage = .looking { cursor := 0 } ∧
    r.ring? w.site = some (0, ⟨4096, 128, 32, 2048⟩) ∧ w.site.medium.kernel.memory 0 = memory ∧
    w.site.bus.reception = { published := [.running, .idle] } := by
  obtain ⟨b, m', u, r, hmake, hu, hfind, hstage, hring, hregion, hreception⟩ : ∃ b m' u r,
      (Bus.make .ring "can0" {}).run {} = (.ok b, m') ∧
      u = replay ⟨b, m'⟩ (calling 0 .connect ++ [.run 1]) ∧
      u.site.bus.receiver? 1 = some r ∧ r.stage = .looking { cursor := 0 } ∧
      r.ring? u.site = some (0, ⟨4096, 128, 32, 2048⟩) ∧
      (u.site.medium.kernel.region? 0).isSome = true ∧
      u.site.bus.reception = { published := [.running, .idle] } :=
    ⟨_, _, _, _, rfl, rfl, rfl, rfl, rfl, rfl, rfl⟩
  obtain ⟨old, hold⟩ := Option.isSome_iff_exists.mp hregion
  have hspares := Kernel.spares_setMemory 0 memory u.site.medium.kernel
  have hreach : Reachable ⟨b, m'⟩ u := hu ▸ reachable_replay _ _
  refine ⟨b, m', { u with site := u.site.withMemory 0 memory }, r, hmake,
    hreach.step trivial (.outside ⟨hspares.next_le, fun _ hnone => hnone.elim, hspares.fresh⟩),
    hfind, hstage, hring, ?_, hreception⟩
  apply Kernel.memory_eq_of_region?
  show ((Kernel.setMemory 0 memory).run u.site.medium.kernel).2.region? 0 = some memory
  rw [Kernel.region?_setMemory, if_pos rfl, hold]
  rfl

/-- The region of a default ring whose first slot holds the copy of an outgoing packet of so many
bytes. -/
def tappedRegion (length : Nat) : Memory :=
  Slot.fill ⟨262144, {}⟩ 128 0 { data := List.replicate length 1, length := length, place := 80,
                                 kind := Slot.outgoing }

theorem slot_tappedRegion : ∀ length ∈ [16, 48],
    let m := tappedRegion length
    Slot.header m 0 = ⟨0, length, 80, Slot.outgoing⟩ ∧ (Slot.header m 0).Inside 128 ∧
      Geometry.owned ⟨4096, 128, 32, 2048⟩ m 0 = true ∧
      Receiver.passing ⟨4096, 128, 32, 2048⟩ m { cursor := 0 } = { cursor := 0 } := by
  decide +kernel

/-- The copy of a record: the task goes on to give its slot back, and nothing is counted. -/
theorem only_released_by_default : ∃ b m' w r,
    (Bus.make .ring "can0" {}).run {} = (.ok b, m') ∧ Reachable ⟨b, m'⟩ w ∧
    w.site.bus.receiver? 1 = some r ∧
    Slot.header (w.site.medium.kernel.memory 0) 0 = ⟨0, 16, 80, Slot.outgoing⟩ ∧
    (w.run 1).site = w.site.moveTo r (.releasing { cursor := 0 }) := by
  obtain ⟨hheader, hinside, howned, hpassed⟩ := slot_tappedRegion 16 (by decide)
  obtain ⟨b, m', w, r, hmake, hreach, hfind, hstage, hring, hregion, -⟩ :=
    exists_looking (tappedRegion 16)
  have hbase : Sweep.base ⟨4096, 128, 32, 2048⟩ { cursor := 0 } = 0 := by decide
  rw [← hregion] at hheader hinside howned hpassed
  obtain ⟨hsite, -, -, -⟩ := only_released_iff (fun _ _ => rfl) hmake hreach hfind hstage hring
    (by decide) howned (by rw [hbase]; exact hinside) (by rw [hbase, hheader])
  refine ⟨b, m', w, r, hmake, hreach, hfind, hheader, ?_⟩
  rw [hsite, hpassed, hbase, hheader]
  rfl

/-- The copy of a packet of 48 bytes is counted as a drop. -/
theorem drop_of_outgoing : ∃ b m' w r,
    (Bus.make .ring "can0" {}).run {} = (.ok b, m') ∧ Reachable ⟨b, m'⟩ w ∧
    w.site.bus.receiver? 1 = some r ∧ r.stage = .looking { cursor := 0 } ∧
    r.ring? w.site = some (0, ⟨4096, 128, 32, 2048⟩) ∧
    Geometry.owned ⟨4096, 128, 32, 2048⟩ (w.site.medium.kernel.memory 0) 0 = true ∧
    Slot.header (w.site.medium.kernel.memory 0) 0 = ⟨0, 48, 80, Slot.outgoing⟩ ∧
    (Slot.header (w.site.medium.kernel.memory 0) 0).Inside 128 ∧
    w.site.bus.reception.stats = {} ∧ (w.run 1).site.bus.reception.stats = { dropped := 1 } := by
  obtain ⟨hheader, hinside, howned, -⟩ := slot_tappedRegion 48 (by decide)
  obtain ⟨b, m', w, r, hmake, hreach, hfind, hstage, hring, hregion, hreception⟩ :=
    exists_looking (tappedRegion 48)
  have hbase : Sweep.base ⟨4096, 128, 32, 2048⟩ { cursor := 0 } = 0 := by decide
  rw [← hregion] at hheader hinside howned
  have hstep := Receiver.step_looking hstage hring (by decide) howned
    (by rw [hbase]; exact hinside) (by rw [hbase, hheader])
  have hrun : (w.run 1).site.bus.reception = (r.step w.site).1.bus.reception :=
    Site.reception_run hfind
  refine ⟨b, m', w, r, hmake, hreach, hfind, hstage, hring, howned, hheader, hinside, ?_, ?_⟩
  · rw [hreception]
  · rw [hrun, hstep, hbase, hheader]
    show (Slot.Header.tapped _ w.site.bus.reception).stats = _
    rw [hreception]
    rfl

end Life

end CanTransport
