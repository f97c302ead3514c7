import CanTransport.Proofs.Bus.Taps
import CanTransport.Proofs.Ring.Sweeping
/-!
# The sweep of a task

A reception task sweeps its ring in three actions a slot, and handles each packet before it gives
the slot back. If nothing comes between its actions it does to the region what a whole sweep does,
and hands the packets of that sweep on in the same order.
-/

namespace CanTransport

/-- What packets in a row make of the echoes awaited and of a reception, as long as the listener
returns, and whether it did. -/
def Echoes.settleAll (e : Echoes) (r : Reception) :
    List (Option Slot.Packet) → Bool × Echoes × Reception
  | [] => (true, e, r)
  | p :: rest =>
    let (verdict, e) := e.judge p
    let (returned, r) := verdict.settle r
    if returned then e.settleAll r rest else (false, e, r)

theorem Echoes.settleAll_cons {e : Echoes} {r : Reception} {p : Option Slot.Packet}
    {rest : List (Option Slot.Packet)} (h : (e.settleAll r (p :: rest)).1 = true) :
    ((e.judge p).1.settle r).1 = true ∧ e.settleAll r (p :: rest) =
      (e.judge p).2.settleAll ((e.judge p).1.settle r).2 rest := by
  rw [settleAll] at h ⊢
  simp only at h ⊢
  split at h
  · rename_i hreturned
    exact ⟨hreturned, if_pos hreturned⟩
  · cases h

theorem Kernel.region?_of_memory {k : Kernel} {fd : Descriptor} (h : 0 < (k.memory fd).size) :
    k.region? fd = some (k.memory fd) := by
  unfold Kernel.memory at h ⊢
  cases hregion : (k.packets.lookup fd).map PacketSocket.memory with
  | none =>
    rw [hregion] at h
    exact absurd h (Nat.lt_irrefl 0)
  | some m => exact hregion

namespace Receiver

variable {s : Site} {r : Receiver} {sweep sweep' : Sweep} {fd : Descriptor} {g : Geometry}
  {p : Option Slot.Packet}

/-- A task takes the packet under its cursor, and its listener returns. -/
theorem step_looking_some (hstage : r.stage = .looking sweep) (hring : r.ring? s = some (fd, g))
    (hlook : sweep.look g (s.medium.kernel.memory fd) = some (p, sweep'))
    (hreturned : ((s.bus.echoes.judge p).1.settle s.bus.reception).1 = true) :
    r.step s = (s.setBus { s.bus with
        echoes := (s.bus.echoes.judge p).2
        reception := ((s.bus.echoes.judge p).1.settle s.bus.reception).2 },
      r.goTo (.releasing sweep')) := by
  obtain ⟨hsite, htask⟩ := look_eq (r := r) (s := s) hlook
  rw [hreturned] at htask
  unfold step
  rw [hstage]
  simp only
  rw [onRing_eq hring]
  exact Prod.ext hsite htask

theorem step_looking_none (hstage : r.stage = .looking sweep) (hring : r.ring? s = some (fd, g))
    (hlook : sweep.look g (s.medium.kernel.memory fd) = none) :
    r.step s = (s, r.goTo (.swept sweep)) := by
  unfold step
  rw [hstage]
  simp only
  rw [onRing_eq hring, look, hlook]

end Receiver

namespace Life

/-- A life in which a task is at some stage over its ring, with the region, the echoes awaited and
the reception that it has in common with others. -/
structure At (w : Life) (id : ReceiverId) (stage : Stage) (ring : Descriptor × Geometry)
    (m : Memory) (e : Echoes) (reception : Reception) : Prop where
  task : ∃ r, w.site.bus.receiver? id = some r ∧ r.stage = stage ∧ r.ring? w.site = some ring
  region_eq : w.site.medium.kernel.region? ring.1 = some m
  echoes_eq : w.site.bus.echoes = e
  reception_eq : w.site.bus.reception = reception

/-- Some actions of one task in a row. -/
def alone (w : Life) (id : ReceiverId) (n : Nat) : Life := (fun w => w.run id)^[n] w

variable {w : Life} {id : ReceiverId} {fd : Descriptor} {g : Geometry} {m : Memory} {e : Echoes}
  {reception : Reception} {sweep sweep' : Sweep} {p : Option Slot.Packet}

theorem alone_succ (w : Life) (id : ReceiverId) (n : Nat) :
    w.alone id (n + 1) = (w.run id).alone id n :=
  Function.iterate_succ_apply _ _ _

section Steady

variable (h : w.Steady) (htransport : w.site.bus.transport = .ring)
include h htransport

theorem At.look (hat : w.At id (.looking sweep) (fd, g) m e reception)
    (hlook : sweep.look g m = some (p, sweep'))
    (hreturned : ((e.judge p).1.settle reception).1 = true) :
    (w.run id).At id (.releasing sweep') (fd, g) m (e.judge p).2
      ((e.judge p).1.settle reception).2 := by
  obtain ⟨⟨r, hfind, hstage, hring⟩, hregion, rfl, rfl⟩ := hat
  rw [← Kernel.memory_eq_of_region? hregion] at hlook
  obtain ⟨hsite, hfind', hring'⟩ := h.run_going htransport hfind
    (Receiver.step_looking_some hstage hring hlook hreturned) rfl
  refine ⟨⟨_, hfind', rfl, hring'.trans hring⟩, ?_, ?_, ?_⟩
  all_goals rw [hsite]
  · exact hregion
  · rfl
  · rfl

theorem At.release (hat : w.At id (.releasing sweep) (fd, g) m e reception) :
    (w.run id).At id (.advancing sweep) (fd, g) (sweep.release g m) e reception := by
  obtain ⟨⟨r, hfind, hstage, hring⟩, hregion, rfl, rfl⟩ := hat
  obtain ⟨hsite, hfind', hring'⟩ := h.run_going htransport hfind
    (Receiver.step_releasing hstage hring) rfl
  refine ⟨⟨_, hfind', rfl, hring'.trans hring⟩, ?_, ?_, ?_⟩
  all_goals rw [hsite]
  · rw [Kernel.memory_eq_of_region? hregion]
    refine (Kernel.region?_setMemory fd fd _ w.site.medium.kernel).trans ?_
    rw [if_pos rfl, hregion]
    rfl
  · rfl
  · rfl

theorem At.advance (hat : w.At id (.advancing sweep) (fd, g) m e reception) :
    (w.run id).At id (.looking (sweep.advance g)) (fd, g) m e reception := by
  obtain ⟨⟨r, hfind, hstage, hring⟩, hregion, rfl, rfl⟩ := hat
  obtain ⟨hsite, hfind', hring'⟩ := h.run_going htransport hfind
    (Receiver.step_advancing hstage hring) rfl
  refine ⟨⟨_, hfind', rfl, hring'.trans hring⟩, ?_, ?_, ?_⟩
  all_goals rw [hsite]
  · exact hregion
  · rfl
  · rfl

theorem At.stop (hat : w.At id (.looking sweep) (fd, g) m e reception)
    (hlook : sweep.look g m = none) :
    (w.run id).At id (.swept sweep) (fd, g) m e reception := by
  obtain ⟨⟨r, hfind, hstage, hring⟩, hregion, rfl, rfl⟩ := hat
  rw [← Kernel.memory_eq_of_region? hregion] at hlook
  obtain ⟨hsite, hfind', hring'⟩ := h.run_going htransport hfind
    (Receiver.step_looking_none hstage hring hlook) rfl
  refine ⟨⟨_, hfind', rfl, hring'.trans hring⟩, ?_, ?_, ?_⟩
  all_goals rw [hsite]
  · exact hregion
  · rfl
  · rfl

end Steady

/-- A task that acts alone sweeps as far as a whole sweep does, with three actions for each packet
and one that finds none. -/
theorem At.sweep_run {s : Site} {steps : Nat} (hsteady : Steady { site := s })
    (hring : s.bus.transport = .ring) (hreach : Reachable s w)
    (hat : w.At id (.looking sweep) (fd, g) m e reception)
    (hsteps : sweep.consumed + steps = g.slotCount)
    (hreturned : (e.settleAll reception (Sweep.run g steps m sweep).1).1 = true) :
    (w.alone id (3 * (Sweep.run g steps m sweep).1.length + 1)).At id
      (.swept (Sweep.run g steps m sweep).2.2) (fd, g) (Sweep.run g steps m sweep).2.1
      (e.settleAll reception (Sweep.run g steps m sweep).1).2.1
      (e.settleAll reception (Sweep.run g steps m sweep).1).2.2 := by
  have hsteady_of : ∀ {u : Life}, Reachable s u → u.Steady ∧ u.site.bus.transport = .ring :=
    fun hu => ⟨hu.steady hsteady, (hu.transport_eq hsteady.sound).trans hring⟩
  induction steps generalizing w sweep m e reception with
  | zero =>
    have hlook : sweep.look g m = none := if_neg (by omega)
    exact hat.stop (hsteady_of hreach).1 (hsteady_of hreach).2 hlook
  | succ steps ih =>
    cases hlook : sweep.look g m with
    | none =>
      rw [Sweep.run, hlook]
      exact hat.stop (hsteady_of hreach).1 (hsteady_of hreach).2 hlook
    | some found =>
      obtain ⟨p, sweep'⟩ := found
      rw [Sweep.run, hlook] at hreturned ⊢
      simp only at hreturned ⊢
      obtain ⟨hfirst, hall⟩ := Echoes.settleAll_cons hreturned
      rw [hall] at hreturned ⊢
      -- the three actions over the slot under the cursor
      have hreach₁ : Reachable s (w.run id) := hreach.step trivial (.run id)
      have hreach₂ : Reachable s ((w.run id).run id) := hreach₁.step trivial (.run id)
      have hreach₃ : Reachable s (((w.run id).run id).run id) := hreach₂.step trivial (.run id)
      have hat₁ := hat.look (hsteady_of hreach).1 (hsteady_of hreach).2 hlook hfirst
      have hat₂ := hat₁.release (hsteady_of hreach₁).1 (hsteady_of hreach₁).2
      have hat₃ := hat₂.advance (hsteady_of hreach₂).1 (hsteady_of hreach₂).2
      have hconsumed := Sweep.consumed_look hlook
      have hrest := ih hreach₃ hat₃ (by rw [Sweep.advance, hconsumed]; simp only; omega) hreturned
      rw [List.length_cons, Nat.mul_add, Nat.mul_one, Nat.add_right_comm, alone_succ, alone_succ,
        alone_succ]
      exact hrest

end Life

/-- A sweep hands on exactly the packets of the slots in a row that belong to the reader, in ring
order, gives exactly these slots back, and comes to rest behind them. It depends on nothing but the
bytes of these slots and the status word of the next one; another sweep at once finds nothing. A
reception task that is about to begin a sweep of the region, and acts alone, does all of this. -/
theorem sweep_takes_ready {ring : RingConfig} {base : Nat} {g : Geometry} {m : Memory}
    {cursor : Nat} (hregion : Geometry.ofRegion base m.size ring = .ok g)
    (hbytes : ring.bytes < 2 ^ 64) (hcursor : cursor < g.slotCount) :
    let done := sweep g m cursor
    g.Swept m cursor done.1 done.2.1 done.2.2 ∧
    (∀ m' : Memory, m'.size = m.size → Set.EqOn m'.read m.read (g.visible m cursor) →
      g.ready m' cursor = g.ready m cursor ∧ (sweep g m' cursor).1 = done.1 ∧
        (sweep g m' cursor).2.2 = done.2.2) ∧
    sweep g done.2.1 done.2.2.cursor = ([], done.2.1, { cursor := done.2.2.cursor }) ∧
    ∀ (channel : String) (c : BusConfig) (before after : Medium) (b : Bus) (w : Life)
      (id : ReceiverId) (fd : Descriptor) (e : Echoes) (reception : Reception),
      before.kernel.Fresh → (Bus.make .ring channel c).run before = (.ok b, after) →
      Life.Reachable ⟨b, after⟩ w → w.At id (.looking { cursor }) (fd, g) m e reception →
      (e.settleAll reception done.1).1 = true →
      (w.alone id (3 * g.ready m cursor + 1)).At id (.swept done.2.2) (fd, g) done.2.1
        (e.settleAll reception done.1).2.1 (e.settleAll reception done.1).2.2 := by
  intro done
  have hfits := Geometry.fits_of_ofRegion hregion hbytes (Nat.zero_lt_of_lt hcursor)
  have hswept := Geometry.swept hfits hcursor
  refine ⟨hswept, fun m' hsize heq => ?_, Geometry.sweep_again hfits hcursor, ?_⟩
  · exact ⟨Geometry.ready_eq_of_eqOn hfits heq,
      Geometry.sweep_eq_of_eqOn hfits heq hsize hcursor⟩
  · intro channel c before after b w id fd e reception hfresh hmake hreach hat hreturned
    have hpackets : done.1.length = g.ready m cursor := by
      rw [hswept.packets_eq, List.length_map, List.length_range]
    rw [← hpackets]
    exact hat.sweep_run (Life.steady_of_make hfresh hmake) (Bus.made_of_make hfresh hmake).1 hreach
      (Nat.zero_add _) hreturned

theorem Life.ready_tappedRegion :
    let m := tappedRegion 48
    m.size = 262144 ∧ Geometry.ready ⟨4096, 128, 32, 2048⟩ m 0 = 1 ∧
      (sweep ⟨4096, 128, 32, 2048⟩ m 0).1 = [some (.unsupported 48)] ∧
      (sweep ⟨4096, 128, 32, 2048⟩ m 0).2.2 = { cursor := 1, consumed := 1 } := by
  intro m
  have hsize : m.size = 262144 := by decide +kernel
  have hready : Geometry.ready ⟨4096, 128, 32, 2048⟩ m 0 = 1 := by
    refine Geometry.ready_eq_iff.mpr ⟨by decide, fun i hi => ?_, fun _ => by decide +kernel⟩
    rw [Nat.lt_one_iff.mp hi]
    exact (slot_tappedRegion 48 (by decide)).2.2.1
  have hpacket : Geometry.packetAt ⟨4096, 128, 32, 2048⟩ m 0 = some (.unsupported 48) := by
    decide +kernel
  have hlosing : Geometry.losing ⟨4096, 128, 32, 2048⟩ m 0 = false := by decide +kernel
  refine ⟨hsize, hready, ?_⟩
  rw [sweep_eq ?_ (by decide), hready]
  · refine ⟨congrArg (fun p => [p]) hpacket, ?_⟩
    show Sweep.mk 1 1 (Geometry.losing _ m 0 || false) = _
    rw [hlosing]
    rfl
  · have hregion : Geometry.ofRegion 4096 262144 {} = .ok ⟨4096, 128, 32, 2048⟩ := by decide
    rw [hsize]
    exact Geometry.fits_of_ofRegion hregion (by decide) (by decide)

/-- A default ring whose first slot holds the copy of a packet of 48 bytes: four actions of its
task, after which the slot is given back and one drop is counted. -/
theorem sweep_takes_tapped : ∃ (w : Life) (e : Echoes) (r : Reception) (m : Memory),
    r.stats = {} ∧
    w.At 1 (.looking { cursor := 0 }) (0, ⟨4096, 128, 32, 2048⟩) (Life.tappedRegion 48) e r ∧
    (w.alone 1 4).At 1 (.swept { cursor := 1, consumed := 1 }) (0, ⟨4096, 128, 32, 2048⟩) m e
      (r.count (Stats.countDropped 1)) ∧
    Slot.status m 0 = 0 ∧ ∀ a, 4 ≤ a → m.read a = (Life.tappedRegion 48).read a := by
  obtain ⟨hsize, hready, hpackets, hend⟩ := Life.ready_tappedRegion
  obtain ⟨b, m', w, r, hmake, hreach, hfind, hstage, hring, hmemory, hreception⟩ :=
    Life.exists_looking (Life.tappedRegion 48)
  have hat : w.At 1 (.looking { cursor := 0 }) (0, ⟨4096, 128, 32, 2048⟩) (Life.tappedRegion 48)
      w.site.bus.echoes w.site.bus.reception := by
    refine ⟨⟨r, hfind, hstage, hring⟩, ?_, rfl, rfl⟩
    rw [← hmemory]
    apply Kernel.region?_of_memory
    rw [hmemory, hsize]
    decide
  have hregion : Geometry.ofRegion 4096 (Life.tappedRegion 48).size {} =
      .ok ⟨4096, 128, 32, 2048⟩ := by
    rw [hsize]
    decide
  have hbytes : ({} : RingConfig).bytes < 2 ^ 64 := by decide
  have hcursor : 0 < (⟨4096, 128, 32, 2048⟩ : Geometry).slotCount := by decide
  obtain ⟨hswept, -, -, halone⟩ := sweep_takes_ready hregion hbytes hcursor
  have hafter := halone "can0" {} {} m' b w 1 0 _ _ (fun _ _ => rfl) hmake hreach hat
    (by rw [hpackets]; rfl)
  rw [hready, hpackets, hend] at hafter
  refine ⟨w, w.site.bus.echoes, w.site.bus.reception, _, by rw [hreception], hat, hafter, ?_, ?_⟩
  · exact hswept.status_eq 0 (by rw [hready]; decide)
  · intro a ha
    apply hswept.read_eq
    intro i hi
    rw [hready, Nat.lt_one_iff] at hi
    subst hi
    rintro ⟨-, hlt⟩
    exact absurd (Nat.lt_of_le_of_lt ha hlt) (by decide)

end CanTransport
