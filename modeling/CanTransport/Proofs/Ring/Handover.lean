import CanTransport.Proofs.Ring.Contents
import Mathlib.Data.Nat.ModEq
/-!
# Handing packets over

The other side fills the slots of a ring in order, and only slots that it owns; the reader takes
them in order, and only slots that it owns. They share nothing but the status words. Every order of
their steps keeps one picture: from the reader's cursor to the filler's head lie the packets that
were put and not yet handed on, oldest first, and all other slots are free.
-/

namespace CanTransport

/-- The other side of a ring: the region, the slot that it fills next, the packets that it put. -/
structure Filling where
  memory : Memory
  head : Nat := 0
  put : List (Option Slot.Packet) := []

/-- Steps of the other side. It writes behind the status word as often as it likes, and hands the
slot over with the status word; a packet that finds its slot taken is dropped. -/
inductive Filling.Step (g : Geometry) : Filling → Filling → Prop where
  | store {f : Filling} (place : Nat) (bytes : List UInt8)
      (hfree : g.owned f.memory f.head = false)
      (hplace : 4 ≤ place) (hend : place + bytes.length ≤ g.slotSize) :
      Step g f { f with memory := f.memory.writeBytes (g.offset f.head + place) bytes }
  | handOver {f : Filling} (status : Nat)
      (hfree : g.owned f.memory f.head = false)
      (huser : Slot.hasBit status Slot.userBit = true) :
      Step g f {
        memory := Slot.setStatus f.memory (g.offset f.head) status
        head := (f.head + 1) % g.slotCount
        put := f.put ++ [g.packetAt f.memory f.head] }
  | drop {f : Filling} (htaken : g.owned f.memory f.head = true) : Step g f f

/-- Where the reader is between two of its steps. -/
inductive Phase where
  | resting (cursor : Nat)
  | looking (sweep : Sweep)
  | releasing (sweep : Sweep)
  | advancing (sweep : Sweep)

/-- Both sides of a ring and the packets that were handed on. -/
structure Handover where
  filling : Filling
  phase : Phase := .resting 0
  handed : List (Option Slot.Packet) := []

namespace Handover

/-- Nobody has touched the region yet. -/
def fresh (size : Nat) : Handover := { filling := { memory := ⟨size, {}⟩ } }

/-- A step of either side. -/
inductive Step (g : Geometry) : Handover → Handover → Prop where
  | fill {h : Handover} {f : Filling} (hfill : Filling.Step g h.filling f) :
      Step g h { h with filling := f }
  | start {h : Handover} {cursor : Nat} (hphase : h.phase = .resting cursor) :
      Step g h { h with phase := .looking { cursor } }
  | take {h : Handover} {s s' : Sweep} {p : Option Slot.Packet}
      (hphase : h.phase = .looking s) (hlook : s.look g h.filling.memory = some (p, s')) :
      Step g h { h with phase := .releasing s', handed := h.handed ++ [p] }
  | stop {h : Handover} {s : Sweep}
      (hphase : h.phase = .looking s) (hlook : s.look g h.filling.memory = none) :
      Step g h { h with phase := .resting s.cursor }
  | release {h : Handover} {s : Sweep} (hphase : h.phase = .releasing s) :
      Step g h { h with
        filling := { h.filling with memory := s.release g h.filling.memory }
        phase := .advancing s }
  | advance {h : Handover} {s : Sweep} (hphase : h.phase = .advancing s) :
      Step g h { h with phase := .looking (s.advance g) }

/-- What both sides can reach from a fresh region of `size` bytes. -/
inductive Reachable (g : Geometry) (size : Nat) : Handover → Prop where
  | fresh : Reachable g size (fresh size)
  | step {h h' : Handover} (hreach : Reachable g size h) (hstep : Step g h h') :
      Reachable g size h'

end Handover

/-- From `cursor` to the head lie the packets of `waiting`, and the reader owns no other slot. -/
structure Pending (g : Geometry) (f : Filling) (cursor : Nat)
    (waiting : List (Option Slot.Packet)) : Prop where
  cursor_lt : cursor < g.slotCount
  length_le : waiting.length ≤ g.slotCount
  head_eq : f.head = (cursor + waiting.length) % g.slotCount
  owned_iff : ∀ i < g.slotCount, g.owned f.memory (cursor + i) = true ↔ i < waiting.length
  packet_eq : ∀ i, (hi : i < waiting.length) → g.packetAt f.memory (cursor + i) = waiting[i]

namespace Pending

variable {g : Geometry} {size : Nat} {f : Filling} {cursor : Nat}
  {waiting : List (Option Slot.Packet)}

theorem fresh (hfits : g.Fits size) : Pending g { memory := ⟨size, {}⟩ } 0 [] := by
  refine ⟨hfits.count_pos, Nat.zero_le _, by simp, ?_, ?_⟩
  · intro i _
    simp [Geometry.owned_fresh]
  · intro i hi
    exact absurd hi (Nat.not_lt_zero i)

/-- Two places ahead of a cursor are different slots unless they are the same place. -/
theorem add_mod_ne {n i j : Nat} (cursor : Nat) (hi : i < n) (hj : j < n) (hne : i ≠ j) :
    (cursor + i) % n ≠ (cursor + j) % n := by
  intro h
  have hmod : i % n = j % n := Nat.ModEq.add_left_cancel' cursor h
  rw [Nat.mod_eq_of_lt hi, Nat.mod_eq_of_lt hj] at hmod
  exact hne hmod

/-- A free slot at the head leaves room; a ring that is full has the reader's slot there. -/
theorem length_lt_of_free (h : Pending g f cursor waiting)
    (hfree : g.owned f.memory f.head = false) : waiting.length < g.slotCount := by
  rcases Nat.lt_or_eq_of_le h.length_le with hlt | heq
  · exact hlt
  · have hpos : 0 < g.slotCount := Nat.zero_lt_of_lt h.cursor_lt
    have howned : g.owned f.memory (cursor + 0) = true := (h.owned_iff 0 hpos).mpr (heq ▸ hpos)
    rw [h.head_eq, heq, Nat.add_mod_right, Geometry.owned_mod] at hfree
    rw [Nat.add_zero, hfree] at howned
    cases howned

theorem head_mod (h : Pending g f cursor waiting) :
    f.head % g.slotCount = (cursor + waiting.length) % g.slotCount := by
  rw [h.head_eq, Nat.mod_mod]

theorem store (h : Pending g f cursor waiting) (hfits : g.Fits f.memory.size)
    (hfree : g.owned f.memory f.head = false) {place : Nat} {bytes : List UInt8}
    (hplace : 4 ≤ place) (hend : place + bytes.length ≤ g.slotSize) :
    Pending g { f with memory := f.memory.writeBytes (g.offset f.head + place) bytes }
      cursor waiting := by
  have hroom := h.length_lt_of_free hfree
  refine ⟨h.cursor_lt, h.length_le, h.head_eq, ?_, ?_⟩
  · intro i hi
    rw [Geometry.owned_writeBytes hfits hplace hend]
    exact h.owned_iff i hi
  · intro i hi
    rw [Geometry.packetAt_writeBytes_ne hfits hplace hend]
    · exact h.packet_eq i hi
    · rw [h.head_mod]
      exact add_mod_ne cursor hroom (by omega) (by omega)

theorem handOver (h : Pending g f cursor waiting) (hfits : g.Fits f.memory.size)
    (hfree : g.owned f.memory f.head = false) {status : Nat}
    (huser : Slot.hasBit status Slot.userBit = true) :
    Pending g {
        memory := Slot.setStatus f.memory (g.offset f.head) status
        head := (f.head + 1) % g.slotCount
        put := f.put ++ [g.packetAt f.memory f.head] }
      cursor (waiting ++ [g.packetAt f.memory f.head]) := by
  have hroom := h.length_lt_of_free hfree
  refine ⟨h.cursor_lt, ?_, ?_, ?_, ?_⟩
  · rw [List.length_append, List.length_singleton]
    omega
  · rw [List.length_append, List.length_singleton, h.head_eq, Nat.mod_add_mod, Nat.add_assoc]
  · intro i hi
    rw [List.length_append, List.length_singleton]
    by_cases heq : i = waiting.length
    · subst heq
      have hoff : g.offset (cursor + waiting.length) = g.offset f.head := by
        rw [← Geometry.offset_mod, ← h.head_mod, Geometry.offset_mod]
      have hsame := Geometry.owned_setStatus_same hfits f.head status
      rw [Geometry.owned] at hsame ⊢
      rw [hoff, hsame, huser]
      simp
    · rw [Geometry.owned_setStatus_ne hfits f.head status, h.owned_iff i hi]
      · omega
      · rw [h.head_mod]
        exact add_mod_ne cursor hroom hi (Ne.symm heq)
  · intro i hi
    rw [Geometry.packetAt_setStatus hfits]
    rw [List.length_append, List.length_singleton] at hi
    by_cases heq : i = waiting.length
    · subst heq
      rw [List.getElem_concat_length rfl, ← Geometry.packetAt_mod, ← h.head_mod,
        Geometry.packetAt_mod]
    · rw [List.getElem_append_left (by omega)]
      exact h.packet_eq i (by omega)

/-- Giving the oldest packet's slot back moves the picture on by one slot. -/
theorem release {p : Option Slot.Packet} (h : Pending g f cursor (p :: waiting))
    (hfits : g.Fits f.memory.size) :
    Pending g { f with memory := Slot.setStatus f.memory (g.offset cursor) 0 }
      ((cursor + 1) % g.slotCount) waiting := by
  have hpos : 0 < g.slotCount := Nat.zero_lt_of_lt h.cursor_lt
  have hlength := h.length_le
  rw [List.length_cons] at hlength
  have hmod : ∀ i, ((cursor + 1) % g.slotCount + i) % g.slotCount
      = (cursor + (i + 1)) % g.slotCount := by
    intro i
    rw [Nat.mod_add_mod, Nat.add_assoc, Nat.add_comm 1 i]
  refine ⟨Nat.mod_lt _ hpos, by omega, ?_, ?_, ?_⟩
  · rw [hmod, ← List.length_cons (a := p), h.head_eq]
  · intro i hi
    rw [← Geometry.owned_mod, hmod, Geometry.owned_mod]
    rcases Nat.lt_or_eq_of_le (Nat.succ_le_of_lt hi) with hlt | heq
    · rw [Geometry.owned_setStatus_ne hfits, h.owned_iff _ hlt, List.length_cons]
      · omega
      · exact add_mod_ne cursor hpos hlt (by omega)
    · have hwrap : g.offset (cursor + (i + 1)) = g.offset cursor := by
        rw [← Geometry.offset_mod, show i + 1 = g.slotCount from heq, Nat.add_mod_right,
          Geometry.offset_mod]
      have hsame := Geometry.owned_setStatus_same hfits cursor 0
      rw [Geometry.owned] at hsame ⊢
      rw [hwrap, hsame]
      have hnone : Slot.hasBit 0 Slot.userBit = false := rfl
      rw [hnone]
      constructor
      · intro hfalse
        cases hfalse
      · omega
  · intro i hi
    rw [Geometry.packetAt_setStatus hfits, ← Geometry.packetAt_mod, hmod, Geometry.packetAt_mod]
    exact h.packet_eq (i + 1) (by rw [List.length_cons]; omega)

end Pending

/-- A step of the other side adds what it put behind what was waiting. -/
theorem Filling.Step.pending {g : Geometry} {f f' : Filling} {cursor : Nat}
    {waiting : List (Option Slot.Packet)} (hstep : Filling.Step g f f')
    (hfits : g.Fits f.memory.size) (h : Pending g f cursor waiting) :
    ∃ new, Pending g f' cursor (waiting ++ new) ∧ f'.put = f.put ++ new := by
  cases hstep with
  | store place bytes hfree hplace hend =>
    refine ⟨[], ?_, by simp⟩
    rw [List.append_nil]
    exact h.store hfits hfree hplace hend
  | handOver status hfree huser =>
    exact ⟨[g.packetAt f.memory f.head], h.handOver hfits hfree huser, rfl⟩
  | drop htaken =>
    exact ⟨[], by rwa [List.append_nil], by simp⟩

theorem Filling.Step.size_eq {g : Geometry} {f f' : Filling} (hstep : Filling.Step g f f') :
    f'.memory.size = f.memory.size := by
  cases hstep with
  | store => exact Memory.size_writeBytes _ _ _
  | handOver => exact Memory.size_writeNumber _ _ _ _
  | drop => rfl

namespace Sweep

variable {g : Geometry} {m : Memory} {s s' : Sweep} {p : Option Slot.Packet}

/-- A look that finds a packet finds it in a slot of the reader. -/
theorem look_eq_some (h : s.look g m = some (p, s')) :
    g.owned m s.cursor = true ∧ p = g.packetAt m s.cursor ∧ s'.cursor = s.cursor := by
  unfold look at h
  split at h
  · simp only at h
    split at h
    · rename_i howned
      cases h
      exact ⟨howned, rfl, rfl⟩
    · cases h
  · cases h

end Sweep

namespace Handover

variable {g : Geometry} {size : Nat} {h h' : Handover}

/-- Between the cursor and the head lies what was put and not handed on. Between a packet and the
move behind it the cursor is still on a slot whose packet was handed on. -/
def InOrder (g : Geometry) (h : Handover) : Prop :=
  ∃ waiting, h.filling.put = h.handed ++ waiting ∧
    match h.phase with
    | .resting cursor => Pending g h.filling cursor waiting
    | .looking s => Pending g h.filling s.cursor waiting
    | .releasing s => ∃ p, Pending g h.filling s.cursor (p :: waiting)
    | .advancing s => Pending g h.filling ((s.cursor + 1) % g.slotCount) waiting

theorem Step.size_eq (hstep : Step g h h') : h'.filling.memory.size = h.filling.memory.size := by
  cases hstep with
  | fill hfill => exact hfill.size_eq
  | release => exact Memory.size_writeNumber _ _ _ _
  | _ => rfl

theorem Step.inOrder (hfits : g.Fits h.filling.memory.size) (hstep : Step g h h')
    (hin : InOrder g h) : InOrder g h' := by
  obtain ⟨waiting, hput, hin⟩ := hin
  cases hstep with
  | fill hfill =>
    rename_i f
    -- the other side only ever appends, wherever the reader is
    have happend : ∀ {cursor w}, Pending g h.filling cursor w →
        ∃ new, Pending g f cursor (w ++ new) ∧ f.put = h.filling.put ++ new :=
      fun hw => hfill.pending hfits hw
    unfold InOrder
    cases hphase : h.phase with
    | resting c =>
      simp only [hphase] at hin ⊢
      obtain ⟨new, hpending, hnew⟩ := happend hin
      exact ⟨waiting ++ new, by rw [hnew, hput, List.append_assoc], hpending⟩
    | looking s =>
      simp only [hphase] at hin ⊢
      obtain ⟨new, hpending, hnew⟩ := happend hin
      exact ⟨waiting ++ new, by rw [hnew, hput, List.append_assoc], hpending⟩
    | releasing s =>
      simp only [hphase] at hin ⊢
      obtain ⟨p, hin⟩ := hin
      obtain ⟨new, hpending, hnew⟩ := happend hin
      exact ⟨waiting ++ new, by rw [hnew, hput, List.append_assoc], p, hpending⟩
    | advancing s =>
      simp only [hphase] at hin ⊢
      obtain ⟨new, hpending, hnew⟩ := happend hin
      exact ⟨waiting ++ new, by rw [hnew, hput, List.append_assoc], hpending⟩
  | start hphase =>
    simp only [hphase] at hin
    exact ⟨waiting, hput, hin⟩
  | take hphase hlook =>
    simp only [hphase] at hin
    obtain ⟨howned, rfl, hcursor⟩ := Sweep.look_eq_some hlook
    have hpos : 0 < waiting.length := (hin.owned_iff 0 (Nat.zero_lt_of_lt hin.cursor_lt)).mp howned
    cases waiting with
    | nil => exact absurd hpos (Nat.not_lt_zero 0)
    | cons p waiting =>
      have hp : g.packetAt h.filling.memory _ = p := hin.packet_eq 0 hpos
      rw [Nat.add_zero] at hp
      refine ⟨waiting, ?_, p, ?_⟩
      · rw [hput, hp, List.append_assoc, List.singleton_append]
      · rw [hcursor]
        exact hin
  | stop hphase hlook =>
    simp only [hphase] at hin
    exact ⟨waiting, hput, hin⟩
  | release hphase =>
    simp only [hphase] at hin
    obtain ⟨p, hin⟩ := hin
    exact ⟨waiting, hput, hin.release hfits⟩
  | advance hphase =>
    simp only [hphase] at hin
    exact ⟨waiting, hput, hin⟩

theorem Reachable.fits (hfits : g.Fits size) (hreach : Reachable g size h) :
    g.Fits h.filling.memory.size := by
  induction hreach with
  | fresh => exact hfits
  | step _ hstep ih => rw [hstep.size_eq]; exact ih

theorem Reachable.inOrder (hfits : g.Fits size) (hreach : Reachable g size h) : InOrder g h := by
  induction hreach with
  | fresh => exact ⟨[], rfl, Pending.fresh hfits⟩
  | step hreach hstep ih => exact hstep.inOrder (hreach.fits hfits) ih

end Handover

end CanTransport
