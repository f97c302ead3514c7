import CanTransport.Ring.Sweep
import CanTransport.Proofs.Memory
import CanTransport.Proofs.Ring.Layout
/-!
# What lies in a slot

Owner and packet of a slot depend on the bytes of that slot alone, and a status word has no part
in the packet. So what happens to one slot leaves the others as they are.
-/

namespace CanTransport

/-- Whether a slot belongs to the reader. -/
def Geometry.owned (g : Geometry) (m : Memory) (i : Nat) : Bool :=
  Slot.hasBit (Slot.status m (g.offset i)) Slot.userBit

/-- The packet in a slot, unless its header points outside. -/
def Geometry.packetAt (g : Geometry) (m : Memory) (i : Nat) : Option Slot.Packet :=
  Slot.packet? m g.slotSize (g.offset i)

namespace Slot

theorem status_congr {m m' : Memory} {base : Nat}
    (h : ∀ x, base ≤ x → x < base + 4 → m.read x = m'.read x) : status m base = status m' base :=
  Memory.readNumber_congr h

/-- A packet is read from behind the status word and inside the slot. -/
theorem packet?_congr {m m' : Memory} {size base : Nat} (hsize : 48 ≤ size)
    (h : ∀ x, base + 4 ≤ x → x < base + size → m.read x = m'.read x) :
    packet? m size base = packet? m' size base := by
  have hlength : m.readNumber (base + lengthField) 4 = m'.readNumber (base + lengthField) 4 := by
    apply Memory.readNumber_congr
    intro x hx hlt
    simp only [lengthField] at hx hlt
    exact h x (by omega) (by omega)
  have hplace : m.readNumber (base + placeField) 2 = m'.readNumber (base + placeField) 2 := by
    apply Memory.readNumber_congr
    intro x hx hlt
    simp only [placeField] at hx hlt
    exact h x (by omega) (by omega)
  unfold packet?
  simp only [hlength, hplace]
  split
  · rfl
  rename_i hbounds
  simp only [kindField, not_or, Nat.not_lt] at hbounds
  split
  · rfl
  rename_i hwire
  rw [not_not] at hwire
  rw [hwire] at hbounds
  have hkind : m.read (base + kindField) = m'.read (base + kindField) := by
    simp only [kindField]
    exact h _ (by omega) (by omega)
  have hraw : wireAt m (base + m'.readNumber (base + placeField) 2) =
      wireAt m' (base + m'.readNumber (base + placeField) 2) := by
    unfold wireAt
    congr 1
    funext i
    have hi := i.isLt
    simp only [wireSize] at hbounds
    exact h _ (by omega) (by omega)
  rw [hkind, hraw]

/-- Only the lowest bit of a status counts for the owner, so the width of the word does not. -/
theorem hasBit_user_mod (n : Nat) : hasBit (n % 256 ^ 4) userBit = hasBit n userBit := by
  simp only [hasBit, userBit, Nat.div_one]
  rw [Nat.mod_mod_of_dvd n (by norm_num : 2 ∣ 256 ^ 4)]

theorem status_setStatus (m : Memory) (base n : Nat) (h : base + 4 ≤ m.size) :
    status (setStatus m base n) base = n % 256 ^ 4 :=
  Memory.readNumber_writeNumber m base 4 n h

end Slot

namespace Geometry

variable {g : Geometry} {size : Nat}

/-- Writes inside one slot leave the others alone. -/
theorem owned_congr {m m' : Memory} (h : g.Fits size) {i j : Nat}
    (hne : i % g.slotCount ≠ j % g.slotCount)
    (hsame : ∀ x, x < g.offset i ∨ g.offset i + g.slotSize ≤ x → m'.read x = m.read x) :
    g.owned m' j = g.owned m j := by
  have hslot := h.slot_ge
  have hdis := offset_disjoint h hne
  have hstatus : Slot.status m' (g.offset j) = Slot.status m (g.offset j) := by
    apply Slot.status_congr
    intro x hx hlt
    exact hsame x (by omega)
  rw [owned, owned, hstatus]

theorem packetAt_congr {m m' : Memory} (h : g.Fits size) {i j : Nat}
    (hne : i % g.slotCount ≠ j % g.slotCount)
    (hsame : ∀ x, x < g.offset i ∨ g.offset i + g.slotSize ≤ x → m'.read x = m.read x) :
    g.packetAt m' j = g.packetAt m j := by
  have hslot := h.slot_ge
  have hdis := offset_disjoint h hne
  apply Slot.packet?_congr hslot
  intro x hx hlt
  exact hsame x (by omega)

theorem owned_mod (g : Geometry) (m : Memory) (i : Nat) :
    g.owned m (i % g.slotCount) = g.owned m i := by
  simp only [owned, offset_mod]

theorem packetAt_mod (g : Geometry) (m : Memory) (i : Nat) :
    g.packetAt m (i % g.slotCount) = g.packetAt m i := by
  simp only [packetAt, offset_mod]

section SetStatus

variable {m : Memory} (h : g.Fits m.size) (i status : Nat)
include h

theorem read_setStatus_of_outside (x : Nat)
    (hx : x < g.offset i ∨ g.offset i + g.slotSize ≤ x) :
    (Slot.setStatus m (g.offset i) status).read x = m.read x := by
  have hslot := h.slot_ge
  exact Memory.read_writeNumber_of_outside _ _ _ _ _ (by omega)

theorem owned_setStatus_same :
    g.owned (Slot.setStatus m (g.offset i) status) i = Slot.hasBit status Slot.userBit := by
  have hslot := h.slot_ge
  have hend := offset_add_le h i
  rw [owned, Slot.status_setStatus _ _ _ (by omega), Slot.hasBit_user_mod]

theorem owned_setStatus_ne {j : Nat} (hne : i % g.slotCount ≠ j % g.slotCount) :
    g.owned (Slot.setStatus m (g.offset i) status) j = g.owned m j :=
  owned_congr h hne (read_setStatus_of_outside h i status)

/-- The packets stay, also the one behind the status word. -/
theorem packetAt_setStatus (j : Nat) :
    g.packetAt (Slot.setStatus m (g.offset i) status) j = g.packetAt m j := by
  by_cases hij : i % g.slotCount = j % g.slotCount
  · have hoff : g.offset i = g.offset j := by rw [← offset_mod g i, hij, offset_mod]
    apply Slot.packet?_congr h.slot_ge
    intro x hx _
    exact Memory.read_writeNumber_of_outside _ _ _ _ _ (by omega)
  · exact packetAt_congr h hij (read_setStatus_of_outside h i status)

end SetStatus

section WriteBytes

variable {m : Memory} (h : g.Fits m.size) {i place : Nat} {bytes : List UInt8}
  (hplace : 4 ≤ place) (hend : place + bytes.length ≤ g.slotSize)
include h hplace hend

/-- Bytes behind the status word do not change an owner. -/
theorem owned_writeBytes (j : Nat) :
    g.owned (m.writeBytes (g.offset i + place) bytes) j = g.owned m j := by
  by_cases hij : i % g.slotCount = j % g.slotCount
  · have hoff : g.offset i = g.offset j := by rw [← offset_mod g i, hij, offset_mod]
    have hstatus : Slot.status (m.writeBytes (g.offset i + place) bytes) (g.offset j) =
        Slot.status m (g.offset j) := by
      apply Slot.status_congr
      intro x _ hlt
      exact Memory.read_writeBytes_of_outside _ _ _ _ (by omega)
    rw [owned, owned, hstatus]
  · apply owned_congr h hij
    intro x hx
    exact Memory.read_writeBytes_of_outside _ _ _ _ (by omega)

theorem packetAt_writeBytes_ne {j : Nat} (hne : i % g.slotCount ≠ j % g.slotCount) :
    g.packetAt (m.writeBytes (g.offset i + place) bytes) j = g.packetAt m j := by
  apply packetAt_congr h hne
  intro x hx
  exact Memory.read_writeBytes_of_outside _ _ _ _ (by omega)

end WriteBytes

/-- A region that nobody wrote to belongs to the other side. -/
theorem owned_fresh (g : Geometry) (size i : Nat) : g.owned ⟨size, {}⟩ i = false := by
  have hread : ∀ a width, (⟨size, {}⟩ : Memory).readNumber a width = 0 := by
    intro a width
    induction width generalizing a with
    | zero => rfl
    | succ width ih => rw [Memory.readNumber, ih]; rfl
  rw [owned, Slot.status, hread]
  rfl

end Geometry

end CanTransport
