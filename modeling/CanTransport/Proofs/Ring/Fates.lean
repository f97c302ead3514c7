import CanTransport.Proofs.Ring.Echoes
import CanTransport.Reception.Basic
/-!
# The fate of a packet

What becomes of the packet in a slot that is consumed, told by what lies in the slot and by the
echoes that are awaited, and what it does to a reception: a frame is handed to the listener, or one
drop is counted, or nothing happens.
-/

namespace CanTransport

/-- What becomes of the packet in a slot. -/
inductive Fate where
  /-- It is a frame, which the listener gets. -/
  | delivered
  /-- It is the copy of a packet on its way out. -/
  | outgoing
  /-- It is the echo of an own send. -/
  | echo
  /-- Its header points outside the slot. -/
  | misplaced
  /-- It has another length than a record. -/
  | unsupported
  /-- It is a record, but its length byte is none of a frame. -/
  | malformed
deriving DecidableEq, Repr

/-- Whether a drop is counted. -/
def Fate.isDrop : Fate → Bool
  | .misplaced | .unsupported | .malformed => true
  | _ => false

namespace Frame

/-- Whether a record is a frame: its length byte is eight at most. -/
def Fits (raw : Wire) : Prop := ∀ length ∈ raw[4]?, length.toNat ≤ 8

instance (raw : Wire) : Decidable (Fits raw) :=
  inferInstanceAs (Decidable (∀ length ∈ raw[4]?, length.toNat ≤ 8))

theorem exists_ofWire {raw : Wire} (h : Fits raw) : ∃ frame, ofWire raw = .ok frame := by
  have hlength : raw[4].toNat ≤ 8 := h raw[4] (Vector.getElem?_eq_getElem _)
  exact ⟨_, dif_pos hlength⟩

theorem exists_fault {raw : Wire} (h : ¬ Fits raw) : ∃ fault, ofWire raw = .error fault := by
  have hlength : ¬ raw[4].toNat ≤ 8 := by
    intro hle
    refine h fun length hmem => ?_
    cases (Vector.getElem?_eq_getElem (by decide)).symm.trans hmem
    exact hle
  exact ⟨_, dif_neg hlength⟩

end Frame

namespace Echoes

/-- The fate of a packet, or of a slot whose header leads to none. -/
def fate (e : Echoes) : Option Slot.Packet → Fate
  | none => .misplaced
  | some (.unsupported _) => .unsupported
  | some (.record raw kind) =>
    if kind = Slot.outgoing then .outgoing
    else if e.enabled = true ∧ e.pending.contains raw = true then .echo
    else if Frame.Fits raw then .delivered
    else .malformed

variable {e : Echoes} {raw : Wire} {kind : UInt8}

theorem fate_outgoing : e.fate (some (.record raw Slot.outgoing)) = .outgoing := by
  rw [fate, if_pos rfl]

theorem fate_echo (hkind : kind ≠ Slot.outgoing) (henabled : e.enabled = true)
    (hmem : raw ∈ e.pending) : e.fate (some (.record raw kind)) = .echo := by
  rw [fate, if_neg hkind, if_pos ⟨henabled, List.contains_iff_mem.mpr hmem⟩]

theorem fate_arrival (hkind : kind ≠ Slot.outgoing) (hnew : ¬ (e.enabled = true ∧ raw ∈ e.pending)) :
    e.fate (some (.record raw kind)) =
      if Frame.Fits raw then .delivered else .malformed := by
  rw [← List.contains_iff_mem] at hnew
  rw [fate, if_neg hkind, if_neg hnew]

/-- A record that is no echo is left to be handed on. -/
theorem judge_arrival (hkind : kind ≠ Slot.outgoing)
    (hnew : ¬ (e.enabled = true ∧ raw ∈ e.pending)) :
    e.judge (some (.record raw kind)) = (.arrival raw, e) := by
  cases henabled : e.enabled with
  | false => rw [judge, if_neg hkind, take_of_disabled henabled]
  | true => exact judge_new hkind fun hmem => hnew ⟨henabled, hmem⟩

end Echoes

/-- A slot that was consumed. -/
structure Consumed where
  /-- Whether the slot says that packets were lost before it. -/
  losing : Bool
  packet : Option Slot.Packet
  fate : Fate
deriving DecidableEq

namespace Consumed

/-- The record in the slot. -/
def record? (c : Consumed) : Option Wire :=
  match c.packet with
  | some (.record raw _) => some raw
  | _ => none

/-- The record that the listener gets as a frame. -/
def arrival? (c : Consumed) : Option Wire := if c.fate = .delivered then c.record? else none

theorem arrival?_of_ne {c : Consumed} (h : c.fate ≠ .delivered) : c.arrival? = none := if_neg h

end Consumed

namespace Reception

/-- What a slot that is consumed does to a reception. -/
inductive Takes (r : Reception) (c : Consumed) : Reception → Prop where
  | delivered {r' : Reception} {raw : Wire} {d : Delivery} (hfate : c.fate = .delivered)
      (hrecord : c.record? = some raw) (hframe : Frame.ofWire raw = .ok d.frame)
      (hdeliveries : r'.deliveries = r.deliveries ++ [d])
      (hstats : r'.stats = r.stats.countReceived) : Takes r c r'
  | skipped (hfate : c.fate = .outgoing ∨ c.fate = .echo) : Takes r c r
  | dropped {r' : Reception} (hfate : c.fate.isDrop = true)
      (hdeliveries : r'.deliveries = r.deliveries)
      (hstats : r'.stats = r.stats.countDropped 1) : Takes r c r'

theorem Takes.deliveries_kept {r r' : Reception} {c : Consumed} (h : r.Takes c r') {d : Delivery}
    (hd : d ∈ r.deliveries) : d ∈ r'.deliveries := by
  cases h with
  | delivered _ _ _ hdeliveries =>
    rw [hdeliveries]
    exact List.mem_append_left _ hd
  | skipped => exact hd
  | dropped _ hdeliveries => exact hdeliveries ▸ hd

/-- A record is handed on as a frame, or dropped. -/
theorem takes_deliverWire {c : Consumed} {raw : Wire} (hrecord : c.record? = some raw)
    (hfate : c.fate = if Frame.Fits raw then .delivered else .malformed) (r : Reception) :
    r.Takes c (r.deliverWire raw).2 := by
  unfold deliverWire
  by_cases hfits : Frame.Fits raw
  · obtain ⟨frame, hframe⟩ := Frame.exists_ofWire hfits
    rw [if_pos hfits] at hfate
    rw [hframe]
    exact .delivered hfate hrecord hframe rfl rfl
  · obtain ⟨fault, hfault⟩ := Frame.exists_fault hfits
    rw [if_neg hfits] at hfate
    rw [hfault]
    exact .dropped (by rw [hfate]; rfl) rfl rfl

end Reception

/-- What the verdict about a packet does to a reception, and whether the listener returned. -/
def Verdict.settle (verdict : Verdict) (r : Reception) : Bool × Reception :=
  match verdict with
  | .outgoing | .echo => (true, r)
  | .unusable => (true, r.count (Stats.countDropped 1))
  | .arrival raw => r.deliverWire raw

/-- The verdict about a packet and its fate come to the same. -/
theorem Echoes.takes_settle (e : Echoes) (losing : Bool) (p : Option Slot.Packet) (r : Reception) :
    r.Takes ⟨losing, p, e.fate p⟩ ((e.judge p).1.settle r).2 := by
  match p with
  | none => exact .dropped rfl rfl rfl
  | some (.unsupported length) => exact .dropped rfl rfl rfl
  | some (.record raw kind) =>
    by_cases hkind : kind = Slot.outgoing
    · subst hkind
      rw [judge_outgoing, fate_outgoing]
      exact .skipped (Or.inl rfl)
    · by_cases hecho : e.enabled = true ∧ raw ∈ e.pending
      · obtain ⟨before, behind, -, -, hjudge⟩ := judge_echo hecho.1 hkind hecho.2
        rw [hjudge, fate_echo hkind hecho.1 hecho.2]
        exact .skipped (Or.inr rfl)
      · rw [judge_arrival hkind hecho, fate_arrival hkind hecho]
        exact Reception.takes_deliverWire rfl rfl r

end CanTransport
