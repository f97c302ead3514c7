import CanTransport.Proofs.Kernel.Queues
import CanTransport.Proofs.Kernel.Regions
import Mathlib.Data.List.Basic
/-!
# Inventories

The sockets and mappings that exist, and what the record of calls says about their ends: no socket
is closed twice, and no mapping is given back after its packet socket was closed. Most calls leave
the inventory alone and end nothing.
-/

namespace CanTransport

/-- Sockets and mappings, in the order in which they were made. -/
@[ext] structure Inventory where
  raws : List Descriptor := []
  packets : List Descriptor := []
  mappings : List Descriptor := []
deriving DecidableEq, Repr

namespace Inventory

instance : Append Inventory where
  append i j := ⟨i.raws ++ j.raws, i.packets ++ j.packets, i.mappings ++ j.mappings⟩

@[simp] theorem raws_append (i j : Inventory) : (i ++ j).raws = i.raws ++ j.raws := rfl

@[simp] theorem packets_append (i j : Inventory) : (i ++ j).packets = i.packets ++ j.packets := rfl

@[simp] theorem mappings_append (i j : Inventory) : (i ++ j).mappings = i.mappings ++ j.mappings :=
  rfl

theorem append_assoc (i j l : Inventory) : i ++ j ++ l = i ++ (j ++ l) := by
  ext1 <;> simp

@[simp] theorem append_empty (i : Inventory) : i ++ ({} : Inventory) = i := by
  ext1 <;> simp

@[simp] theorem empty_append (i : Inventory) : ({} : Inventory) ++ i = i := rfl

def all (i : Inventory) : List Descriptor := i.raws ++ i.packets ++ i.mappings

@[simp] theorem mem_all {i : Inventory} {fd : Descriptor} :
    fd ∈ i.all ↔ fd ∈ i.raws ∨ fd ∈ i.packets ∨ fd ∈ i.mappings := by
  simp [all]

@[simp] theorem mem_all_append {i j : Inventory} {fd : Descriptor} :
    fd ∈ (i ++ j).all ↔ fd ∈ i.all ∨ fd ∈ j.all := by
  simp only [mem_all, raws_append, packets_append, mappings_append, List.mem_append]
  tauto

def filter (p : Descriptor → Bool) (i : Inventory) : Inventory :=
  ⟨i.raws.filter p, i.packets.filter p, i.mappings.filter p⟩

/-- The part with certain numbers. -/
def only (made : List Descriptor) (i : Inventory) : Inventory := i.filter (· ∈ made)

/-- The part without certain numbers. -/
def without (made : List Descriptor) (i : Inventory) : Inventory := i.filter (· ∉ made)

end Inventory

def Kernel.inventory (k : Kernel) : Inventory where
  raws := k.raws.map (·.1)
  packets := k.packets.map (·.1)
  mappings := k.mappings

/-- What a call closes or gives back. -/
def Call.ends : Call → Option Descriptor
  | .unmap fd | .closeCan fd | .closePacket fd => some fd
  | _ => none

/-- What a record of calls says about what there is: of the numbers in `own`, no socket is or was
there after it was closed, a mapping has its packet socket, and none is given back after that
socket was closed. -/
structure Inventory.Tidy (own : Descriptor → Prop) (calls : List Call) (i : Inventory) : Prop where
  raw_once : ∀ fd, own fd → calls.count (.closeCan fd) + i.raws.count fd ≤ 1
  packet_once : ∀ fd, own fd → calls.count (.closePacket fd) + i.packets.count fd ≤ 1
  mapping_once : ∀ fd, own fd → i.mappings.count fd ≤ 1
  mapped : ∀ fd, own fd → fd ∈ i.mappings → fd ∈ i.packets
  unmapped_first : ∀ fd, own fd →
    calls.Pairwise fun earlier later => earlier = .closePacket fd → later ≠ .unmap fd

namespace Inventory.Tidy

variable {own : Descriptor → Prop} {calls more : List Call} {i : Inventory} {fd : Descriptor}

theorem mono {own' : Descriptor → Prop} (h : i.Tidy own calls) (himp : ∀ fd, own' fd → own fd) :
    i.Tidy own' calls where
  raw_once fd hfd := h.raw_once fd (himp fd hfd)
  packet_once fd hfd := h.packet_once fd (himp fd hfd)
  mapping_once fd hfd := h.mapping_once fd (himp fd hfd)
  mapped fd hfd := h.mapped fd (himp fd hfd)
  unmapped_first fd hfd := h.unmapped_first fd (himp fd hfd)

theorem count_of_ends_eq_none (hmore : ∀ call ∈ more, call.ends = none) (call : Call)
    (hcall : call.ends ≠ none) : more.count call = 0 :=
  List.count_eq_zero_of_not_mem fun hmem => hcall (hmore call hmem)

/-- Calls that end nothing. -/
theorem quiet (h : i.Tidy own calls) (hmore : ∀ call ∈ more, call.ends = none) :
    i.Tidy own (calls ++ more) where
  raw_once fd hfd := by
    have hnone := count_of_ends_eq_none hmore (.closeCan fd) nofun
    rw [List.count_append, hnone]
    exact h.raw_once fd hfd
  packet_once fd hfd := by
    have hnone := count_of_ends_eq_none hmore (.closePacket fd) nofun
    rw [List.count_append, hnone]
    exact h.packet_once fd hfd
  mapping_once := h.mapping_once
  mapped := h.mapped
  unmapped_first fd hfd := by
    refine List.pairwise_append.mpr ⟨h.unmapped_first fd hfd, ?_, fun _ _ later hlater _ => ?_⟩
    · apply List.pairwise_of_forall_mem_list
      rintro _ _ later hlater - rfl
      cases hmore _ hlater
    · rintro rfl
      cases hmore _ hlater

theorem not_mem_of_packet (h : i.Tidy own calls) (hown : own fd) (hfd : fd ∈ i.packets) :
    Call.closePacket fd ∉ calls := by
  have honce := h.packet_once fd hown
  have hpos := List.count_pos_iff.mpr hfd
  apply List.count_eq_zero.mp
  omega

theorem addRaw (h : i.Tidy own calls) (hcalls : .closeCan fd ∉ calls) (hfd : fd ∉ i.raws) :
    (i ++ ({ raws := [fd] } : Inventory)).Tidy own calls where
  raw_once other hother := by
    have honce := h.raw_once other hother
    simp only [raws_append, List.count_append, List.count_singleton]
    by_cases heq : fd = other
    · subst heq
      rw [List.count_eq_zero_of_not_mem hcalls, List.count_eq_zero_of_not_mem hfd]
      simp
    · simpa [heq] using honce
  packet_once := by simpa using h.packet_once
  mapping_once := by simpa using h.mapping_once
  mapped := by simpa using h.mapped
  unmapped_first := h.unmapped_first

theorem addPacket (h : i.Tidy own calls) (hcalls : .closePacket fd ∉ calls)
    (hfd : fd ∉ i.packets) : (i ++ ({ packets := [fd] } : Inventory)).Tidy own calls where
  raw_once := by simpa using h.raw_once
  packet_once other hother := by
    have honce := h.packet_once other hother
    simp only [packets_append, List.count_append, List.count_singleton]
    by_cases heq : fd = other
    · subst heq
      rw [List.count_eq_zero_of_not_mem hcalls, List.count_eq_zero_of_not_mem hfd]
      simp
    · simpa [heq] using honce
  mapping_once := by simpa using h.mapping_once
  mapped other hother hmem := by
    simp only [mappings_append, List.append_nil] at hmem
    exact List.mem_append_left _ (h.mapped other hother hmem)
  unmapped_first := h.unmapped_first

theorem addMapping (h : i.Tidy own calls) (hpacket : fd ∈ i.packets) (hfd : fd ∉ i.mappings) :
    (i ++ ({ mappings := [fd] } : Inventory)).Tidy own calls where
  raw_once := by simpa using h.raw_once
  packet_once := by simpa using h.packet_once
  mapping_once other hother := by
    have honce := h.mapping_once other hother
    simp only [mappings_append, List.count_append, List.count_singleton]
    by_cases heq : fd = other
    · subst heq
      rw [List.count_eq_zero_of_not_mem hfd]
      simp
    · simpa [heq] using honce
  mapped other hother hmem := by
    simp only [packets_append, List.append_nil]
    rcases List.mem_append.mp hmem with hold | hnew
    · exact h.mapped other hother hold
    · cases List.mem_singleton.mp hnew
      exact hpacket
  unmapped_first := h.unmapped_first

/-- Only what is there can be closed. -/
theorem closeRaw (h : i.Tidy own calls) (hfd : fd ∈ i.raws) :
    (⟨i.raws.filter (· != fd), i.packets, i.mappings⟩ : Inventory).Tidy own
      (calls ++ [.closeCan fd]) where
  raw_once other hother := by
    have honce := h.raw_once other hother
    simp only [List.count_append, List.count_singleton]
    by_cases heq : fd = other
    · subst heq
      have hpos := List.count_pos_iff.mpr hfd
      have hgone : (i.raws.filter (· != fd)).count fd = 0 :=
        List.count_eq_zero_of_not_mem fun hmem => by simp at hmem
      simp only [hgone, beq_self_eq_true, if_true]
      omega
    · have hkept : (i.raws.filter (· != fd)).count other = i.raws.count other :=
        List.count_filter (by simpa using Ne.symm heq)
      simpa [hkept, heq] using honce
  packet_once other hother := by
    have honce := h.packet_once other hother
    simpa [List.count_append, List.count_singleton] using honce
  mapping_once := h.mapping_once
  mapped := h.mapped
  unmapped_first other hother := by
    refine List.pairwise_append.mpr ⟨h.unmapped_first other hother, List.pairwise_singleton _ _, ?_⟩
    rintro _ _ _ hlater -
    cases List.mem_singleton.mp hlater
    exact nofun

/-- Only a packet socket that is not mapped can be closed. -/
theorem closePacket (h : i.Tidy own calls) (hfd : fd ∈ i.packets)
    (hmapping : fd ∉ i.mappings) :
    (⟨i.raws, i.packets.filter (· != fd), i.mappings⟩ : Inventory).Tidy own
      (calls ++ [.closePacket fd]) where
  raw_once other hother := by
    have honce := h.raw_once other hother
    simpa [List.count_append, List.count_singleton] using honce
  packet_once other hother := by
    have honce := h.packet_once other hother
    simp only [List.count_append, List.count_singleton]
    by_cases heq : fd = other
    · subst heq
      have hpos := List.count_pos_iff.mpr hfd
      have hgone : (i.packets.filter (· != fd)).count fd = 0 :=
        List.count_eq_zero_of_not_mem fun hmem => by simp at hmem
      simp only [hgone, beq_self_eq_true, if_true]
      omega
    · have hkept : (i.packets.filter (· != fd)).count other = i.packets.count other :=
        List.count_filter (by simpa using Ne.symm heq)
      simpa [hkept, heq] using honce
  mapping_once := h.mapping_once
  mapped other hother hmem := by
    refine List.mem_filter.mpr ⟨h.mapped other hother hmem, bne_iff_ne.mpr ?_⟩
    rintro rfl
    exact hmapping hmem
  unmapped_first other hother := by
    refine List.pairwise_append.mpr ⟨h.unmapped_first other hother, List.pairwise_singleton _ _, ?_⟩
    rintro _ _ _ hlater -
    cases List.mem_singleton.mp hlater
    exact nofun

/-- A mapping is given back while its packet socket is there. -/
theorem unmap (h : i.Tidy own calls) (hown : own fd) (hfd : fd ∈ i.packets) :
    (⟨i.raws, i.packets, i.mappings.filter (· != fd)⟩ : Inventory).Tidy own
      (calls ++ [.unmap fd]) where
  raw_once other hother := by
    have honce := h.raw_once other hother
    simpa [List.count_append, List.count_singleton] using honce
  packet_once other hother := by
    have honce := h.packet_once other hother
    simpa [List.count_append, List.count_singleton] using honce
  mapping_once other hother :=
    (List.filter_sublist.count_le other).trans (h.mapping_once other hother)
  mapped other hother hmem := h.mapped other hother (List.mem_filter.mp hmem).1
  unmapped_first other hother := by
    refine List.pairwise_append.mpr ⟨h.unmapped_first other hother, List.pairwise_singleton _ _, ?_⟩
    rintro earlier hearlier later hlater rfl heq
    cases List.mem_singleton.mp hlater
    cases heq
    exact h.not_mem_of_packet hown hfd hearlier

end Inventory.Tidy

namespace Kernel

/-- Whatever there is, and whatever was ended, has a number that was given out. -/
structure Numbered (k : Kernel) : Prop where
  inventory_lt : ∀ fd ∈ k.inventory.all, fd < k.next
  trace_lt : ∀ call ∈ k.trace, ∀ fd, call.ends = some fd → fd < k.next

/-- `k'` comes after `k`, the inventory is the same, and nothing was ended. -/
structure Quiet (k k' : Kernel) : Prop where
  next_eq : k'.next = k.next
  inventory_eq : k'.inventory = k.inventory
  trace_eq : ∃ calls, k'.trace = k.trace ++ calls ∧ ∀ call ∈ calls, call.ends = none

variable {k k' k'' : Kernel} {own : Descriptor → Prop}

theorem region?_eq_none_iff {fd : Descriptor} :
    k.region? fd = none ↔ fd ∉ k.inventory.packets := by
  simp only [region?, inventory, Option.map_eq_none_iff, List.lookup_eq_none_iff, List.mem_map,
    bne_iff_ne, ne_eq, not_exists, not_and]
  exact ⟨fun h entry hentry heq => h entry hentry heq.symm,
    fun h entry hentry heq => h entry hentry heq.symm⟩

theorem Numbered.fresh (h : k.Numbered) : k.Fresh := by
  intro fd hfd
  rw [region?_eq_none_iff]
  intro hmem
  have hlt := h.inventory_lt fd (Inventory.mem_all.mpr (Or.inr (Or.inl hmem)))
  exact Nat.not_lt.mpr hfd hlt

/-- Numbers that are still to be given out have no history. -/
theorem Numbered.tidy (h : k.Numbered) (htidy : k.inventory.Tidy own k.trace) :
    k.inventory.Tidy (fun fd => own fd ∨ k.next ≤ fd) k.trace := by
  have hcalls : ∀ fd call, k.next ≤ fd → call.ends = some fd → call ∉ k.trace := by
    intro fd call hge hcall hmem
    exact Nat.not_lt.mpr hge (h.trace_lt call hmem fd hcall)
  have hall : ∀ fd, k.next ≤ fd → fd ∉ k.inventory.all := by
    intro fd hge hmem
    exact Nat.not_lt.mpr hge (h.inventory_lt fd hmem)
  simp only [Inventory.mem_all, not_or] at hall
  constructor
  · rintro fd (hown | hge)
    · exact htidy.raw_once fd hown
    · rw [List.count_eq_zero_of_not_mem (hcalls fd _ hge rfl),
        List.count_eq_zero_of_not_mem (hall fd hge).1]
      exact Nat.zero_le 1
  · rintro fd (hown | hge)
    · exact htidy.packet_once fd hown
    · rw [List.count_eq_zero_of_not_mem (hcalls fd _ hge rfl),
        List.count_eq_zero_of_not_mem (hall fd hge).2.1]
      exact Nat.zero_le 1
  · rintro fd (hown | hge)
    · exact htidy.mapping_once fd hown
    · rw [List.count_eq_zero_of_not_mem (hall fd hge).2.2]
      exact Nat.zero_le 1
  · rintro fd (hown | hge) hmem
    · exact htidy.mapped fd hown hmem
    · exact absurd hmem (hall fd hge).2.2
  · rintro fd (hown | hge)
    · exact htidy.unmapped_first fd hown
    · apply List.pairwise_of_forall_mem_list
      rintro earlier hearlier _ _ rfl
      exact absurd hearlier (hcalls fd _ hge rfl)

namespace Quiet

theorem refl (k : Kernel) : Quiet k k := ⟨rfl, rfl, [], (List.append_nil _).symm, nofun⟩

theorem trans (h : Quiet k k') (h' : Quiet k' k'') : Quiet k k'' := by
  obtain ⟨calls, hcalls, hnone⟩ := h.trace_eq
  obtain ⟨calls', hcalls', hnone'⟩ := h'.trace_eq
  refine ⟨h'.next_eq.trans h.next_eq, h'.inventory_eq.trans h.inventory_eq, calls ++ calls', ?_, ?_⟩
  · rw [hcalls', hcalls, List.append_assoc]
  · intro call hcall
    rcases List.mem_append.mp hcall with hmem | hmem
    · exact hnone call hmem
    · exact hnone' call hmem

/-- A change of nothing but what sockets hold. -/
theorem of_eq (hnext : k'.next = k.next) (hinventory : k'.inventory = k.inventory)
    (htrace : k'.trace = k.trace) : Quiet k k' :=
  ⟨hnext, hinventory, [], by rw [htrace, List.append_nil], nofun⟩

theorem numbered (h : Quiet k k') (hk : k.Numbered) : k'.Numbered := by
  obtain ⟨calls, hcalls, hnone⟩ := h.trace_eq
  constructor
  · rw [h.inventory_eq, h.next_eq]
    exact hk.inventory_lt
  · rw [hcalls, h.next_eq]
    intro call hcall fd hfd
    rcases List.mem_append.mp hcall with hmem | hmem
    · exact hk.trace_lt call hmem fd hfd
    · cases (hnone call hmem).symm.trans hfd

theorem tidy (h : Quiet k k') (hk : k.inventory.Tidy own k.trace) :
    k'.inventory.Tidy own k'.trace := by
  obtain ⟨calls, hcalls, hnone⟩ := h.trace_eq
  rw [h.inventory_eq, hcalls]
  exact hk.quiet hnone

theorem spares {keep : Descriptor → Prop} (h : Quiet k k')
    (hregion : ∀ fd, keep fd → k'.region? fd = k.region? fd) : Spares keep k k' := by
  refine ⟨h.next_eq.ge, hregion, fun hfresh fd hfd => ?_⟩
  rw [region?_eq_none_iff, h.inventory_eq, ← region?_eq_none_iff]
  exact hfresh fd (h.next_eq ▸ hfd)

end Quiet

theorem map_fst_update {σ : Type} (fd : Descriptor) (change : σ → σ)
    (l : List (Descriptor × σ)) : (update fd change l).map (·.1) = l.map (·.1) := by
  induction l with
  | nil => rfl
  | cons entry l ih =>
    unfold update
    split
    · rfl
    · rw [List.map_cons, List.map_cons, ih]

theorem quiet_changeRaw (fd : Descriptor) (change : RawSocket → RawSocket) (k : Kernel) :
    Quiet k ((changeRaw fd change).run k).2 := by
  refine .of_eq rfl ?_ rfl
  ext1
  · exact map_fst_update fd change k.raws
  · rfl
  · rfl

theorem quiet_changePacket (fd : Descriptor) (change : PacketSocket → PacketSocket) (k : Kernel) :
    Quiet k ((changePacket fd change).run k).2 := by
  refine .of_eq rfl ?_ rfl
  ext1
  · rfl
  · exact map_fst_update fd change k.packets
  · rfl

theorem inventory_closeRaw (fd : Descriptor) (k : Kernel) : ((closeRaw fd).run k).2.inventory =
    ⟨k.inventory.raws.filter (· != fd), k.inventory.packets, k.inventory.mappings⟩ := by
  ext1
  · show (k.raws.filter (·.1 != fd)).map (·.1) = (k.raws.map (·.1)).filter (· != fd)
    rw [List.filter_map]
    rfl
  · rfl
  · rfl

theorem inventory_closePacket (fd : Descriptor) (k : Kernel) :
    ((closePacket fd).run k).2.inventory =
      ⟨k.inventory.raws, k.inventory.packets.filter (· != fd), k.inventory.mappings⟩ := by
  ext1
  · rfl
  · show (k.packets.filter (·.1 != fd)).map (·.1) = (k.packets.map (·.1)).filter (· != fd)
    rw [List.filter_map]
    rfl
  · rfl

theorem inventory_unmap (fd : Descriptor) (k : Kernel) : ((unmap fd).run k).2.inventory =
    ⟨k.inventory.raws, k.inventory.packets, k.inventory.mappings.filter (· != fd)⟩ := rfl

theorem tidy_closeRaw {fd : Descriptor} (h : k.inventory.Tidy own k.trace)
    (hfd : fd ∈ k.inventory.raws) :
    ((closeRaw fd).run k).2.inventory.Tidy own ((closeRaw fd).run k).2.trace := by
  rw [inventory_closeRaw]
  exact h.closeRaw hfd

theorem tidy_closePacket {fd : Descriptor} (h : k.inventory.Tidy own k.trace)
    (hfd : fd ∈ k.inventory.packets) (hmapping : fd ∉ k.inventory.mappings) :
    ((closePacket fd).run k).2.inventory.Tidy own ((closePacket fd).run k).2.trace := by
  rw [inventory_closePacket]
  exact h.closePacket hfd hmapping

theorem tidy_unmap {fd : Descriptor} (h : k.inventory.Tidy own k.trace) (hown : own fd)
    (hfd : fd ∈ k.inventory.packets) :
    ((unmap fd).run k).2.inventory.Tidy own ((unmap fd).run k).2.trace := by
  rw [inventory_unmap]
  exact h.unmap hown hfd

namespace Op

variable {ε α β : Type}

/-- An operation that leaves the inventory alone and ends nothing, whatever becomes of it. -/
def Silent (op : Kernel.Op ε α) : Prop := ∀ k, op.Yields k fun _ k' => Quiet k k'

theorem Silent.bind {x : Kernel.Op ε α} {f : α → Kernel.Op ε β} (hx : x.Silent)
    (hf : ∀ a, (f a).Silent) : (x >>= f).Silent := by
  intro k
  rw [yields_bind]
  apply (hx k).mono
  rintro (e | a) k' hquiet
  · exact hquiet
  · exact (hf a k').mono fun _ _ hnext => hquiet.trans hnext

theorem Silent.pure (a : α) : (Pure.pure a : Kernel.Op ε α).Silent := fun k => Quiet.refl k

theorem Silent.get : (MonadState.get : Kernel.Op ε Kernel).Silent := fun k => Quiet.refl k

theorem Silent.throw (e : ε) : (MonadExcept.throw e : Kernel.Op ε α).Silent := fun k => Quiet.refl k

theorem Silent.liftExcept (r : Except ε α) : (liftM r : Kernel.Op ε α).Silent := by
  intro k
  rw [yields_liftExcept]
  exact Quiet.refl k

theorem Silent.orError {op : Kernel.Op Errno α} {wrap : Failure → Error} (h : op.Silent) :
    (op.orError wrap).Silent := h

theorem silent_perform {call : Call} (hcall : call.ends = none) : (perform call).Silent := by
  intro k
  unfold Yields
  rw [run_perform]
  have hcalls : ∀ other ∈ [call], other.ends = none := by simpa using hcall
  rcases takeFault call.name k.faults with _ | ⟨number, others⟩
  · exact ⟨rfl, rfl, [call], rfl, hcalls⟩
  · exact ⟨rfl, rfl, [call], rfl, hcalls⟩

theorem silent_lookUp : Kernel.lookUp.Silent := by
  intro k
  obtain ⟨_, _, _, _, _, _, lookups, _, _, _, _, _⟩ := k
  match lookups with
  | [] => exact Quiet.refl _
  | none :: rest => exact .of_eq rfl rfl rfl
  | some number :: rest => exact .of_eq rfl rfl rfl

theorem silent_index (name : String) : (CanTransport.lookUp name).Silent :=
  Silent.get.bind fun _ => (Silent.liftExcept _).bind fun _ => silent_lookUp.orError.bind fun _ => .pure _

theorem silent_bindRaw (fd : Descriptor) (index : UInt32) : (bindRaw fd index).Silent := by
  refine (silent_perform rfl).bind fun _ => ?_
  split
  · exact .throw _
  · exact fun k => quiet_changeRaw fd _ k

theorem silent_bindPacket (fd : Descriptor) (index : UInt32) : (bindPacket fd index).Silent := by
  refine (silent_perform rfl).bind fun _ => ?_
  split
  · exact .throw _
  · exact fun k => quiet_changePacket fd _ k

theorem silent_setFilters (fd : Descriptor) (rules : Nat) : (setFilters fd rules).Silent :=
  (silent_perform rfl).bind fun _ k => quiet_changeRaw fd _ k

theorem silent_requestRing (fd : Descriptor) (blockSize blocks slotSize slots : Nat) :
    (requestRing fd blockSize blocks slotSize slots).Silent :=
  (silent_perform rfl).bind fun _ k => quiet_changePacket fd _ k

theorem silent_statistics : statistics.Silent := by
  refine (silent_perform rfl).bind fun _ k => ?_
  obtain ⟨_, _, _, _, _, _, _, _, drops, _, _, _⟩ := k
  cases drops with
  | nil => exact Quiet.refl _
  | cons n rest => exact .of_eq rfl rfl rfl

theorem silent_send (fd : Descriptor) (raw : Wire) : (send fd raw).Silent := by
  intro k
  obtain ⟨_, _, _, _, _, _, _, replies, _, _, _, _⟩ := k
  match replies with
  | [] => exact .of_eq rfl rfl rfl
  | .accepted n :: rest => exact .of_eq rfl rfl rfl
  | .refused number :: rest => exact .of_eq rfl rfl rfl

theorem silent_writeWire (s : CanSocket) (raw : Wire) : (s.writeWire raw).Silent := by
  unfold CanSocket.writeWire
  split
  · exact (Silent.throw _).bind fun _ => (silent_send _ _).orError.bind fun n => by
      split
      · exact .throw _
      · exact .pure _
  · refine (silent_send _ _).orError.bind fun n => ?_
    split
    · exact .throw _
    · exact .pure _

end Op

theorem quiet_receive (fd : Descriptor) (k : Kernel) :
    Quiet k ((receive fd).run k : Except Errno (List UInt8) × Kernel).2 := by
  rw [run_receive]
  split
  · exact Quiet.refl _
  · exact quiet_changeRaw fd _ k

theorem quiet_receiveMany (fd : Descriptor) (limit : Nat) (k : Kernel) :
    Quiet k ((receiveMany fd limit).run k : Except Errno (List (List UInt8)) × Kernel).2 := by
  rw [run_receiveMany]
  split
  · exact Quiet.refl _
  · exact quiet_changeRaw fd _ k
  · exact quiet_changeRaw fd _ k
  · exact quiet_changeRaw fd _ k

end Kernel

end CanTransport
