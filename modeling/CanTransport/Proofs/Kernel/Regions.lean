import CanTransport.Bus.Resource
import CanTransport.Proofs.Kernel.Outcome
import CanTransport.Proofs.Ring.Layout
/-!
# Regions of packet sockets

Which kernel operations leave which regions alone. Sockets are numbered upwards, so that whatever
is acquired is new, and whatever is acquired or given back leaves older regions as they are.
-/

namespace CanTransport.Kernel

/-- The memory of a packet socket that exists. -/
def region? (k : Kernel) (fd : Descriptor) : Option Memory :=
  (k.packets.lookup fd).map PacketSocket.memory

/-- No packet socket has a number that is still to be given out. -/
def Fresh (k : Kernel) : Prop := ∀ fd, k.next ≤ fd → k.region? fd = none

/-- `k'` comes after `k`, and the regions of `keep` are the same. -/
structure Spares (keep : Descriptor → Prop) (k k' : Kernel) : Prop where
  next_le : k.next ≤ k'.next
  region_eq : ∀ fd, keep fd → k'.region? fd = k.region? fd
  fresh : k.Fresh → k'.Fresh

theorem memory_eq_of_region? {k : Kernel} {fd : Descriptor} {m : Memory}
    (h : k.region? fd = some m) : k.memory fd = m := by
  unfold region? at h
  rw [memory, h, Option.getD_some]

theorem lt_next_of_region? {k : Kernel} {fd : Descriptor} {m : Memory} (hfresh : k.Fresh)
    (h : k.region? fd = some m) : fd < k.next := by
  refine Nat.lt_of_not_le fun hge => ?_
  rw [hfresh fd hge] at h
  cases h

namespace Spares

variable {keep keep' : Descriptor → Prop} {k k' k'' : Kernel}

theorem refl (k : Kernel) : Spares keep k k := ⟨Nat.le_refl _, fun _ _ => rfl, id⟩

theorem trans (h : Spares keep k k') (h' : Spares keep k' k'') : Spares keep k k'' :=
  ⟨Nat.le_trans h.next_le h'.next_le, fun fd hfd => (h'.region_eq fd hfd).trans (h.region_eq fd hfd),
    fun hfresh => h'.fresh (h.fresh hfresh)⟩

theorem mono (h : Spares keep k k') (himp : ∀ fd, keep' fd → keep fd) : Spares keep' k k' :=
  ⟨h.next_le, fun fd hfd => h.region_eq fd (himp fd hfd), h.fresh⟩

/-- An operation that has nothing to do with packet sockets. -/
theorem of_packets_eq (hpackets : k'.packets = k.packets) (hnext : k.next ≤ k'.next) :
    Spares keep k k' := by
  have hregion : ∀ fd, k'.region? fd = k.region? fd := by
    intro fd
    rw [region?, region?, hpackets]
  exact ⟨hnext, fun fd _ => hregion fd,
    fun hfresh fd hfd => (hregion fd).trans (hfresh fd (Nat.le_trans hnext hfd))⟩

end Spares

theorem lookup_cons_eq {σ : Type} (n x : Descriptor) (s : σ) (l : List (Descriptor × σ)) :
    ((n, s) :: l).lookup x = if x = n then some s else l.lookup x := by
  rw [List.lookup_cons]
  by_cases hx : x = n
  · rw [if_pos hx, beq_iff_eq.mpr hx]
  · rw [if_neg hx, beq_eq_false_iff_ne.mpr hx]

theorem lookup_update {σ : Type} (fd x : Descriptor) (change : σ → σ)
    (l : List (Descriptor × σ)) :
    (update fd change l).lookup x =
      if x = fd then (l.lookup fd).map change else l.lookup x := by
  induction l with
  | nil => simp [update]
  | cons entry l ih =>
    obtain ⟨n, s⟩ := entry
    unfold update
    by_cases hn : n = fd
    · subst hn
      rw [if_pos rfl]
      simp only [lookup_cons_eq]
      by_cases hx : x = n <;> simp [hx]
    · rw [if_neg hn]
      simp only [lookup_cons_eq, ih, if_neg (Ne.symm hn)]
      by_cases hx : x = n
      · subst hx
        simp [hn]
      · simp [hx]

theorem lookup_filter_ne {σ : Type} (fd x : Descriptor) (l : List (Descriptor × σ)) :
    (l.filter (·.1 != fd)).lookup x = if x = fd then none else l.lookup x := by
  induction l with
  | nil => simp
  | cons entry l ih =>
    obtain ⟨n, s⟩ := entry
    by_cases hn : n = fd
    · subst hn
      rw [List.filter_cons_of_neg (by simp), ih, lookup_cons_eq]
      by_cases hx : x = n
      · rw [if_pos hx, if_pos hx]
      · rw [if_neg hx, if_neg hx, if_neg hx]
    · simp only [List.filter_cons, bne_iff_ne.mpr hn, if_true, lookup_cons_eq, ih]
      by_cases hx : x = n
      · subst hx
        simp [hn]
      · simp [hx]

/-! ## Single operations -/

theorem region?_changePacket (fd x : Descriptor) (change : PacketSocket → PacketSocket)
    (k : Kernel) :
    ((changePacket fd change).run k).2.region? x =
      if x = fd then ((k.packets.lookup fd).map change).map PacketSocket.memory
      else k.region? x := by
  show (List.lookup x (update fd change k.packets)).map PacketSocket.memory = _
  rw [lookup_update]
  split <;> rfl

theorem region?_setMemory (fd x : Descriptor) (m : Memory) (k : Kernel) :
    ((setMemory fd m).run k).2.region? x =
      if x = fd then (k.region? fd).map (fun _ => m) else k.region? x := by
  rw [setMemory, region?_changePacket]
  split
  · rw [Option.map_map, region?, Option.map_map]
    rfl
  · rfl

/-- A change of a packet socket that leaves its memory alone. -/
theorem spares_changePacket {keep : Descriptor → Prop} (fd : Descriptor)
    (change : PacketSocket → PacketSocket) (k : Kernel)
    (h : keep fd → ∀ s, (change s).memory = s.memory) :
    Spares keep k ((changePacket fd change).run k).2 := by
  refine ⟨Nat.le_refl _, ?_, ?_⟩
  · intro x hx
    rw [region?_changePacket]
    split
    · rename_i heq
      subst heq
      rw [Option.map_map, show PacketSocket.memory ∘ change = PacketSocket.memory from
        funext (h hx)]
      rfl
    · rfl
  · intro hfresh x hx
    rw [region?_changePacket]
    split
    · rename_i heq
      subst heq
      have hnone := hfresh x hx
      rw [region?, Option.map_eq_none_iff] at hnone
      rw [hnone]
      rfl
    · exact hfresh x hx

theorem spares_setMemory (fd : Descriptor) (m : Memory) (k : Kernel) :
    Spares (· ≠ fd) k ((setMemory fd m).run k).2 :=
  spares_changePacket fd _ k (fun h => absurd rfl h)

theorem spares_unmap {keep : Descriptor → Prop} (fd : Descriptor) (k : Kernel) :
    Spares keep k ((unmap fd).run k).2 :=
  Spares.of_packets_eq rfl (Nat.le_refl _)

theorem spares_closePacket (fd : Descriptor) (k : Kernel) :
    Spares (· ≠ fd) k ((closePacket fd).run k).2 := by
  have hregion : ∀ x, ((closePacket fd).run k).2.region? x =
      if x = fd then none else k.region? x := by
    intro x
    show (List.lookup x (k.packets.filter (·.1 != fd))).map PacketSocket.memory = _
    rw [lookup_filter_ne]
    split <;> rfl
  refine ⟨Nat.le_refl _, ?_, ?_⟩
  · intro x hx
    rw [hregion, if_neg hx]
  · intro hfresh x hx
    rw [hregion]
    split
    · rfl
    · exact hfresh x hx

theorem spares_closeRaw {keep : Descriptor → Prop} (fd : Descriptor) (k : Kernel) :
    Spares keep k ((closeRaw fd).run k).2 :=
  Spares.of_packets_eq rfl (Nat.le_refl _)

/-- A call that is only recorded, or fails. -/
theorem run_perform (call : Call) (k : Kernel) :
    ((perform call).run k : Except Errno Unit × Kernel) =
      match takeFault call.name k.faults with
      | none => (.ok (), { k with trace := k.trace ++ [call] })
      | some (number, others) =>
        (.error number, { k with trace := k.trace ++ [call], faults := others }) := by
  show ((match takeFault call.name k.faults with
    | none => (pure () : Kernel.Op Errno Unit)
    | some (number, others) => do
      modify (fun k : Kernel => { k with faults := others })
      throw number).run { k with trace := k.trace ++ [call] } : Except Errno Unit × Kernel) = _
  rcases takeFault call.name k.faults with _ | ⟨number, others⟩ <;> rfl

theorem spares_perform {keep : Descriptor → Prop} (call : Call) (k : Kernel) :
    (perform call).Yields k fun _ k' => Spares keep k k' := by
  unfold Op.Yields
  rw [run_perform]
  rcases takeFault call.name k.faults with _ | ⟨number, others⟩ <;>
    exact Spares.of_packets_eq rfl (Nat.le_refl _)

/-! ## Sequences of operations -/

namespace Op

variable {ε α β : Type} {keep : Descriptor → Prop} {k : Kernel}

/-- Whatever becomes of the operation, it spares the regions of `keep`, and its value satisfies
`P` if it has one. -/
def Sparing (keep : Descriptor → Prop) (op : Kernel.Op ε α) (k : Kernel)
    (P : α → Kernel → Prop) : Prop :=
  op.Yields k fun r k' => Spares keep k k' ∧ ∀ a, r = .ok a → P a k'

theorem Sparing.mono {op : Kernel.Op ε α} {P Q : α → Kernel → Prop} (h : op.Sparing keep k P)
    (himp : ∀ a k', P a k' → Q a k') : op.Sparing keep k Q :=
  ⟨h.1, fun a ha => himp a _ (h.2 a ha)⟩

/-- An operation that spares some regions spares fewer of them. -/
theorem Sparing.imp {keep' : Descriptor → Prop} {op : Kernel.Op ε α} {P : α → Kernel → Prop}
    (h : op.Sparing keep' k P) (himp : ∀ fd, keep fd → keep' fd) : op.Sparing keep k P :=
  ⟨h.1.mono himp, h.2⟩

/-- An operation that spares everything leaves the regions that it finds. -/
theorem Sparing.restrict {op : Kernel.Op ε α} {P : α → Kernel → Prop}
    (h : op.Sparing (fun _ => True) k P) :
    op.Sparing keep k fun a k' => P a k' ∧ ∀ fd, k'.region? fd = k.region? fd :=
  ⟨h.1.mono (fun _ _ => trivial), fun a ha => ⟨h.2 a ha, fun fd => h.1.region_eq fd trivial⟩⟩

theorem Sparing.bind {x : Kernel.Op ε α} {f : α → Kernel.Op ε β} {P : α → Kernel → Prop}
    {Q : β → Kernel → Prop} (hx : x.Sparing keep k P)
    (hf : ∀ a k', P a k' → Spares keep k k' → (f a).Sparing keep k' Q) :
    (x >>= f).Sparing keep k Q := by
  unfold Sparing
  rw [yields_bind]
  refine Yields.mono hx ?_
  rintro (e | a) k' ⟨hspares, ha⟩
  · exact ⟨hspares, fun b hb => by cases hb⟩
  · have hnext := hf a k' (ha a rfl) hspares
    exact ⟨hspares.trans hnext.1, hnext.2⟩

theorem Sparing.pure {a : α} {P : α → Kernel → Prop} (h : P a k) :
    (Pure.pure a : Kernel.Op ε α).Sparing keep k P :=
  ⟨Spares.refl k, fun _ hb => by cases hb; exact h⟩

theorem Sparing.throw (e : ε) {P : α → Kernel → Prop} :
    (MonadExcept.throw e : Kernel.Op ε α).Sparing keep k P :=
  ⟨Spares.refl k, fun _ hb => by cases hb⟩

theorem Sparing.liftExcept (r : Except ε α) :
    (liftM r : Kernel.Op ε α).Sparing keep k fun a k' => r = .ok a ∧ k' = k := by
  unfold Sparing
  rw [yields_liftExcept]
  exact ⟨Spares.refl k, fun a ha => ⟨ha, rfl⟩⟩

theorem Sparing.orError {op : Kernel.Op Errno α} {wrap : Failure → Error}
    {P : α → Kernel → Prop} (h : op.Sparing keep k P) : (op.orError wrap).Sparing keep k P := by
  unfold Sparing
  rw [yields_orError]
  refine Yields.mono h ?_
  rintro (e | a) k' ⟨hspares, ha⟩
  · exact ⟨hspares, fun b hb => by cases hb⟩
  · exact ⟨hspares, fun b hb => by cases hb; exact ha a rfl⟩

theorem Sparing.orRelease {op : Kernel.Op ε α} {release : StateM Kernel Unit}
    {P : α → Kernel → Prop} (h : op.Sparing keep k P)
    (hrelease : ∀ k', Spares keep k' (release.run k').2) :
    (op.orRelease release).Sparing keep k P := by
  unfold Sparing
  rw [yields_orRelease]
  refine Yields.mono h ?_
  rintro (e | a) k' ⟨hspares, ha⟩
  · exact ⟨hspares.trans (hrelease k'), fun b hb => by cases hb⟩
  · exact ⟨hspares, fun b hb => by cases hb; exact ha a rfl⟩

end Op

section Acquisition

variable {keep : Descriptor → Prop}

theorem sparing_perform (call : Call) (k : Kernel) :
    (perform call).Sparing keep k fun _ _ => True :=
  (spares_perform call k).mono fun _ _ h => ⟨h, fun _ _ => trivial⟩

theorem sparing_lookUp (k : Kernel) : Kernel.lookUp.Sparing keep k fun _ _ => True := by
  obtain ⟨_, _, _, _, _, _, lookups, _, _, _, _, _⟩ := k
  match lookups with
  | [] => exact ⟨Spares.refl _, fun _ _ => trivial⟩
  | none :: rest => exact ⟨Spares.of_packets_eq rfl (Nat.le_refl _), fun _ _ => trivial⟩
  | some number :: rest => exact ⟨Spares.of_packets_eq rfl (Nat.le_refl _), fun _ _ => trivial⟩

theorem sparing_index (name : String) (k : Kernel) :
    (CanTransport.lookUp name).Sparing keep k fun _ _ => True := by
  have hget : (get : Op Error Kernel).Sparing keep k fun _ k' => k' = k :=
    ⟨Spares.refl k, fun _ _ => rfl⟩
  refine hget.bind fun known k₀ h₀ _ => ?_
  refine (Op.Sparing.liftExcept _).bind fun index k₁ h₁ _ => ?_
  obtain ⟨-, rfl⟩ := h₁
  exact (sparing_lookUp k₁).orError.bind fun _ _ _ _ => Op.Sparing.pure trivial

theorem sparing_createRaw (k : Kernel) :
    createRaw.Sparing keep k fun fd k' => k.next ≤ fd ∧ fd < k'.next := by
  refine (sparing_perform _ k).bind fun _ k' _ hspares => ⟨?_, ?_⟩
  · exact Spares.of_packets_eq rfl (Nat.le_succ _)
  · intro fd hfd
    cases hfd
    exact ⟨hspares.next_le, Nat.lt_succ_self _⟩

theorem sparing_bindRaw (fd : Descriptor) (index : UInt32) (k : Kernel) :
    (bindRaw fd index).Sparing keep k fun _ _ => True := by
  refine (sparing_perform _ k).bind fun _ k' _ _ => ?_
  split
  · exact Op.Sparing.throw _
  · exact ⟨Spares.of_packets_eq rfl (Nat.le_refl _), fun _ _ => trivial⟩

theorem sparing_bindPacket (fd : Descriptor) (index : UInt32) (k : Kernel) :
    (bindPacket fd index).Sparing keep k fun _ _ => True := by
  refine (sparing_perform _ k).bind fun _ k' _ _ => ?_
  split
  · exact Op.Sparing.throw _
  · exact ⟨spares_changePacket fd _ k' (fun _ _ => rfl), fun _ _ => trivial⟩

theorem sparing_setFilters (fd : Descriptor) (rules : Nat) (k : Kernel) :
    (setFilters fd rules).Sparing keep k fun _ _ => True :=
  (sparing_perform _ k).bind fun _ _ _ _ =>
    ⟨Spares.of_packets_eq rfl (Nat.le_refl _), fun _ _ => trivial⟩

theorem sparing_map (fd : Descriptor) (bytes : Nat) (k : Kernel) :
    (map fd bytes).Sparing keep k fun _ _ => True :=
  (sparing_perform _ k).bind fun _ _ _ _ =>
    ⟨Spares.of_packets_eq rfl (Nat.le_refl _), fun _ _ => trivial⟩

theorem sparing_statistics (k : Kernel) : statistics.Sparing keep k fun _ _ => True := by
  refine (sparing_perform _ k).bind fun _ k' _ _ => ?_
  obtain ⟨_, _, _, _, _, _, _, _, drops, _, _, _⟩ := k'
  cases drops with
  | nil => exact ⟨Spares.refl _, fun _ _ => trivial⟩
  | cons n rest => exact ⟨Spares.of_packets_eq rfl (Nat.le_refl _), fun _ _ => trivial⟩

theorem sparing_send (fd : Descriptor) (raw : Wire) (k : Kernel) :
    (send fd raw).Sparing keep k fun _ _ => True := by
  obtain ⟨_, _, _, _, _, _, _, replies, _, _, _, _⟩ := k
  match replies with
  | [] => exact ⟨Spares.of_packets_eq rfl (Nat.le_refl _), fun _ _ => trivial⟩
  | .accepted n :: rest =>
    exact ⟨Spares.of_packets_eq rfl (Nat.le_refl _), fun _ _ => trivial⟩
  | .refused number :: rest =>
    exact ⟨Spares.of_packets_eq rfl (Nat.le_refl _), fun _ _ => trivial⟩

/-- A new packet socket has a number of its own and an empty region. -/
theorem sparing_createPacket (k : Kernel) (hfresh : k.Fresh) :
    createPacket.Sparing (· < k.next) k fun fd k' =>
      k.next ≤ fd ∧ fd < k'.next ∧ ∃ m, k'.region? fd = some m := by
  refine (sparing_perform _ k).bind fun _ k' _ hspares => ?_
  have hregion : ∀ x, (Kernel.region? { k' with
      next := k'.next + 1
      packets := k'.packets ++ [(k'.next, ({} : PacketSocket))] } x) =
      if x = k'.next then some ⟨0, {}⟩ else k'.region? x := by
    intro x
    rw [region?, List.lookup_append, lookup_cons_eq]
    by_cases hx : x = k'.next
    · have hnone := hspares.fresh hfresh x (Nat.le_of_eq hx.symm)
      rw [region?, Option.map_eq_none_iff] at hnone
      rw [if_pos hx, if_pos hx, hnone]
      rfl
    · rw [if_neg hx, if_neg hx, region?]
      simp
  refine ⟨⟨Nat.le_succ _, ?_, ?_⟩, ?_⟩
  · intro x hx
    have hne : x ≠ k'.next := Nat.ne_of_lt (Nat.lt_of_lt_of_le hx hspares.next_le)
    exact (hregion x).trans (if_neg hne)
  · intro hfresh' x hx
    have hne : x ≠ k'.next := Nat.ne_of_gt hx
    refine (hregion x).trans ((if_neg hne).trans (hfresh' x ?_))
    exact Nat.le_trans (Nat.le_succ _) hx
  · intro fd hfd
    cases hfd
    exact ⟨hspares.next_le, Nat.lt_succ_self _, ⟨0, {}⟩, (hregion _).trans (if_pos rfl)⟩

/-- The ring of a packet socket is a fresh region. -/
theorem sparing_requestRing (fd : Descriptor) (blockSize blocks slotSize slots : Nat) (k : Kernel)
    {m : Memory} (hfd : k.region? fd = some m) :
    (requestRing fd blockSize blocks slotSize slots).Sparing (· ≠ fd) k fun _ k' =>
      k'.region? fd = some ⟨blockSize * blocks, {}⟩ := by
  refine (sparing_perform _ k).restrict.bind fun _ k' hk' _ => ⟨?_, ?_⟩
  · exact spares_changePacket fd _ k' (fun h => absurd rfl h)
  · intro _ _
    have hregion := (hk'.2 fd).trans hfd
    rw [region?, Option.map_eq_some_iff] at hregion
    obtain ⟨s, hs, -⟩ := hregion
    refine (region?_changePacket fd fd _ k').trans ?_
    rw [if_pos rfl, hs]
    rfl

end Acquisition

end CanTransport.Kernel

namespace CanTransport.CanSocket

open Kernel

variable {keep : Descriptor → Prop}

/-- Whether a raw socket was made between two kernels. -/
def NewSince (k : Kernel) (s : CanSocket) (k' : Kernel) : Prop :=
  k.next ≤ s.descriptor ∧ s.descriptor < k'.next

theorem sparing_acquire (interface : String) (k : Kernel) :
    (acquire interface).Sparing keep k (NewSince k) := by
  refine (sparing_index _ k).bind fun index k₁ _ h₁ => ?_
  refine (sparing_createRaw k₁).orError.bind fun fd k₂ h₂ _ => ?_
  refine (((sparing_bindRaw fd index k₂).orError).orRelease
    (spares_closeRaw fd)).bind fun _ k₃ _ h₃ => ?_
  exact Op.Sparing.pure ⟨Nat.le_trans h₁.next_le h₂.1, Nat.lt_of_lt_of_le h₂.2 h₃.next_le⟩

theorem sparing_acquireWith (interface : String) (loopback receiveOwn : Bool)
    (readTimeoutMs : UInt64) (k : Kernel) :
    (acquireWith interface loopback receiveOwn readTimeoutMs).Sparing keep k (NewSince k) := by
  refine (sparing_acquire interface k).bind fun s k₁ h₁ _ => ?_
  have hoptions : (do
      s.setLoopback loopback
      s.setReceiveOwn receiveOwn
      s.setReadTimeout readTimeoutMs : Kernel.Op Error Unit).Sparing keep k₁ fun _ _ => True :=
    (sparing_perform _ k₁).orError.bind fun _ k₂ _ _ =>
      (sparing_perform _ k₂).orError.bind fun _ k₃ _ _ => (sparing_perform _ k₃).orError
  refine (hoptions.orRelease (spares_closeRaw _)).bind fun _ k₂ _ h₂ => ?_
  exact Op.Sparing.pure ⟨h₁.1, Nat.lt_of_lt_of_le h₁.2 h₂.next_le⟩

theorem sparing_writeWire (s : CanSocket) (raw : Wire) (k : Kernel) :
    (s.writeWire raw).Sparing keep k fun _ _ => True := by
  unfold writeWire
  by_cases hclosed : s.closed = true
  · rw [if_pos hclosed]
    exact (Op.Sparing.throw _ (P := fun _ _ => False)).bind fun _ _ h _ => h.elim
  · rw [if_neg hclosed]
    refine (sparing_send _ _ k).orError.bind fun n k₁ _ _ => ?_
    split
    · exact Op.Sparing.throw _
    · exact Op.Sparing.pure trivial

end CanTransport.CanSocket

namespace CanTransport.Resource

open Kernel

variable {keep : Descriptor → Prop}

theorem sparing_acquireSender (channel : String) (c : BusConfig) (k : Kernel) :
    (acquireSender channel c).Sparing keep k (CanSocket.NewSince k) := by
  refine (CanSocket.sparing_acquireWith _ _ _ _ k).bind fun s k₁ h₁ _ => ?_
  refine (((sparing_setFilters _ _ k₁).orError).orRelease
    (spares_closeRaw _)).bind fun _ k₂ _ h₂ => ?_
  exact Op.Sparing.pure ⟨h₁.1, Nat.lt_of_lt_of_le h₁.2 h₂.next_le⟩

/-- A resource made on a packet socket since a kernel, for a ring with the geometry of `c`. -/
structure OnPacket (c : BusConfig) (packet : Descriptor) (k : Kernel) (r : Resource)
    (k' : Kernel) : Prop where
  key_ge : k.next ≤ r.key
  key_lt : r.key < k'.next
  ring_eq : ∃ g, r.ring = some (packet, g) ∧
    Geometry.ofConfig c.ring c.ring.regionSize.toNat = .ok g

theorem sparing_acquireOnMapped (channel : String) (c : BusConfig) (index : UInt32)
    (packet : Descriptor) (base : Nat) (k : Kernel) :
    (acquireOnMapped channel c index packet base).Sparing keep k (OnPacket c packet k) := by
  refine (Op.Sparing.liftExcept _).bind fun g k₁ h₁ _ => ?_
  obtain ⟨hg, rfl⟩ := h₁
  refine (Op.Sparing.liftExcept _).bind fun link k₂ h₂ _ => ?_
  obtain ⟨-, rfl⟩ := h₂
  refine (sparing_bindPacket _ _ k₂).orError.bind fun _ k₃ _ h₃ => ?_
  refine (sparing_acquireSender channel c k₃).bind fun s k₄ h₄ _ => ?_
  exact Op.Sparing.pure ⟨Nat.le_trans h₃.next_le h₄.1, h₄.2, g, rfl,
    Geometry.ofConfig_of_ofRegion hg⟩

/-- The ring that is acquired on a packet socket is a fresh region of the requested size. -/
theorem sparing_acquireOnPacket (channel : String) (c : BusConfig) (index : UInt32)
    (packet : Descriptor) (k : Kernel) {m : Memory} (hpacket : k.region? packet = some m) :
    (acquireOnPacket channel c index packet).Sparing (· ≠ packet) k fun r k' =>
      OnPacket c packet k r k' ∧ ∃ req, c.ring.request = .ok req ∧
        k'.region? packet = some ⟨req.blockSize.toNat * req.blockCount.toNat, {}⟩ := by
  refine (sparing_perform _ k).orError.restrict.bind fun _ k₁ h₁ hk₁ => ?_
  refine (Op.Sparing.liftExcept _).bind fun req k₂ h₂ _ => ?_
  obtain ⟨hreq, rfl⟩ := h₂
  refine (sparing_requestRing _ _ _ _ _ k₂
    ((h₁.2 packet).trans hpacket)).orError.bind fun _ k₃ h₃ hk₃ => ?_
  refine (sparing_map _ _ k₃).orError.restrict.bind fun base k₄ h₄ hk₄ => ?_
  refine ((sparing_acquireOnMapped channel c index packet base k₄).restrict.orRelease
    (spares_unmap packet)).mono fun r k' h => ?_
  refine ⟨⟨?_, h.1.key_lt, h.1.ring_eq⟩, req, hreq, ?_⟩
  · exact Nat.le_trans ((hk₁.trans hk₃).trans hk₄).next_le h.1.key_ge
  · rw [h.2, h₄.2, h₃]

/-- What acquiring a ring brings: new sockets and a fresh region; older regions stay. -/
structure NewRing (c : BusConfig) (k : Kernel) (r : Resource) (k' : Kernel) : Prop where
  key_ge : k.next ≤ r.key
  key_lt : r.key < k'.next
  ring_eq : ∃ fd g req, r.ring = some (fd, g) ∧ k.next ≤ fd ∧
    Geometry.ofConfig c.ring c.ring.regionSize.toNat = .ok g ∧ c.ring.request = .ok req ∧
    k'.region? fd = some ⟨req.blockSize.toNat * req.blockCount.toNat, {}⟩

theorem sparing_acquireRing (channel : String) (c : BusConfig) (k : Kernel) (hfresh : k.Fresh) :
    (acquireRing channel c).Sparing (· < k.next) k (NewRing c k) := by
  refine (sparing_index _ k).bind fun index k₁ _ hk₁ => ?_
  refine ((sparing_createPacket k₁ (hk₁.fresh hfresh)).imp fun fd hfd =>
    Nat.lt_of_lt_of_le hfd hk₁.next_le).orError.bind fun packet k₂ h₂ hk₂ => ?_
  obtain ⟨hge, -, m, hm⟩ := h₂
  have hle : k.next ≤ packet := Nat.le_trans hk₁.next_le hge
  have hne : ∀ fd, fd < k.next → fd ≠ packet :=
    fun fd hfd => Nat.ne_of_lt (Nat.lt_of_lt_of_le hfd hle)
  have hon := (sparing_acquireOnPacket channel c index packet k₂ hm).orRelease
    (spares_closePacket packet)
  refine ⟨hon.1.mono hne, fun r hr => ?_⟩
  obtain ⟨hpacket, req, hreq, hregion⟩ := hon.2 r hr
  obtain ⟨g, hring, hg⟩ := hpacket.ring_eq
  exact ⟨Nat.le_trans (Nat.le_trans hk₁.next_le hk₂.next_le) hpacket.key_ge, hpacket.key_lt,
    packet, g, req, hring, hle, hg, hreq, hregion⟩

end CanTransport.Resource
