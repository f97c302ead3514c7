import CanTransport.Proofs.Kernel.Inventory
/-!
# Acquisitions

Acquiring a socket, or a ring with both of its sockets, adds to the inventory what is acquired, or
nothing if it fails, at whichever of its calls that happens.
-/

namespace CanTransport

namespace Kernel

namespace Op

variable {ε α β : Type} {E E' : Kernel → Prop} {k : Kernel}

/-- The kernel that an operation leaves satisfies `E` if the operation fails, and otherwise `P`
together with its value. -/
def Ends (op : Kernel.Op ε α) (k : Kernel) (E : Kernel → Prop) (P : α → Kernel → Prop) : Prop :=
  op.Yields k fun r k' =>
    match r with
    | .ok a => P a k'
    | .error _ => E k'

theorem Ends.bind {x : Kernel.Op ε α} {f : α → Kernel.Op ε β} {P : α → Kernel → Prop}
    {Q : β → Kernel → Prop} (hx : x.Ends k E P)
    (hf : ∀ a k', P a k' → (f a).Ends k' E Q) : (x >>= f).Ends k E Q := by
  unfold Ends
  rw [yields_bind]
  apply Yields.mono hx
  rintro (e | a) k' h
  · exact h
  · exact hf a k' h

theorem Ends.pure {a : α} {P : α → Kernel → Prop} (h : P a k) :
    (Pure.pure a : Kernel.Op ε α).Ends k E P := h

theorem Ends.orError {op : Kernel.Op Errno α} {wrap : Failure → Error} {P : α → Kernel → Prop}
    (h : op.Ends k E P) : (op.orError wrap).Ends k E P := by
  unfold Ends
  rw [yields_orError]
  apply Yields.mono h
  rintro (e | a) k' h
  · exact h
  · exact h

/-- What is released after a failure may restore what has to hold then. -/
theorem Ends.orRelease {op : Kernel.Op ε α} {release : StateM Kernel Unit}
    {P : α → Kernel → Prop} (h : op.Ends k E' P)
    (hrelease : ∀ k', E' k' → E (release.run k').2) : (op.orRelease release).Ends k E P := by
  unfold Ends
  rw [yields_orRelease]
  apply Yields.mono h
  rintro (e | a) k' h
  · exact hrelease k' h
  · exact h

/-- An operation that ends nothing keeps whatever does not depend on anything else. -/
theorem Silent.ends {op : Kernel.Op ε α} (h : op.Silent)
    (hE : ∀ k', Quiet k k' → E k') : op.Ends k E fun _ => E := by
  apply (h k).mono
  rintro (e | a) k' hquiet
  · exact hE k' hquiet
  · exact hE k' hquiet

end Op

/-- `k` has what `k₀` had, and `inv` besides, which is new. -/
structure Gains (own : Descriptor → Prop) (k₀ : Kernel) (inv : Inventory) (k : Kernel) : Prop where
  start : k₀.Numbered
  own_new : ∀ fd, k₀.next ≤ fd → own fd
  next_le : k₀.next ≤ k.next
  inventory_eq : k.inventory = k₀.inventory ++ inv
  new : ∀ fd ∈ inv.all, k₀.next ≤ fd
  numbered : k.Numbered
  tidy : k.inventory.Tidy own k.trace

namespace Gains

variable {own : Descriptor → Prop} {k₀ k k' : Kernel} {inv : Inventory} {fd : Descriptor}

theorem refl (hk : k.Numbered) (htidy : k.inventory.Tidy own k.trace) :
    Gains (fun fd => own fd ∨ k.next ≤ fd) k {} k where
  start := hk
  own_new _ hfd := Or.inr hfd
  next_le := Nat.le_refl _
  inventory_eq := (Inventory.append_empty _).symm
  new := nofun
  numbered := hk
  tidy := hk.tidy htidy

theorem quiet (h : Gains own k₀ inv k) (hquiet : Quiet k k') : Gains own k₀ inv k' where
  start := h.start
  own_new := h.own_new
  next_le := hquiet.next_eq ▸ h.next_le
  inventory_eq := hquiet.inventory_eq.trans h.inventory_eq
  new := h.new
  numbered := hquiet.numbered h.numbered
  tidy := hquiet.tidy h.tidy

theorem silent {ε α : Type} {op : Kernel.Op ε α} (h : Gains own k₀ inv k) (hop : op.Silent) :
    op.Ends k (Gains own k₀ inv) fun _ => Gains own k₀ inv :=
  hop.ends fun _ hquiet => h.quiet hquiet

/-- Nothing that was there before has a new number. -/
theorem not_mem_start (h : Gains own k₀ inv k) (hfd : k₀.next ≤ fd) : fd ∉ k₀.inventory.all :=
  fun hmem => Nat.not_lt.mpr hfd (h.start.inventory_lt fd hmem)

/-- What is made after `k₀` is new. -/
theorem add {added : Inventory} (h : Gains own k₀ inv k) (hnext : k.next ≤ k'.next)
    (hinventory : k'.inventory = k.inventory ++ added) (htrace : k'.trace = k.trace)
    (hnew : ∀ fd ∈ added.all, k₀.next ≤ fd ∧ fd < k'.next)
    (htidy : (k.inventory ++ added).Tidy own k.trace) : Gains own k₀ (inv ++ added) k' where
  start := h.start
  own_new := h.own_new
  next_le := Nat.le_trans h.next_le hnext
  inventory_eq := by rw [hinventory, h.inventory_eq, Inventory.append_assoc]
  new fd hfd := by
    rcases Inventory.mem_all_append.mp hfd with hold | hadded
    · exact h.new fd hold
    · exact (hnew fd hadded).1
  numbered := by
    constructor
    · intro fd hfd
      rw [hinventory, Inventory.mem_all_append] at hfd
      rcases hfd with hold | hadded
      · exact Nat.lt_of_lt_of_le (h.numbered.inventory_lt fd hold) hnext
      · exact (hnew fd hadded).2
    · rw [htrace]
      exact fun call hcall fd hfd =>
        Nat.lt_of_lt_of_le (h.numbered.trace_lt call hcall fd hfd) hnext
  tidy := by rw [hinventory, htrace]; exact htidy

/-- What was made after `k₀` can be given back. -/
theorem drop {dropped : Inventory} {call : Call} (h : Gains own k₀ (inv ++ dropped) k)
    (hcall : call.ends = some fd) (hfd : fd ∈ dropped.all) (hnext : k'.next = k.next)
    (hinventory : k'.inventory = k₀.inventory ++ inv) (htrace : k'.trace = k.trace ++ [call])
    (htidy : k'.inventory.Tidy own k'.trace) : Gains own k₀ inv k' where
  start := h.start
  own_new := h.own_new
  next_le := hnext ▸ h.next_le
  inventory_eq := hinventory
  new fd hfd := h.new fd (Inventory.mem_all_append.mpr (Or.inl hfd))
  numbered := by
    have hlt : ∀ fd, fd ∈ (k₀.inventory ++ (inv ++ dropped)).all → fd < k.next := by
      intro fd hfd
      exact h.numbered.inventory_lt fd (h.inventory_eq ▸ hfd)
    simp only [Inventory.mem_all_append] at hlt
    constructor
    · rw [hinventory, hnext]
      intro fd hfd
      rcases Inventory.mem_all_append.mp hfd with hold | hkept
      · exact hlt fd (Or.inl hold)
      · exact hlt fd (Or.inr (Or.inl hkept))
    · rw [htrace, hnext]
      intro other hother x hx
      rcases List.mem_append.mp hother with hold | hnew
      · exact h.numbered.trace_lt other hold x hx
      · cases List.mem_singleton.mp hnew
        cases hcall.symm.trans hx
        exact hlt fd (Or.inr (Or.inr hfd))
  tidy := htidy

theorem mem_inventory {added : Inventory} (h : Gains own k₀ (inv ++ added) k) :
    (∀ x ∈ inv.packets, x ∈ k.inventory.packets) ∧ (∀ x ∈ added.raws, x ∈ k.inventory.raws) ∧
      (∀ x ∈ added.packets, x ∈ k.inventory.packets) := by
  rw [h.inventory_eq]
  simp only [Inventory.raws_append, Inventory.packets_append, List.mem_append]
  tauto

/-- Taking the last of a list of numbers away, which occurs nowhere else. -/
theorem filter_append_self {l l' : List Descriptor} (hl : fd ∉ l) (hl' : fd ∉ l') :
    (l ++ (l' ++ [fd])).filter (· != fd) = l ++ l' := by
  have hkept : ∀ {m : List Descriptor}, fd ∉ m → m.filter (· != fd) = m := by
    intro m hm
    apply List.filter_eq_self.mpr
    intro x hx
    rw [bne_iff_ne]
    rintro rfl
    exact hm hx
  rw [List.filter_append, List.filter_append, hkept hl, hkept hl']
  simp

/-- A new number occurs once. -/
theorem not_mem_of_count {l l' : List Descriptor} {n : Nat}
    (h : n + (l ++ (l' ++ [fd])).count fd ≤ 1) : fd ∉ l ∧ fd ∉ l' := by
  simp only [List.count_append, List.count_singleton_self] at h
  constructor
  · apply List.count_eq_zero.mp
    omega
  · apply List.count_eq_zero.mp
    omega

theorem createRaw (h : Gains own k₀ inv k) :
    Kernel.createRaw.Ends k (Gains own k₀ inv) fun fd => Gains own k₀ (inv ++ { raws := [fd] }) := by
  refine (h.silent (Op.silent_perform rfl)).bind fun _ k₁ h₁ => ?_
  have hraw : k₁.next ∉ k₁.inventory.raws := fun hmem =>
    Nat.lt_irrefl _ (h₁.numbered.inventory_lt _ (Inventory.mem_all.mpr (Or.inl hmem)))
  have htrace : Call.closeCan k₁.next ∉ k₁.trace := fun hmem =>
    Nat.lt_irrefl _ (h₁.numbered.trace_lt _ hmem _ rfl)
  refine h₁.add (Nat.le_succ _) ?_ rfl ?_ (h₁.tidy.addRaw htrace hraw)
  · ext1
    · exact List.map_append
    · exact (List.append_nil _).symm
    · exact (List.append_nil _).symm
  · rintro _ (hmem : _ ∈ [k₁.next])
    cases List.mem_singleton.mp hmem
    exact ⟨h₁.next_le, Nat.lt_succ_self _⟩

theorem closeRaw (h : Gains own k₀ (inv ++ { raws := [fd] }) k) :
    Gains own k₀ inv ((Kernel.closeRaw fd).run k).2 := by
  have hfd : fd ∈ k.inventory.raws := h.mem_inventory.2.1 fd (List.mem_singleton.mpr rfl)
  have honce := h.tidy.raw_once fd (h.own_new fd (h.new fd (by simp)))
  have hraws := congrArg Inventory.raws h.inventory_eq
  have hpackets := congrArg Inventory.packets h.inventory_eq
  have hmappings := congrArg Inventory.mappings h.inventory_eq
  simp only [Inventory.raws_append, Inventory.packets_append, Inventory.mappings_append,
    List.append_nil] at hraws hpackets hmappings
  rw [hraws] at honce
  obtain ⟨hold, hnew⟩ := not_mem_of_count honce
  refine h.drop rfl (by simp) rfl ?_ rfl (tidy_closeRaw h.tidy hfd)
  rw [inventory_closeRaw, hraws, filter_append_self hold hnew, hpackets, hmappings]
  rfl

theorem createPacket (h : Gains own k₀ inv k) :
    Kernel.createPacket.Ends k (Gains own k₀ inv) fun fd k' =>
      Gains own k₀ (inv ++ { packets := [fd] }) k' ∧ fd ∉ inv.mappings := by
  refine (h.silent (Op.silent_perform rfl)).bind fun _ k₁ h₁ => ?_
  have hnone : k₁.next ∉ k₁.inventory.all := fun hmem =>
    Nat.lt_irrefl _ (h₁.numbered.inventory_lt _ hmem)
  have htrace : Call.closePacket k₁.next ∉ k₁.trace := fun hmem =>
    Nat.lt_irrefl _ (h₁.numbered.trace_lt _ hmem _ rfl)
  have hpacket : k₁.next ∉ k₁.inventory.packets := fun hmem =>
    hnone (Inventory.mem_all.mpr (Or.inr (Or.inl hmem)))
  refine ⟨h₁.add (Nat.le_succ _) ?_ rfl ?_ (h₁.tidy.addPacket htrace hpacket), fun hmem => ?_⟩
  · ext1
    · exact (List.append_nil _).symm
    · exact List.map_append
    · exact (List.append_nil _).symm
  · intro fd hmem
    have hfd : fd = k₁.next := by simpa using hmem
    subst hfd
    exact ⟨h₁.next_le, Nat.lt_succ_self _⟩
  · apply hnone
    rw [h₁.inventory_eq, Inventory.mem_all_append]
    exact Or.inr (Inventory.mem_all.mpr (Or.inr (Or.inr hmem)))

theorem closePacket (h : Gains own k₀ (inv ++ { packets := [fd] }) k) (hfd : fd ∉ inv.mappings) :
    Gains own k₀ inv ((Kernel.closePacket fd).run k).2 := by
  have hge : k₀.next ≤ fd := h.new fd (by simp)
  have hmem : fd ∈ k.inventory.packets := h.mem_inventory.2.2 fd (List.mem_singleton.mpr rfl)
  have honce := h.tidy.packet_once fd (h.own_new fd hge)
  have hraws := congrArg Inventory.raws h.inventory_eq
  have hpackets := congrArg Inventory.packets h.inventory_eq
  have hmappings := congrArg Inventory.mappings h.inventory_eq
  simp only [Inventory.raws_append, Inventory.packets_append, Inventory.mappings_append,
    List.append_nil] at hraws hpackets hmappings
  rw [hpackets] at honce
  obtain ⟨hold, hnew⟩ := not_mem_of_count honce
  have hunmapped : fd ∉ k.inventory.mappings := by
    rw [hmappings, List.mem_append, not_or]
    refine ⟨fun hold => h.not_mem_start hge ?_, hfd⟩
    exact Inventory.mem_all.mpr (Or.inr (Or.inr hold))
  refine h.drop rfl (by simp) rfl ?_ rfl (tidy_closePacket h.tidy hmem hunmapped)
  rw [inventory_closePacket, hpackets, filter_append_self hold hnew, hraws, hmappings]
  rfl

theorem map {bytes : Nat} (h : Gains own k₀ inv k) (hpacket : fd ∈ inv.packets)
    (hfd : fd ∉ inv.mappings) :
    (Kernel.map fd bytes).Ends k (Gains own k₀ inv) fun _ =>
      Gains own k₀ (inv ++ { mappings := [fd] }) := by
  have hge : k₀.next ≤ fd := h.new fd (Inventory.mem_all.mpr (Or.inr (Or.inl hpacket)))
  refine (h.silent (Op.silent_perform rfl)).bind fun _ k₁ h₁ => ?_
  have hmem : fd ∈ k₁.inventory.packets := by
    rw [h₁.inventory_eq]
    exact List.mem_append_right _ hpacket
  have hunmapped : fd ∉ k₁.inventory.mappings := by
    rw [h₁.inventory_eq, Inventory.mappings_append, List.mem_append, not_or]
    refine ⟨fun hold => h₁.not_mem_start hge ?_, hfd⟩
    exact Inventory.mem_all.mpr (Or.inr (Or.inr hold))
  refine h₁.add (Nat.le_refl _) ?_ rfl ?_ (h₁.tidy.addMapping hmem hunmapped)
  · ext1
    · exact (List.append_nil _).symm
    · exact (List.append_nil _).symm
    · rfl
  · intro x hx
    have hxfd : x = fd := by simpa using hx
    subst hxfd
    exact ⟨hge, h₁.numbered.inventory_lt x (Inventory.mem_all.mpr (Or.inr (Or.inl hmem)))⟩

theorem unmap (h : Gains own k₀ (inv ++ { mappings := [fd] }) k) (hpacket : fd ∈ inv.packets) :
    Gains own k₀ inv ((Kernel.unmap fd).run k).2 := by
  have hge : k₀.next ≤ fd := h.new fd (by simp)
  have honce := h.tidy.mapping_once fd (h.own_new fd hge)
  have hraws := congrArg Inventory.raws h.inventory_eq
  have hpackets := congrArg Inventory.packets h.inventory_eq
  have hmappings := congrArg Inventory.mappings h.inventory_eq
  simp only [Inventory.raws_append, Inventory.packets_append, Inventory.mappings_append,
    List.append_nil] at hraws hpackets hmappings
  rw [hmappings, ← Nat.zero_add (List.count _ _)] at honce
  obtain ⟨hold, hnew⟩ := not_mem_of_count honce
  refine h.drop rfl (by simp) rfl ?_ rfl
    (tidy_unmap h.tidy (h.own_new fd hge) (h.mem_inventory.1 fd hpacket))
  rw [inventory_unmap, hmappings, filter_append_self hold hnew, hraws, hpackets]
  rfl

end Gains

end Kernel

open Kernel

variable {own : Descriptor → Prop} {k₀ k : Kernel} {inv : Inventory}

namespace CanSocket

theorem gains_acquire (interface : String) (h : Gains own k₀ inv k) :
    (acquire interface).Ends k (Gains own k₀ inv) fun s =>
      Gains own k₀ (inv ++ { raws := [s.descriptor] }) := by
  refine (h.silent (Op.silent_index interface)).bind fun index k₁ h₁ => ?_
  refine h₁.createRaw.orError.bind fun fd k₂ h₂ => ?_
  refine ((h₂.silent (Op.silent_bindRaw fd index)).orError.orRelease
    fun k' h' => h'.closeRaw).bind fun _ k₃ h₃ => ?_
  exact Op.Ends.pure h₃

theorem gains_acquireWith (interface : String) (loopback receiveOwn : Bool)
    (readTimeoutMs : UInt64) (h : Gains own k₀ inv k) :
    (acquireWith interface loopback receiveOwn readTimeoutMs).Ends k (Gains own k₀ inv) fun s =>
      Gains own k₀ (inv ++ { raws := [s.descriptor] }) := by
  refine (gains_acquire interface h).bind fun s k₁ h₁ => ?_
  have hoptions : (do
      s.setLoopback loopback
      s.setReceiveOwn receiveOwn
      s.setReadTimeout readTimeoutMs : Kernel.Op Error Unit).Silent :=
    (Op.silent_perform rfl).orError.bind fun _ =>
      (Op.silent_perform rfl).orError.bind fun _ => (Op.silent_perform rfl).orError
  refine ((h₁.silent hoptions).orRelease fun k' h' => h'.closeRaw).bind fun _ k₂ h₂ => ?_
  exact Op.Ends.pure h₂

end CanSocket

namespace Resource

/-- The packet socket of a resource, which is also the number of its mapping. -/
def packets (r : Resource) : List Descriptor := r.ring.toList.map (·.1)

/-- What a resource consists of. -/
def inventory (r : Resource) : Inventory where
  raws := [r.key]
  packets := r.packets
  mappings := r.packets

theorem gains_acquireSender (channel : String) (c : BusConfig) (h : Gains own k₀ inv k) :
    (acquireSender channel c).Ends k (Gains own k₀ inv) fun s =>
      Gains own k₀ (inv ++ { raws := [s.descriptor] }) := by
  refine (CanSocket.gains_acquireWith _ _ _ _ h).bind fun s k₁ h₁ => ?_
  refine ((h₁.silent (Op.silent_setFilters s.descriptor 0)).orError.orRelease
    fun k' h' => h'.closeRaw).bind fun _ k₂ h₂ => ?_
  exact Op.Ends.pure h₂

theorem gains_acquireOnMapped (channel : String) (c : BusConfig) (index : UInt32)
    (packet : Descriptor) (base : Nat) (h : Gains own k₀ inv k) :
    (acquireOnMapped channel c index packet base).Ends k (Gains own k₀ inv) fun r k' =>
      Gains own k₀ (inv ++ { raws := [r.key] }) k' ∧ r.packets = [packet] := by
  refine (h.silent (Op.Silent.liftExcept _)).bind fun g k₁ h₁ => ?_
  refine (h₁.silent (Op.Silent.liftExcept _)).bind fun link k₂ h₂ => ?_
  refine (h₂.silent (Op.silent_bindPacket packet link)).orError.bind fun _ k₃ h₃ => ?_
  refine (gains_acquireSender channel c h₃).bind fun s k₄ h₄ => ?_
  exact Op.Ends.pure ⟨h₄, rfl⟩

/-- The mapping is given back before whoever made the packet socket closes it. -/
theorem gains_acquireOnPacket (channel : String) (c : BusConfig) (index : UInt32)
    (packet : Descriptor) (h : Gains own k₀ (inv ++ { packets := [packet] }) k)
    (hpacket : packet ∉ inv.mappings) :
    (acquireOnPacket channel c index packet).Ends k
      (Gains own k₀ (inv ++ { packets := [packet] })) fun r k' =>
        Gains own k₀ (inv ++ r.inventory) k' ∧ r.packets = [packet] := by
  have hmem : packet ∈ (inv ++ { packets := [packet] } : Inventory).packets := by simp
  have hnot : packet ∉ (inv ++ { packets := [packet] } : Inventory).mappings := by simpa using hpacket
  refine (h.silent (Op.silent_perform rfl)).orError.bind fun _ k₁ h₁ => ?_
  refine (h₁.silent (Op.Silent.liftExcept _)).bind fun request k₂ h₂ => ?_
  refine (h₂.silent (Op.silent_requestRing _ _ _ _ _)).orError.bind fun _ k₃ h₃ => ?_
  refine (h₃.map hmem hnot).orError.bind fun base k₄ h₄ => ?_
  have hmapped := gains_acquireOnMapped channel c index packet base h₄
  apply (hmapped.orRelease fun k' h' => h'.unmap hmem).mono
  rintro (e | r) k' hgains
  · exact hgains
  · obtain ⟨hgains, hring⟩ := hgains
    refine ⟨?_, hring⟩
    have hsum : inv ++ { packets := [packet] } ++ { mappings := [packet] } ++ { raws := [r.key] } =
        inv ++ r.inventory := by
      ext1 <;> simp [inventory, hring]
    rw [← hsum]
    exact hgains

theorem gains_acquireRing (channel : String) (c : BusConfig) (h : Gains own k₀ inv k) :
    (acquireRing channel c).Ends k (Gains own k₀ inv) fun r k' =>
      Gains own k₀ (inv ++ r.inventory) k' ∧ r.ring.isSome = true := by
  refine (h.silent (Op.silent_index channel)).bind fun index k₁ h₁ => ?_
  refine h₁.createPacket.orError.bind fun packet k₂ h₂ => ?_
  have hon := gains_acquireOnPacket channel c index packet h₂.1 h₂.2
  apply (hon.orRelease fun k' h' => h'.closePacket h₂.2).mono
  rintro (e | r) k' hgains
  · exact hgains
  · refine ⟨hgains.1, ?_⟩
    have hring := hgains.2
    unfold packets at hring
    cases hsome : r.ring with
    | none => rw [hsome] at hring; cases hring
    | some ring => rfl

/-- Whatever a connection needs is acquired as a whole, or nothing of it remains. -/
theorem gains_acquire (transport : Transport) (channel : String) (c : BusConfig)
    (h : Gains own k₀ inv k) :
    (acquire transport channel c).Ends k (Gains own k₀ inv) fun r k' =>
      Gains own k₀ (inv ++ r.inventory) k' ∧ r.ring.isSome = (transport == .ring) := by
  have hsocket : ∀ ms, (do
      let socket ← CanSocket.acquireWith channel c.loopback c.receiveOwnMessages ms
      return { socket } : Kernel.Op Error Resource).Ends k (Gains own k₀ inv) fun r k' =>
        Gains own k₀ (inv ++ r.inventory) k' ∧ r.ring.isSome = false := by
    intro ms
    refine (CanSocket.gains_acquireWith _ _ _ _ h).bind fun s k₁ h₁ => ?_
    exact Op.Ends.pure ⟨h₁, rfl⟩
  cases transport with
  | ring => exact gains_acquireRing channel c h
  | batched => exact hsocket c.batch.timeoutMs
  | blocking | cancellable | virtual => exact hsocket c.readTimeoutMs

end Resource

end CanTransport
