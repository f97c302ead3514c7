import CanTransport.Proofs.Bus.Actions
import CanTransport.Proofs.Kernel.Regions
/-!
# The stock of a bus

Every resource that is acquired comes with an open socket and a number that no older resource has.
So what senders are given, and what waits for the next connection, is an open resource of the bus
until somebody closes it.
-/

namespace CanTransport

namespace Kernel.Op

variable {ε α β : Type}

/-- Whatever value an operation has satisfies `P`. -/
def Gives (op : Kernel.Op ε α) (P : α → Prop) : Prop :=
  ∀ k, op.Yields k fun r _ => ∀ a, r = .ok a → P a

theorem Gives.bind {x : Kernel.Op ε α} {f : α → Kernel.Op ε β} {P : α → Prop} {Q : β → Prop}
    (hx : x.Gives P) (hf : ∀ a, P a → (f a).Gives Q) : (x >>= f).Gives Q := by
  intro k
  rw [yields_bind]
  apply Yields.mono (hx k)
  rintro (e | a) k' ha
  · exact fun b hb => by cases hb
  · exact hf a (ha a rfl) k'

theorem Gives.of_continuation {x : Kernel.Op ε α} {f : α → Kernel.Op ε β} {Q : β → Prop}
    (hf : ∀ a, (f a).Gives Q) : (x >>= f).Gives Q :=
  Gives.bind (P := fun _ => True) (fun _ _ _ => trivial) fun a _ => hf a

theorem Gives.pure {a : α} {P : α → Prop} (h : P a) : (Pure.pure a : Kernel.Op ε α).Gives P := by
  intro k b hb
  cases hb
  exact h

theorem Gives.orRelease {op : Kernel.Op ε α} {release : StateM Kernel Unit} {P : α → Prop}
    (h : op.Gives P) : (op.orRelease release).Gives P := by
  intro k
  rw [yields_orRelease]
  apply Yields.mono (h k)
  rintro (e | a) k' ha
  · exact fun b hb => by cases hb
  · exact ha

end Kernel.Op

namespace CanSocket

open Kernel.Op

theorem gives_acquire (interface : String) :
    (acquire interface).Gives fun s => s.closed = false := by
  apply Gives.of_continuation
  intro index
  apply Gives.of_continuation
  intro fd
  apply Gives.of_continuation
  intro _
  exact Gives.pure rfl

theorem gives_acquireWith (interface : String) (loopback receiveOwn : Bool) (ms : UInt64) :
    (acquireWith interface loopback receiveOwn ms).Gives fun s => s.closed = false := by
  refine (gives_acquire interface).bind fun s hs => ?_
  exact Gives.of_continuation fun _ => Gives.pure hs

end CanSocket

namespace Resource

open Kernel Kernel.Op

theorem gives_acquireSender (channel : String) (c : BusConfig) :
    (acquireSender channel c).Gives fun s => s.closed = false := by
  refine (CanSocket.gives_acquireWith _ _ _ _).bind fun s hs => ?_
  exact Gives.of_continuation fun _ => Gives.pure hs

theorem gives_acquireOnMapped (channel : String) (c : BusConfig) (index : UInt32)
    (packet : Descriptor) (base : Nat) :
    (acquireOnMapped channel c index packet base).Gives fun r => r.socket.closed = false := by
  apply Gives.of_continuation
  intro g
  apply Gives.of_continuation
  intro link
  apply Gives.of_continuation
  intro _
  exact (gives_acquireSender channel c).bind fun s hs => Gives.pure hs

theorem gives_acquireRing (channel : String) (c : BusConfig) :
    (acquireRing channel c).Gives fun r => r.socket.closed = false := by
  apply Gives.of_continuation
  intro index
  apply Gives.of_continuation
  intro packet
  apply Gives.orRelease
  apply Gives.of_continuation
  intro _
  apply Gives.of_continuation
  intro request
  apply Gives.of_continuation
  intro _
  apply Gives.of_continuation
  intro base
  exact (gives_acquireOnMapped channel c index packet base).orRelease

/-- A resource that is acquired is open, and its number is new. -/
structure Acquired (k : Kernel) (r : Resource) (k' : Kernel) : Prop where
  key_ge : k.next ≤ r.key
  key_lt : r.key < k'.next
  socket_open : r.socket.closed = false

theorem acquired (transport : Transport) (channel : String) (c : BusConfig) {k : Kernel}
    (hfresh : k.Fresh) :
    (acquire transport channel c).Sparing (fun _ => False) k fun r k' => r.Acquired k k' := by
  have hsocket : ∀ ms, (do
      let socket ← CanSocket.acquireWith channel c.loopback c.receiveOwnMessages ms
      return { socket } : Kernel.Op Error Resource).Sparing (fun _ => False) k
        fun r k' => r.Acquired k k' := by
    intro ms
    have hgives := CanSocket.gives_acquireWith channel c.loopback c.receiveOwnMessages ms k
    have hnew : (CanSocket.acquireWith channel c.loopback c.receiveOwnMessages ms).Sparing
        (fun _ => False) k (CanSocket.NewSince k) := CanSocket.sparing_acquireWith _ _ _ _ k
    have hboth : (CanSocket.acquireWith channel c.loopback c.receiveOwnMessages ms).Sparing
        (fun _ => False) k fun s k' => CanSocket.NewSince k s k' ∧ s.closed = false :=
      ⟨hnew.1, fun s hs => ⟨hnew.2 s hs, hgives s hs⟩⟩
    refine hboth.bind fun s k' hs _ => ?_
    exact Sparing.pure ⟨hs.1.1, hs.1.2, hs.2⟩
  cases transport with
  | ring =>
    have hgives := gives_acquireRing channel c k
    have hnew := sparing_acquireRing channel c k hfresh
    refine ⟨hnew.1.mono fun _ hfalse => hfalse.elim, fun r hr => ?_⟩
    exact ⟨(hnew.2 r hr).key_ge, (hnew.2 r hr).key_lt, hgives r hr⟩
  | batched => exact hsocket c.batch.timeoutMs
  | blocking | cancellable | virtual => exact hsocket c.readTimeoutMs

end Resource

namespace Bus

/-- Whether a resource of the bus is open. -/
def Opens (b : Bus) (key : Descriptor) : Prop :=
  ∃ r, b.resource? key = some r ∧ r.socket.closed = false

variable {b b' : Bus} {key : Descriptor}

theorem Opens.congr (hresources : b'.resources = b.resources) (h : b.Opens key) :
    b'.Opens key := by
  obtain ⟨r, hr, hopen⟩ := h
  refine ⟨r, ?_, hopen⟩
  rw [resource?, hresources]
  exact hr

/-- A further resource does not hide an older one. -/
theorem Opens.append {r : Resource} (hresources : b'.resources = b.resources ++ [r])
    (h : b.Opens key) : b'.Opens key := by
  obtain ⟨old, hold, hopen⟩ := h
  refine ⟨old, ?_, hopen⟩
  rw [resource?] at hold
  rw [resource?, hresources, List.find?_append, hold]
  rfl

theorem opens_new {r : Resource} (hresources : b'.resources = b.resources ++ [r])
    (hnew : ∀ old ∈ b.resources, old.key ≠ r.key) (hopen : r.socket.closed = false) :
    b'.Opens r.key := by
  have hnone : b.resources.find? (·.key == r.key) = none := by
    rw [List.find?_eq_none]
    intro old hold
    simpa using hnew old hold
  refine ⟨r, ?_, hopen⟩
  rw [resource?, hresources, List.find?_append, hnone]
  simp

theorem holds_of_published (h : b.published = some key) : b.holds key = true := by
  simp [holds, h]

theorem holds_of_idle (h : b.idle = some key) : b.holds key = true := by
  simp [holds, h]

theorem holds_of_operation {o : Operation} (hmem : o ∈ b.operations)
    (h : o.handle = some key) : b.holds key = true := by
  have hany : b.operations.any (·.handle == some key) = true :=
    List.any_eq_true.mpr ⟨o, hmem, by simp [h]⟩
  simp [holds, hany]

end Bus

namespace Site

theorem opens_collect {s : Site} {key : Descriptor} (hholds : s.bus.holds key = true)
    (h : s.bus.Opens key) : s.collect.bus.Opens key := by
  obtain ⟨r, hr, hopen⟩ := h
  exact ⟨r, (resource?_collect hholds).trans hr, hopen⟩

/-- What a bus has: resources with numbers that were given out, and open ones for senders and for
the next connection. Only a ring keeps one waiting. -/
structure Stocked (s : Site) : Prop where
  fresh : s.medium.kernel.Fresh
  key_lt : ∀ r ∈ s.bus.resources, r.key < s.medium.kernel.next
  published_open : ∀ key, s.bus.published = some key → s.bus.Opens key
  idle_open : ∀ key, s.bus.idle = some key → s.bus.Opens key
  idle_ring : s.bus.idle ≠ none → s.bus.transport = .ring

variable {s s' : Site}

theorem Stocked.of_resources_eq (h : s.Stocked) (hresources : s'.bus.resources = s.bus.resources)
    (htransport : s'.bus.transport = s.bus.transport)
    (hpublished : ∀ key, s'.bus.published = some key → s.bus.Opens key)
    (hidle : s'.bus.idle = s.bus.idle ∨ s'.bus.idle = none)
    (hspares : Kernel.Spares (fun _ => False) s.medium.kernel s'.medium.kernel) : s'.Stocked where
  fresh := hspares.fresh h.fresh
  key_lt r hr := by
    rw [hresources] at hr
    exact Nat.lt_of_lt_of_le (h.key_lt r hr) hspares.next_le
  published_open key hkey := (hpublished key hkey).congr hresources
  idle_open key hkey := by
    rcases hidle with hsame | hnone
    · exact (h.idle_open key (hsame ▸ hkey)).congr hresources
    · rw [hnone] at hkey
      cases hkey
  idle_ring hne := by
    rcases hidle with hsame | hnone
    · exact htransport.trans (h.idle_ring (hsame ▸ hne))
    · exact absurd hnone hne

theorem Stocked.collect (h : s.Stocked) : s.collect.Stocked where
  fresh := (spares_collect s).fresh h.fresh
  key_lt r hr := by
    rw [collect_bus] at hr
    exact Nat.lt_of_lt_of_le (h.key_lt r (List.mem_filter.mp hr).1) (spares_collect s).next_le
  published_open key hkey := by
    have hpublished : s.bus.published = some key := by rw [← hkey, collect_bus]
    exact opens_collect (Bus.holds_of_published hpublished) (h.published_open key hpublished)
  idle_open key hkey := by
    have hidle : s.bus.idle = some key := by rw [← hkey, collect_bus]
    exact opens_collect (Bus.holds_of_idle hidle) (h.idle_open key hidle)
  idle_ring hne := by
    rw [collect_bus] at hne ⊢
    exact h.idle_ring hne

/-- Another bus with the same stock. -/
theorem Stocked.congr (h : s.Stocked) (hresources : s'.bus.resources = s.bus.resources)
    (htransport : s'.bus.transport = s.bus.transport)
    (hpublished : s'.bus.published = s.bus.published) (hidle : s'.bus.idle = s.bus.idle)
    (hspares : Kernel.Spares (fun _ => False) s.medium.kernel s'.medium.kernel) : s'.Stocked := by
  refine h.of_resources_eq hresources htransport ?_ (Or.inl hidle) hspares
  rw [hpublished]
  exact h.published_open

theorem Stocked.key_ne {r : Resource} {k : Kernel} (h : s.Stocked)
    (hacquired : r.Acquired s.medium.kernel k) : ∀ old ∈ s.bus.resources, old.key ≠ r.key := by
  intro old hold
  have hlt := h.key_lt old hold
  have hge := hacquired.key_ge
  exact Nat.ne_of_lt (Nat.lt_of_lt_of_le hlt hge)

/-- A resource that was acquired joins the others. -/
theorem Stocked.add {r : Resource} (h : s.Stocked) (hbus : s'.bus = s.bus)
    (hspares : Kernel.Spares (fun _ => False) s.medium.kernel s'.medium.kernel)
    (hacquired : r.Acquired s.medium.kernel s'.medium.kernel) :
    (s'.setBus { s'.bus with resources := s'.bus.resources ++ [r] }).Stocked := by
  have hresources : (s'.setBus { s'.bus with
      resources := s'.bus.resources ++ [r] }).bus.resources = s.bus.resources ++ [r] := by
    rw [← hbus]
    rfl
  refine ⟨hspares.fresh h.fresh, ?_, ?_, ?_, ?_⟩
  · intro other hother
    rw [hresources] at hother
    rcases List.mem_append.mp hother with hold | hnew
    · exact Nat.lt_of_lt_of_le (h.key_lt other hold) hspares.next_le
    · cases List.mem_singleton.mp hnew
      exact hacquired.key_lt
  · intro key hkey
    rw [show (s'.setBus _).bus.published = s.bus.published by rw [← hbus]; rfl] at hkey
    exact (h.published_open key hkey).append hresources
  · intro key hkey
    rw [show (s'.setBus _).bus.idle = s.bus.idle by rw [← hbus]; rfl] at hkey
    exact (h.idle_open key hkey).append hresources
  · intro hidle
    rw [show (s'.setBus _).bus.idle = s.bus.idle by rw [← hbus]; rfl] at hidle
    rw [show (s'.setBus _).bus.transport = s.bus.transport by rw [← hbus]; rfl]
    exact h.idle_ring hidle

end Site

end CanTransport
