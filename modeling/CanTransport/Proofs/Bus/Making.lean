import CanTransport.Bus.Lifetime
import CanTransport.Proofs.Ring.Layout
/-!
# Making buses

What the making of a bus asks of the kernel, and what it brings about: a valid configuration and a
successful acquisition for a ring, a valid configuration and an interface for the other sockets.
-/

namespace CanTransport

theorem RingConfig.validate_of_check {c : BusConfig} (h : c.check = .ok ()) :
    c.ring.validate = .ok () := by
  unfold BusConfig.check at h
  cases hvalid : c.validate with
  | error e => rw [hvalid] at h; cases h
  | ok u => exact validate_of_valid hvalid

/-- A medium operation that begins with a kernel operation. -/
theorem Kernel.Op.run_onMedium_bind {α β : Type} (op : Kernel.Op Error α) (f : α → Medium.Op β)
    (m : Medium) :
    (op.onMedium >>= f).run m =
      match (op.run m.kernel : Except Error α × Kernel) with
      | (.ok a, k) => (f a).run { m with kernel := k }
      | (.error e, k) => (.error e, { m with kernel := k }) := by
  show (ExceptT.bindCont f (op.run m.kernel).1 : StateM Medium (Except Error β))
    { m with kernel := (op.run m.kernel).2 } = _
  rcases (op.run m.kernel : Except Error α × Kernel) with ⟨_ | _, _⟩ <;> rfl

namespace Bus

variable {transport : Transport} {channel : String} {c : BusConfig} {m m' : Medium} {b : Bus}

/-- An invalid configuration is refused before anything is asked of the kernel. -/
theorem run_make_of_error {e : Error} (hcheck : c.check = .error e) :
    (make transport channel c).run m = (.error e, m) := by
  unfold make
  rw [hcheck]
  rfl

theorem run_make_ring (hcheck : c.check = .ok ()) :
    (make .ring channel c).run m =
      (((Resource.acquireRing channel c).run m.kernel).1.map fun resource =>
          { fresh .ring channel c with resources := [resource], idle := some resource.key },
        { m with kernel := ((Resource.acquireRing channel c).run m.kernel).2 }) := by
  have hmake : make .ring channel c = do
      let resource ← (Resource.acquireRing channel c).onMedium
      return { fresh .ring channel c with
        resources := [resource], idle := some resource.key } := by
    unfold make
    rw [hcheck]
    rfl
  rw [hmake]
  refine (Kernel.Op.run_onMedium_bind _ _ m).trans ?_
  rcases ((Resource.acquireRing channel c).run m.kernel : Except Error Resource × Kernel)
    with ⟨_ | _, _⟩ <;> rfl

theorem run_make_socket (hcheck : c.check = .ok ()) (hring : transport ≠ .ring)
    (hvirtual : transport ≠ .virtual) :
    (make transport channel c).run m =
      (((lookUp channel).run m.kernel).1.map fun _ => fresh transport channel c,
        { m with kernel := ((lookUp channel).run m.kernel).2 }) := by
  have hmake : make transport channel c = do
      let _ ← (lookUp channel).onMedium
      return fresh transport channel c := by
    unfold make
    rw [hcheck]
    cases transport with
    | ring => exact absurd rfl hring
    | virtual => exact absurd rfl hvirtual
    | blocking | cancellable | batched => rfl
  rw [hmake]
  refine (Kernel.Op.run_onMedium_bind _ _ m).trans ?_
  rcases ((lookUp channel).run m.kernel : Except Error UInt32 × Kernel) with ⟨_ | _, _⟩ <;> rfl

/-- A virtual bus takes the next number and a handle to the queue of its channel. -/
theorem run_make_virtual (hcheck : c.check = .ok ()) (hname : channel.isEmpty = false) :
    (make .virtual channel c).run m =
      (let attached := m.hub.attach channel c.listenerCapacity.toNat
       (.ok { fresh .virtual channel c with
          origin := attached.2.nextOrigin, queue := attached.1 },
        { m with hub := { attached.2 with nextOrigin := attached.2.nextOrigin + 1 } })) := by
  unfold make
  rw [hcheck]
  simp only [hname]
  rfl

theorem run_make_unnamed (hcheck : c.check = .ok ()) (hname : channel.isEmpty = true) :
    (make .virtual channel c).run m =
      (.error (.config "virtual channel name cannot be empty"), m) := by
  unfold make
  rw [hcheck]
  simp only [hname]
  rfl

theorem check_of_make (h : (make transport channel c).run m = (.ok b, m')) :
    c.check = .ok () := by
  cases hcheck : c.check with
  | ok u => rfl
  | error e =>
    rw [run_make_of_error hcheck] at h
    cases h

/-- What it takes to make a bus with a ring. -/
theorem make_ring (h : (make .ring channel c).run m = (.ok b, m')) :
    c.ring.validate = .ok () ∧ ∃ resource,
      (Resource.acquireRing channel c).run m.kernel = (.ok resource, m'.kernel) ∧
      b = { fresh .ring channel c with resources := [resource], idle := some resource.key } := by
  have hcheck := check_of_make h
  refine ⟨RingConfig.validate_of_check hcheck, ?_⟩
  rw [run_make_ring hcheck] at h
  generalize (Resource.acquireRing channel c).run m.kernel = acquired at h ⊢
  obtain ⟨_ | resource, k⟩ := acquired
  · cases h
  · cases h
    exact ⟨resource, rfl, rfl⟩

/-- What it takes to make a bus on a plain socket. -/
theorem make_socket (hring : transport ≠ .ring) (hvirtual : transport ≠ .virtual)
    (h : (make transport channel c).run m = (.ok b, m')) :
    b = fresh transport channel c ∧
      m' = { m with kernel := ((lookUp channel).run m.kernel).2 } := by
  rw [run_make_socket (check_of_make h) hring hvirtual] at h
  generalize (lookUp channel).run m.kernel = looked at h ⊢
  obtain ⟨_ | index, k⟩ := looked
  · cases h
  · cases h
    exact ⟨rfl, rfl⟩

/-- What it takes to make a virtual bus. -/
theorem make_virtual (h : (make .virtual channel c).run m = (.ok b, m')) :
    (let attached := m.hub.attach channel c.listenerCapacity.toNat
     b = { fresh .virtual channel c with
        origin := attached.2.nextOrigin, queue := attached.1 } ∧
      m' = { m with hub := { attached.2 with nextOrigin := attached.2.nextOrigin + 1 } }) := by
  have hcheck := check_of_make h
  cases hname : channel.isEmpty with
  | true =>
    rw [run_make_unnamed hcheck hname] at h
    cases h
  | false =>
    rw [run_make_virtual hcheck hname] at h
    cases h
    exact ⟨rfl, rfl⟩

/-- A virtual bus that is not made takes no part in anything. -/
theorem medium_of_make_virtual {e : Error}
    (h : (make .virtual channel c).run m = (.error e, m')) : m' = m := by
  cases hcheck : c.check with
  | error e' =>
    rw [run_make_of_error hcheck] at h
    cases h
    rfl
  | ok u =>
    cases hname : channel.isEmpty with
    | true =>
      rw [run_make_unnamed hcheck hname] at h
      cases h
      rfl
    | false =>
      rw [run_make_virtual hcheck hname] at h
      cases h

theorem config_of_make (h : (make transport channel c).run m = (.ok b, m')) : b.config = c := by
  cases transport with
  | ring =>
    obtain ⟨-, resource, -, rfl⟩ := make_ring h
    rfl
  | virtual =>
    obtain ⟨rfl, -⟩ := make_virtual h
    rfl
  | blocking | cancellable | batched =>
    obtain ⟨rfl, -⟩ := make_socket (by decide) (by decide) h
    rfl

end Bus

end CanTransport
