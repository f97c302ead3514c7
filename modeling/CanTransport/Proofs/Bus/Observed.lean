import CanTransport.Proofs.Bus.Users
import Mathlib.Logic.Function.Basic
/-!
# Buses seen from their rings

A bus with all its callers and tasks, and the other side of its rings, in any order of actions.
What every action leaves in place: resources and rings are told apart by their numbers, a resource
has one user at most, and the user stands as a reader of its ring could.
-/

namespace CanTransport

/-- The packet that the next action of a task hands on, and the socket of its ring. -/
def Site.handing? (s : Site) (id : ReceiverId) : Option (Descriptor × Option Slot.Packet) :=
  (s.bus.receiver? id).bind (Receiver.handing? s)

/-- Whether a socket and a geometry belong to a ring of the bus. -/
def Bus.HasRing (b : Bus) (fd : Descriptor) (g : Geometry) : Prop :=
  ∃ r ∈ b.resources, r.ring = some (fd, g)

/-- A bus, and for each packet socket where the other side will put the next packet, what it has
put so far, and what was handed on. -/
structure Observed where
  site : Site
  head : Descriptor → Nat := fun _ => 0
  put : Descriptor → List (Option Slot.Packet) := fun _ => []
  handed : Descriptor → List (Option Slot.Packet) := fun _ => []

namespace Observed

def filling (w : Observed) (fd : Descriptor) : Filling :=
  { memory := w.site.medium.kernel.memory fd, head := w.head fd, put := w.put fd }

/-- A ring as it lies between both sides. -/
def handover (w : Observed) (fd : Descriptor) (phase : Phase) : Handover :=
  { filling := w.filling fd, phase := phase, handed := w.handed fd }

/-- What was handed on, after one more packet or none. -/
def noted (handed : Descriptor → List (Option Slot.Packet)) :
    Option (Descriptor × Option Slot.Packet) → Descriptor → List (Option Slot.Packet)
  | some (fd, p) => Function.update handed fd (handed fd ++ [p])
  | none => handed

/-- Whatever happens next: a caller begins an operation or replaces the listener, an operation or a
task performs one action, the bus is dropped, the other side of a ring takes a step, or something
else happens that leaves the regions of the bus alone. -/
inductive Step : Observed → Observed → Prop where
  | start {w : Observed} (request : Request) : Step w { w with site := (w.site.start request).2 }
  | subscribe {w : Observed} (listener : Listener) :
      Step w { w with site := w.site.onReception (Reception.subscribe listener) }
  | act {w : Observed} (id : OperationId) : Step w { w with site := (w.site.advance id).2 }
  | run {w : Observed} (id : ReceiverId) : Step w { w with
      site := w.site.run id
      handed := noted w.handed (w.site.handing? id) }
  | drop {w : Observed} : Step w { w with site := w.site.drop }
  | fill {w : Observed} {fd : Descriptor} {g : Geometry} {f : Filling}
      (hring : w.site.bus.HasRing fd g) (hfill : Filling.Step g (w.filling fd) f) :
      Step w { w with
        site := (w.site.onKernel (Kernel.setMemory fd f.memory)).2
        head := Function.update w.head fd f.head
        put := Function.update w.put fd f.put }
  | outside {w : Observed} {medium : Medium}
      (hspares : Kernel.Spares (fun fd => ∃ g, w.site.bus.HasRing fd g) w.site.medium.kernel
        medium.kernel) :
      Step w { w with site := { w.site with medium := medium } }

/-- What can be reached from a bus that was just made. -/
inductive Reachable (s : Site) : Observed → Prop where
  | made : Reachable s { site := s }
  | step {w w' : Observed} (hreach : Reachable s w) (hstep : Step w w') : Reachable s w'

/-- The user of a resource finds its ring as a reader could have come to it from a fresh region. -/
def Tended (ring : RingConfig) (w : Observed) (key : Descriptor) (p : Phase) : Prop :=
  ∃ resource fd g req m, w.site.bus.resource? key = some resource ∧
    resource.ring = some (fd, g) ∧
    Geometry.ofConfig ring ring.regionSize.toNat = .ok g ∧ ring.request = .ok req ∧
    w.site.medium.kernel.region? fd = some m ∧
    Handover.Reachable g (req.blockSize.toNat * req.blockCount.toNat) (w.handover fd p)

/-- Every resource and every ring has a number of its own, and what comes next has none yet. -/
structure Stocked (ring : RingConfig) (w : Observed) : Prop where
  transport_eq : w.site.bus.transport = .ring
  config_eq : w.site.bus.config.ring = ring
  fresh : w.site.medium.kernel.Fresh
  untouched : ∀ fd, w.site.medium.kernel.next ≤ fd →
    w.head fd = 0 ∧ w.put fd = [] ∧ w.handed fd = []
  key_lt : ∀ r ∈ w.site.bus.resources, r.key < w.site.medium.kernel.next
  ring_lt : ∀ fd g, w.site.bus.HasRing fd g → fd < w.site.medium.kernel.next
  key_inj : ∀ r ∈ w.site.bus.resources, ∀ r' ∈ w.site.bus.resources, r.key = r'.key → r = r'
  ring_inj : ∀ r ∈ w.site.bus.resources, ∀ r' ∈ w.site.bus.resources, ∀ fd g g',
    r.ring = some (fd, g) → r'.ring = some (fd, g') → r = r'

/-- What holds of a bus with rings after every step. -/
structure Sound (ring : RingConfig) (w : Observed) : Prop extends Stocked ring w where
  orderly : ∀ o ∈ w.site.bus.operations, Orderly o.todo
  sweeps : ∀ r ∈ w.site.bus.receivers, r.Sweeps
  unique : ∀ key u u' p p', w.site.bus.Uses key u p → w.site.bus.Uses key u' p' → u = u'
  tended : ∀ key u p, w.site.bus.Uses key u p → Tended ring w key p

variable {ring : RingConfig} {w w' : Observed}

/-- A reader does not notice what leaves its resource and its ring as they are. -/
theorem Tended.frame {key : Descriptor} {p : Phase} (h : Tended ring w key p)
    (hresource : w'.site.bus.resource? key = w.site.bus.resource? key)
    (hsame : ∀ resource fd g, w.site.bus.resource? key = some resource →
      resource.ring = some (fd, g) →
      w'.site.medium.kernel.region? fd = w.site.medium.kernel.region? fd ∧
      w'.head fd = w.head fd ∧ w'.put fd = w.put fd ∧ w'.handed fd = w.handed fd) :
    Tended ring w' key p := by
  obtain ⟨resource, fd, g, req, m, hfind, hring, hg, hreq, hregion, hreach⟩ := h
  obtain ⟨hregion', hhead, hput, hhanded⟩ := hsame resource fd g hfind hring
  rw [hregion] at hregion'
  have hhandover : w'.handover fd p = w.handover fd p := by
    unfold handover filling
    rw [Kernel.memory_eq_of_region? hregion, Kernel.memory_eq_of_region? hregion', hhead, hput,
      hhanded]
  refine ⟨resource, fd, g, req, m, hresource.trans hfind, hring, hg, hreq, hregion', ?_⟩
  rw [hhandover]
  exact hreach

/-- A step that acquires nothing. -/
theorem Stocked.mono (h : Stocked ring w) (htransport : w'.site.bus.transport = w.site.bus.transport)
    (hconfig : w'.site.bus.config = w.site.bus.config)
    (hresources : ∀ r ∈ w'.site.bus.resources, r ∈ w.site.bus.resources)
    (hnext : w.site.medium.kernel.next ≤ w'.site.medium.kernel.next)
    (hfresh : w'.site.medium.kernel.Fresh)
    (hsame : ∀ fd, w.site.medium.kernel.next ≤ fd →
      w'.head fd = w.head fd ∧ w'.put fd = w.put fd ∧ w'.handed fd = w.handed fd) :
    Stocked ring w' where
  transport_eq := htransport.trans h.transport_eq
  config_eq := (congrArg BusConfig.ring hconfig).trans h.config_eq
  fresh := hfresh
  untouched fd hfd := by
    have hge := Nat.le_trans hnext hfd
    obtain ⟨hhead, hput, hhanded⟩ := hsame fd hge
    rw [hhead, hput, hhanded]
    exact h.untouched fd hge
  key_lt r hr := Nat.lt_of_lt_of_le (h.key_lt r (hresources r hr)) hnext
  ring_lt := by
    rintro fd g ⟨r, hr, hg⟩
    exact Nat.lt_of_lt_of_le (h.ring_lt fd g ⟨r, hresources r hr, hg⟩) hnext
  key_inj r hr r' hr' := h.key_inj r (hresources r hr) r' (hresources r' hr')
  ring_inj r hr r' hr' := h.ring_inj r (hresources r hr) r' (hresources r' hr')

/-- A step that acquires nothing and touches no region, after which every user is one that there
was before. -/
theorem Sound.calm {s : Site} (h : Sound ring w)
    (htransport : s.bus.transport = w.site.bus.transport) (hconfig : s.bus.config = w.site.bus.config)
    (hresources : s.bus.resources = w.site.bus.resources)
    (hspares : Kernel.Spares (fun fd => ∃ g, w.site.bus.HasRing fd g) w.site.medium.kernel
      s.medium.kernel)
    (horderly : ∀ o ∈ s.bus.operations, Orderly o.todo)
    (hsweeps : ∀ r ∈ s.bus.receivers, r.Sweeps)
    (hunique : ∀ key u u' p p', s.bus.Uses key u p → s.bus.Uses key u' p' → u = u')
    (huses : ∀ key u p, s.bus.Uses key u p → ∃ u', w.site.bus.Uses key u' p) :
    Sound ring { w with site := s } where
  toStocked := h.toStocked.mono htransport hconfig (fun r hr => hresources ▸ hr) hspares.next_le
    (hspares.fresh h.fresh) (fun _ _ => ⟨rfl, rfl, rfl⟩)
  orderly := horderly
  sweeps := hsweeps
  unique := hunique
  tended key u p hu := by
    obtain ⟨u', hu'⟩ := huses key u p hu
    refine (h.tended key u' p hu').frame ?_ ?_
    · simp only [Bus.resource?, hresources]
    · intro resource fd g hfind hg
      have hhas : w.site.bus.HasRing fd g := ⟨resource, (Bus.resource?_mem hfind).1, hg⟩
      exact ⟨hspares.region_eq fd ⟨g, hhas⟩, rfl, rfl, rfl⟩

/-- A step that acquires nothing, touches no region and brings no user. -/
theorem Sound.fewer {s : Site} (h : Sound ring w)
    (htransport : s.bus.transport = w.site.bus.transport) (hconfig : s.bus.config = w.site.bus.config)
    (hresources : s.bus.resources = w.site.bus.resources)
    (hspares : Kernel.Spares (fun fd => ∃ g, w.site.bus.HasRing fd g) w.site.medium.kernel
      s.medium.kernel)
    (hidle : ∀ k, s.bus.idle = some k → w.site.bus.idle = some k)
    (hoperations : ∀ o ∈ s.bus.operations, o ∈ w.site.bus.operations ∨ Unhurried o.todo)
    (hreceivers : ∀ r' ∈ s.bus.receivers, ∃ r ∈ w.site.bus.receivers,
      r' = { r with cancelled := r'.cancelled }) :
    Sound ring { w with site := s } := by
  have huses : ∀ {key u p}, s.bus.Uses key u p → w.site.bus.Uses key u p := fun hu =>
    Bus.Uses.of_fewer hidle (fun o ho => (hoperations o ho).imp_right And.right) hreceivers hu
  refine h.calm htransport hconfig hresources hspares ?_ ?_
    (fun key u u' p p' hu hu' => h.unique key u u' p p' (huses hu) (huses hu'))
    fun key u p hu => ⟨u, huses hu⟩
  · intro o ho
    rcases hoperations o ho with hold | hnew
    · exact h.orderly o hold
    · exact hnew.1
  · intro t ht
    obtain ⟨r, hr, heq⟩ := hreceivers t ht
    have hsweeps := h.sweeps r hr
    rw [heq]
    exact hsweeps

/-- What is given back has no user. -/
theorem Sound.collect (h : Sound ring w) : Sound ring { w with site := w.site.collect } := by
  have hspares := Site.spares_collect w.site
  have huses : ∀ {key u p}, w.site.collect.bus.Uses key u p → w.site.bus.Uses key u p := by
    intro key u p hu
    apply hu.congr <;> rw [Site.collect_bus]
  have hbus := Site.collect_bus w.site
  refine ⟨h.toStocked.mono ?_ ?_ ?_ hspares.next_le (hspares.fresh h.fresh)
    (fun _ _ => ⟨rfl, rfl, rfl⟩), ?_, ?_, ?_, ?_⟩
  · simp
  · simp
  · intro r hr
    simp only [hbus, List.mem_filter] at hr
    exact hr.1
  · intro o ho
    simp only [hbus] at ho
    exact h.orderly o ho
  · intro r hr
    simp only [hbus] at hr
    exact h.sweeps r hr
  · intro key u u' p p' hu hu'
    exact h.unique key u u' p p' (huses hu) (huses hu')
  · intro key u p hu
    have hholds := (huses hu).holds
    refine (h.tended key u p (huses hu)).frame ?_ ?_
    · exact Site.resource?_collect hholds
    · intro resource fd g hfind hg
      obtain ⟨hmem, hkey⟩ := Bus.resource?_mem hfind
      refine ⟨hspares.region_eq fd ?_, rfl, rfl, rfl⟩
      intro r hr hnot g' hg'
      have heq : r = resource := h.ring_inj r hr resource hmem fd g' g hg' hg
      rw [heq, hkey, hholds] at hnot
      cases hnot

/-- A step on one ring that its reader, if there is one, takes part in. -/
theorem Sound.turn {resource : Resource} {fd : Descriptor} {g : Geometry} (h : Sound ring w)
    (hmem : resource ∈ w.site.bus.resources) (hg : resource.ring = some (fd, g))
    (htransport : w'.site.bus.transport = w.site.bus.transport)
    (hconfig : w'.site.bus.config = w.site.bus.config)
    (hresources : w'.site.bus.resources = w.site.bus.resources)
    (hspares : Kernel.Spares (· ≠ fd) w.site.medium.kernel w'.site.medium.kernel)
    (hsame : ∀ x, x ≠ fd → w'.head x = w.head x ∧ w'.put x = w.put x ∧ w'.handed x = w.handed x)
    (horderly : ∀ o ∈ w'.site.bus.operations, Orderly o.todo)
    (hsweeps : ∀ r ∈ w'.site.bus.receivers, r.Sweeps)
    (hunique : ∀ key u u' p p', w'.site.bus.Uses key u p → w'.site.bus.Uses key u' p' → u = u')
    (huses : ∀ key u p, w'.site.bus.Uses key u p →
      (key ≠ resource.key ∧ w.site.bus.Uses key u p) ∨ (key = resource.key ∧ Tended ring w' key p)) :
    Sound ring w' where
  toStocked := by
    refine h.toStocked.mono htransport hconfig (fun r hr => hresources ▸ hr) hspares.next_le
      (hspares.fresh h.fresh) fun x hx => hsame x ?_
    exact Nat.ne_of_gt (Nat.lt_of_lt_of_le (h.ring_lt fd g ⟨resource, hmem, hg⟩) hx)
  orderly := horderly
  sweeps := hsweeps
  unique := hunique
  tended key u p hu := by
    rcases huses key u p hu with ⟨hne, hold⟩ | ⟨-, htended⟩
    · refine (h.tended key u p hold).frame ?_ ?_
      · simp only [Bus.resource?, hresources]
      · intro other x g' hfind hg'
        obtain ⟨hother, hkey⟩ := Bus.resource?_mem hfind
        have hx : x ≠ fd := by
          intro heq
          subst heq
          have hsame := h.ring_inj other hother resource hmem x g' g hg' hg
          exact hne (by rw [← hkey, hsame])
        exact ⟨hspares.region_eq x hx, hsame x hx⟩
    · exact htended

/-- The ring of a resource that has a user. -/
theorem Sound.tended_ring {resource : Resource} {fd : Descriptor} {g : Geometry} {key : Descriptor}
    {u : User} {p : Phase} (h : Sound ring w) (hu : w.site.bus.Uses key u p)
    (hmem : resource ∈ w.site.bus.resources) (hkey : resource.key = key)
    (hg : resource.ring = some (fd, g)) :
    w.site.bus.resource? key = some resource ∧ ∃ req m,
      Geometry.ofConfig ring ring.regionSize.toNat = .ok g ∧ ring.request = .ok req ∧
      w.site.medium.kernel.region? fd = some m ∧
      Handover.Reachable g (req.blockSize.toNat * req.blockCount.toNat) (w.handover fd p) := by
  obtain ⟨other, x, g', req, m, hfind, hring, hconfig, hreq, hregion, hreach⟩ := h.tended key u p hu
  obtain ⟨hother, hkey'⟩ := Bus.resource?_mem hfind
  have heq : other = resource := h.key_inj other hother resource hmem (hkey'.trans hkey.symm)
  subst heq
  rw [hg] at hring
  cases hring
  exact ⟨hfind, req, m, hconfig, hreq, hregion, hreach⟩

theorem Sound.fill {fd : Descriptor} {g : Geometry} {f : Filling} (h : Sound ring w)
    (hring : w.site.bus.HasRing fd g) (hfill : Filling.Step g (w.filling fd) f) :
    Sound ring { w with
      site := (w.site.onKernel (Kernel.setMemory fd f.memory)).2
      head := Function.update w.head fd f.head
      put := Function.update w.put fd f.put } := by
  obtain ⟨resource, hmem, hg⟩ := hring
  refine h.turn hmem hg rfl rfl rfl (Kernel.spares_setMemory fd f.memory _) ?_ h.orderly h.sweeps
    h.unique ?_
  · intro x hx
    exact ⟨Function.update_of_ne hx _ _, Function.update_of_ne hx _ _, rfl⟩
  · intro key u p hu
    by_cases hkey : key = resource.key
    · refine Or.inr ⟨hkey, ?_⟩
      obtain ⟨hfind, req, m, hconfig, hreq, hregion, hreach⟩ :=
        h.tended_ring hu hmem hkey.symm hg
      have hregion' : ((Kernel.setMemory fd f.memory).run w.site.medium.kernel).2.region? fd =
          some f.memory := by
        rw [Kernel.region?_setMemory, if_pos rfl, hregion]
        rfl
      refine ⟨resource, fd, g, req, f.memory, hfind, hg, hconfig, hreq, hregion', ?_⟩
      have hstep := Handover.Reachable.step hreach (.fill hfill)
      have hsame : Observed.handover { w with
          site := (w.site.onKernel (Kernel.setMemory fd f.memory)).2
          head := Function.update w.head fd f.head
          put := Function.update w.put fd f.put } fd p =
          { w.handover fd p with filling := f } := by
        unfold handover filling
        simp only [Function.update_self]
        rw [show (w.site.onKernel (Kernel.setMemory fd f.memory)).2.medium.kernel.memory fd =
          f.memory from Kernel.memory_eq_of_region? hregion']
      rw [hsame]
      exact hstep
    · exact Or.inl ⟨hkey, hu⟩

end Observed

end CanTransport
