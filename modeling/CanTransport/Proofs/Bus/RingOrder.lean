import CanTransport.Proofs.Bus.Making
import CanTransport.Proofs.Bus.Reading
/-!
# Order across rings

Whatever callers, tasks and the other side of a ring do, every reception task is a reader that
found its region fresh and its cursor at the first slot, whichever connection it belongs to. So
every ring hands on what was put into it, in order and nothing else.
-/

namespace CanTransport

namespace Observed

variable {ring : RingConfig} {w w' : Observed}

/-- One user that takes the place of another leaves at most one for each resource. -/
theorem unique_of_moved {b b' : Bus} (previous current : User)
    (h : ∀ key u u' p p', b.Uses key u p → b.Uses key u' p' → u = u')
    (hmoved : ∀ key u p, b'.Uses key u p →
      (b.Uses key u p ∧ u ≠ previous) ∨ (u = current ∧ b.Uses key previous p)) :
    ∀ key u u' p p', b'.Uses key u p → b'.Uses key u' p' → u = u' := by
  intro key u u' p p' hu hu'
  rcases hmoved key u p hu with ⟨hold, hne⟩ | ⟨rfl, hprevious⟩
  · rcases hmoved key u' p' hu' with ⟨hold', -⟩ | ⟨-, hprevious'⟩
    · exact h key u u' p p' hold hold'
    · exact absurd (h key _ _ _ _ hold hprevious') hne
  · rcases hmoved key u' p' hu' with ⟨hold', hne'⟩ | ⟨rfl, -⟩
    · exact absurd (h key _ _ _ _ hold' hprevious) hne'
    · rfl

section Acting

variable {o o' : Operation} {s : Site}

theorem orderly_acted (h : Sound ring w) (hoperations : s.bus.operations = w.site.bus.operations)
    (htodo : Orderly o'.todo) : ∀ x ∈ (s.bus.setOperation o').operations, Orderly x.todo := by
  intro x hx
  rcases Bus.mem_setOperation hx with rfl | ⟨hold, -⟩
  · exact htodo
  · exact h.orderly x (hoperations ▸ hold)

theorem Sound.took_waiting {key : Descriptor} (h : Sound ring w)
    (hidle : w.site.bus.idle = some key) (hkey : o'.handle = some key) (hrest : Orderly o'.todo) :
    Sound ring { w with site := w.site.setBus (({ w.site.bus with idle := none } : Bus).setOperation o') } := by
  have hmoved : ∀ key' u p, (({ w.site.bus with idle := none } : Bus).setOperation o').Uses key' u p →
      (w.site.bus.Uses key' u p ∧ u ≠ .waiting) ∨
        (u = .operation o'.id ∧ w.site.bus.Uses key' .waiting p) := by
    intro key' u p hu
    rcases hu.setOperation with ⟨hold, -⟩ | ⟨hself, hp, -, hkey'⟩
    · left
      cases hold with
      | waiting hnone => cases hnone
      | operation hmem htodo hhandle => exact ⟨.operation hmem htodo hhandle, by simp⟩
      | receiver hmem hhandle => exact ⟨.receiver hmem hhandle, by simp⟩
    · rw [hkey] at hkey'
      cases hkey'
      subst hp
      exact Or.inr ⟨hself, .waiting hidle⟩
  refine h.calm rfl rfl rfl (Kernel.Spares.refl _) (orderly_acted h rfl hrest) h.sweeps
    (unique_of_moved _ _ h.unique hmoved) fun key' u p hu => ?_
  rcases hmoved key' u p hu with ⟨hold, -⟩ | ⟨-, hold⟩
  · exact ⟨_, hold⟩
  · exact ⟨_, hold⟩

theorem Sound.spawned {r : Receiver} {rest : List Action} (h : Sound ring w)
    (ho : o ∈ w.site.bus.operations) (htodo : o.todo = .spawn :: rest)
    (hframed : Operation.Framed w.site o s o')
    (hresources : s.bus.resources = w.site.bus.resources) (hidle : s.bus.idle = w.site.bus.idle)
    (hreceivers : s.bus.receivers = w.site.bus.receivers ++ [r]) (hhandle : r.handle = o.handle)
    (hphase : r.phase = .resting 0) (hsweeps : r.Sweeps) (hmedium : s.medium = w.site.medium)
    (hrest : Unhurried o'.todo) :
    Sound ring { w with site := s.setBus (s.bus.setOperation o') } := by
  have hmoved : ∀ key u p, (s.bus.setOperation o').Uses key u p →
      (w.site.bus.Uses key u p ∧ u ≠ .operation o.id) ∨
        (u = .receiver r.id ∧ w.site.bus.Uses key (.operation o.id) p) := by
    intro key u p hu
    rcases hu.setOperation with ⟨hold, hne⟩ | ⟨-, -, hspawn, -⟩
    · rw [hframed.id_eq] at hne
      cases hold with
      | waiting hkey => exact Or.inl ⟨.waiting (hidle ▸ hkey), hne⟩
      | operation hmem htodo' hkey =>
        exact Or.inl ⟨.operation (hframed.operations_eq ▸ hmem) htodo' hkey, hne⟩
      | receiver hmem hkey =>
        rw [hreceivers, List.mem_append, List.mem_singleton] at hmem
        rcases hmem with hmem | rfl
        · exact Or.inl ⟨.receiver hmem hkey, hne⟩
        · rw [hphase]
          exact Or.inr ⟨rfl, .operation ho htodo (hhandle ▸ hkey)⟩
    · exact absurd hspawn hrest.2
  have hspares : Kernel.Spares (fun fd => ∃ g, w.site.bus.HasRing fd g) w.site.medium.kernel
      s.medium.kernel := by
    rw [hmedium]
    exact Kernel.Spares.refl _
  refine h.calm hframed.transport_eq hframed.config_eq hresources hspares
    (orderly_acted h hframed.operations_eq hrest.1) ?_ (unique_of_moved _ _ h.unique hmoved)
    fun key u p hu => ?_
  · intro t ht
    have ht' : t ∈ w.site.bus.receivers ++ [r] := hreceivers ▸ ht
    rw [List.mem_append, List.mem_singleton] at ht'
    rcases ht' with hold | rfl
    · exact h.sweeps t hold
    · exact hsweeps
  · rcases hmoved key u p hu with ⟨hold, -⟩ | ⟨-, hold⟩
    · exact ⟨_, hold⟩
    · exact ⟨_, hold⟩

theorem Sound.noticed_nothing (h : Sound ring w) (hframed : Operation.Framed w.site o s o')
    (hresources : s.bus.resources = w.site.bus.resources)
    (hidle : s.bus.idle = w.site.bus.idle ∨ s.bus.idle = none)
    (hreceivers : ∀ r' ∈ s.bus.receivers, ∃ r ∈ w.site.bus.receivers,
      r' = { r with cancelled := r'.cancelled })
    (hspares : Kernel.Spares (· < w.site.medium.kernel.next) w.site.medium.kernel
      s.medium.kernel)
    (hrest : Unhurried o'.todo) :
    Sound ring { w with site := s.setBus (s.bus.setOperation o') } := by
  refine h.fewer hframed.transport_eq hframed.config_eq hresources
    (hspares.mono fun fd ⟨g, hg⟩ => h.ring_lt fd g hg) ?_ ?_ hreceivers
  · intro k hk
    rcases hidle with hsame | hnone
    · exact hsame ▸ hk
    · have hk' : s.bus.idle = some k := hk
      rw [hnone] at hk'
      cases hk'
  · intro x hx
    rcases Bus.mem_setOperation hx with rfl | ⟨hold, -⟩
    · exact Or.inr hrest
    · exact Or.inl (hframed.operations_eq ▸ hold)

/-- A resource that was just acquired is new, and so is its ring. -/
theorem Stocked.acquired {resource : Resource} (h : Stocked ring w)
    (hbus : s.bus = { w.site.bus with resources := w.site.bus.resources ++ [resource] })
    (hspares : Kernel.Spares (· < w.site.medium.kernel.next) w.site.medium.kernel
      s.medium.kernel)
    (hnew : Resource.NewRing w.site.bus.config w.site.medium.kernel resource s.medium.kernel) :
    Stocked ring { w with site := s.setBus (s.bus.setOperation o') } := by
  obtain ⟨fd, g, req, hring, hfd, -, -, hregion⟩ := hnew.ring_eq
  have hfresh := hspares.fresh h.fresh
  have hmem : ∀ r, r ∈ (s.bus.setOperation o').resources ↔
      r ∈ w.site.bus.resources ∨ r = resource := by
    intro r
    show r ∈ s.bus.resources ↔ _
    rw [hbus]
    simp
  have hkey_ne : ∀ r ∈ w.site.bus.resources, r.key ≠ resource.key := by
    intro r hr
    exact Nat.ne_of_lt (Nat.lt_of_lt_of_le (h.key_lt r hr) hnew.key_ge)
  have hring_ne : ∀ x g', w.site.bus.HasRing x g' → x ≠ fd := by
    intro x g' hx
    exact Nat.ne_of_lt (Nat.lt_of_lt_of_le (h.ring_lt x g' hx) hfd)
  refine { transport_eq := ?_, config_eq := ?_, fresh := hfresh, untouched := ?_, key_lt := ?_,
           ring_lt := ?_, key_inj := ?_, ring_inj := ?_ }
  · show s.bus.transport = .ring
    rw [hbus]
    exact h.transport_eq
  · show s.bus.config.ring = ring
    rw [hbus]
    exact h.config_eq
  · intro x hx
    exact h.untouched x (Nat.le_trans hspares.next_le hx)
  · intro r hr
    rcases (hmem r).mp hr with hold | rfl
    · exact Nat.lt_of_lt_of_le (h.key_lt r hold) hspares.next_le
    · exact hnew.key_lt
  · rintro x g' ⟨r, hr, hg'⟩
    rcases (hmem r).mp hr with hold | rfl
    · exact Nat.lt_of_lt_of_le (h.ring_lt x g' ⟨r, hold, hg'⟩) hspares.next_le
    · rw [hring] at hg'
      cases hg'
      exact Kernel.lt_next_of_region? hfresh hregion
  · intro r hr r' hr' heq
    rcases (hmem r).mp hr with hold | rfl <;> rcases (hmem r').mp hr' with hold' | rfl
    · exact h.key_inj r hold r' hold' heq
    · exact absurd heq (hkey_ne r hold)
    · exact absurd heq.symm (hkey_ne r' hold')
    · rfl
  · intro r hr r' hr' x g₁ g₂ hg₁ hg₂
    rcases (hmem r).mp hr with hold | rfl <;> rcases (hmem r').mp hr' with hold' | rfl
    · exact h.ring_inj r hold r' hold' x g₁ g₂ hg₁ hg₂
    · rw [hring] at hg₂
      cases hg₂
      exact absurd rfl (hring_ne _ g₁ ⟨r, hold, hg₁⟩)
    · rw [hring] at hg₁
      cases hg₁
      exact absurd rfl (hring_ne _ g₂ ⟨r', hold', hg₂⟩)
    · rfl

/-- The ring of a resource that was just acquired is fresh to its reader. -/
theorem Stocked.tended_acquired {resource : Resource} (h : Stocked ring w)
    (hbus : s.bus = { w.site.bus with resources := w.site.bus.resources ++ [resource] })
    (hnew : Resource.NewRing w.site.bus.config w.site.medium.kernel resource s.medium.kernel) :
    Tended ring { w with site := s.setBus (s.bus.setOperation o') } resource.key (.resting 0) := by
  obtain ⟨fd, g, req, hring, hfd, hconfig, hreq, hregion⟩ := hnew.ring_eq
  rw [h.config_eq] at hconfig hreq
  refine ⟨resource, fd, g, req, _, ?_, hring, hconfig, hreq, hregion, ?_⟩
  · have hresources : s.bus.resources = w.site.bus.resources ++ [resource] := by rw [hbus]
    have hnone : w.site.bus.resources.find? (·.key == resource.key) = none := by
      rw [List.find?_eq_none]
      intro r hr heq
      have hlt := Nat.lt_of_lt_of_le (h.key_lt r hr) hnew.key_ge
      exact Nat.ne_of_lt hlt (by simpa using heq)
    show s.bus.resources.find? _ = some resource
    rw [hresources, List.find?_append, hnone]
    simp
  · obtain ⟨hhead, hput, hhanded⟩ := h.untouched fd hfd
    have heq : Observed.handover { w with site := s.setBus (s.bus.setOperation o') } fd
        (.resting 0) = Handover.fresh (req.blockSize.toNat * req.blockCount.toNat) := by
      unfold handover filling Handover.fresh
      simp only [hhead, hput, hhanded]
      rw [show (s.setBus (s.bus.setOperation o')).medium.kernel.memory fd = _ from
        Kernel.memory_eq_of_region? hregion]
    rw [heq]
    exact .fresh

theorem Sound.acquired {resource : Resource} (h : Sound ring w)
    (hbus : s.bus = { w.site.bus with resources := w.site.bus.resources ++ [resource] })
    (hspares : Kernel.Spares (· < w.site.medium.kernel.next) w.site.medium.kernel
      s.medium.kernel)
    (hnew : Resource.NewRing w.site.bus.config w.site.medium.kernel resource s.medium.kernel)
    (hkey : o'.handle = some resource.key) (hrest : Orderly o'.todo) :
    Sound ring { w with site := s.setBus (s.bus.setOperation o') } := by
  have huses : ∀ key u p, (s.bus.setOperation o').Uses key u p → w.site.bus.Uses key u p ∨
      u = .operation o'.id ∧ p = .resting 0 ∧ key = resource.key := by
    intro key u p hu
    rcases hu.setOperation with ⟨hold, -⟩ | ⟨hself, hp, -, hkey'⟩
    · left
      apply hold.congr <;> rw [hbus]
    · rw [hkey] at hkey'
      cases hkey'
      exact Or.inr ⟨hself, hp, rfl⟩
  have huse_ne : ∀ key u p, w.site.bus.Uses key u p → key ≠ resource.key := by
    intro key u p hu
    obtain ⟨r, -, -, -, -, hfind, -⟩ := h.tended key u p hu
    obtain ⟨hr, rfl⟩ := Bus.resource?_mem hfind
    exact Nat.ne_of_lt (Nat.lt_of_lt_of_le (h.key_lt r hr) hnew.key_ge)
  refine { toStocked := h.toStocked.acquired hbus hspares hnew, orderly := ?_, sweeps := ?_,
           unique := ?_, tended := ?_ }
  · exact orderly_acted h (by rw [hbus]) hrest
  · intro t ht
    have ht' : t ∈ s.bus.receivers := ht
    rw [hbus] at ht'
    exact h.sweeps t ht'
  · intro key u u' p p' hu hu'
    rcases huses key u p hu with hold | ⟨rfl, -, rfl⟩ <;>
      rcases huses _ u' p' hu' with hold' | ⟨rfl, -, heq⟩
    · exact h.unique key u u' p p' hold hold'
    · exact absurd heq (huse_ne _ _ _ hold)
    · exact absurd rfl (huse_ne _ _ _ hold')
    · rfl
  · intro key u p hu
    rcases huses key u p hu with hold | ⟨-, rfl, rfl⟩
    · refine (h.tended key u p hold).frame ?_ ?_
      · obtain ⟨r, -, -, -, -, hfind, -⟩ := h.tended key u p hold
        have hresources : s.bus.resources = w.site.bus.resources ++ [resource] := by rw [hbus]
        show s.bus.resources.find? _ = w.site.bus.resource? key
        rw [hresources, List.find?_append, hfind, show w.site.bus.resources.find? _ = _ from hfind]
        rfl
      · intro r x g' hfind hg'
        have hx := h.ring_lt x g' ⟨r, (Bus.resource?_mem hfind).1, hg'⟩
        exact ⟨hspares.region_eq x hx, rfl, rfl, rfl⟩
    · exact h.toStocked.tended_acquired hbus hnew

theorem Sound.acted {rest : List Action} {action : Action} (h : Sound ring w)
    (ho : o ∈ w.site.bus.operations) (htodo : o.todo = action :: rest)
    (hperform : { o with todo := rest }.perform w.site action = some (s, o')) :
    Sound ring { w with site := s.setBus (s.bus.setOperation o') } := by
  have hperformed := Operation.framed_perform hperform
  have hframed : Operation.Framed w.site o s o' :=
    ⟨hperformed.operations_eq, hperformed.transport_eq, hperformed.config_eq,
      hperformed.enabled_eq, hperformed.id_eq, hperformed.request_eq⟩
  have heffect := Operation.effect_perform h.transport_eq h.fresh htodo (h.orderly o ho) hperform
  cases heffect with
  | aside hresources hidle hreceivers hspares hrest =>
    exact h.noticed_nothing hframed hresources hidle hreceivers hspares hrest
  | takeWaiting hidle hrest => exact h.took_waiting hidle rfl hrest
  | takeNew hbus hspares hnew hrest => exact h.acquired hbus hspares hnew rfl hrest
  | spawn htodo hresources hidle hreceivers hhandle hphase hsweeps hmedium hrest =>
    exact h.spawned ho htodo hframed hresources hidle hreceivers hhandle hphase hsweeps hmedium
      hrest

end Acting

theorem Sound.advanced (h : Sound ring w) (id : OperationId) :
    Sound ring { w with site := (w.site.advance id).2 } := by
  rcases Site.advance_eq w.site id with heq | ⟨o, ho, -, -, heq⟩ |
    ⟨o, ho, action, rest, s, o', -, htodo, hperform, heq⟩
  · rw [heq]
    exact h
  · have hfinished : Sound ring { w with site := w.site.setBus { w.site.bus with
        operations := w.site.bus.operations.filter (·.id != o.id) } } :=
      h.fewer rfl rfl rfl (Kernel.Spares.refl _) (fun _ hk => hk)
        (fun _ hx => Or.inl (List.mem_filter.mp hx).1) (fun r hr => ⟨r, hr, rfl⟩)
    rw [heq]
    exact hfinished.collect
  · rw [heq]
    exact (h.acted ho htodo hperform).collect

theorem Sound.started (h : Sound ring w) (request : Request) :
    Sound ring { w with site := (w.site.start request).2 } := by
  refine h.fewer rfl rfl rfl (Kernel.Spares.refl _) (fun _ hk => hk) ?_ (fun r hr => ⟨r, hr, rfl⟩)
  intro o ho
  rcases List.mem_append.mp ho with hold | hnew
  · exact Or.inl hold
  · rw [List.mem_singleton.mp hnew, h.transport_eq]
    exact Or.inr (Unhurried.start request)

theorem Sound.dropped (h : Sound ring w) : Sound ring { w with site := w.site.drop } := by
  have hletGo : Sound ring { w with site := w.site.setBus { w.site.bus with
      alive := false, flag := false, idle := none, published := none, connection := none } } :=
    h.fewer rfl rfl rfl (Kernel.Spares.refl _) (by simp [Site.setBus]) (fun _ hx => Or.inl hx)
      (fun r hr => ⟨r, hr, rfl⟩)
  have hdrop : w.site.drop = (w.site.setBus { w.site.bus with
      alive := false, flag := false, idle := none, published := none,
      connection := none }).collect := by
    simp only [Site.drop, Site.forgetChannel, Site.letGo, h.transport_eq]
  rw [hdrop]
  exact hletGo.collect

theorem Step.sound (hstep : Step w w') (h : Sound ring w) : Sound ring w' := by
  cases hstep with
  | start request => exact h.started request
  | subscribe listener =>
    exact h.fewer rfl rfl rfl (Kernel.Spares.refl _) (fun _ hk => hk) (fun _ hx => Or.inl hx)
      (fun r hr => ⟨r, hr, rfl⟩)
  | act id => exact h.advanced id
  | run id => exact h.run id
  | drop => exact h.dropped
  | fill hring hfill => exact h.fill hring hfill
  | outside hspares =>
    exact h.fewer rfl rfl rfl hspares (fun _ hk => hk) (fun _ hx => Or.inl hx)
      (fun r hr => ⟨r, hr, rfl⟩)

theorem Reachable.sound {s : Site} (hmade : Sound ring { site := s })
    (hreach : Reachable s w) : Sound ring w := by
  induction hreach with
  | made => exact hmade
  | step _ hstep ih => exact hstep.sound ih

end Observed

end CanTransport
