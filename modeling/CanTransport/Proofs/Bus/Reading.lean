import CanTransport.Proofs.Bus.Observed
/-!
# Tasks as readers

An action of a reception task is a step of the reader of its ring, or leaves all rings alone.
-/

namespace CanTransport.Observed

variable {ring : RingConfig} {w w' : Observed}

section Reading

variable {r r' : Receiver} {s : Site} {handed : Descriptor → List (Option Slot.Packet)}

/-- The users after a task has acted that stays on its resource or lets go of it. -/
theorem uses_acted {key : Descriptor} {u : User} {p : Phase}
    (hbus : s.bus = { w.site.bus with
      reception := s.bus.reception, echoes := s.bus.echoes })
    (hid : r'.id = r.id) (hu : (s.bus.setReceiver r').Uses key u p) :
    (w.site.bus.Uses key u p ∧ u ≠ .receiver r.id) ∨
      u = .receiver r.id ∧ p = r'.phase ∧ r'.handle = some key := by
  rcases hu.setReceiver with ⟨hold, hne⟩ | hnew
  · refine Or.inl ⟨?_, hid ▸ hne⟩
    apply hold.congr <;> rw [hbus]
  · exact Or.inr (hid ▸ hnew)

theorem unique_acted (h : Sound ring w) (hr : r ∈ w.site.bus.receivers)
    (hbus : s.bus = { w.site.bus with
      reception := s.bus.reception, echoes := s.bus.echoes })
    (hid : r'.id = r.id) (hhandle : r'.handle = none ∨ r'.handle = r.handle) :
    ∀ key u u' p p', (s.bus.setReceiver r').Uses key u p →
      (s.bus.setReceiver r').Uses key u' p' → u = u' := by
  have hbefore : ∀ {key u p}, (s.bus.setReceiver r').Uses key u p →
      ∃ p', w.site.bus.Uses key u p' := by
    intro key u p hu
    rcases uses_acted hbus hid hu with ⟨hold, -⟩ | ⟨rfl, -, hkey⟩
    · exact ⟨p, hold⟩
    · rcases hhandle with hnone | hsame
      · rw [hnone] at hkey
        cases hkey
      · exact ⟨r.phase, .receiver hr (hsame ▸ hkey)⟩
  intro key u u' p p' hu hu'
  obtain ⟨q, hq⟩ := hbefore hu
  obtain ⟨q', hq'⟩ := hbefore hu'
  exact h.unique key u u' q q' hq hq'

/-- A task acts without touching any ring. -/
theorem Sound.act_aside (h : Sound ring w) (hr : r ∈ w.site.bus.receivers)
    (hbus : s.bus = { w.site.bus with
      reception := s.bus.reception, echoes := s.bus.echoes })
    (hid : r'.id = r.id) (hsweeps : r'.Sweeps)
    (hspares : Kernel.Spares (fun _ => True) w.site.medium.kernel s.medium.kernel)
    (hphase : r'.handle = none ∨ r'.handle = r.handle ∧ r'.phase = r.phase) :
    Sound ring { w with site := s.setBus (s.bus.setReceiver r') } := by
  have htransport : s.bus.transport = w.site.bus.transport := by rw [hbus]
  have hconfig : s.bus.config = w.site.bus.config := by rw [hbus]
  have hresources : s.bus.resources = w.site.bus.resources := by rw [hbus]
  have hoperations : s.bus.operations = w.site.bus.operations := by rw [hbus]
  have hreceivers : s.bus.receivers = w.site.bus.receivers := by rw [hbus]
  refine h.calm htransport hconfig hresources (hspares.mono fun _ _ => trivial)
    (fun o ho => h.orderly o (hoperations ▸ ho)) ?_
    (unique_acted h hr hbus hid (hphase.imp_right And.left)) ?_
  · intro t ht
    rcases Bus.mem_setReceiver ht with rfl | ⟨hold, -⟩
    · exact hsweeps
    · exact h.sweeps t (hreceivers ▸ hold)
  · intro key u p hu
    rcases uses_acted hbus hid hu with ⟨hold, -⟩ | ⟨rfl, rfl, hkey⟩
    · exact ⟨u, hold⟩
    · rcases hphase with hnone | ⟨hsame, hphase⟩
      · rw [hnone] at hkey
        cases hkey
      · exact ⟨.receiver r.id, hphase ▸ .receiver hr (hsame ▸ hkey)⟩

/-- A task takes a step as the reader of its ring. -/
theorem Sound.act_reading {key : Descriptor} {fd : Descriptor} {g : Geometry} {m : Memory}
    (h : Sound ring w) (hr : r ∈ w.site.bus.receivers) (hkey : r.handle = some key)
    (hring : r.ring? w.site = some (fd, g))
    (hbus : s.bus = { w.site.bus with
      reception := s.bus.reception, echoes := s.bus.echoes })
    (hid : r'.id = r.id) (hsweeps : r'.Sweeps)
    (hspares : Kernel.Spares (· ≠ fd) w.site.medium.kernel s.medium.kernel)
    (hregion : s.medium.kernel.region? fd = some m)
    (hhanded : ∀ x, x ≠ fd → handed x = w.handed x)
    (hphase : r'.handle = none ∨ r'.handle = r.handle ∧
      Handover.Step g (w.handover fd r.phase) {
        filling := { w.filling fd with memory := m }, phase := r'.phase, handed := handed fd }) :
    Sound ring { w with site := s.setBus (s.bus.setReceiver r'), handed := handed } := by
  have htransport : s.bus.transport = w.site.bus.transport := by rw [hbus]
  have hconfig : s.bus.config = w.site.bus.config := by rw [hbus]
  have hresources : s.bus.resources = w.site.bus.resources := by rw [hbus]
  have hoperations : s.bus.operations = w.site.bus.operations := by rw [hbus]
  have hreceivers : s.bus.receivers = w.site.bus.receivers := by rw [hbus]
  obtain ⟨resource, hfind, hg⟩ := Option.bind_eq_some_iff.mp hring
  rw [Receiver.resource?, hkey, Option.bind_some] at hfind
  obtain ⟨hmem, hreskey⟩ := Bus.resource?_mem hfind
  refine h.turn hmem hg htransport hconfig hresources hspares
    (fun x hx => ⟨rfl, rfl, hhanded x hx⟩) (fun o ho => h.orderly o (hoperations ▸ ho)) ?_
    (unique_acted h hr hbus hid (hphase.imp_right And.left)) ?_
  · intro t ht
    rcases Bus.mem_setReceiver ht with rfl | ⟨hold, -⟩
    · exact hsweeps
    · exact h.sweeps t (hreceivers ▸ hold)
  · intro key' u p hu
    have hself := Bus.Uses.receiver hr hkey
    rcases uses_acted hbus hid hu with ⟨hold, hne⟩ | ⟨rfl, rfl, hkey'⟩
    · refine Or.inl ⟨fun heq => hne ?_, hold⟩
      rw [heq, hreskey] at hold
      exact h.unique key _ _ _ _ hold hself
    · rcases hphase with hnone | ⟨hsame, hstep⟩
      · rw [hnone] at hkey'
        cases hkey'
      · rw [hsame, hkey] at hkey'
        cases hkey'
        obtain ⟨-, req, m₀, hgeometry, hreq, -, hreach⟩ := h.tended_ring hself hmem hreskey hg
        refine Or.inr ⟨hreskey.symm, resource, fd, g, req, m, ?_, hg, hgeometry, hreq,
          hregion, ?_⟩
        · show s.bus.resources.find? _ = some resource
          rw [hresources]
          exact hfind
        · have hnext := hreach.step hstep
          unfold handover filling
          rw [show (s.setBus (s.bus.setReceiver r')).medium.kernel.memory fd = m from
            Kernel.memory_eq_of_region? hregion]
          exact hnext

/-- A task that has a ring has it from its resource, and the region is there. -/
theorem Sound.region_of_ring? {fd : Descriptor} {g : Geometry} (h : Sound ring w)
    (hr : r ∈ w.site.bus.receivers) (hring : r.ring? w.site = some (fd, g)) :
    ∃ key, r.handle = some key ∧
      w.site.medium.kernel.region? fd = some (w.site.medium.kernel.memory fd) := by
  obtain ⟨resource, hfind, hg⟩ := Option.bind_eq_some_iff.mp hring
  obtain ⟨key, hkey, hfind⟩ := Option.bind_eq_some_iff.mp hfind
  obtain ⟨hmem, hreskey⟩ := Bus.resource?_mem hfind
  obtain ⟨-, req, m, -, -, hregion, -⟩ := h.tended_ring (.receiver hr hkey) hmem hreskey hg
  exact ⟨key, hkey, by rw [hregion, Kernel.memory_eq_of_region? hregion]⟩

/-- A task that has a resource has a ring. -/
theorem Sound.ring?_of_handle {key : Descriptor} (h : Sound ring w) (hr : r ∈ w.site.bus.receivers)
    (hkey : r.handle = some key) : ∃ fd g, r.ring? w.site = some (fd, g) := by
  obtain ⟨resource, fd, g, -, -, hfind, hg, -⟩ := h.tended key _ _ (.receiver hr hkey)
  exact ⟨fd, g, by rw [Receiver.ring?, Receiver.resource?, hkey, Option.bind_some, hfind,
    Option.bind_some, hg]⟩

theorem Sound.turned (h : Sound ring w) (hr : r ∈ w.site.bus.receivers)
    (hid : r'.id = r.id) (hsweeps : r'.Sweeps) (hturn : Receiver.Turn w.site r s r') :
    Sound ring { w with
      site := s.setBus (s.bus.setReceiver r'), handed := noted w.handed (r.handing? w.site) } := by
  cases hturn with
  | aside hhanding hbus hframes hspares hphase =>
    rw [hhanding]
    exact h.act_aside hr (by rw [hbus]) hid hsweeps hspares hphase
  | start hphase hhandle hphase' =>
    have hhanding : r.handing? w.site = none := by
      apply Receiver.handing?_of_stage_ne
      intro sweep hstage
      rw [Receiver.phase, hstage] at hphase
      cases hphase
    rw [hhanding]
    cases hkey : r.handle with
    | none => exact h.act_aside hr rfl hid hsweeps (Kernel.Spares.refl _) (Or.inl (hhandle.trans hkey))
    | some key =>
      obtain ⟨fd, g, hring⟩ := h.ring?_of_handle hr hkey
      obtain ⟨-, -, hregion⟩ := h.region_of_ring? hr hring
      refine h.act_reading hr hkey hring rfl hid hsweeps (Kernel.Spares.refl _) hregion
        (fun _ _ => rfl) (Or.inr ⟨hhandle, ?_⟩)
      rw [hphase']
      exact .start hphase
  | stop hring hstage hlook hhandle hphase' =>
    rename_i fd g sweep
    obtain ⟨key, hkey, hregion⟩ := h.region_of_ring? hr hring
    have hhanding : r.handing? w.site = none := by
      simp [Receiver.handing?, hstage, hring, hlook]
    rw [hhanding]
    refine h.act_reading hr hkey hring rfl hid hsweeps (Kernel.Spares.refl _) hregion
      (fun _ _ => rfl) (Or.inr ⟨hhandle, ?_⟩)
    have hphase : r.phase = .looking sweep := by rw [Receiver.phase, hstage]
    rw [hphase']
    exact .stop hphase hlook
  | take hring hstage hlook hbus hframes hmedium hphase' =>
    rename_i fd g sweep sweep' p
    obtain ⟨key, hkey, hregion⟩ := h.region_of_ring? hr hring
    have hhanding : r.handing? w.site = some (fd, p) := by
      simp [Receiver.handing?, hstage, hring, hlook]
    have hspares : Kernel.Spares (· ≠ fd) w.site.medium.kernel s.medium.kernel := by
      rw [hmedium]
      exact Kernel.Spares.refl _
    rw [hhanding]
    refine h.act_reading hr hkey hring (by rw [hbus]) hid hsweeps hspares (hmedium ▸ hregion)
      (fun x hx => Function.update_of_ne hx _ _) (hphase'.imp_right ?_)
    rintro ⟨hhandle, hphase'⟩
    refine ⟨hhandle, ?_⟩
    have hphase : r.phase = .looking sweep := by rw [Receiver.phase, hstage]
    rw [hphase', hmedium, noted, Function.update_self]
    exact .take hphase hlook
  | release hring hstage hhandle hphase' =>
    rename_i fd g sweep
    obtain ⟨key, hkey, hregion⟩ := h.region_of_ring? hr hring
    have hhanding : r.handing? w.site = none :=
      Receiver.handing?_of_stage_ne (by simp [hstage])
    have hregion' : ((Kernel.setMemory fd (sweep.release g (w.site.medium.kernel.memory fd))).run
        w.site.medium.kernel).2.region? fd =
        some (sweep.release g (w.site.medium.kernel.memory fd)) := by
      rw [Kernel.region?_setMemory, if_pos rfl, hregion]
      rfl
    rw [hhanding]
    refine h.act_reading hr hkey hring rfl hid hsweeps (Kernel.spares_setMemory fd _ _) hregion'
      (fun _ _ => rfl) (Or.inr ⟨hhandle, ?_⟩)
    have hphase : r.phase = .releasing sweep := by rw [Receiver.phase, hstage]
    rw [hphase']
    exact .release hphase
  | advance hring hstage hhandle hphase' =>
    rename_i fd g sweep
    obtain ⟨key, hkey, hregion⟩ := h.region_of_ring? hr hring
    have hhanding : r.handing? w.site = none :=
      Receiver.handing?_of_stage_ne (by simp [hstage])
    rw [hhanding]
    refine h.act_reading hr hkey hring rfl hid hsweeps (Kernel.Spares.refl _) hregion
      (fun _ _ => rfl) (Or.inr ⟨hhandle, ?_⟩)
    have hphase : r.phase = .advancing sweep := by rw [Receiver.phase, hstage]
    rw [hphase']
    exact .advance hphase

end Reading

theorem Sound.run (h : Sound ring w) (id : ReceiverId) :
    Sound ring { w with site := w.site.run id, handed := noted w.handed (w.site.handing? id) } := by
  rcases Site.run_eq w.site id with ⟨hnone, heq⟩ | ⟨r, hfind, heq⟩
  · rw [heq, Site.handing?, hnone]
    exact h
  · obtain ⟨hr, -⟩ := Bus.receiver?_mem hfind
    obtain ⟨hid, hsweeps⟩ := Receiver.kept_step (s := w.site) h.transport_eq (h.sweeps r hr)
    rw [heq, Site.handing?, hfind, Option.bind_some]
    exact (h.turned hr hid hsweeps (Receiver.turn_step h.transport_eq (h.sweeps r hr))).collect

end CanTransport.Observed
