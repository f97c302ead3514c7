import CanTransport.Proofs.Bus.Hands
import CanTransport.Proofs.Bus.Holdings
import CanTransport.Proofs.Bus.Making
/-!
# Accounts

The life of a bus together with the numbers of all sockets that were made for it. What exists under
these numbers is at every moment what the resources of the bus consist of, whatever others do with
the same kernel.
-/

namespace CanTransport

/-- A bus, and the numbers of the sockets that were made for it. -/
structure Account where
  life : Life
  made : List Descriptor

namespace Account

def bus (a : Account) : Bus := a.life.site.bus

def kernel (a : Account) : Kernel := a.life.site.medium.kernel

/-- The sockets and mappings that exist because of the bus. -/
def inventory (a : Account) : Inventory := a.kernel.inventory.only a.made

/-- The sockets and mappings of others. -/
def others (a : Account) : Inventory := a.kernel.inventory.without a.made

/-- What an event of the bus makes of an account. -/
def after (a : Account) (event : Life.Event) : Account where
  life := a.life.after event
  made := a.made ++ Kernel.given a.kernel (a.life.after event).site.medium.kernel

/-- Whatever happens next, on the bus or elsewhere. -/
inductive Step : Life.Event → Account → Account → Prop where
  | own {a : Account} {event : Life.Event} (hown : event ≠ .outside) : Step event a (a.after event)
  | outside {a : Account} {medium : Medium}
      (helsewhere : Kernel.Elsewhere a.made a.kernel medium.kernel) :
      Step .outside a { a with life := { a.life with
        site := { a.life.site with medium := medium } } }

/-- Steps of which each is allowed. -/
inductive Run (allowed : Life.Event → Prop) (a : Account) : Account → Prop where
  | refl : Run allowed a a
  | step {a' a'' : Account} {event : Life.Event} (hrun : Run allowed a a')
      (hallowed : allowed event) (hstep : Step event a' a'') : Run allowed a a''

/-- The steps of some events, one after the other. -/
def replay (a : Account) (events : List Life.Event) : Account := events.foldl after a

theorem run_replay {allowed : Life.Event → Prop} (a : Account) {events : List Life.Event}
    (h : ∀ event ∈ events, allowed event ∧ event ≠ .outside) :
    Run allowed a (a.replay events) := by
  have hall : ∀ a', Run allowed a a' → Run allowed a (a'.replay events) := by
    induction events with
    | nil => exact fun a' hrun => hrun
    | cons event rest ih =>
      rw [List.forall_mem_cons] at h
      exact fun a' hrun => ih h.2 _ (.step hrun h.1.1 (.own h.1.2))
  exact hall a .refl

/-- The account of a bus that was just made. -/
def opened (m : Medium) (b : Bus) (m' : Medium) : Account where
  life := { site := ⟨b, m'⟩ }
  made := Kernel.given m.kernel m'.kernel

end Account

/-- Of the numbers `made`, what there is are the parts of the resources of the bus. -/
structure Site.Balanced (made : List Descriptor) (s : Site) : Prop where
  stocks : Kernel.Stocks made s.bus.resources s.medium.kernel
  kind : ∀ r ∈ s.bus.resources, r.ring.isSome = (s.bus.transport == .ring)

/-- The bus may have got more, and others have what they had. -/
structure Site.Grows (made : List Descriptor) (s s' : Site) : Prop where
  balanced : s'.Balanced (made ++ Kernel.given s.medium.kernel s'.medium.kernel)
  without_eq : s'.medium.kernel.inventory.without
    (made ++ Kernel.given s.medium.kernel s'.medium.kernel) =
      s.medium.kernel.inventory.without made

theorem Kernel.given_eq_nil {k k' : Kernel} (h : k'.next = k.next) : given k k' = [] := by
  simp [given, h]

namespace Site

variable {made : List Descriptor} {s s' : Site} {o o' : Operation} {id : OperationId}

theorem Balanced.of_parts {rs : List Resource} (h : s.Balanced made)
    (hparts : rs.map Resource.parts = s.bus.resources.map Resource.parts) :
    ∀ r ∈ rs, r.ring.isSome = (s.bus.transport == .ring) := by
  intro r hr
  have hmem : r.parts ∈ s.bus.resources.map Resource.parts := by
    rw [← hparts]
    exact List.mem_map_of_mem hr
  obtain ⟨old, hold, heq⟩ := List.mem_map.mp hmem
  have hring : old.ring = r.ring := congrArg Prod.snd heq
  rw [← hring]
  exact h.kind old hold

/-- Nothing is acquired and nothing is released. -/
theorem Grows.quiet (h : s.Balanced made)
    (hquiet : Kernel.Quiet s.medium.kernel s'.medium.kernel)
    (htransport : s'.bus.transport = s.bus.transport)
    (hparts : s'.bus.resources.map Resource.parts = s.bus.resources.map Resource.parts) :
    Grows made s s' := by
  have hgiven := Kernel.given_eq_nil hquiet.next_eq
  refine ⟨⟨?_, ?_⟩, ?_⟩
  · rw [hgiven, List.append_nil]
    exact (h.stocks.quiet hquiet).congr (Inventory.ofResources_of_parts hparts)
  · rw [htransport]
    exact h.of_parts hparts
  · rw [hgiven, List.append_nil, hquiet.inventory_eq]

theorem Grows.setBus {b : Bus} (h : Grows made s s') (hresources : b.resources = s'.bus.resources)
    (htransport : b.transport = s'.bus.transport) : Grows made s (s'.setBus b) where
  balanced := by
    refine ⟨?_, ?_⟩
    · show Kernel.Stocks _ b.resources _
      rw [hresources]
      exact h.balanced.stocks
    · show ∀ r ∈ b.resources, r.ring.isSome = (b.transport == .ring)
      rw [hresources, htransport]
      exact h.balanced.kind
  without_eq := h.without_eq

theorem Grows.collect (h : Grows made s s') : Grows made s s'.collect := by
  obtain ⟨hstocks, hwithout, hnext⟩ := h.balanced.stocks.collect
  have hgiven : Kernel.given s.medium.kernel s'.collect.medium.kernel =
      Kernel.given s.medium.kernel s'.medium.kernel := by
    rw [Kernel.given, Kernel.given, hnext]
  refine ⟨⟨hgiven ▸ hstocks, fun r hr => ?_⟩, ?_⟩
  · rw [collect_bus] at hr ⊢
    exact h.balanced.kind r (List.mem_filter.mp hr).1
  · rw [hgiven, hwithout]
    exact h.without_eq

/-- What an operation on the kernel comes to for a site. -/
theorem onKernel_ends {ε α : Type} {op : Kernel.Op ε α} {r : Except ε α} {E : Kernel → Prop}
    {P : α → Kernel → Prop} (hop : op.Ends s.medium.kernel E P)
    (h : s.onKernel op.run = (r, s')) :
    s'.bus = s.bus ∧ (∀ a, r = .ok a → P a s'.medium.kernel) ∧
      ∀ e, r = .error e → E s'.medium.kernel := by
  have hr : (s.onKernel op.run).1 = r := congrArg Prod.fst h
  have hs : (s.onKernel op.run).2 = s' := congrArg Prod.snd h
  subst hr hs
  unfold Kernel.Op.Ends Kernel.Op.Yields at hop
  refine ⟨rfl, fun a ha => ?_, fun e he => ?_⟩
  · have hrun : (op.run s.medium.kernel).1 = .ok a := ha
    rw [hrun] at hop
    exact hop
  · have hrun : (op.run s.medium.kernel).1 = .error e := he
    rw [hrun] at hop
    exact hop

end Site

namespace Operation

variable {made : List Descriptor} {s s' : Site} {o o' : Operation} {action : Action}

theorem grows_acquire (hs : s.Balanced made) (h : o.acquire s = (s', o')) : s.Grows made s' := by
  have hgains := Kernel.Gains.refl hs.stocks.numbered hs.stocks.tidy
  have hacquire := Resource.gains_acquire s.bus.transport s.bus.channel s.bus.config hgains
  unfold acquire at h
  simp only at h
  split at h
  · cases h
    exact .quiet hs (Kernel.Quiet.refl _) rfl rfl
  · split at h
    · rename_i resource s₁ hrun
      obtain ⟨hbus, hok, -⟩ := Site.onKernel_ends hacquire hrun
      obtain ⟨hgained, hkind⟩ := hok resource rfl
      rw [Inventory.empty_append] at hgained
      cases h
      refine ⟨⟨?_, fun r hr => ?_⟩, (hs.stocks.gained hgained).2⟩
      · apply hs.stocks.of_gains hgained
        show Inventory.ofResources (s₁.bus.resources ++ [resource]) = _
        rw [hbus, Inventory.ofResources_append, Inventory.ofResources_singleton]
      · have hmem : r ∈ s.bus.resources ++ [resource] := hbus ▸ hr
        show r.ring.isSome = (s₁.bus.transport == .ring)
        rw [hbus]
        rcases List.mem_append.mp hmem with hold | hnew
        · exact hs.kind r hold
        · cases List.mem_singleton.mp hnew
          exact hkind
    · rename_i e s₁ hrun
      obtain ⟨hbus, -, herror⟩ := Site.onKernel_ends hacquire hrun
      have hgained := herror e rfl
      cases h
      refine ⟨⟨?_, ?_⟩, (hs.stocks.gained hgained).2⟩
      · apply hs.stocks.of_gains hgained
        rw [hbus, Inventory.append_empty]
      · rw [hbus]
        exact hs.kind

/-- An action that acquires nothing leaves what there is as it is. -/
theorem quiet_perform (hne : action ≠ .acquire) (h : o.perform s action = some (s', o')) :
    Kernel.Quiet s.medium.kernel s'.medium.kernel ∧
      s'.bus.resources.map Resource.parts = s.bus.resources.map Resource.parts := by
  cases action with
  | acquire => exact absurd rfl hne
  | enter =>
    obtain ⟨connection, rfl, -⟩ := enter_eq_some h
    exact ⟨Kernel.Quiet.refl _, rfl⟩
  | join =>
    simp only [perform, join] at h
    split at h
    · cases h
      exact ⟨Kernel.Quiet.refl _, rfl⟩
    · split at h <;> cases h
      exact ⟨Kernel.Quiet.refl _, rfl⟩
  | write =>
    simp only [perform, write] at h
    split at h
    · rename_i resource raw _ _
      have hwrite := Kernel.Op.silent_writeWire resource.socket raw s.medium.kernel
      split at h
      all_goals
        rename_i hrun
        have hbus := congrArg (·.2.bus) hrun
        have hkernel := congrArg (·.2.medium.kernel) hrun
        cases h
        exact ⟨hkernel ▸ hwrite, congrArg (·.resources.map Resource.parts) hbus.symm⟩
    · cases h
      exact ⟨Kernel.Quiet.refl _, rfl⟩
  | closeSocket =>
    simp only [perform] at h
    split at h <;> cases h
    · exact ⟨Kernel.Quiet.refl _, rfl⟩
    · refine ⟨Kernel.Quiet.refl _, ?_⟩
      refine (List.map_map ..).trans (List.map_congr_left fun r _ => ?_)
      rw [Function.comp_apply]
      split
      · rfl
      · rfl
  | cancel | borrow | transmit | remember | forget =>
    simp only [perform] at h
    split at h <;> cases h <;> exact ⟨Kernel.Quiet.refl _, rfl⟩
  | check | checkFlag | register | leave | unpublish | letGo | clearEchoes | listen | spawn | publish
  | store | raiseFlag | lowerFlag | dropIdle | countSent =>
    cases h
    exact ⟨Kernel.Quiet.refl _, rfl⟩

theorem grows_perform (hs : s.Balanced made) (h : o.perform s action = some (s', o')) :
    s.Grows made s' := by
  by_cases hacquire : action = .acquire
  · subst hacquire
    exact grows_acquire hs (Option.some.inj h)
  · obtain ⟨hquiet, hparts⟩ := quiet_perform hacquire h
    exact .quiet hs hquiet (framed_perform h).transport_eq hparts

end Operation

namespace Site

variable {made : List Descriptor} {s : Site}

theorem grows_advance (hs : s.Balanced made) (id : OperationId) :
    s.Grows made (s.advance id).2 := by
  rcases advance_eq s id with heq | ⟨o, -, -, -, heq⟩ |
    ⟨o, -, action, rest, s', o', -, -, hperform, heq⟩
  · rw [heq]
    exact .quiet hs (Kernel.Quiet.refl _) rfl rfl
  · rw [heq]
    apply Grows.collect
    exact Grows.setBus (.quiet hs (Kernel.Quiet.refl _) rfl rfl) rfl rfl
  · rw [heq]
    apply Grows.collect
    exact (Operation.grows_perform hs hperform).setBus rfl rfl

theorem grows_run (hs : s.Balanced made) (id : ReceiverId) : s.Grows made (s.run id) := by
  rcases run_eq s id with ⟨-, heq⟩ | ⟨r, hfind, heq⟩
  · rw [heq]
    exact .quiet hs (Kernel.Quiet.refl _) rfl rfl
  · have hacts := Receiver.acts_step s r
    have hresources : (r.step s).1.bus.resources = s.bus.resources := by rw [hacts.bus_eq]
    have htransport : (r.step s).1.bus.transport = s.bus.transport := by rw [hacts.bus_eq]
    have hgrows : s.Grows made (r.step s).1 :=
      .quiet hs hacts.quiet htransport (by rw [hresources])
    rw [heq]
    apply Grows.collect
    exact hgrows.setBus rfl rfl

theorem grows_drop (hs : s.Balanced made) : s.Grows made s.drop := by
  have hforget : s.forgetChannel.bus = s.bus ∧
      s.forgetChannel.medium.kernel = s.medium.kernel := by
    unfold forgetChannel
    split
    · exact ⟨rfl, rfl⟩
    · exact ⟨rfl, rfl⟩
  have hgrows : s.Grows made s.forgetChannel := by
    apply Grows.quiet hs
    · rw [hforget.2]
      exact Kernel.Quiet.refl _
    · rw [hforget.1]
    · rw [hforget.1]
  apply Grows.collect
  split
  · exact ⟨⟨hgrows.balanced.stocks, hgrows.balanced.kind⟩, hgrows.without_eq⟩
  · exact hgrows.setBus rfl rfl

end Site

namespace Account

variable {a a' : Account} {event : Life.Event} {allowed : Life.Event → Prop}

theorem grows_after (h : a.life.site.Balanced a.made) (event : Life.Event) :
    a.life.site.Grows a.made (a.life.after event).site := by
  have hsame : a.life.site.Grows a.made a.life.site := .quiet h (Kernel.Quiet.refl _) rfl rfl
  cases event with
  | start request => exact hsame.setBus rfl rfl
  | act id => exact Site.grows_advance h id
  | run id => exact Site.grows_run h id
  | subscribe listener => exact hsame.setBus rfl rfl
  | outside => exact hsame

theorem Step.balanced (hstep : Step event a a') (h : a.life.site.Balanced a.made) :
    a'.life.site.Balanced a'.made := by
  cases hstep with
  | own hown => exact (grows_after h event).balanced
  | outside helsewhere =>
    exact ⟨h.stocks.elsewhere helsewhere, h.kind⟩

/-- What a bus does leaves what belongs to others as it is. -/
theorem Step.others_eq (hstep : Step event a a') (h : a.life.site.Balanced a.made)
    (hown : event ≠ .outside) : a'.others = a.others := by
  cases hstep with
  | own => exact (grows_after h event).without_eq
  | outside => exact absurd rfl hown

/-- An account is one of a life. -/
theorem Step.life (hstep : Step event a a') (h : a.life.site.Balanced a.made) :
    Life.Step event a.life a'.life := by
  cases hstep with
  | own hown => exact Life.step_after a.life event
  | outside helsewhere =>
    apply Life.Step.outside
    exact ⟨helsewhere.next_le, fun _ hfalse => hfalse.elim,
      fun _ => (helsewhere.numbered h.stocks.numbered).fresh⟩

theorem Run.balanced (hrun : Run allowed a a') (h : a.life.site.Balanced a.made) :
    a'.life.site.Balanced a'.made := by
  induction hrun with
  | refl => exact h
  | step _ _ hstep ih => exact hstep.balanced ih

theorem Run.life (hrun : Run allowed a a') (h : a.life.site.Balanced a.made) :
    Life.Run allowed a.life a'.life := by
  induction hrun with
  | refl => exact .refl
  | step hrun hallowed hstep ih => exact ih.step hallowed (hstep.life (hrun.balanced h))

end Account

/-! ## Making -/

namespace Bus

open Kernel

variable {transport : Transport} {channel : String} {c : BusConfig} {m m' : Medium} {b : Bus}
  {own : Descriptor → Prop} {k₀ : Kernel} {inv : Inventory}

/-- What is acquired for a bus that is made is what the bus has. -/
theorem gains_of_make (h : Gains own k₀ inv m.kernel)
    (hmake : (make transport channel c).run m = (.ok b, m')) :
    Gains own k₀ (inv ++ .ofResources b.resources) m'.kernel ∧
      ∀ r ∈ b.resources, r.ring.isSome = (b.transport == .ring) := by
  cases transport with
  | ring =>
    obtain ⟨-, resource, hrun, rfl⟩ := make_ring hmake
    have hgains := Resource.gains_acquireRing channel c h
    unfold Op.Ends Op.Yields at hgains
    rw [hrun] at hgains
    obtain ⟨hgained, hring⟩ := hgains
    refine ⟨?_, fun r hr => ?_⟩
    · show Gains own k₀ (inv ++ .ofResources [resource]) m'.kernel
      rw [Inventory.ofResources_singleton]
      exact hgained
    · cases List.mem_singleton.mp hr
      exact hring
  | blocking | cancellable | batched =>
    obtain ⟨rfl, rfl⟩ := make_socket (by decide) (by decide) hmake
    refine ⟨?_, nofun⟩
    show Gains own k₀ (inv ++ {}) _
    rw [Inventory.append_empty]
    exact h.quiet (Op.silent_index channel m.kernel)
  | virtual =>
    obtain ⟨rfl, rfl⟩ := make_virtual hmake
    refine ⟨?_, nofun⟩
    show Gains own k₀ (inv ++ {}) m.kernel
    rw [Inventory.append_empty]
    exact h

/-- Where no bus is made nothing is kept. -/
theorem gains_of_make_error {e : Error} (h : Gains own k₀ inv m.kernel)
    (hmake : (make transport channel c).run m = (.error e, m')) :
    Gains own k₀ inv m'.kernel := by
  cases hcheck : c.check with
  | error e' =>
    rw [run_make_of_error hcheck] at hmake
    cases hmake
    exact h
  | ok valid =>
    cases transport with
    | ring =>
      have hgains := Resource.gains_acquireRing channel c h
      rw [run_make_ring hcheck] at hmake
      unfold Op.Ends Op.Yields at hgains
      generalize (Resource.acquireRing channel c).run m.kernel = acquired at hmake hgains
      obtain ⟨_ | resource, k⟩ := acquired
      · cases hmake
        exact hgains
      · cases hmake
    | blocking | cancellable | batched =>
      have hquiet := Op.silent_index channel m.kernel
      rw [run_make_socket hcheck (by decide) (by decide)] at hmake
      unfold Op.Yields at hquiet
      cases congrArg Prod.snd hmake
      exact h.quiet hquiet
    | virtual =>
      cases hname : channel.isEmpty with
      | true =>
        rw [run_make_unnamed hcheck hname] at hmake
        cases hmake
        exact h
      | false =>
        rw [run_make_virtual hcheck hname] at hmake
        cases hmake

end Bus

namespace Account

variable {transport : Transport} {channel : String} {c : BusConfig} {m m' : Medium} {b : Bus}

theorem stocks_nil {k : Kernel} (h : k.Numbered) : Kernel.Stocks [] [] k where
  numbered := h
  made_lt := nofun
  tidy := ⟨nofun, nofun, nofun, nofun, nofun⟩
  only_eq := by
    rw [Inventory.only]
    simp only [List.not_mem_nil, decide_false]
    exact Inventory.filter_false k.inventory

theorem balanced_opened (h : m.kernel.Numbered)
    (hmake : (Bus.make transport channel c).run m = (.ok b, m')) :
    (opened m b m').life.site.Balanced (opened m b m').made := by
  have hstocks := stocks_nil h
  obtain ⟨hgains, hkind⟩ := Bus.gains_of_make (Kernel.Gains.refl h hstocks.tidy) hmake
  exact ⟨hstocks.of_gains hgains rfl, hkind⟩

end Account

end CanTransport
