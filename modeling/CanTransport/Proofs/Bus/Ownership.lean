import CanTransport.Proofs.Bus.Accounts
import CanTransport.Proofs.Bus.Connectedness
/-!
# Ownership

How much of the operating system a bus has over its whole life. Whenever the lock is free and no
send has anything at hand, nothing on the bus refers to more than one resource, and what nothing
refers to was given back. So between calls there is one set of sockets or none, and none after a
disconnect.
-/

namespace CanTransport

/-- What one connection needs, once: a raw socket, and for a ring a packet socket and its mapping
besides. -/
def Inventory.IsSet (transport : Transport) (i : Inventory) : Prop :=
  match transport with
  | .ring => ∃ sender packet, i = { raws := [sender], packets := [packet], mappings := [packet] }
  | _ => ∃ socket, i = { raws := [socket] }

theorem Inventory.isSet_of_kind {transport : Transport} {r : Resource}
    (h : r.ring.isSome = (transport == .ring)) : r.inventory.IsSet transport := by
  unfold Resource.inventory Resource.packets
  cases hring : r.ring with
  | none =>
    rw [hring] at h
    cases transport with
    | ring => cases h
    | blocking | cancellable | batched | virtual => exact ⟨r.key, rfl⟩
  | some ring =>
    rw [hring] at h
    cases transport with
    | ring => exact ⟨r.key, ring.1, rfl⟩
    | blocking | cancellable | batched | virtual => cases h

/-- No send has a resource at hand. -/
def Bus.Unlent (b : Bus) : Prop :=
  ∀ o ∈ b.operations, ∀ frame, o.request = .send frame → o.handle = none

namespace Account

variable {start a a' : Account} {id : OperationId} {o : Operation}

/-- What is known of an account at every moment. -/
structure Kept (a : Account) : Prop where
  balanced : a.life.site.Balanced a.made
  sound : a.life.Sound
  handed : a.life.site.Handed
  other : a.bus.transport ≠ .virtual

theorem Step.kept {event : Life.Event} (hstep : Step event a a') (h : a.Kept) : a'.Kept := by
  have hlife := hstep.life h.balanced
  refine ⟨hstep.balanced h.balanced, hlife.sound h.sound, hlife.handed h.sound h.handed h.other, ?_⟩
  rw [bus, hlife.transport_eq h.sound]
  exact h.other

theorem Run.kept {allowed : Life.Event → Prop} (hrun : Run allowed start a) (h : start.Kept) :
    a.Kept := by
  induction hrun with
  | refl => exact h
  | step _ _ hstep ih => exact hstep.kept ih

theorem kept_opened {transport : Transport} {channel : String} {c : BusConfig} {m m' : Medium}
    {b : Bus} (hother : transport ≠ .virtual) (hnumbered : m.kernel.Numbered)
    (hmake : (Bus.make transport channel c).run m = (.ok b, m')) : (opened m b m').Kept := by
  obtain ⟨htransport, hmade⟩ := Bus.made_of_make hnumbered.fresh hmake
  refine ⟨balanced_opened hnumbered hmake, Life.sound_of_made hmade, hmade.handed, ?_⟩
  exact htransport ▸ hother

/-! ## What is referred to -/

theorem Kept.inventory_eq (h : a.Kept) : a.inventory = .ofResources a.bus.resources :=
  h.balanced.stocks.only_eq

theorem Kept.held (h : a.Kept) : ∀ r ∈ a.bus.resources, a.bus.holds r.key = true := h.sound.held

theorem Kept.keys_nodup (h : a.Kept) : (a.bus.resources.map Resource.key).Nodup :=
  h.balanced.stocks.nodup.1

theorem Kept.handle_eq_none (h : a.Kept) (hlock : a.bus.lock = none)
    (ho : o ∈ a.bus.operations) (hrequest : o.request.wire? = none) : o.handle = none := by
  refine h.sound.apart h.handed ho hrequest ?_
  show a.bus.lock ≠ some o.id
  rw [hlock]
  exact nofun

/-- While the lock is free everything that is referred to is one thing. -/
theorem Kept.sole (h : a.Kept) (hlock : a.bus.lock = none) (hunlent : a.bus.Unlent) :
    ∃ key, ∀ x, a.bus.holds x = true → x = key := by
  obtain ⟨key, hpoints, -⟩ := h.handed.sole
  refine ⟨key, fun x hx => ?_⟩
  simp only [Bus.holds, Bool.or_eq_true, beq_iff_eq, List.any_eq_true] at hx
  rcases hx with (((hidle | hpublished) | hconnection) | ⟨r, hr, hhandle⟩) | ⟨o, ho, hhandle⟩
  · exact hpoints.idle x hidle
  · exact hpoints.published x hpublished
  · exact hpoints.connection x hconnection
  · exact hpoints.receivers r hr x hhandle
  · cases hrequest : o.request with
    | send frame => cases (hunlent o ho frame hrequest).symm.trans hhandle
    | connect | disconnect =>
      cases (h.handle_eq_none hlock ho (by rw [hrequest]; rfl)).symm.trans hhandle

/-- There is exactly the resource that is referred to. -/
theorem Kept.isSet (h : a.Kept) (hlock : a.bus.lock = none) (hunlent : a.bus.Unlent)
    {key : Descriptor} (hopen : a.bus.Opens key) : a.inventory.IsSet a.bus.transport := by
  obtain ⟨sole, hsole⟩ := h.sole hlock hunlent
  obtain ⟨r, hfind, -⟩ := hopen
  have hr := (Bus.resource?_mem hfind).1
  have hkeys := h.keys_nodup
  have hsame : ∀ x ∈ a.bus.resources, x = r := by
    intro x hx
    have hkey : x.key = r.key := (hsole _ (h.held x hx)).trans (hsole _ (h.held r hr)).symm
    exact List.inj_on_of_nodup_map hkeys hx hr hkey
  have hresources : a.bus.resources = [r] := by
    have hreplicate := List.eq_replicate_of_mem hsame
    have hpos := List.length_pos_of_mem hr
    have hle : a.bus.resources.length ≤ 1 := by
      rw [hreplicate, List.map_replicate] at hkeys
      exact List.nodup_replicate.mp hkeys
    rw [hreplicate, Nat.le_antisymm hle hpos]
    rfl
  rw [h.inventory_eq, hresources, Inventory.ofResources_singleton]
  exact Inventory.isSet_of_kind (h.balanced.kind r hr)

/-- Without a connection there is only what sends still have at hand. -/
theorem Kept.lent (h : a.Kept) (hlock : a.bus.lock = none) (hconnection : a.bus.connection = none)
    (hidle : a.bus.idle = none) : ∀ r ∈ a.bus.resources, ∃ o ∈ a.bus.operations, ∃ frame,
      o.request = .send frame ∧ o.handle = some r.key := by
  have hbare : a.bus.published = none ∧ a.bus.receivers = [] := by
    cases h.sound.free hlock with
    | connected hsome => cases hconnection.symm.trans hsome
    | bare _ htasks hpublished => exact ⟨hpublished, List.map_eq_nil_iff.mp htasks⟩
  intro r hr
  have hholds := h.held r hr
  simp only [Bus.holds, Bool.or_eq_true, beq_iff_eq, List.any_eq_true, hidle, hbare.1, hbare.2,
    hconnection] at hholds
  rcases hholds with (((hcase | hcase) | hcase) | ⟨t, ht, -⟩) | ⟨o, ho, hhandle⟩
  · cases hcase
  · cases hcase
  · cases hcase
  · cases ht
  · cases hrequest : o.request with
    | send frame => exact ⟨o, ho, frame, hrequest, hhandle⟩
    | connect | disconnect =>
      cases (h.handle_eq_none hlock ho (by rw [hrequest]; rfl)).symm.trans hhandle

/-- There is nothing where nothing is referred to. -/
theorem Kept.eq_empty (h : a.Kept) (hlock : a.bus.lock = none) (hunlent : a.bus.Unlent)
    (hconnection : a.bus.connection = none) (hidle : a.bus.idle = none) : a.inventory = {} := by
  have hnone : a.bus.resources = [] := by
    apply List.eq_nil_iff_forall_not_mem.mpr
    intro r hr
    obtain ⟨o, ho, frame, hrequest, hhandle⟩ := h.lent hlock hconnection hidle r hr
    cases (hunlent o ho frame hrequest).symm.trans hhandle
  rw [h.inventory_eq, hnone]
  rfl

/-! ## Between calls -/

theorem Kept.resting (h : a.Kept) (hrest : a.bus.operations = []) :
    a.bus.lock = none ∧ a.bus.Unlent := by
  constructor
  · by_contra hheld
    obtain ⟨id, hid⟩ := Option.ne_none_iff_exists'.mp hheld
    obtain ⟨o, hfind, -⟩ := h.sound.holder id hid
    exact List.not_mem_nil (hrest ▸ (Site.operation?_mem hfind).1)
  · intro o ho
    rw [hrest] at ho
    cases ho

/-- Between calls there is one set of sockets if there is a connection, or if a ring still has what
it was made with. Otherwise there is none. -/
theorem Kept.at_rest (h : a.Kept) (hrest : a.bus.operations = []) :
    if a.bus.connection.isSome ∨ a.bus.idle.isSome then a.inventory.IsSet a.bus.transport
    else a.inventory = {} := by
  obtain ⟨hlock, hunlent⟩ := h.resting hrest
  split
  · rename_i hsome
    by_cases hidle : a.bus.idle = none
    · rw [hidle, Option.isSome_none, Bool.false_eq_true, or_false] at hsome
      have hpublished := (h.sound.handle_iff h.other hlock).mpr hsome
      obtain ⟨key, hkey⟩ := Option.isSome_iff_exists.mp hpublished
      exact h.isSet hlock hunlent (h.sound.stocked.published_open key hkey)
    · obtain ⟨key, hkey⟩ := Option.ne_none_iff_exists'.mp hidle
      exact h.isSet hlock hunlent (h.sound.stocked.idle_open key hkey)
  · rename_i hnone
    rw [not_or, Option.not_isSome_iff_eq_none, Option.not_isSome_iff_eq_none] at hnone
    exact h.eq_empty hlock hunlent hnone.1 hnone.2

/-! ## After a disconnect -/

/-- The moment at which an operation gave the lock back. It has done nothing since. -/
structure Left (allowed : Life.Event → Prop) (s : Site) (start a : Account) (id : OperationId)
    (o : Operation) (u : Account) : Prop where
  reachable : Run allowed start u
  since : Run (Life.others allowed id) u a
  found : u.life.site.operation? id = some o
  left : Life.Left s u.life id o u.life

variable {allowed : Life.Event → Prop} {s : Site}

theorem after_eq_self {event : Life.Event} (h : a.life.after event = a.life) :
    a.after event = a := by
  have hgiven : Kernel.given a.kernel (a.life.after event).site.medium.kernel = [] := by
    rw [h]
    exact Kernel.given_eq_nil rfl
  rw [after, hgiven, List.append_nil, h]

theorem Run.reachable (hrun : Run allowed start a) (hstart : Life.Reachable s start.life)
    (h : start.Kept) : Life.Reachable s a.life := by
  induction hrun with
  | refl => exact hstart
  | step hrun _ hstep ih => exact .step ih trivial (hstep.life (hrun.kept h).balanced)

theorem Step.left {event : Life.Event} (hstep : Step event a a') (hallowed : allowed event)
    (hreach : Life.Reachable s a.life) (hrun : Run allowed start a) (h : a.Kept)
    (hbefore : ∀ id o, a.life.site.operation? id = some o → o.request.wire? = none → o.todo = [] →
      ∃ u, Left allowed s start a id o u)
    (hfind : a'.life.site.operation? id = some o) (hrequest : o.request.wire? = none)
    (htodo : o.todo = []) : ∃ u, Left allowed s start a' id o u := by
  have hlife := hstep.life h.balanced
  by_cases hown : event = .act id
  · subst hown
    have hreach' : Life.Reachable s a'.life := .step hreach trivial hlife
    cases hstep
    rcases (h.sound.acted id).left hreach' hfind hrequest htodo with hsame | hleft
    · have hself : a.after (.act id) = a := after_eq_self hsame
      rw [hself] at hfind ⊢
      exact hbefore id o hfind hrequest htodo
    · refine ⟨a.after (.act id), ?_, .refl, hfind, hleft⟩
      exact .step hrun hallowed (.own (a := a) nofun)
  · rcases hlife.operation?_or h.sound hown with heq | ⟨-, request, hnew⟩
    · obtain ⟨u, hleft⟩ := hbefore id o (heq.symm.trans hfind) hrequest htodo
      exact ⟨u, { hleft with since := .step hleft.since ⟨hallowed, hown⟩ hstep }⟩
    · cases hnew.symm.trans hfind
      cases request with
      | connect | disconnect => cases htodo
      | send frame => cases hrequest

/-- An operation that has nothing left to do gave the lock back as its last action. -/
theorem Run.left (hrun : Run allowed start a) (hstart : Life.Reachable s start.life)
    (h : start.Kept)
    (hnone : ∀ o ∈ start.bus.operations, o.request.wire? = none → o.todo ≠ [])
    (hfind : a.life.site.operation? id = some o) (hrequest : o.request.wire? = none)
    (htodo : o.todo = []) : ∃ u, Left allowed s start a id o u := by
  induction hrun generalizing id o with
  | refl => exact absurd htodo (hnone o (Site.operation?_mem hfind).1 hrequest)
  | step hrun hallowed hstep ih =>
    exact hstep.left hallowed (hrun.reachable hstart h) hrun (hrun.kept h)
      (fun id o hfind hrequest htodo => ih hfind hrequest htodo) hfind hrequest htodo

/-- Nothing waits for a next connection once an operation has given the lock back. -/
theorem Left.idle_eq {u : Account} (h : Left allowed s start a id o u) (hu : u.Kept)
    (hrequest : o.request.wire? = none) (htodo : o.todo = []) : u.bus.idle = none := by
  by_contra hidle
  obtain ⟨-, -, -, htodos⟩ := hu.handed.waiting hidle
  rcases htodos o (Site.operation?_mem h.found).1 hrequest with henter | hremainder
  · rw [htodo] at henter
    cases henter
  · rw [htodo] at hremainder
    cases hcase : o.request with
    | connect | disconnect =>
      rw [hcase] at hremainder
      cases htransport : u.life.site.bus.transport <;> rw [htransport] at hremainder <;>
        cases hremainder
    | send frame =>
      rw [hcase] at hrequest
      cases hrequest

/-- What a bus with a socket has at a moment of its life. -/
structure Owns (transport : Transport) (start a : Account) : Prop where
  /-- Between calls. -/
  at_rest : a.bus.operations = [] →
    if a.bus.connection.isSome ∨ a.bus.idle.isSome then a.inventory.IsSet transport
    else a.inventory = {}
  /-- What waits for a connection is not there together with one. -/
  apart : a.bus.idle ≠ none →
    a.bus.connection = none ∧ a.bus.published = none ∧ a.bus.receivers = []
  /-- A disconnect, when it reports. -/
  disconnect : ∀ id o outcome, a.life.site.operation? id = some o → o.request = .disconnect →
    (a.life.site.advance id).1 = .ends outcome →
    ∃ u, Run (fun _ => True) start u ∧ Run (Life.others (fun _ => True) id) u a ∧
      u.life.site.operation? id = some o ∧ u.bus.lock = none ∧ u.bus.connection = none ∧
      u.bus.idle = none ∧ (u.bus.Unlent → u.inventory = {})

/-- Whatever is done with a bus and however its tasks end, it has one set of sockets or none. -/
theorem owns_of_run {transport : Transport} {channel : String} {c : BusConfig} {m m' : Medium}
    {b : Bus} (hother : transport ≠ .virtual) (hnumbered : m.kernel.Numbered)
    (hmake : (Bus.make transport channel c).run m = (.ok b, m')) {a : Account}
    (hrun : Run (fun _ => True) (opened m b m') a) : Owns transport (opened m b m') a := by
  obtain ⟨htransport, hmade⟩ := Bus.made_of_make hnumbered.fresh hmake
  have hopened := kept_opened hother hnumbered hmake
  have h := hrun.kept hopened
  have hsame : a.bus.transport = transport := by
    rw [bus, (hrun.life hopened.balanced).transport_eq hopened.sound]
    exact htransport
  refine ⟨hsame ▸ h.at_rest, fun hidle => ?_, fun id o outcome hfind hrequest hends => ?_⟩
  · obtain ⟨hconnection, hpublished, hreceivers, -⟩ := h.handed.waiting hidle
    exact ⟨hconnection, hpublished, hreceivers⟩
  · have hwire : o.request.wire? = none := by rw [hrequest]; rfl
    obtain ⟨htodo, -⟩ := Life.advance_eq_ends hfind hends
    have hnone : ∀ o ∈ (opened m b m').bus.operations, o.request.wire? = none → o.todo ≠ [] := by
      intro o ho
      rw [show (opened m b m').bus.operations = [] from hmade.operations_eq] at ho
      cases ho
    obtain ⟨u, hleft⟩ := hrun.left .refl hopened hnone hfind hwire htodo
    have hu := hleft.reachable.kept hopened
    obtain ⟨hconnection, -, -⟩ := hleft.left.bare (Or.inl (by rw [hrequest]; rfl))
    have hidle := hleft.idle_eq hu hwire htodo
    exact ⟨u, hleft.reachable, hleft.since, hleft.found, hleft.left.lock_eq, hconnection, hidle,
      fun hunlent => hu.eq_empty hleft.left.lock_eq hunlent hconnection hidle⟩

/-- A disconnect during which the task ends. -/
def disconnecting (id : OperationId) (task : ReceiverId) : List Life.Event :=
  .start .disconnect :: .act id :: .act id :: List.replicate 3 (.run task) ++
    List.replicate 7 (.act id)

/-- A ring has its set before its first connection and while it is connected, and nothing when the
disconnect is about to report. -/
theorem owns_at_disconnect : ∃ b m', (Bus.make .ring "can0" {}).run {} = (.ok b, m') ∧
    (let start := opened {} b m'
     let a := start.replay (Life.calling 0 .connect)
     let a' := a.replay (disconnecting 2 1)
     start.inventory = ⟨[1], [0], [0]⟩ ∧
      (a.bus.connection.isSome = true ∧ a.bus.operations.isEmpty = true ∧
        a.inventory = ⟨[1], [0], [0]⟩) ∧
      (a'.bus.operations.map (·.todo) = [[]] ∧ a'.inventory = {}) ∧
      Owns .ring start start ∧ Owns .ring start a ∧ Owns .ring start a') := by
  have hmake : ∃ b m', (Bus.make .ring "can0" {}).run {} = (.ok b, m') ∧
      (let start := opened {} b m'
       let a := start.replay (Life.calling 0 .connect)
       let a' := a.replay (disconnecting 2 1)
       start.inventory = ⟨[1], [0], [0]⟩ ∧
        (a.bus.connection.isSome = true ∧ a.bus.operations.isEmpty = true ∧
          a.inventory = ⟨[1], [0], [0]⟩) ∧
        (a'.bus.operations.map (·.todo) = [[]] ∧ a'.inventory = {})) :=
    ⟨_, _, rfl, by decide +kernel⟩
  obtain ⟨b, m', hmake, hstart, hconnected, hdisconnected⟩ := hmake
  have hnumbered : ({} : Medium).kernel.Numbered := ⟨nofun, nofun⟩
  have howns : ∀ events, (∀ event ∈ events, True ∧ event ≠ .outside) →
      Owns .ring (opened {} b m') ((opened {} b m').replay events) := fun events hown =>
    owns_of_run (by decide) hnumbered hmake (run_replay _ hown)
  refine ⟨b, m', hmake, hstart, hconnected, hdisconnected, howns [] nofun,
    howns _ (by decide), ?_⟩
  rw [replay, replay, ← List.foldl_append]
  exact howns _ (by decide)

end Account

end CanTransport
