import CanTransport.Proofs.Bus.Ownership
/-!
# Failed acquisitions

Whichever call fails while a socket is opened, a bus is made or a connection is set up, what was
acquired on the way is given back: the inventory is what it was before, but for a connection that
was taken down first. Sockets are closed once, and a ring is unmapped before its socket goes.
-/

namespace CanTransport

/-- What an acquisition leaves behind: of what is new nothing was ended twice or out of order, and
nothing is new after a failure. -/
structure Kernel.Cleared {α : Type} (k : Kernel) (r : Except Error α) (k' : Kernel) : Prop where
  tidy : k'.inventory.Tidy (k.next ≤ ·) k'.trace
  restored : ∀ e, r = .error e → k'.inventory = k.inventory

/-- What happens while one call is the only one in progress. -/
def Life.Event.solely (id : OperationId) : Life.Event → Prop
  | .act other => other = id
  | .run _ | .subscribe _ => True
  | .start _ | .outside => False

namespace Kernel

variable {α : Type} {k k' : Kernel} {inv : Inventory}

/-- Nothing is new at first. -/
theorem Numbered.gains (h : k.Numbered) : Gains (k.next ≤ ·) k {} k where
  start := h
  own_new _ hfd := hfd
  next_le := Nat.le_refl _
  inventory_eq := (Inventory.append_empty _).symm
  new := nofun
  numbered := h
  tidy := by
    have hnone : k.inventory.Tidy (fun _ => False) k.trace := ⟨nofun, nofun, nofun, nofun, nofun⟩
    exact (h.tidy hnone).mono fun fd hfd => Or.inr hfd

theorem Gains.restored (h : Gains (k.next ≤ ·) k {} k') : k'.inventory = k.inventory :=
  h.inventory_eq.trans (Inventory.append_empty _)

/-- An acquisition that gains something or nothing. -/
theorem Op.Ends.cleared {op : Kernel.Op Error α} {gain : α → Inventory}
    (h : op.Ends k (Gains (k.next ≤ ·) k {}) fun a => Gains (k.next ≤ ·) k (gain a)) :
    k.Cleared (op.run k).1 (op.run k).2 := by
  unfold Op.Ends Op.Yields at h
  generalize (op.run k).1 = r at h ⊢
  cases r with
  | ok a => exact ⟨h.tidy, nofun⟩
  | error e => exact ⟨h.tidy, fun _ _ => h.restored⟩

end Kernel

open Kernel

variable {k : Kernel}

theorem CanSocket.cleared_acquire (interface : String) (h : k.Numbered) :
    k.Cleared ((acquire interface).run k).1 ((acquire interface).run k).2 :=
  (gains_acquire interface h.gains).cleared

theorem Resource.cleared_acquire (transport : Transport) (channel : String) (c : BusConfig)
    (h : k.Numbered) :
    k.Cleared ((acquire transport channel c).run k).1 ((acquire transport channel c).run k).2 := by
  have hends : (acquire transport channel c).Ends k (Gains (k.next ≤ ·) k {}) fun r =>
      Gains (k.next ≤ ·) k r.inventory := by
    apply (gains_acquire transport channel c h.gains).mono
    rintro (e | r) k' hgains
    · exact hgains
    · exact hgains.1
  exact hends.cleared

theorem Bus.cleared_make (transport : Transport) (channel : String) (c : BusConfig) {m : Medium}
    (h : m.kernel.Numbered) : m.kernel.Cleared ((make transport channel c).run m).1
      ((make transport channel c).run m).2.kernel := by
  have hstart := h.gains
  rcases hmake : (make transport channel c).run m with ⟨e | b, m'⟩
  · have hgains := gains_of_make_error hstart hmake
    exact ⟨hgains.tidy, fun _ _ => hgains.restored⟩
  · exact ⟨(gains_of_make hstart hmake).1.tidy, nofun⟩

/-! ## A connect that is alone -/

namespace Operation

variable {s s' : Site} {o o' : Operation} {action : Action} {rest : List Action}

/-- A connect that cannot fail any more: what it needs waits for it, or is at hand. -/
structure Provided (s : Site) (o : Operation) : Prop where
  failure_eq : o.failure = none
  provided : s.bus.idle ≠ none ∨ o.todo <:+ [.spawn, .publish, .store, .leave]

theorem Provided.congr (h : o.Provided s) (hidle : s'.bus.idle = s.bus.idle) : o.Provided s' :=
  ⟨h.failure_eq, by rw [hidle]; exact h.provided⟩

theorem Provided.perform (h : o.Provided s) (hs : s.Handed) (hstocked : s.Stocked)
    (hmem : o ∈ s.bus.operations) (hrequest : o.request = .connect) (htodo : o.todo = action :: rest)
    (hperform : { o with todo := rest }.perform s action = some (s', o')) : o'.Provided s' := by
  rcases h.provided with hidle | hsuffix
  · obtain ⟨hconnection, -, -, htodos⟩ := hs.waiting hidle
    have hring := hstocked.idle_ring hidle
    rcases htodos o hmem (by rw [hrequest]; rfl) with henter | hremainder
    · cases htodo.symm.trans henter
      obtain ⟨connection, rfl, -, -, -⟩ := enter_eq_some hperform
      have hlock : s.bus.lock = none := by
        by_contra hheld
        simp [Operation.perform, enter, Option.isSome_iff_ne_none.mpr hheld] at hperform
      cases (enter_bare (o := { o with todo := [] }) hlock hconnection).symm.trans hperform
      exact ⟨h.failure_eq, Or.inl hidle⟩
    · rw [hrequest, hring] at hremainder
      cases htodo.symm.trans hremainder
      obtain ⟨key, hkey⟩ := Option.ne_none_iff_exists'.mp hidle
      simp only [Operation.perform, acquire, hkey] at hperform
      cases hperform
      exact ⟨h.failure_eq, Or.inr (List.suffix_refl _)⟩
  · rw [htodo] at hsuffix
    have hrest : rest <:+ [.spawn, .publish, .store, .leave] :=
      (List.suffix_cons action rest).trans hsuffix
    have haction : action ∈ [Action.spawn, .publish, .store, .leave] :=
      hsuffix.subset List.mem_cons_self
    simp only [List.mem_cons, List.not_mem_nil, or_false] at haction
    rcases haction with rfl | rfl | rfl | rfl <;> cases hperform <;>
      exact ⟨h.failure_eq, Or.inr hrest⟩

end Operation

theorem Site.idle_run (s : Site) (id : ReceiverId) : (s.run id).bus.idle = s.bus.idle := by
  rcases run_eq s id with ⟨-, heq⟩ | ⟨r, -, heq⟩
  · rw [heq]
  · rw [heq, collect_bus]
    exact (congrArg Bus.idle (Receiver.acts_step s r).bus_eq :)

namespace Account

variable {start a a' : Account} {id : OperationId} {o : Operation} {event : Life.Event}

/-- The only call in progress is one connect. -/
def Solo (id : OperationId) (a : Account) : Prop :=
  ∀ o ∈ a.bus.operations, o.id = id ∧ o.request = .connect

/-- An operation after a step by which none begins: it is as before, or it has acted. -/
theorem Step.mem_operations (hstep : Step event a a') (h : a.Kept)
    (hallowed : event.solely id) (hsolo : a.Solo id) (ho : o ∈ a'.bus.operations) :
    (o ∈ a.bus.operations ∧ a'.bus.idle = a.bus.idle) ∨
      ∃ old ∈ a.bus.operations, ∃ action rest s', old.todo = action :: rest ∧
        { old with todo := rest }.perform a.life.site action = some (s', o) ∧
        a'.bus.idle = s'.bus.idle := by
  cases hstep with
  | outside => cases hallowed
  | own hown =>
    cases event with
    | start | outside => cases hallowed
    | subscribe => exact Or.inl ⟨ho, rfl⟩
    | run task =>
      left
      have hoperations := (Site.aside_run h.sound.stocked h.sound.held task).2.1
      exact ⟨hoperations ▸ ho, Site.idle_run a.life.site task⟩
    | act other =>
      rcases Site.advance_eq a.life.site other with heq | ⟨o', -, -, -, heq⟩ |
        ⟨old, hold, action, rest, s', o', -, htodo, hperform, heq⟩
      all_goals
        have hbus : (a.after (.act other)).bus = _ := congrArg Site.bus heq
        rw [hbus] at ho ⊢
      · exact Or.inl ⟨ho, rfl⟩
      · rw [Site.finish_operations] at ho
        rw [Site.finish_bus]
        exact Or.inl ⟨(List.mem_filter.mp ho).1, rfl⟩
      · rw [Site.collect_bus] at ho ⊢
        have hframed := Operation.framed_perform hperform
        rcases Bus.mem_setOperation ho with rfl | ⟨hother, hne⟩
        · exact Or.inr ⟨old, hold, action, rest, s', htodo, hperform, rfl⟩
        · rw [hframed.operations_eq] at hother
          have hid : o.id = o'.id :=
            (hsolo o hother).1.trans ((hframed.id_eq.trans (hsolo old hold).1).symm)
          exact absurd hid hne

theorem Step.solo (hstep : Step event a a') (h : a.Kept) (hallowed : event.solely id)
    (hsolo : a.Solo id) : a'.Solo id := by
  intro o ho
  rcases hstep.mem_operations h hallowed hsolo ho with ⟨hold, -⟩ |
    ⟨old, hold, action, rest, s', -, hperform, -⟩
  · exact hsolo o hold
  · have hframed := Operation.framed_perform hperform
    obtain ⟨hid, hrequest⟩ := hsolo old hold
    exact ⟨hframed.id_eq.trans hid, hframed.request_eq.trans hrequest⟩

theorem Step.provided (hstep : Step event a a') (h : a.Kept) (hallowed : event.solely id)
    (hsolo : a.Solo id) (hprovided : ∀ o ∈ a.bus.operations, o.Provided a.life.site) :
    ∀ o ∈ a'.bus.operations, o.Provided a'.life.site := by
  intro o ho
  rcases hstep.mem_operations h hallowed hsolo ho with ⟨hold, hidle⟩ |
    ⟨old, hold, action, rest, s', htodo, hperform, hidle⟩
  · exact (hprovided o hold).congr hidle
  · exact ((hprovided old hold).perform h.handed h.sound.stocked hold (hsolo old hold).2 htodo
      hperform).congr hidle

theorem Run.solo (hrun : Run (Life.Event.solely id) start a) (h : start.Kept)
    (hsolo : start.Solo id) : a.Solo id := by
  induction hrun with
  | refl => exact hsolo
  | step hrun hallowed hstep ih => exact hstep.solo (hrun.kept h) hallowed ih

theorem Run.provided (hrun : Run (Life.Event.solely id) start a) (h : start.Kept)
    (hsolo : start.Solo id) (hprovided : ∀ o ∈ start.bus.operations, o.Provided start.life.site) :
    ∀ o ∈ a.bus.operations, o.Provided a.life.site := by
  induction hrun with
  | refl => exact hprovided
  | step hrun hallowed hstep ih =>
    exact hstep.provided (hrun.kept h) hallowed (hrun.solo h hsolo) ih

/-- Others keep what they have while nobody but the bus does anything. -/
theorem Run.others_eq {allowed : Life.Event → Prop} (hrun : Run allowed start a) (h : start.Kept)
    (hown : ∀ event, allowed event → event ≠ .outside) : a.others = start.others := by
  induction hrun with
  | refl => rfl
  | step hrun hallowed hstep ih =>
    exact (hstep.others_eq (hrun.kept h).balanced (hown _ hallowed)).trans ih

/-- Without what belongs to the bus there is only what belongs to others. -/
theorem others_eq_of_empty (h : a.inventory = {}) : a.others = a.kernel.inventory := by
  have hnone : ∀ fd ∈ a.kernel.inventory.all, fd ∉ a.made := by
    intro fd hfd hmade
    have hmem : fd ∈ a.inventory.all := by
      simp only [inventory, Inventory.only, Inventory.filter, Inventory.mem_all, List.mem_filter,
        decide_eq_true_eq] at hfd ⊢
      tauto
    rw [h] at hmem
    cases hmem
  refine (Inventory.filter_congr fun fd hfd => ?_).trans (Inventory.filter_true _)
  exact decide_eq_true (hnone fd hfd)

/-- Between the moment when the lock was given back and the report only tasks and listeners act. -/
theorem Run.aside_eq (hrun : Run (Life.others (Life.Event.solely id) id) start a) (h : start.Kept) :
    a.bus.lock = start.bus.lock ∧ a.bus.connection = start.bus.connection ∧
      a.bus.idle = start.bus.idle := by
  induction hrun with
  | refl => exact ⟨rfl, rfl, rfl⟩
  | @step a a' event hrun hallowed hstep ih =>
    obtain ⟨hlock, hconnection, hidle⟩ := ih
    have hkept := hrun.kept h
    obtain ⟨hsolely, hother⟩ := hallowed
    cases hstep with
    | outside => cases hsolely
    | own =>
      cases event with
      | start | outside => cases hsolely
      | act other => exact absurd (congrArg Life.Event.act hsolely) hother
      | subscribe => exact ⟨hlock, hconnection, hidle⟩
      | run task =>
        have haside := (Site.aside_run hkept.sound.stocked hkept.sound.held task).1
        exact ⟨haside.lock_eq.trans hlock, haside.connection_eq.trans hconnection,
          (Site.idle_run a.life.site task).trans hidle⟩

/-- A call that reports an error is still there. -/
theorem exists_operation {e : Error} (hends : (a.life.site.advance id).1 = .ends (.error e)) :
    ∃ o, a.life.site.operation? id = some o ∧ o.todo = [] ∧ o.failure ≠ none := by
  cases hfind : a.life.site.operation? id with
  | none =>
    unfold Site.advance at hends
    rw [show a.life.site.bus.operations.find? (·.id == id) = none from hfind] at hends
    cases hends
  | some o =>
    obtain ⟨htodo, houtcome⟩ := Life.advance_eq_ends hfind hends
    refine ⟨o, rfl, htodo, fun hnone => ?_⟩
    cases houtcome.trans (Operation.outcome_eq_ok_iff.mpr hnone)

/-- When a connect that was alone has failed and reported it, the bus has nothing. -/
theorem Kept.eq_empty_of_failed {s : Site} {e : Error} (h : start.Kept)
    (hreach : Life.Reachable s start.life) (hsolo : start.Solo id)
    (hbegun : ∀ o ∈ start.bus.operations, o.todo ≠ [])
    (hrun : Run (Life.Event.solely id) start a)
    (hends : (a.life.site.advance id).1 = .ends (.error e)) :
    (a.after (.act id)).inventory = {} := by
  have ha := hrun.kept h
  have hsolo' := hrun.solo h hsolo
  obtain ⟨o, hfind, htodo, hfailure⟩ := exists_operation hends
  obtain ⟨hmem, hid⟩ := Site.operation?_mem hfind
  have hrequest : o.request.wire? = none := by rw [(hsolo' o hmem).2]; rfl
  obtain ⟨u, hleft⟩ := hrun.left hreach h (fun o ho _ => hbegun o ho) hfind hrequest htodo
  have hu := hleft.reachable.kept h
  obtain ⟨hlock, hconnection, hidle⟩ := hleft.since.aside_eq hu
  have hafter : (a.after (.act id)).Kept := Step.kept (.own nofun) ha
  have hbus : (a.after (.act id)).bus = (a.life.site.finish o).bus := by
    show (a.life.site.advance id).2.bus = _
    rw [Site.advance_ends hfind htodo]
  have hnone : (a.after (.act id)).bus.operations = [] := by
    rw [hbus, Site.finish_operations, List.filter_eq_nil_iff]
    intro other hother
    simp [(hsolo' other hother).1, hid]
  obtain ⟨hfree, hunlent⟩ := hafter.resting hnone
  apply hafter.eq_empty hfree hunlent
  · rw [hbus, Site.finish_bus]
    exact hconnection.trans (hleft.left.bare (Or.inr hfailure)).1
  · rw [hbus, Site.finish_bus]
    exact hidle.trans (hleft.idle_eq hu hrequest htodo)

/-- A connect that fails alone leaves what there was before it, without what belonged to a
connection that it took down. -/
theorem Kept.connect_alone {s : Site} {e : Error} (h : a.Kept) (hreach : Life.Reachable s a.life)
    (hrest : a.bus.operations = [])
    (hrun : Run (Life.Event.solely a.bus.next) (a.after (.start .connect)) a')
    (hends : (a'.life.site.advance a.bus.next).1 = .ends (.error e)) :
    (a'.after (.act a.bus.next)).kernel.inventory =
      if a.bus.connection.isSome then a.others else a.kernel.inventory := by
  have hstep : Step (.start .connect) a (a.after (.start .connect)) := .own nofun
  have hstart := hstep.kept h
  have hstarted : (a.after (.start .connect)).bus.operations =
      [{ id := a.bus.next, request := .connect, todo := [.enter] }] := by
    show a.bus.operations ++ [_] = _
    rw [hrest]
    rfl
  have hsolo : (a.after (.start .connect)).Solo a.bus.next := by
    intro o ho
    rw [hstarted] at ho
    cases List.mem_singleton.mp ho
    exact ⟨rfl, rfl⟩
  have hbegun : ∀ o ∈ (a.after (.start .connect)).bus.operations, o.todo ≠ [] := by
    intro o ho
    rw [hstarted] at ho
    cases List.mem_singleton.mp ho
    exact nofun
  have hempty := hstart.eq_empty_of_failed (.step hreach trivial (hstep.life h.balanced)) hsolo
    hbegun hrun hends
  have hlast : Step (.act a.bus.next) a' (a'.after (.act a.bus.next)) := .own nofun
  have hothers : (a'.after (.act a.bus.next)).others = a.others :=
    calc (a'.after (.act a.bus.next)).others
        = a'.others := hlast.others_eq (hrun.kept hstart).balanced nofun
      _ = (a.after (.start .connect)).others := hrun.others_eq hstart fun event hallowed heq => by
          rw [heq] at hallowed
          exact hallowed
      _ = a.others := hstep.others_eq h.balanced nofun
  rw [← others_eq_of_empty hempty, hothers]
  split
  · rfl
  · rename_i hnone
    obtain ⟨hlock, hunlent⟩ := h.resting hrest
    apply others_eq_of_empty
    refine h.eq_empty hlock hunlent (Option.not_isSome_iff_eq_none.mp hnone) ?_
    by_contra hidle
    obtain ⟨o, hfind, -, hfailure⟩ := exists_operation hends
    refine hfailure (hrun.provided hstart hsolo ?_ o (Site.operation?_mem hfind).1).failure_eq
    intro o ho
    rw [hstarted] at ho
    cases List.mem_singleton.mp ho
    exact ⟨rfl, Or.inl hidle⟩

/-! ## Nothing leaks -/

/-- What there is of a bus with a socket at a moment of its life, and what its failures leave. -/
structure Spotless (start a : Account) : Prop where
  tidy : a.kernel.inventory.Tidy (· ∈ a.made) a.kernel.trace
  /-- Also if the bus is dropped at that moment. -/
  tidy_drop : a.life.site.drop.medium.kernel.inventory.Tidy (· ∈ a.made)
    a.life.site.drop.medium.kernel.trace
  others_eq : ∀ event, event ≠ .outside → (a.after event).others = a.others
  /-- A connect that was alone, once it has reported an error. -/
  connect_alone : a.bus.operations = [] → ∀ a' e,
    Run (Life.Event.solely a.bus.next) (a.after (.start .connect)) a' →
    (a'.life.site.advance a.bus.next).1 = .ends (.error e) →
    (a'.after (.act a.bus.next)).kernel.inventory =
      if a.bus.connection.isSome then a.others else a.kernel.inventory
  /-- A connect among other calls, when it reports an error: what sends had at hand was all there
  was left of the bus. -/
  connect_among : ∀ id o e, a.life.site.operation? id = some o → o.request = .connect →
    (a.life.site.advance id).1 = .ends (.error e) →
    ∃ u, Run (fun _ => True) start u ∧ Run (Life.others (fun _ => True) id) u a ∧
      u.life.site.operation? id = some o ∧ u.inventory = .ofResources u.bus.resources ∧
      ∀ r ∈ u.bus.resources, ∃ o ∈ u.bus.operations, ∃ frame,
        o.request = .send frame ∧ o.handle = some r.key

theorem Kept.tidy_drop (h : a.Kept) : a.life.site.drop.medium.kernel.inventory.Tidy (· ∈ a.made)
    a.life.site.drop.medium.kernel.trace :=
  (Site.grows_drop h.balanced).balanced.stocks.tidy.mono fun _ hfd => List.mem_append_left _ hfd

theorem spotless_of_run {transport : Transport} {channel : String} {c : BusConfig} {m m' : Medium}
    {b : Bus} (hother : transport ≠ .virtual) (hnumbered : m.kernel.Numbered)
    (hmake : (Bus.make transport channel c).run m = (.ok b, m'))
    (hrun : Run (fun _ => True) (opened m b m') a) : Spotless (opened m b m') a := by
  obtain ⟨-, hmade⟩ := Bus.made_of_make hnumbered.fresh hmake
  have hopened := kept_opened hother hnumbered hmake
  have h := hrun.kept hopened
  have hbegun : ∀ o ∈ (opened m b m').bus.operations, o.request.wire? = none → o.todo ≠ [] := by
    intro o ho
    rw [show (opened m b m').bus.operations = [] from hmade.operations_eq] at ho
    cases ho
  refine ⟨h.balanced.stocks.tidy, h.tidy_drop, fun event hown =>
    (Step.own hown).others_eq h.balanced hown, fun hrest a' e hrun' hends =>
    h.connect_alone (hrun.reachable .refl hopened) hrest hrun' hends, ?_⟩
  intro id o e hfind hrequest hends
  have hwire : o.request.wire? = none := by rw [hrequest]; rfl
  obtain ⟨found, hfound, htodo, hfailure⟩ := exists_operation hends
  cases hfind.symm.trans hfound
  obtain ⟨u, hleft⟩ := hrun.left .refl hopened hbegun hfind hwire htodo
  have hu := hleft.reachable.kept hopened
  obtain ⟨hconnection, -, -⟩ := hleft.left.bare (Or.inr hfailure)
  exact ⟨u, hleft.reachable, hleft.since, hleft.found, hu.inventory_eq,
    hu.lent hleft.left.lock_eq hconnection (hleft.idle_eq hu hwire htodo)⟩

/-- Whichever call fails, opening a socket, making a bus and connecting leave nothing behind that was
not there before; and at every moment of every life each socket was closed at most once, and each
ring unmapped before. -/
theorem leaks_nothing :
    (∀ (interface : String) (k : Kernel), k.Numbered →
      k.Cleared ((CanSocket.acquire interface).run k).1
        ((CanSocket.acquire interface).run k).2) ∧
    (∀ (transport : Transport) (channel : String) (c : BusConfig) (k : Kernel), k.Numbered →
      k.Cleared ((Resource.acquire transport channel c).run k).1
        ((Resource.acquire transport channel c).run k).2) ∧
    (∀ (transport : Transport) (channel : String) (c : BusConfig) (m : Medium),
      m.kernel.Numbered → m.kernel.Cleared ((Bus.make transport channel c).run m).1
        ((Bus.make transport channel c).run m).2.kernel) ∧
    ∀ (transport : Transport) (channel : String) (c : BusConfig) (m m' : Medium) (b : Bus),
      transport ≠ .virtual → m.kernel.Numbered →
      (Bus.make transport channel c).run m = (.ok b, m') →
      ∀ a, Run (fun _ => True) (opened m b m') a → Spotless (opened m b m') a := by
  refine ⟨fun interface k h => CanSocket.cleared_acquire interface h,
    fun transport channel c k h => Resource.cleared_acquire transport channel c h,
    fun transport channel c m h => Bus.cleared_make transport channel c h, ?_⟩
  intro transport channel c m m' b hother hnumbered hmake a hrun
  exact spotless_of_run hother hnumbered hmake hrun

/-- An account whose next calls of some names will fail. -/
def facing (a : Account) (faults : List (String × Errno)) : Account :=
  { a with life := { a.life with site := a.life.site.withKernel { a.kernel with faults := faults } } }

theorem Run.facing (hrun : Run (fun _ => True) start a) (faults : List (String × Errno)) :
    Run (fun _ => True) start (a.facing faults) := by
  have helsewhere : Kernel.Elsewhere a.made a.kernel (a.facing faults).kernel :=
    ⟨Nat.le_refl _, rfl, ⟨[], (List.append_nil _).symm, nofun⟩, fun h => ⟨h.1, h.2⟩⟩
  exact hrun.step trivial (.outside helsewhere)

/-- A ring whose packet socket cannot be bound, and a bus that is connected again after its task has
failed: its socket is closed first, and the new one after its binding failed. -/
theorem leaks_nothing_on_failures :
    (let k : Kernel := { faults := [("bind packet", .noDevice)] }
     let made := (Bus.make .ring "can0" {}).run { kernel := k }
     made.1.isOk = false ∧ made.2.kernel.trace.length = 7 ∧ k.Cleared made.1 made.2.kernel) ∧
    ∃ m b m', (Bus.make .blocking "can0" {}).run m = (.ok b, m') ∧
    (let a := ((opened m b m').replay
       (Life.calling 0 .connect ++ List.replicate 4 (.run 1))).facing [("bind can", .noDevice)]
     let a' := (a.after (.start .connect)).replay (List.replicate 9 (.act 2))
     a.bus.connection.isSome = true ∧ a.inventory = { raws := [0] } ∧
      (a'.life.site.operation? 2).map (fun o => (o.todo, o.failure)) =
        some ([], some (.resource .openCan (.os .noDevice))) ∧
      (a'.after (.act 2)).kernel.inventory = a.others ∧ a.others = {}) := by
  obtain ⟨-, -, hmade, hspotless⟩ := leaks_nothing
  refine ⟨⟨by decide +kernel, by decide +kernel, ?_⟩, ?_⟩
  · exact hmade .ring "can0" {} { kernel := { faults := [("bind packet", .noDevice)] } }
      ⟨nofun, nofun⟩
  obtain ⟨m, b, m', hnumbered, hmake, hrest, hnext, hconnection, hinventory, hreport, hnone⟩ :
      ∃ (m : Medium) (b : Bus) (m' : Medium), m.kernel.Numbered ∧
      (Bus.make .blocking "can0" {}).run m = (.ok b, m') ∧
      (let a := ((opened m b m').replay
         (Life.calling 0 .connect ++ List.replicate 4 (.run 1))).facing [("bind can", .noDevice)]
       let a' := (a.after (.start .connect)).replay (List.replicate 9 (.act 2))
       a.bus.operations.isEmpty = true ∧ a.bus.next = 2 ∧ a.bus.connection.isSome = true ∧
        a.inventory = { raws := [0] } ∧
        (a'.life.site.operation? 2).map (fun o => (o.todo, o.failure)) =
          some ([], some (.resource .openCan (.os .noDevice))) ∧ a.others = {}) :=
    ⟨{ kernel := { greeting := [.failure .noDevice] } }, _, _, ⟨nofun, nofun⟩, rfl,
      by decide +kernel⟩
  refine ⟨m, b, m', hmake, hconnection, hinventory, hreport, ?_, hnone⟩
  have hrun : Run (fun _ => True) (opened m b m') ((opened m b m').replay
      (Life.calling 0 .connect ++ List.replicate 4 (.run 1))) := run_replay _ (by decide)
  have halone := (hspotless .blocking "can0" {} m m' b (by decide) hnumbered hmake _
    (hrun.facing [("bind can", .noDevice)])).connect_alone (List.isEmpty_iff.mp hrest)
  rw [hnext, if_pos hconnection] at halone
  obtain ⟨o, hfind, htold⟩ := Option.map_eq_some_iff.mp hreport
  rw [Prod.mk.injEq] at htold
  refine halone _ (.resource .openCan (.os .noDevice)) (run_replay _ ?_) ?_
  · intro event hevent
    rw [List.eq_of_mem_replicate hevent]
    exact ⟨rfl, nofun⟩
  · rw [Site.advance_ends hfind htold.1, Operation.outcome, htold.2]

end Account

end CanTransport
