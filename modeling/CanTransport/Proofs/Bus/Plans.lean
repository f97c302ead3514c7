import CanTransport.Proofs.Bus.Stock
import CanTransport.Proofs.Bus.Users
/-!
# What a connect or a disconnect leads to

The actions of an operation that holds the lock, read as a plan: from what they find they lead, with
or without a failure on the way, to a bus that is connected or to one that is not. Whether they do
is computed from the lists of actions alone; that the actions keep to it is proved once for each
action.
-/

namespace CanTransport

/-- What there is of a reception task while the lock is held. -/
inductive Grip where
  /-- The task of a connection that was taken, and that was not joined yet. -/
  | taken
  | gone
  /-- A task that was started, and whose connection is not stored yet. -/
  | started
  | stored
deriving DecidableEq

/-- Whether an operation has failed, as far as that can be told from its actions. -/
inductive Mishap where
  | absent
  | possible
  | certain
deriving DecidableEq

/-- What the actions of an operation say about the bus. -/
structure Shape where
  task : Grip
  /-- Whether senders find a resource. -/
  published : Bool
  flag : Bool
  /-- Whether an open resource is at hand. -/
  ready : Bool := false
  mishap : Mishap := .absent
deriving DecidableEq

def Action.mayFail : Action → Bool
  | .check | .acquire | .register => true
  | _ => false

def Request.connects : Request → Bool
  | .connect => true
  | _ => false

namespace Shape

/-- What an action that does not fail makes of a shape; there is none for an action that is out of
place. -/
def after (transport : Transport) (σ : Shape) : Action → Option Shape
  | .join => if σ.task = .taken then some { σ with task := .gone, mishap := .possible } else none
  | .unpublish => some { σ with published := false, ready := false }
  | .closeSocket =>
    if transport ≠ .ring ∧ σ.published = false then some { σ with ready := false } else none
  | .letGo => some { σ with ready := false }
  | .check => some { σ with mishap := .absent }
  | .acquire => some { σ with ready := true }
  | .spawn =>
    if σ.task = .gone ∧ σ.mishap = .absent then some { σ with task := .started } else none
  | .publish => if σ.ready then some { σ with published := true } else none
  | .store => if σ.task = .started then some { σ with task := .stored, ready := false } else none
  | .raiseFlag => some { σ with flag := true }
  | .lowerFlag => some { σ with flag := false }
  | .cancel | .clearEchoes | .register | .listen | .dropIdle => some σ
  | _ => none

/-- Whether the lock may be given back. Only a connect without failure leaves a connection. -/
def isFinal (transport : Transport) (connects owed : Bool) (σ : Shape) : Bool :=
  σ.flag == owed && match σ.task with
    | .stored => connects && σ.mishap == .absent && σ.published == (transport != .virtual)
    | .gone => !σ.published && (!connects || σ.mishap == .certain)
    | _ => false

/-- Whether actions lead to the end of an operation, the flag of a virtual bus then being `owed`. -/
def leads (transport : Transport) (connects owed : Bool) (σ : Shape) : List Action → Bool
  | [] => false
  | action :: rest =>
    if action = .leave then rest.isEmpty && σ.isFinal transport connects owed
    else (!action.mayFail || { σ with mishap := .certain }.isFinal transport connects owed) &&
      (σ.after transport action).any fun σ' => σ'.leads transport connects owed rest

/-- A bus without a connection. A connect that failed owes the flag of a virtual bus. -/
def bare (transport : Transport) (refused : Bool) : Shape :=
  { task := .gone, published := false, flag := transport == .virtual && refused }

/-- A bus whose connection has been taken. -/
def opened (transport : Transport) : Shape :=
  { task := .taken, published := transport != .virtual, flag := transport == .virtual }

theorem leads_connect_bare (transport : Transport) (refused : Bool) :
    (bare transport refused).leads transport true (transport == .virtual)
      (Request.remainder transport .connect) = true := by
  cases transport <;> cases refused <;> decide

theorem leads_connect_opened (transport : Transport) :
    (opened transport).leads transport true (transport == .virtual)
      (transport.teardown true ++ Request.remainder transport .connect) = true := by
  cases transport <;> decide

theorem leads_disconnect_bare (transport : Transport) (refused : Bool) :
    (bare transport refused).leads transport false (transport == .virtual && refused)
      (Request.remainder transport .disconnect) = true := by
  cases transport <;> cases refused <;> decide

theorem leads_disconnect_opened (transport : Transport) :
    (opened transport).leads transport false false
      (transport.teardown false ++ Request.remainder transport .disconnect) = true := by
  cases transport <;> decide

theorem leads_cons {transport : Transport} {connects owed : Bool} {σ : Shape} {action : Action}
    {rest : List Action} (hne : action ≠ .leave)
    (h : σ.leads transport connects owed (action :: rest) = true) :
    (action.mayFail = true →
      { σ with mishap := .certain }.isFinal transport connects owed = true) ∧
    ∃ σ', σ.after transport action = some σ' ∧ σ'.leads transport connects owed rest = true := by
  rw [leads, if_neg hne, Bool.and_eq_true, Option.any_eq_true] at h
  obtain ⟨hfinal, σ', hafter, hleads⟩ := h
  refine ⟨fun hfail => ?_, σ', hafter, hleads⟩
  rw [hfail] at hfinal
  exact hfinal

/-- After a failure there is nothing left but to give the lock back. -/
theorem leads_failed {transport : Transport} {connects owed : Bool} {σ : Shape}
    (h : { σ with mishap := .certain }.isFinal transport connects owed = true) :
    { σ with mishap := .certain }.leads transport connects owed [.leave] = true ∧
      { σ with mishap := .certain }.leads transport connects owed [.letGo, .leave] = true :=
  ⟨h, h⟩

end Shape

/-! ## What shapes say -/

/-- The tasks of a bus by their numbers. -/
def Bus.tasks (b : Bus) : List ReceiverId := b.receivers.map (·.id)

def Grip.Holds (b : Bus) (o : Operation) : Grip → Prop
  | .taken | .started => b.connection = none ∧ ∃ id, b.tasks = [id] ∧ o.receiver = some id
  | .gone => b.connection = none ∧ b.tasks = []
  | .stored => ∃ c, b.connection = some c ∧ b.tasks = [c.receiver]

def Mishap.Holds (failure : Option Error) : Mishap → Prop
  | .absent => failure = none
  | .possible => True
  | .certain => failure ≠ none

structure Shape.Holds (b : Bus) (o : Operation) (σ : Shape) : Prop where
  task : σ.task.Holds b o
  published : b.published.isSome = σ.published
  flag : b.flag = σ.flag
  ready : σ.ready = true → ∃ key, o.handle = some key ∧ b.Opens key
  mishap : σ.mishap.Holds o.failure

/-- The flag of a virtual bus once the lock is given back. A connect that fails leaves it raised,
and then a disconnect finds nothing to take down. -/
def Request.owes (transport : Transport) (refused : Bool) (request : Request) : Bool :=
  transport == .virtual && (request.connects || refused)

/-- An operation that holds the lock is on its way to give it back. -/
structure Operation.Proceeds (refused : Bool) (s : Site) (o : Operation) : Prop where
  stocked : s.Stocked
  request : o.request.wire? = none
  plan : ∃ σ : Shape, σ.Holds s.bus o ∧ σ.leads s.bus.transport o.request.connects
    (o.request.owes s.bus.transport refused) o.todo = true

/-- A bus whose lock is free. -/
inductive Bus.Settled (refused : Bool) (b : Bus) : Prop where
  | connected {c : Connection} (hconnection : b.connection = some c)
      (htasks : b.tasks = [c.receiver])
      (hpublished : b.published.isSome = (b.transport != .virtual))
      (hflag : b.flag = (b.transport == .virtual)) (hrefused : refused = false)
  | bare (hconnection : b.connection = none) (htasks : b.tasks = [])
      (hpublished : b.published = none) (hflag : b.flag = (b.transport == .virtual && refused))

namespace Bus

variable {b : Bus}

theorem tasks_setReceiver (t : Receiver) : (b.setReceiver t).tasks = b.tasks := by
  simp only [tasks, setReceiver, List.map_map]
  apply List.map_congr_left
  intro other _
  rw [Function.comp_apply]
  split
  · rename_i hid
    exact hid.symm
  · rfl

theorem exists_receiver? {id : ReceiverId} (h : b.tasks = [id]) :
    ∃ r, b.receivers = [r] ∧ r.id = id ∧ b.receiver? id = some r := by
  obtain ⟨r, hr, hid⟩ := List.map_eq_singleton_iff.mp h
  refine ⟨r, hr, hid, ?_⟩
  rw [receiver?, hr, List.find?_singleton, if_pos]
  simp [hid]

end Bus

section Actions

variable {s s' : Site} {o o' : Operation} {σ σ' : Shape} {action : Action} {rest : List Action}
  {owed : Bool}

theorem Grip.Holds.congr {grip : Grip} (h : grip.Holds s.bus o)
    (htasks : s'.bus.tasks = s.bus.tasks) (hconnection : s'.bus.connection = s.bus.connection)
    (hreceiver : o'.receiver = o.receiver) : grip.Holds s'.bus o' := by
  unfold Grip.Holds at h ⊢
  rw [htasks, hconnection, hreceiver]
  exact h

/-- Whatever an action does elsewhere, the shape stays. -/
theorem Shape.Holds.congr (h : σ.Holds s.bus o) (htask : σ.task.Holds s'.bus o')
    (hpublished : s'.bus.published = s.bus.published) (hflag : s'.bus.flag = s.bus.flag)
    (hready : ∀ key, o.handle = some key → s.bus.Opens key →
      o'.handle = some key ∧ s'.bus.Opens key)
    (hfailure : o'.failure = o.failure) : σ.Holds s'.bus o' where
  task := htask
  published := by rw [hpublished, h.published]
  flag := by rw [hflag, h.flag]
  ready hr := by
    obtain ⟨key, hkey, hopen⟩ := h.ready hr
    exact ⟨key, hready key hkey hopen⟩
  mishap := by
    rw [hfailure]
    exact h.mishap

namespace Operation

/-- What there is after an action of a plan that did not fail. -/
structure Follows (s : Site) (o : Operation) (rest : List Action) (σ' : Shape) (s' : Site)
    (o' : Operation) : Prop where
  stocked : s'.Stocked
  holds : σ'.Holds s'.bus o'
  request : o'.request = o.request
  todo : o'.todo = rest

/-- An action that has nothing to do with the stock and with what the shape is about. -/
theorem Follows.quiet (hstocked : s.Stocked) (hholds : σ.Holds s.bus o)
    (hresources : s'.bus.resources = s.bus.resources)
    (htransport : s'.bus.transport = s.bus.transport)
    (hidle : s'.bus.idle = s.bus.idle ∨ s'.bus.idle = none)
    (hkernel : s'.medium.kernel = s.medium.kernel) (htasks : s'.bus.tasks = s.bus.tasks)
    (hconnection : s'.bus.connection = s.bus.connection)
    (hpublished : s'.bus.published = s.bus.published) (hflag : s'.bus.flag = s.bus.flag)
    (ho : o' = { o with todo := rest, position := o'.position }) : Follows s o rest σ s' o' where
  stocked := by
    refine hstocked.of_resources_eq hresources htransport ?_ hidle ?_
    · rw [hpublished]
      exact hstocked.published_open
    · rw [hkernel]
      exact Kernel.Spares.refl _
  holds := by
    apply hholds.congr
    · exact hholds.task.congr htasks hconnection (by rw [ho])
    · exact hpublished
    · exact hflag
    · intro key hkey hopen
      exact ⟨by rw [ho]; exact hkey, hopen.congr hresources⟩
    · rw [ho]
  request := by rw [ho]
  todo := by rw [ho]

theorem follows_cancel (hstocked : s.Stocked) (hholds : σ.Holds s.bus o)
    (h : { o with todo := rest }.perform s .cancel = some (s', o')) :
    Follows s o rest σ s' o' := by
  simp only [perform] at h
  split at h
  · cases h
    exact .quiet hstocked hholds rfl rfl (Or.inl rfl) rfl rfl rfl rfl rfl rfl
  · cases h
    exact .quiet hstocked hholds rfl rfl (Or.inl rfl) rfl (Bus.tasks_setReceiver _) rfl rfl rfl rfl

/-- Once the task has exited it is gone, and it is known whether it died. -/
theorem follows_join (hstocked : s.Stocked) (hholds : σ.Holds s.bus o) (htask : σ.task = .taken)
    (h : { o with todo := rest }.join s = some (s', o')) :
    Follows s o rest { σ with task := .gone, mishap := .possible } s' o' := by
  have hgrip := hholds.task
  rw [htask] at hgrip
  obtain ⟨hconnection, id, htasks, hreceiver⟩ := hgrip
  obtain ⟨r, hreceivers, hid, hfind⟩ := Bus.exists_receiver? htasks
  unfold join at h
  simp only [hreceiver, Option.bind_some, hfind] at h
  split at h
  · cases h
    refine ⟨?_, ⟨⟨hconnection, ?_⟩, hholds.published, hholds.flag, ?_, trivial⟩, rfl, rfl⟩
    · exact hstocked.congr rfl rfl rfl rfl (Kernel.Spares.refl _)
    · simp [Site.setBus, Bus.tasks, hreceivers]
    · intro hready
      obtain ⟨key, hkey, hopen⟩ := hholds.ready hready
      exact ⟨key, hkey, hopen.congr rfl⟩
  · cases h

theorem follows_unpublish (hstocked : s.Stocked) (hholds : σ.Holds s.bus o)
    (h : { o with todo := rest }.perform s .unpublish = some (s', o')) :
    Follows s o rest { σ with published := false, ready := false } s' o' := by
  cases h
  refine ⟨?_, ⟨hholds.task.congr rfl rfl rfl, rfl, hholds.flag, nofun, hholds.mishap⟩, rfl, rfl⟩
  exact hstocked.of_resources_eq rfl rfl nofun (Or.inl rfl) (Kernel.Spares.refl _)

/-- A socket is closed only when neither senders nor a connection to come can find it. -/
theorem follows_closeSocket (hstocked : s.Stocked) (hholds : σ.Holds s.bus o)
    (hring : s.bus.transport ≠ .ring) (hpublished : σ.published = false)
    (h : { o with todo := rest }.perform s .closeSocket = some (s', o')) :
    Follows s o rest { σ with ready := false } s' o' := by
  have hnone : s.bus.published = none := by
    rw [← Option.not_isSome_iff_eq_none, hholds.published, hpublished]
    decide
  have hidle : s.bus.idle = none := by
    by_contra hidle
    exact hring (hstocked.idle_ring hidle)
  simp only [perform] at h
  split at h
  · cases h
    exact ⟨hstocked, ⟨hholds.task, hholds.published, hholds.flag,
      (absurd · Bool.false_ne_true), hholds.mishap⟩, rfl, rfl⟩
  · rename_i key _
    cases h
    refine ⟨⟨hstocked.fresh, ?_, ?_, ?_, hstocked.idle_ring⟩,
      ⟨hholds.task, hholds.published, hholds.flag, (absurd · Bool.false_ne_true),
        hholds.mishap⟩, rfl, rfl⟩
    · intro r hr
      obtain ⟨old, hold, rfl⟩ := List.mem_map.mp hr
      have hlt := hstocked.key_lt old hold
      split
      · exact hlt
      · exact hlt
    · intro key hkey
      cases hkey.symm.trans hnone
    · intro key hkey
      cases hkey.symm.trans hidle

theorem follows_publish (hstocked : s.Stocked) (hholds : σ.Holds s.bus o) (hready : σ.ready = true)
    (h : { o with todo := rest }.perform s .publish = some (s', o')) :
    Follows s o rest { σ with published := true } s' o' := by
  obtain ⟨key, hkey, hopen⟩ := hholds.ready hready
  cases h
  refine ⟨?_, ⟨hholds.task, ?_, hholds.flag, fun _ => ⟨key, hkey, hopen.congr rfl⟩,
    hholds.mishap⟩, rfl, rfl⟩
  · refine hstocked.of_resources_eq rfl rfl ?_ (Or.inl rfl) (Kernel.Spares.refl _)
    intro other hother
    cases hkey.symm.trans hother
    exact hopen
  · show o.handle.isSome = true
    rw [hkey]
    rfl

theorem follows_spawn (hstocked : s.Stocked) (hholds : σ.Holds s.bus o) (htask : σ.task = .gone)
    (h : { o with todo := rest }.perform s .spawn = some (s', o')) :
    Follows s o rest { σ with task := .started } s' o' := by
  have hgrip := hholds.task
  rw [htask] at hgrip
  obtain ⟨hconnection, htasks⟩ := hgrip
  have hnone : s.bus.receivers = [] := List.map_eq_nil_iff.mp htasks
  cases h
  refine ⟨?_, ⟨⟨hconnection, s.bus.next, ?_, rfl⟩, hholds.published, hholds.flag, ?_,
    hholds.mishap⟩, rfl, rfl⟩
  · exact hstocked.congr rfl rfl rfl rfl (Kernel.Spares.refl _)
  · simp [Site.setBus, Site.onReception, Bus.tasks, hnone]
  · intro hready
    obtain ⟨key, hkey, hopen⟩ := hholds.ready hready
    exact ⟨key, hkey, hopen.congr rfl⟩

theorem follows_store (hstocked : s.Stocked) (hholds : σ.Holds s.bus o)
    (htask : σ.task = .started)
    (h : { o with todo := rest }.perform s .store = some (s', o')) :
    Follows s o rest { σ with task := .stored, ready := false } s' o' := by
  have hgrip := hholds.task
  rw [htask] at hgrip
  obtain ⟨-, id, htasks, hreceiver⟩ := hgrip
  cases h
  refine ⟨?_, ⟨⟨_, congrArg (Option.map _) hreceiver, htasks⟩, hholds.published, hholds.flag,
    nofun, hholds.mishap⟩, rfl, rfl⟩
  exact hstocked.congr rfl rfl rfl rfl (Kernel.Spares.refl _)

/-- What becomes of an operation that may fail: it goes on, or it gives up and cleans up. -/
def Yielded (s : Site) (o : Operation) (rest : List Action) (σ σ' : Shape) (s' : Site)
    (o' : Operation) : Prop :=
  Follows s o rest σ' s' o' ∨
    ∃ todo, (todo = [.leave] ∨ todo = [.letGo, .leave]) ∧
      Follows s o todo { σ with mishap := .certain } s' o'

theorem yielded_check (hstocked : s.Stocked) (hholds : σ.Holds s.bus o)
    (h : { o with todo := rest }.perform s .check = some (s', o')) :
    Yielded s o rest σ { σ with mishap := .absent } s' o' := by
  simp only [perform] at h
  split at h
  · rename_i hfailed
    cases h
    refine Or.inr ⟨[.leave], Or.inl rfl, hstocked, ?_, rfl, rfl⟩
    exact ⟨hholds.task, hholds.published, hholds.flag, hholds.ready, Option.isSome_iff_ne_none.mp hfailed⟩
  · rename_i hnone
    cases h
    refine Or.inl ⟨hstocked, ?_, rfl, rfl⟩
    exact ⟨hholds.task, hholds.published, hholds.flag, hholds.ready,
      Option.not_isSome_iff_eq_none.mp hnone⟩

theorem cleanup_of_wire?_eq_none {request : Request} (h : request.wire? = none)
    (transport : Transport) : request.cleanup transport = [.letGo, .leave] := by
  cases request with
  | connect | disconnect => rfl
  | send frame => cases h

theorem yielded_register (hstocked : s.Stocked) (hholds : σ.Holds s.bus o)
    (hrequest : o.request.wire? = none)
    (h : { o with todo := rest }.perform s .register = some (s', o')) :
    Yielded s o rest σ σ s' o' := by
  simp only [perform, register] at h
  cases h
  split
  · refine Or.inl ⟨hstocked, ?_, rfl, rfl⟩
    exact ⟨hholds.task, hholds.published, hholds.flag, hholds.ready, hholds.mishap⟩
  · refine Or.inr ⟨_, Or.inr rfl, hstocked, ?_, rfl, cleanup_of_wire?_eq_none hrequest _⟩
    exact ⟨hholds.task, hholds.published, hholds.flag, hholds.ready, Option.some_ne_none _⟩

/-- The resource that was waiting is open, and so is a new one. -/
theorem yielded_acquire (hstocked : s.Stocked) (hholds : σ.Holds s.bus o)
    (hrequest : o.request.wire? = none)
    (h : { o with todo := rest }.acquire s = (s', o')) :
    Yielded s o rest σ { σ with ready := true } s' o' := by
  unfold acquire at h
  simp only at h
  split at h
  · rename_i key hidle
    cases h
    refine Or.inl ⟨?_, ⟨hholds.task.congr rfl rfl rfl, hholds.published, hholds.flag, fun _ => ?_,
      hholds.mishap⟩, rfl, rfl⟩
    · exact hstocked.of_resources_eq rfl rfl hstocked.published_open (Or.inr rfl)
        (Kernel.Spares.refl _)
    · exact ⟨key, rfl, (hstocked.idle_open key hidle).congr rfl⟩
  · have hacquired := Resource.acquired s.bus.transport s.bus.channel s.bus.config hstocked.fresh
    split at h
    all_goals
      rename_i s₁ hrun
      obtain ⟨hbus, hspares, hnew⟩ := Site.onKernel_sparing hacquired hrun
      cases h
    · rename_i resource
      have hresource := hnew resource rfl
      refine Or.inl ⟨hstocked.add hbus hspares hresource, ?_, rfl, rfl⟩
      constructor
      · apply hholds.task.congr
        · rw [← hbus]; rfl
        · rw [← hbus]; rfl
        · rfl
      · rw [← hholds.published, ← hbus]; rfl
      · rw [← hholds.flag, ← hbus]; rfl
      · intro _
        refine ⟨resource.key, rfl,
          Bus.opens_new ?_ (hstocked.key_ne hresource) hresource.socket_open⟩
        show s₁.bus.resources ++ [resource] = _
        rw [hbus]
      · exact hholds.mishap
    · refine Or.inr ⟨_, Or.inr rfl, ?_, ?_, rfl, cleanup_of_wire?_eq_none hrequest _⟩
      · apply hstocked.congr _ _ _ _ hspares
        all_goals rw [hbus]
      · rw [hbus]
        exact ⟨hholds.task, hholds.published, hholds.flag, hholds.ready, nofun⟩

theorem Follows.proceeds {refused : Bool} (h : Follows s o rest σ' s' o')
    (htransport : s'.bus.transport = s.bus.transport) (hrequest : o.request.wire? = none)
    (hleads : σ'.leads s.bus.transport o.request.connects
      (o.request.owes s.bus.transport refused) rest = true) : Proceeds refused s' o' where
  stocked := h.stocked
  request := by rw [h.request, hrequest]
  plan := ⟨σ', h.holds, by rw [h.todo, h.request, htransport, hleads]⟩

theorem Yielded.proceeds {refused : Bool} (h : Yielded s o rest σ σ' s' o')
    (htransport : s'.bus.transport = s.bus.transport) (hrequest : o.request.wire? = none)
    (hfinal : { σ with mishap := .certain }.isFinal s.bus.transport o.request.connects
      (o.request.owes s.bus.transport refused) = true)
    (hleads : σ'.leads s.bus.transport o.request.connects
      (o.request.owes s.bus.transport refused) rest = true) : Proceeds refused s' o' := by
  rcases h with hfollows | ⟨todo, htodo, hfollows⟩
  · exact hfollows.proceeds htransport hrequest hleads
  · obtain ⟨hshort, hlong⟩ := Shape.leads_failed hfinal
    rcases htodo with rfl | rfl
    · exact hfollows.proceeds htransport hrequest hshort
    · exact hfollows.proceeds htransport hrequest hlong

/-- An operation keeps to its plan. -/
theorem Proceeds.perform {refused : Bool} (h : Proceeds refused s o)
    (htodo : o.todo = action :: rest) (hne : action ≠ .leave)
    (hperform : { o with todo := rest }.perform s action = some (s', o')) :
    Proceeds refused s' o' := by
  have htransport := (framed_perform hperform).transport_eq
  have hrequest := h.request
  have hstocked := h.stocked
  obtain ⟨σ, hholds, hleads⟩ := h.plan
  rw [htodo] at hleads
  obtain ⟨hfinal, σ', hafter, hrest⟩ := Shape.leads_cons hne hleads
  have hplan : Follows s o rest σ' s' o' → Proceeds refused s' o' :=
    fun hfollows => hfollows.proceeds htransport hrequest hrest
  cases action with
  | leave => exact absurd rfl hne
  | check =>
    cases hafter
    exact (yielded_check hstocked hholds hperform).proceeds htransport hrequest (hfinal rfl) hrest
  | acquire =>
    cases hafter
    have hyielded := yielded_acquire hstocked hholds hrequest (Option.some.inj hperform)
    exact hyielded.proceeds htransport hrequest (hfinal rfl) hrest
  | register =>
    cases hafter
    have hyielded := yielded_register hstocked hholds hrequest hperform
    exact hyielded.proceeds htransport hrequest (hfinal rfl) hrest
  | join =>
    obtain ⟨htask, heq⟩ := Option.ite_none_right_eq_some.mp hafter
    cases heq
    exact hplan (follows_join hstocked hholds htask hperform)
  | unpublish =>
    cases hafter
    exact hplan (follows_unpublish hstocked hholds hperform)
  | closeSocket =>
    obtain ⟨⟨hring, hpublished⟩, heq⟩ := Option.ite_none_right_eq_some.mp hafter
    cases heq
    exact hplan (follows_closeSocket hstocked hholds hring hpublished hperform)
  | spawn =>
    obtain ⟨⟨htask, -⟩, heq⟩ := Option.ite_none_right_eq_some.mp hafter
    cases heq
    exact hplan (follows_spawn hstocked hholds htask hperform)
  | publish =>
    obtain ⟨hready, heq⟩ := Option.ite_none_right_eq_some.mp hafter
    cases heq
    exact hplan (follows_publish hstocked hholds hready hperform)
  | store =>
    obtain ⟨htask, heq⟩ := Option.ite_none_right_eq_some.mp hafter
    cases heq
    exact hplan (follows_store hstocked hholds htask hperform)
  | cancel =>
    cases hafter
    exact hplan (follows_cancel hstocked hholds hperform)
  | letGo =>
    cases hafter
    cases hperform
    refine hplan ⟨hstocked, ?_, rfl, rfl⟩
    exact ⟨hholds.task.congr rfl rfl rfl, hholds.published, hholds.flag, nofun, hholds.mishap⟩
  | clearEchoes | listen =>
    cases hafter
    cases hperform
    exact hplan (.quiet hstocked hholds rfl rfl (Or.inl rfl) rfl rfl rfl rfl rfl rfl)
  | dropIdle =>
    cases hafter
    cases hperform
    exact hplan (.quiet hstocked hholds rfl rfl (Or.inr rfl) rfl rfl rfl rfl rfl rfl)
  | raiseFlag | lowerFlag =>
    cases hafter
    cases hperform
    refine hplan ⟨?_, ?_, rfl, rfl⟩
    · exact hstocked.congr rfl rfl rfl rfl (Kernel.Spares.refl _)
    · refine ⟨hholds.task.congr rfl rfl rfl, hholds.published, rfl, fun hready => ?_, hholds.mishap⟩
      obtain ⟨key, hkey, hopen⟩ := hholds.ready hready
      exact ⟨key, hkey, hopen.congr rfl⟩
  | enter | borrow | checkFlag | remember | write | forget | transmit | countSent => cases hafter

/-- Nobody else disturbs an operation that holds the lock. -/
theorem Proceeds.frame {refused : Bool} (h : Proceeds refused s o) (hstocked : s'.Stocked)
    (htransport : s'.bus.transport = s.bus.transport) (htasks : s'.bus.tasks = s.bus.tasks)
    (hconnection : s'.bus.connection = s.bus.connection)
    (hpublished : s'.bus.published = s.bus.published) (hflag : s'.bus.flag = s.bus.flag)
    (hopen : ∀ key, o.handle = some key → s.bus.Opens key → s'.bus.Opens key) :
    Proceeds refused s' o := by
  obtain ⟨σ, hholds, hleads⟩ := h.plan
  refine ⟨hstocked, h.request, σ, ?_, by rw [htransport, hleads]⟩
  apply hholds.congr
  · exact hholds.task.congr htasks hconnection rfl
  · exact hpublished
  · exact hflag
  · exact fun key hkey hold => ⟨hkey, hopen key hkey hold⟩
  · rfl

/-- The lock is given back as the last action, and only a connect that has not failed leaves a
connection behind. -/
theorem Proceeds.leave {refused : Bool} (h : Proceeds refused s o) (htodo : o.todo = .leave :: rest) :
    rest = [] ∧
    s.bus.Settled (if o.request.connects then o.failure.isSome else refused) ∧
    (o.request.connects = false ∨ o.failure ≠ none →
      s.bus.connection = none ∧ s.bus.published = none ∧ s.bus.tasks = []) ∧
    (o.request.connects = true → o.failure = none → s.bus.connection.isSome = true) := by
  obtain ⟨σ, hholds, hleads⟩ := h.plan
  rw [htodo, Shape.leads, if_pos rfl, Bool.and_eq_true, List.isEmpty_iff] at hleads
  obtain ⟨hrest, hfinal⟩ := hleads
  rw [Shape.isFinal, Bool.and_eq_true, beq_iff_eq, Request.owes] at hfinal
  obtain ⟨hflag, hfinal⟩ := hfinal
  rw [← hholds.flag] at hflag
  have hgrip := hholds.task
  have hmishap := hholds.mishap
  refine ⟨hrest, ?_⟩
  cases htask : σ.task with
  | taken | started => simp [htask] at hfinal
  | stored =>
    simp only [htask, Bool.and_eq_true, beq_iff_eq] at hfinal hgrip
    obtain ⟨⟨hconnects, habsent⟩, hpublished⟩ := hfinal
    obtain ⟨c, hconnection, htasks⟩ := hgrip
    rw [habsent] at hmishap
    have hfailure : o.failure = none := hmishap
    rw [hconnects, Bool.true_or, Bool.and_true] at hflag
    refine ⟨?_, ?_, fun _ _ => by rw [hconnection]; rfl⟩
    · refine .connected hconnection htasks (hholds.published.trans hpublished) hflag ?_
      rw [hconnects, hfailure]
      rfl
    · rintro (hnot | hfailed)
      · rw [hconnects] at hnot
        cases hnot
      · exact absurd hfailure hfailed
  | gone =>
    simp only [htask, Bool.and_eq_true, Bool.or_eq_true, Bool.not_eq_true', beq_iff_eq] at hfinal hgrip
    obtain ⟨hunpublished, hfailed⟩ := hfinal
    obtain ⟨hconnection, htasks⟩ := hgrip
    have hpublished : s.bus.published = none := by
      rw [← Option.not_isSome_iff_eq_none, hholds.published, hunpublished]
      decide
    have hgiven : o.request.connects = false ∨ o.failure ≠ none := by
      refine hfailed.imp_right fun hcertain => ?_
      rw [hcertain] at hmishap
      exact hmishap
    refine ⟨.bare hconnection htasks hpublished ?_, fun _ => ⟨hconnection, hpublished, htasks⟩, ?_⟩
    · rw [hflag]
      rcases hgiven with hconnects | hfailure
      · rw [hconnects]
        rfl
      · rw [Option.isSome_iff_ne_none.mpr hfailure]
        cases o.request.connects <;> rfl
    · intro hconnects hnone
      rcases hgiven with hnot | hfailure
      · rw [hnot] at hconnects
        cases hconnects
      · exact absurd hnone hfailure

/-- Without a connection there is nothing to take down. -/
theorem enter_bare (hlock : s.bus.lock = none) (hconnection : s.bus.connection = none) :
    o.enter s = some (s.setBus { s.bus with lock := some o.id },
      { o with todo := o.request.remainder s.bus.transport }) := by
  simp [enter, hlock, hconnection]

/-- A connect that finds the task of the connection running does nothing. -/
theorem enter_running {c : Connection} {r : Receiver} (hlock : s.bus.lock = none)
    (hconnection : s.bus.connection = some c) (hfind : s.bus.receiver? c.receiver = some r)
    (hrunning : r.hasExited = false) (hrequest : o.request = .connect) :
    o.enter s = some (s.setBus { s.bus with lock := some o.id }, { o with todo := [.leave] }) := by
  unfold Bus.receiver? at hfind
  simp [enter, Bus.receiver?, hlock, hconnection, hfind, hrunning, hrequest]

/-- In any other case the connection is taken. -/
theorem enter_taking {c : Connection} {r : Receiver} (hlock : s.bus.lock = none)
    (hconnection : s.bus.connection = some c) (hfind : s.bus.receiver? c.receiver = some r)
    (hother : o.request ≠ .connect ∨ r.hasExited = true) :
    o.enter s = some (s.setBus { s.bus with lock := some o.id, connection := none }, { o with
      receiver := some c.receiver
      handle := c.socket
      todo := s.bus.transport.teardown (o.request = .connect) ++
        o.request.remainder s.bus.transport }) := by
  unfold Bus.receiver? at hfind
  rcases hother with hrequest | hexited
  · simp [enter, hlock, hconnection, hrequest]
  · simp [enter, Bus.receiver?, hlock, hconnection, hfind, hexited]

/-- An operation that comes to hold the lock has a plan. -/
theorem proceeds_enter {refused : Bool} (hsettled : s.bus.Settled refused) (hstocked : s.Stocked)
    (hlock : s.bus.lock = none) (hrequest : o.request.wire? = none) (hfailure : o.failure = none) :
    ∃ s' o', o.enter s = some (s', o') ∧ Proceeds refused s' o' ∧ s'.bus.lock = some o.id := by
  have hstocked' : ∀ connection, (s.setBus { s.bus with
      lock := some o.id, connection := connection }).Stocked := fun connection =>
    hstocked.congr rfl rfl rfl rfl (Kernel.Spares.refl _)
  cases hsettled with
  | bare hconnection htasks hpublished hflag =>
    refine ⟨_, _, enter_bare hlock hconnection, ⟨hstocked' _, hrequest, ?_⟩, rfl⟩
    refine ⟨.bare s.bus.transport refused,
      ⟨⟨hconnection, htasks⟩, ?_, hflag, (absurd · Bool.false_ne_true), hfailure⟩, ?_⟩
    · show s.bus.published.isSome = false
      rw [hpublished]
      rfl
    · cases hcase : o.request with
      | connect =>
        have hleads := Shape.leads_connect_bare s.bus.transport refused
        simpa [Site.setBus, Request.connects, Request.owes] using hleads
      | disconnect =>
        have hleads := Shape.leads_disconnect_bare s.bus.transport refused
        simpa [Site.setBus, Request.connects, Request.owes] using hleads
      | send frame => rw [hcase] at hrequest; cases hrequest
  | connected hconnection htasks hpublished hflag hrefused =>
    rename_i c
    obtain ⟨r, -, hid, hfind⟩ := Bus.exists_receiver? htasks
    by_cases hrunning : o.request = .connect ∧ r.hasExited = false
    · refine ⟨_, _, enter_running hlock hconnection hfind hrunning.2 hrunning.1,
        ⟨hstocked' _, hrequest, ?_⟩, rfl⟩
      refine ⟨{ Shape.opened s.bus.transport with task := .stored },
        ⟨⟨c, hconnection, htasks⟩, hpublished, hflag, (absurd · Bool.false_ne_true), hfailure⟩, ?_⟩
      simp [Site.setBus, Shape.leads, Shape.isFinal, Shape.opened, hrunning.1, Request.connects,
        Request.owes]
    · have hother : o.request ≠ .connect ∨ r.hasExited = true := by
        by_cases hconnect : o.request = .connect
        · exact Or.inr (by simpa [hconnect] using hrunning)
        · exact Or.inl hconnect
      refine ⟨_, _, enter_taking hlock hconnection hfind hother, ⟨hstocked' _, hrequest, ?_⟩, rfl⟩
      refine ⟨.opened s.bus.transport,
        ⟨⟨rfl, c.receiver, htasks, rfl⟩, hpublished, hflag, (absurd · Bool.false_ne_true),
          hfailure⟩, ?_⟩
      cases hcase : o.request with
      | connect =>
        have hleads := Shape.leads_connect_opened s.bus.transport
        simpa [Site.setBus, Request.connects, Request.owes, hcase] using hleads
      | disconnect =>
        have hleads := Shape.leads_disconnect_opened s.bus.transport
        simpa [Site.setBus, Request.connects, Request.owes, hcase, hrefused] using hleads
      | send frame => rw [hcase] at hrequest; cases hrequest

end Operation

end Actions

end CanTransport
