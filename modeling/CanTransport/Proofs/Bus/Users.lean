import CanTransport.Proofs.Bus.Actions
import CanTransport.Proofs.Ring.Echoes
import CanTransport.Proofs.Bus.Turns
import Mathlib.Data.List.Chain
/-!
# Users of a ring

A ring is read by the task that was started on it. Before that it waits, or a connection has just
acquired it and starts the task next. What one action of an operation changes about this.
-/

namespace CanTransport

/-- Who has a resource in order to read it. -/
inductive User where
  | waiting
  | operation (id : OperationId)
  | receiver (id : ReceiverId)

/-- A user of a resource, and where it is as a reader. -/
inductive Bus.Uses (b : Bus) (key : Descriptor) : User → Phase → Prop where
  | waiting (hidle : b.idle = some key) : Uses b key .waiting (.resting 0)
  | operation {o : Operation} {rest : List Action} (hmem : o ∈ b.operations)
      (htodo : o.todo = .spawn :: rest) (hhandle : o.handle = some key) :
      Uses b key (.operation o.id) (.resting 0)
  | receiver {r : Receiver} (hmem : r ∈ b.receivers) (hhandle : r.handle = some key) :
      Uses b key (.receiver r.id) r.phase

theorem Bus.Uses.holds {b : Bus} {key : Descriptor} {u : User} {p : Phase} (h : b.Uses key u p) :
    b.holds key = true := by
  unfold Bus.holds
  cases h with
  | waiting hidle => simp [hidle]
  | operation hmem _ hhandle =>
    have hany : b.operations.any (·.handle == some key) = true :=
      List.any_eq_true.mpr ⟨_, hmem, by simp [hhandle]⟩
    simp [hany]
  | receiver hmem hhandle =>
    have hany : b.receivers.any (·.handle == some key) = true :=
      List.any_eq_true.mpr ⟨_, hmem, by simp [hhandle]⟩
    simp [hany]

/-- Users of a bus that has none that another has not, apart from operations that start no task
and tasks that have been cancelled. -/
theorem Bus.Uses.of_fewer {b b' : Bus} {key : Descriptor} {u : User} {p : Phase}
    (hidle : ∀ k, b'.idle = some k → b.idle = some k)
    (hoperations : ∀ o ∈ b'.operations, o ∈ b.operations ∨ o.todo.head? ≠ some .spawn)
    (hreceivers : ∀ r' ∈ b'.receivers, ∃ r ∈ b.receivers, r' = { r with cancelled := r'.cancelled })
    (h : b'.Uses key u p) : b.Uses key u p := by
  cases h with
  | waiting hkey => exact .waiting (hidle key hkey)
  | operation hmem htodo hhandle =>
    rcases hoperations _ hmem with hold | hne
    · exact .operation hold htodo hhandle
    · exact absurd (by rw [htodo]; rfl) hne
  | receiver hmem hhandle =>
    rename_i r'
    obtain ⟨r, hr, heq⟩ := hreceivers r' hmem
    have hid : r'.id = r.id := by rw [heq]
    have hphase : r'.phase = r.phase := by rw [heq]; rfl
    have hkey : r'.handle = r.handle := by rw [heq]
    rw [hid, hphase]
    exact .receiver hr (hkey ▸ hhandle)

theorem Bus.Uses.congr {b b' : Bus} {key : Descriptor} {u : User} {p : Phase}
    (hidle : b'.idle = b.idle) (hoperations : b'.operations = b.operations)
    (hreceivers : b'.receivers = b.receivers) (h : b'.Uses key u p) : b.Uses key u p :=
  h.of_fewer (fun _ hk => hidle ▸ hk) (fun _ ho => Or.inl (hoperations ▸ ho))
    (fun r hr => ⟨r, hreceivers ▸ hr, rfl⟩)

/-- The users after an operation was replaced. -/
theorem Bus.Uses.setOperation {b : Bus} {o : Operation} {key : Descriptor} {u : User} {p : Phase}
    (h : (b.setOperation o).Uses key u p) :
    (b.Uses key u p ∧ u ≠ .operation o.id) ∨
      u = .operation o.id ∧ p = .resting 0 ∧ o.todo.head? = some .spawn ∧ o.handle = some key := by
  cases h with
  | waiting hidle => exact Or.inl ⟨.waiting hidle, by simp⟩
  | operation hmem htodo hhandle =>
    rcases Bus.mem_setOperation hmem with rfl | ⟨hold, hne⟩
    · exact Or.inr ⟨rfl, rfl, by rw [htodo]; rfl, hhandle⟩
    · exact Or.inl ⟨.operation hold htodo hhandle, by simpa using hne⟩
  | receiver hmem hhandle => exact Or.inl ⟨.receiver hmem hhandle, by simp⟩

/-- The users after a task was replaced. -/
theorem Bus.Uses.setReceiver {b : Bus} {r : Receiver} {key : Descriptor} {u : User} {p : Phase}
    (h : (b.setReceiver r).Uses key u p) :
    (b.Uses key u p ∧ u ≠ .receiver r.id) ∨
      u = .receiver r.id ∧ p = r.phase ∧ r.handle = some key := by
  cases h with
  | waiting hidle => exact Or.inl ⟨.waiting hidle, by simp⟩
  | operation hmem htodo hhandle => exact Or.inl ⟨.operation hmem htodo hhandle, by simp⟩
  | receiver hmem hhandle =>
    rcases Bus.mem_setReceiver hmem with rfl | ⟨hold, hne⟩
    · exact Or.inr ⟨rfl, rfl, hhandle⟩
    · exact Or.inl ⟨.receiver hold hhandle, by simpa using hne⟩

/-- A task is started right after its resource was acquired, and no socket is closed before its
task has ended. -/
def Orderly (todo : List Action) : Prop :=
  (todo.IsChain fun first second => second = .spawn → first = .acquire) ∧
    Action.closeSocket ∉ todo

instance (todo : List Action) : Decidable (Orderly todo) := inferInstanceAs (Decidable (_ ∧ _))

/-- Actions of which the first starts no task. -/
def Unhurried (todo : List Action) : Prop := Orderly todo ∧ todo.head? ≠ some .spawn

instance (todo : List Action) : Decidable (Unhurried todo) := inferInstanceAs (Decidable (_ ∧ _))

namespace Orderly

theorem tail {action : Action} {rest : List Action} (h : Orderly (action :: rest)) :
    Orderly rest :=
  ⟨h.1.of_cons, fun hmem => h.2 (List.mem_cons_of_mem _ hmem)⟩

theorem unhurried {action : Action} {rest : List Action} (h : Orderly (action :: rest))
    (hne : action ≠ .acquire) : Unhurried rest := by
  refine ⟨h.tail, fun hspawn => ?_⟩
  rw [Orderly, List.isChain_cons] at h
  exact hne (h.1.1 _ hspawn rfl)

end Orderly

namespace Unhurried

theorem start (request : Request) : Unhurried (request.start .ring) := by
  cases request with
  | connect => decide
  | disconnect => decide
  | send frame =>
    show Unhurried [.borrow, .remember, .write, .countSent]
    decide

theorem cleanup (request : Request) : Unhurried (request.cleanup .ring) := by
  cases request with
  | connect => decide
  | disconnect => decide
  | send frame =>
    show Unhurried [.forget]
    decide

theorem remainder (request : Request) : Unhurried (request.remainder .ring) := by
  cases request with
  | connect => decide
  | disconnect => decide
  | send frame =>
    show Unhurried []
    decide

theorem teardown (request : Request) (reconnecting : Bool) :
    Unhurried (Transport.teardown .ring reconnecting ++ request.remainder .ring) := by
  cases request with
  | connect =>
    show Unhurried (Transport.teardown .ring true ++ Request.remainder .ring .connect)
    decide
  | disconnect =>
    show Unhurried (Transport.teardown .ring true ++ Request.remainder .ring .disconnect)
    decide
  | send frame =>
    show Unhurried (Transport.teardown .ring true)
    decide

end Unhurried

namespace Operation

/-- What one action of an operation on a ring can come to: nothing that any reader notices, a
resource to be read, or a task that reads it. -/
inductive Effect (s : Site) (o : Operation) : Site → Operation → Prop where
  | aside {s' : Site} {o' : Operation}
      (hresources : s'.bus.resources = s.bus.resources)
      (hidle : s'.bus.idle = s.bus.idle ∨ s'.bus.idle = none)
      (hreceivers : ∀ r' ∈ s'.bus.receivers, ∃ r ∈ s.bus.receivers,
        r' = { r with cancelled := r'.cancelled })
      (hspares : Kernel.Spares (· < s.medium.kernel.next) s.medium.kernel s'.medium.kernel)
      (htodo : Unhurried o'.todo) : Effect s o s' o'
  | takeWaiting {key : Descriptor} {rest : List Action} (hidle : s.bus.idle = some key)
      (hrest : Orderly rest) :
      Effect s o (s.setBus { s.bus with idle := none })
        { o with todo := rest, handle := some key }
  | takeNew {s' : Site} {resource : Resource} {rest : List Action}
      (hbus : s'.bus = { s.bus with resources := s.bus.resources ++ [resource] })
      (hspares : Kernel.Spares (· < s.medium.kernel.next) s.medium.kernel s'.medium.kernel)
      (hnew : Resource.NewRing s.bus.config s.medium.kernel resource s'.medium.kernel)
      (hrest : Orderly rest) :
      Effect s o s' { o with todo := rest, handle := some resource.key }
  | spawn {s' : Site} {o' : Operation} {r : Receiver} {rest : List Action}
      (htodo : o.todo = .spawn :: rest)
      (hresources : s'.bus.resources = s.bus.resources)
      (hidle : s'.bus.idle = s.bus.idle)
      (hreceivers : s'.bus.receivers = s.bus.receivers ++ [r])
      (hhandle : r.handle = o.handle) (hphase : r.phase = .resting 0) (hsweeps : r.Sweeps)
      (hmedium : s'.medium = s.medium) (hrest : Unhurried o'.todo) : Effect s o s' o'

/-- What every action leaves as it is. -/
structure Framed (s : Site) (o : Operation) (s' : Site) (o' : Operation) : Prop where
  operations_eq : s'.bus.operations = s.bus.operations
  transport_eq : s'.bus.transport = s.bus.transport
  config_eq : s'.bus.config = s.bus.config
  enabled_eq : s'.bus.echoes.enabled = s.bus.echoes.enabled
  id_eq : o'.id = o.id
  request_eq : o'.request = o.request

theorem enter_eq_some {s s' : Site} {o o' : Operation} (h : o.enter s = some (s', o')) :
    ∃ connection, s' = s.setBus { s.bus with lock := some o.id, connection := connection } ∧
      o'.id = o.id ∧ o'.request = o.request ∧
      (o'.todo = o.request.remainder s.bus.transport ∨ o'.todo = [.leave] ∨
        ∃ reconnecting, o'.todo =
          s.bus.transport.teardown reconnecting ++ o.request.remainder s.bus.transport) := by
  unfold enter at h
  simp only at h
  split at h
  · cases h
  split at h
  · cases h
    exact ⟨_, rfl, rfl, rfl, Or.inl rfl⟩
  · rcases ite_eq_iff.mp h with ⟨-, h⟩ | ⟨-, h⟩
    · cases h
      exact ⟨_, rfl, rfl, rfl, Or.inr (Or.inl rfl)⟩
    · cases h
      exact ⟨_, rfl, rfl, rfl, Or.inr (Or.inr ⟨_, rfl⟩)⟩

theorem framed_enter {s s' : Site} {o o' : Operation} (h : o.enter s = some (s', o')) :
    Framed s o s' o' := by
  obtain ⟨connection, rfl, hid, hrequest, -⟩ := enter_eq_some h
  exact ⟨rfl, rfl, rfl, rfl, hid, hrequest⟩

theorem framed_join {s s' : Site} {o o' : Operation} (h : o.join s = some (s', o')) :
    Framed s o s' o' := by
  unfold join at h
  split at h
  · cases h
    exact ⟨rfl, rfl, rfl, rfl, rfl, rfl⟩
  · split at h
    · cases h
      exact ⟨rfl, rfl, rfl, rfl, rfl, rfl⟩
    · cases h

theorem framed_acquire {s s' : Site} {o o' : Operation} (h : o.acquire s = (s', o')) :
    Framed s o s' o' := by
  unfold acquire at h
  simp only at h
  split at h
  · cases h
    exact ⟨rfl, rfl, rfl, rfl, rfl, rfl⟩
  · split at h
    all_goals
      rename_i hrun
      have hbus := congrArg (·.2.bus) hrun
      simp only [Site.onKernel_bus] at hbus
      cases h
      refine ⟨?_, ?_, ?_, ?_, rfl, rfl⟩ <;> simp [Site.setBus, ← hbus]

theorem framed_write {s s' : Site} {o o' : Operation} (h : o.write s = (s', o')) :
    Framed s o s' o' := by
  unfold write at h
  split at h
  · split at h
    all_goals
      rename_i hrun
      have hbus := congrArg (·.2.bus) hrun
      simp only [Site.onKernel_bus] at hbus
      cases h
      refine ⟨?_, ?_, ?_, ?_, rfl, rfl⟩ <;> rw [hbus]
  · cases h
    exact ⟨rfl, rfl, rfl, rfl, rfl, rfl⟩

theorem framed_perform {s s' : Site} {o o' : Operation} {action : Action}
    (h : o.perform s action = some (s', o')) : Framed s o s' o' := by
  cases action with
  | enter => exact framed_enter h
  | join => exact framed_join h
  | acquire => exact framed_acquire (Option.some.inj h)
  | write => exact framed_write (Option.some.inj h)
  | remember | forget =>
    simp only [perform] at h
    split at h <;> cases h <;> exact ⟨rfl, rfl, rfl, by simp [Site.setBus], rfl, rfl⟩
  | cancel | closeSocket | borrow | transmit =>
    simp only [perform] at h
    split at h <;> cases h <;> exact ⟨rfl, rfl, rfl, rfl, rfl, rfl⟩
  | check | checkFlag =>
    simp only [perform] at h
    cases h
    exact ⟨rfl, rfl, rfl, rfl, by split <;> rfl, by split <;> rfl⟩
  | register =>
    simp only [perform, register] at h
    cases h
    exact ⟨rfl, rfl, rfl, rfl, by split <;> rfl, by split <;> rfl⟩
  | leave | unpublish | letGo | clearEchoes | listen | spawn | publish | store | raiseFlag
  | lowerFlag | dropIdle | countSent =>
    cases h
    exact ⟨rfl, rfl, rfl, rfl, rfl, rfl⟩

section Effects

variable {s s' : Site} {o o' : Operation} {action : Action} {rest : List Action}

/-- An action that changes nothing of the readers and calls nothing of the kernel. -/
theorem Effect.quiet (hresources : s'.bus.resources = s.bus.resources)
    (hidle : s'.bus.idle = s.bus.idle) (hreceivers : s'.bus.receivers = s.bus.receivers)
    (hkernel : s'.medium.kernel = s.medium.kernel) (htodo : Unhurried o'.todo) :
    Effect s o s' o' := by
  refine .aside hresources (Or.inl hidle) ?_ ?_ htodo
  · intro r hr
    rw [hreceivers] at hr
    exact ⟨r, hr, rfl⟩
  · rw [hkernel]
    exact Kernel.Spares.refl _

theorem effect_enter (hring : s.bus.transport = .ring)
    (h : { o with todo := rest }.enter s = some (s', o')) : Effect s o s' o' := by
  obtain ⟨connection, rfl, -, -, htodo⟩ := enter_eq_some h
  refine .quiet rfl rfl rfl rfl ?_
  rw [hring] at htodo
  rcases htodo with htodo | htodo | ⟨reconnecting, htodo⟩
  · rw [htodo]
    exact Unhurried.remainder _
  · rw [htodo]
    decide
  · rw [htodo]
    exact Unhurried.teardown _ _

theorem effect_cancel (hrest : Unhurried rest)
    (h : { o with todo := rest }.perform s .cancel = some (s', o')) : Effect s o s' o' := by
  simp only [perform] at h
  split at h
  · cases h
    exact .quiet rfl rfl rfl rfl hrest
  · rename_i r hr
    cases h
    have hmem : r ∈ s.bus.receivers := by
      obtain ⟨id, -, hfind⟩ := Option.bind_eq_some_iff.mp hr
      exact List.mem_of_find?_eq_some hfind
    refine .aside rfl (Or.inl rfl) ?_ (Kernel.Spares.refl _) hrest
    intro r' hr'
    rcases Bus.mem_setReceiver hr' with rfl | ⟨hold, -⟩
    · exact ⟨r, hmem, rfl⟩
    · exact ⟨r', hold, rfl⟩

theorem effect_join (hrest : Unhurried rest)
    (h : { o with todo := rest }.join s = some (s', o')) : Effect s o s' o' := by
  unfold join at h
  split at h
  · cases h
    exact .quiet rfl rfl rfl rfl hrest
  · split at h
    · cases h
      refine .aside rfl (Or.inl rfl) ?_ (Kernel.Spares.refl _) hrest
      intro r hr
      exact ⟨r, (List.mem_filter.mp hr).1, rfl⟩
    · cases h

theorem effect_acquire (hring : s.bus.transport = .ring) (hfresh : s.medium.kernel.Fresh)
    (hrest : Orderly rest) (h : { o with todo := rest }.acquire s = (s', o')) :
    Effect s o s' o' := by
  have hacquire := Resource.sparing_acquireRing s.bus.channel s.bus.config s.medium.kernel hfresh
  unfold acquire at h
  simp only at h
  split at h
  · rename_i key hidle
    cases h
    exact .takeWaiting hidle hrest
  · split at h
    · rename_i resource s₁ hrun
      rw [hring] at hrun
      obtain ⟨hbus, hspares, hnew⟩ := Site.onKernel_sparing hacquire hrun
      cases h
      exact .takeNew (by simp [Site.setBus, hbus]) hspares (hnew _ rfl) hrest
    · rename_i e s₁ hrun
      rw [hring] at hrun
      obtain ⟨hbus, hspares, -⟩ := Site.onKernel_sparing hacquire hrun
      cases h
      refine .aside (congrArg Bus.resources hbus) (Or.inl (congrArg Bus.idle hbus)) ?_ hspares ?_
      · intro r hr
        rw [hbus] at hr
        exact ⟨r, hr, rfl⟩
      · rw [hring]
        exact Unhurried.cleanup _

theorem effect_write (hring : s.bus.transport = .ring) (hrest : Unhurried rest)
    (h : { o with todo := rest }.write s = (s', o')) : Effect s o s' o' := by
  unfold write at h
  split at h
  · rename_i resource raw _ _
    have hwrite : (resource.socket.writeWire raw).Sparing (· < s.medium.kernel.next)
        s.medium.kernel fun _ _ => True := CanSocket.sparing_writeWire _ _ _
    split at h
    all_goals
      rename_i hrun
      obtain ⟨hbus, hspares, -⟩ := Site.onKernel_sparing hwrite hrun
      cases h
      refine .aside (congrArg Bus.resources hbus) (Or.inl (congrArg Bus.idle hbus)) ?_ hspares ?_
      · intro r hr
        rw [hbus] at hr
        exact ⟨r, hr, rfl⟩
    · exact hrest
    · rw [hbus, hring]
      exact Unhurried.cleanup _
  · cases h
    exact .quiet rfl rfl rfl rfl (show Unhurried [] by decide)

/-- What one action of an operation on a ring comes to. -/
theorem effect_perform (hring : s.bus.transport = .ring) (hfresh : s.medium.kernel.Fresh)
    (htodo : o.todo = action :: rest) (horderly : Orderly o.todo)
    (h : { o with todo := rest }.perform s action = some (s', o')) : Effect s o s' o' := by
  rw [htodo] at horderly
  have hrest : action ≠ .acquire → Unhurried rest := horderly.unhurried
  cases action with
  | enter => exact effect_enter hring h
  | cancel => exact effect_cancel (hrest (by decide)) h
  | join => exact effect_join (hrest (by decide)) h
  | acquire => exact effect_acquire hring hfresh horderly.tail (Option.some.inj h)
  | write => exact effect_write hring (hrest (by decide)) (Option.some.inj h)
  | closeSocket => exact absurd List.mem_cons_self horderly.2
  | check =>
    simp only [perform] at h
    cases h
    refine .quiet rfl rfl rfl rfl ?_
    split
    · exact (show Unhurried [.leave] by decide)
    · exact hrest (by decide)
  | register =>
    simp only [perform, register] at h
    cases h
    refine .quiet rfl rfl rfl rfl ?_
    split
    · exact hrest (by decide)
    · rw [hring]
      exact Unhurried.cleanup _
  | checkFlag =>
    simp only [perform] at h
    cases h
    refine .quiet rfl rfl rfl rfl ?_
    split
    · exact hrest (by decide)
    · exact (show Unhurried [] by decide)
  | borrow =>
    simp only [perform] at h
    split at h
    · cases h
      exact .quiet rfl rfl rfl rfl (show Unhurried [] by decide)
    · cases h
      exact .quiet rfl rfl rfl rfl (hrest (by decide))
  | remember | forget | transmit =>
    simp only [perform] at h
    split at h <;> cases h <;> exact .quiet rfl rfl rfl rfl (hrest (by decide))
  | spawn =>
    cases h
    exact .spawn htodo rfl rfl rfl rfl rfl trivial rfl (hrest (by decide))
  | dropIdle =>
    cases h
    exact .aside rfl (Or.inr rfl) (fun r hr => ⟨r, hr, rfl⟩) (Kernel.Spares.refl _)
      (hrest (by decide))
  | leave | unpublish | letGo | clearEchoes | listen | publish | store | raiseFlag | lowerFlag
  | countSent =>
    cases h
    exact .quiet rfl rfl rfl rfl (hrest (by decide))

end Effects

end Operation

end CanTransport
