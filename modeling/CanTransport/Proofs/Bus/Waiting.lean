import CanTransport.Proofs.Bus.Hands
import CanTransport.Proofs.Bus.Solo
import CanTransport.Proofs.Bus.Stopping
/-!
# Waiting for a task

Of all actions only the entrance of a connect or a disconnect and the wait for a task can have to
wait, and whatever an action adds to what is left to do is less than the action itself. A call that
waits for a task has told it to stop before; a blocking read is told by the mark of its socket, and
the socket that is marked is the one that the task reads. Such a task comes nearer to its exit with
each of its actions.
-/

namespace CanTransport

/-- What an action may turn into, counted in actions. -/
def Action.weight : Action → Nat
  | .enter => 32
  | action => if action.mayGiveUp then 3 else 1

namespace Operation

variable {s s' : Site} {o o' : Operation} {action : Action} {rest : List Action}

/-- What is left to do, counted in actions. -/
def labor (o : Operation) : Nat := (o.todo.map Action.weight).sum

theorem weight_teardown_le (transport : Transport) (reconnecting : Bool) :
    ((transport.teardown reconnecting).map Action.weight).sum ≤ 8 := by
  cases transport <;> cases reconnecting <;> decide

theorem weight_remainder_le (request : Request) (transport : Transport) :
    ((request.remainder transport).map Action.weight).sum ≤ 10 := by
  cases request with
  | connect | disconnect => cases transport <;> decide
  | send frame => exact Nat.zero_le _

/-- What there is to do once an operation has entered is less than to enter. -/
theorem labor_enter (h : o.enter s = some (s', o')) : o'.labor < 32 := by
  have hremainder := weight_remainder_le o.request s.bus.transport
  obtain ⟨-, -, -, -, hplan⟩ := enter_eq_some h
  rcases hplan with hplan | hplan | ⟨reconnecting, hplan⟩
  · rw [labor, hplan]
    omega
  · rw [labor, hplan]
    decide
  · have hteardown := weight_teardown_le s.bus.transport reconnecting
    rw [labor, hplan, List.map_append, List.sum_append]
    omega

/-- Every action that is performed leaves less to do. -/
theorem labor_perform (htodo : o.todo = action :: rest)
    (h : { o with todo := rest }.perform s action = some (s', o')) : o'.labor < o.labor := by
  have hlabor : o.labor = action.weight + (rest.map Action.weight).sum := by
    rw [labor, htodo, List.map_cons, List.sum_cons]
  by_cases henter : action = .enter
  · subst henter
    rw [hlabor]
    exact Nat.lt_of_lt_of_le (labor_enter h) (Nat.le_add_right 32 _)
  · have hweight : action.weight = if action.mayGiveUp then 3 else 1 := by
      cases action <;> first | rfl | exact absurd rfl henter
    rcases todo_perform h henter with hrest | ⟨hgives, hremnant⟩
    · rw [hlabor, labor, hrest, hweight]
      split
      · exact Nat.lt_add_of_pos_left (by decide)
      · exact Nat.lt_add_of_pos_left (by decide)
    · have hle : ∀ todo ∈ remnants, (todo.map Action.weight).sum < 3 := by decide
      have := hle _ hremnant
      rw [hlabor, labor, hweight, if_pos hgives]
      omega

/-- Whether an operation waits for a task that has not exited. -/
def Awaits (b : Bus) (o : Operation) : Prop :=
  ∃ r, o.receiver.bind b.receiver? = some r ∧ r.hasExited = false

theorem join_eq_none_iff : o.join s = none ↔ o.Awaits s.bus := by
  unfold join Awaits
  cases o.receiver.bind s.bus.receiver? with
  | none => simp
  | some r =>
    simp only [Option.some.injEq, exists_eq_left']
    unfold Receiver.hasExited
    cases r.stage <;> simp

theorem enter_eq_none_iff : o.enter s = none ↔ s.bus.lock.isSome = true := by
  unfold enter
  simp only
  split
  · rename_i hheld
    exact ⟨fun _ => hheld, fun _ => rfl⟩
  · rename_i hfree
    refine ⟨fun h => ?_, fun hheld => absurd hheld hfree⟩
    split at h
    · cases h
    · rcases ite_eq_iff.mp h with ⟨-, h⟩ | ⟨-, h⟩ <;> cases h

/-- Only the entrance and the wait for a task can have to wait. -/
theorem perform_eq_none_iff : o.perform s action = none ↔
    action = .enter ∧ s.bus.lock.isSome = true ∨ action = .join ∧ o.Awaits s.bus := by
  cases action with
  | enter => simp [perform, enter_eq_none_iff]
  | join => simp [perform, join_eq_none_iff]
  | cancel | closeSocket | borrow | remember | forget | transmit =>
    simp only [perform, reduceCtorEq, false_and, or_false, iff_false]
    split <;> exact Option.some_ne_none _
  | leave | unpublish | letGo | clearEchoes | check | acquire | register | listen | spawn | publish
  | store | raiseFlag | lowerFlag | dropIdle | checkFlag | write | countSent => simp [perform]

end Operation

/-! ## Tasks that have no reason to go on -/

/-- The actions that a task there which was told to stop may still need until it has exited. -/
def Stage.remains (portion : Nat) : Stage → Nat
  | .exited _ => 0
  | .published => 1
  | .returned _ => 2
  | stage => (stage.budget portion).actions + 2

theorem Stage.remains_of_loops {stage : Stage} (portion : Nat) (h : stage.loops = true) :
    stage.remains portion = (stage.budget portion).actions + 2 := by
  cases stage with
  | returned _ | published | exited _ => cases h
  | _ => rfl

theorem Stage.remains_congr {p q : Nat} {stage : Stage} (h : stage.loops = true → p = q) :
    stage.remains p = stage.remains q := by
  cases hloops : stage.loops with
  | true => rw [h hloops]
  | false =>
    cases stage with
    | returned _ | published | exited _ => rfl
    | _ => cases hloops

theorem Stage.remains_le (portion : Nat) (stage : Stage) :
    stage.remains portion ≤ (stage.budget portion).actions + 2 := by
  cases stage with
  | returned _ => exact Nat.le_refl 2
  | published => exact Nat.le_succ 1
  | exited _ => exact Nat.zero_le _
  | _ => exact Nat.le_refl _

namespace Receiver

variable {s : Site} {r : Receiver} {p : Nat}

/-- Whether a task was told to stop, if it is still in its loop. A blocking read without a socket
needs not be told. -/
def Dismissed (s : Site) (r : Receiver) : Prop :=
  r.stage.loops = true → r.isSignalled s = true ∨ s.bus.transport = .blocking ∧ r.handle = none

theorem hasExited_of_step (h : (r.step s).2.hasExited = false) : r.hasExited = false := by
  by_contra hexited
  rw [Bool.not_eq_false] at hexited
  have hsame : (r.step s).2 = r := by
    unfold hasExited at hexited
    unfold step
    split at hexited
    · rename_i hstage
      rw [hstage]
    · cases hexited
  rw [hsame, hexited] at h
  cases h

/-- A blocking read without a socket, in its loop. -/
theorem remains_step_of_blocking (htransport : s.bus.transport = .blocking)
    (hhandle : r.handle = none) (hadmitted : s.bus.Admits r.stage) (hloops : r.stage.loops = true) :
    (r.step s).2.stage.remains p < r.stage.remains p := by
  have hresource : r.resource? s = none := by rw [resource?, hhandle]; rfl
  have hclosed : r.isClosed s = true := by rw [isClosed, hresource]; rfl
  cases hstage : r.stage with
  | returned _ | published | exited _ => rw [hstage] at hloops; cases hloops
  | looking | releasing | advancing | swept | sleeping =>
    rw [hstage] at hadmitted
    cases htransport.symm.trans hadmitted
  | top =>
    have hstep : r.step s = (s, r.goTo (.returned (.ok ()))) := by
      rw [step, hstage]
      simp only [atTop, htransport, hclosed, if_true]
    rw [hstep, stage_goTo]
    exact Nat.lt_succ_self 2
  | receiving =>
    have hstep : r.step s = (s, r.goTo (.returned (.ok ()))) := by
      rw [step, hstage]
      simp only [receive, hresource]
    rw [hstep, stage_goTo]
    simp only [Stage.remains, Stage.budget]
    omega
  | holding records =>
    cases records with
    | nil =>
      have hstep : r.step s = (s, r.goTo .top) := by rw [step, hstage]
      rw [hstep, stage_goTo]
      exact Nat.lt_succ_self 3
    | cons bytes rest =>
      have hstep : r.step s = r.handleRecord s bytes rest := by rw [step, hstage]
      rw [hstep]
      unfold handleRecord
      split
      · rw [handOn_snd, stage_goTo]
        split
        · split <;> simp only [Stage.remains, Stage.budget, List.length_cons] <;> omega
        · exact Nat.zero_lt_succ _
      · rw [stage_goTo]
        simp only [Stage.remains, Stage.budget, List.length_cons]
        omega

/-- Every action of a task that has no reason to go on brings its exit nearer. -/
theorem remains_step (hdismissed : r.Dismissed s) (hexited : r.hasExited = false)
    (hfits : r.stage.loops = true → r.Fits p s) :
    (r.step s).2.stage.remains p < r.stage.remains p := by
  cases hloops : r.stage.loops with
  | true =>
    rcases hdismissed hloops with hsignalled | ⟨htransport, hhandle⟩
    · obtain ⟨hbudget, -⟩ := (stride_step (hfits hloops) hloops).told hsignalled
      have hle := Stage.remains_le p (r.step s).2.stage
      rw [Stage.remains_of_loops p hloops]
      simp only [Effort.le_iff, Effort.add_eq, effort] at hbudget
      omega
    · exact remains_step_of_blocking htransport hhandle (hfits hloops).admitted hloops
  | false =>
    unfold step
    cases hstage : r.stage with
    | returned _ => exact Nat.lt_succ_self 1
    | published => exact Nat.zero_lt_one
    | exited _ => rw [hasExited, hstage] at hexited; cases hexited
    | _ => rw [hstage] at hloops; cases hloops

end Receiver

/-! ## Calls that wait for a task -/

/-- What a call has done, or will have done, before it waits for a task. -/
inductive Operation.Warns (s : Site) (o : Operation) : Prop where
  /-- It will not wait, or has yet to enter. -/
  | alone (hjoin : .join ∉ o.todo)
  | lowering {rest : List Action} (htodo : o.todo = .lowerFlag :: .cancel :: .join :: rest)
      (hrest : .join ∉ rest) (htransport : s.bus.transport ≠ .blocking)
  | cancelling {rest : List Action} (htodo : o.todo = .cancel :: .join :: rest)
      (hrest : .join ∉ rest) (htransport : s.bus.transport ≠ .blocking)
  | unpublishing {rest : List Action}
      (htodo : o.todo = .unpublish :: .closeSocket :: .join :: rest) (hrest : .join ∉ rest)
      (htransport : s.bus.transport = .blocking) (hpublished : s.bus.published.isSome = true)
  | closing {rest : List Action} {key : Descriptor}
      (htodo : o.todo = .closeSocket :: .join :: rest) (hrest : .join ∉ rest)
      (htransport : s.bus.transport = .blocking) (hkey : o.handle = some key)
      (hopens : s.bus.Opens key)
  | told {rest : List Action} (htodo : o.todo = .join :: rest) (hrest : .join ∉ rest)
      (htold : ∀ r, o.receiver.bind s.bus.receiver? = some r → r.Dismissed s)

namespace Receiver

variable {s s' : Site} {r r' : Receiver}

theorem Stands.dismissed (h : Stands s r s' r') (hdismissed : r.Dismissed s) : r'.Dismissed s' := by
  intro hloops
  rw [h.stage_eq] at hloops
  rcases hdismissed hloops with hsignalled | ⟨htransport, hhandle⟩
  · exact Or.inl (h.isSignalled hsignalled)
  · exact Or.inr ⟨h.keeps.transport_eq.trans htransport, by rw [h.task_eq]; exact hhandle⟩

/-- A task stays dismissed by what it does itself. -/
theorem Dismissed.run {id : ReceiverId} {p : Nat} (h : r.Dismissed s)
    (hfind : s.bus.receiver? id = some r) (hfits : r.stage.loops = true → r.Fits p s) :
    (r.step s).2.Dismissed (s.run id) := by
  intro hloops'
  have hloops := loops_of_step hloops'
  have htransport : (s.run id).bus.transport = s.bus.transport := by
    rw [Site.run_of_receiver? hfind, Site.collect_bus]
    show (r.step s).1.bus.transport = s.bus.transport
    rw [(acts_step s r).bus_eq]
  rcases h hloops with hsignalled | ⟨hblocking, hhandle⟩
  · obtain ⟨hhandle, hcancelled⟩ := (stride_step (hfits hloops) hloops).going hloops'
    refine Or.inl ?_
    rw [isSignalled_congr htransport hcancelled (Site.resource?_run hfind hhandle)]
    exact hsignalled
  · refine Or.inr ⟨htransport.trans hblocking, ?_⟩
    rcases (acts_step s r).handle_eq with hsame | hnone
    · exact hsame.trans hhandle
    · exact hnone

end Receiver

namespace Operation

variable {s s' : Site} {o o' : Operation} {action : Action} {rest : List Action}

theorem Warns.frame (h : o.Warns s) (htransport : s'.bus.transport = s.bus.transport)
    (hpublished : s'.bus.published = s.bus.published)
    (hopens : ∀ key, o.handle = some key → s.bus.Opens key → s'.bus.Opens key)
    (htold : (∀ r, o.receiver.bind s.bus.receiver? = some r → r.Dismissed s) →
      ∀ r, o.receiver.bind s'.bus.receiver? = some r → r.Dismissed s') : o.Warns s' := by
  cases h with
  | alone hjoin => exact .alone hjoin
  | lowering htodo hrest hother => exact .lowering htodo hrest (htransport ▸ hother)
  | cancelling htodo hrest hother => exact .cancelling htodo hrest (htransport ▸ hother)
  | unpublishing htodo hrest hblocking hsome =>
    exact .unpublishing htodo hrest (htransport.trans hblocking) (hpublished ▸ hsome)
  | closing htodo hrest hblocking hkey hopen =>
    exact .closing htodo hrest (htransport.trans hblocking) hkey (hopens _ hkey hopen)
  | told htodo hrest hdismissed => exact .told htodo hrest (htold hdismissed)

theorem Warns.dismissed (h : o.Warns s) (hhead : o.todo.head? = some .join) :
    ∀ r, o.receiver.bind s.bus.receiver? = some r → r.Dismissed s := by
  cases h with
  | told _ _ htold => exact htold
  | alone hjoin => exact absurd (List.mem_of_mem_head? hhead) hjoin
  | lowering htodo | cancelling htodo | unpublishing htodo | closing htodo =>
    rw [htodo] at hhead
    cases hhead

theorem join_notMem_remainder (request : Request) (transport : Transport) :
    .join ∉ request.remainder transport := by
  cases request with
  | connect | disconnect => cases transport <;> decide
  | send frame => exact List.not_mem_nil

/-- A task that can be cancelled is cancelled before it is waited for. -/
theorem teardown_eq {transport : Transport} (hother : transport ≠ .blocking)
    (reconnecting : Bool) : ∃ rest, .join ∉ rest ∧
      (transport.teardown reconnecting = .cancel :: .join :: rest ∨
        transport.teardown reconnecting = .lowerFlag :: .cancel :: .join :: rest) := by
  cases transport with
  | blocking => exact absurd rfl hother
  | cancellable | batched | ring => exact ⟨_, by decide, Or.inl rfl⟩
  | virtual =>
    cases reconnecting with
    | true => exact ⟨[.check], by decide, Or.inl rfl⟩
    | false => exact ⟨[.check], by decide, Or.inr rfl⟩

/-- A call that enters and finds a connection finds the task told before it waits for it. -/
theorem warns_enter {refused : Bool} (hsettled : s.bus.Settled refused)
    (hlock : s.bus.lock = none) (h : o.enter s = some (s', o')) : o'.Warns s' := by
  obtain ⟨connection, rfl, -, -, hplan⟩ := enter_eq_some h
  have hremainder := join_notMem_remainder o.request s.bus.transport
  rcases hplan with hplan | hplan | ⟨reconnecting, hplan⟩
  · exact .alone (hplan ▸ hremainder)
  · exact .alone (hplan ▸ by decide)
  · cases hsettled with
    | bare hconnection =>
      cases h.symm.trans (enter_bare hlock hconnection)
      exact .alone hremainder
    | connected _ _ hpublished =>
      have hrest : ∀ {before : List Action}, .join ∉ before →
          .join ∉ before ++ o.request.remainder s.bus.transport := by
        intro before hbefore hmem
        rcases List.mem_append.mp hmem with hmem | hmem
        · exact hbefore hmem
        · exact hremainder hmem
      by_cases htransport : s.bus.transport = .blocking
      · rw [htransport] at hpublished
        have hjoin : .join ∉ [.letGo, .check] ++ o.request.remainder s.bus.transport :=
          hrest (by decide)
        exact .unpublishing (by rw [hplan, htransport]; rfl) hjoin htransport hpublished
      · obtain ⟨rest, hjoin, hteardown | hteardown⟩ := teardown_eq htransport reconnecting
        · exact .cancelling (by rw [hplan, hteardown]; rfl) (hrest hjoin) htransport
        · exact .lowering (by rw [hplan, hteardown]; rfl) (hrest hjoin) htransport

/-- The task that was cancelled. -/
theorem dismissed_cancel (htransport : s.bus.transport ≠ .blocking)
    (h : o.perform s .cancel = some (s', o')) :
    ∀ r, o'.receiver.bind s'.bus.receiver? = some r → r.Dismissed s' := by
  simp only [perform] at h
  split at h
  · rename_i hnone
    cases h
    intro r hfind
    cases hnone.symm.trans hfind
  · rename_i t ht
    cases h
    intro r hfind _
    obtain ⟨id, hid, hr⟩ := Option.bind_eq_some_iff.mp hfind
    rw [hid, Option.bind_some] at ht
    have hr : (s.bus.setReceiver { t with cancelled := true }).receiver? id = some r := hr
    rw [Bus.receiver?_setReceiver, ht, Option.map_some, if_pos rfl] at hr
    cases hr
    exact Or.inl (Receiver.isSignalled_eq_cancelled htransport)

/-- The task whose socket was marked. -/
theorem dismissed_closeSocket {key : Descriptor} (hhanded : s.Handed)
    (hmem : ∃ other ∈ s.bus.operations, other.request.wire? = none ∧ other.handle = o.handle)
    (htransport : s.bus.transport = .blocking) (hkey : o.handle = some key)
    (hopens : s.bus.Opens key) (h : o.perform s .closeSocket = some (s', o')) :
    ∀ r, o'.receiver.bind s'.bus.receiver? = some r → r.Dismissed s' := by
  simp only [perform, hkey] at h
  cases h
  intro r hfind _
  obtain ⟨id, -, hr⟩ := Option.bind_eq_some_iff.mp hfind
  obtain ⟨sole, hpoints, hsole⟩ := hhanded.sole
  cases hhandle : r.handle with
  | none => exact Or.inr ⟨htransport, rfl⟩
  | some key' =>
    -- What the task reads and what is at hand are one thing.
    obtain ⟨other, hother, hwire, hsame⟩ := hmem
    obtain rfl : key' = sole := hpoints.receivers r (Bus.receiver?_mem hr).1 key' hhandle
    obtain rfl : key = key' := hsole other hother hwire key (hsame.trans hkey)
    obtain ⟨resource, hresource, -⟩ := hopens
    have hclosed : r.resource? (s.setBus (s.bus.closeSocket key)) =
        some { resource with socket := resource.socket.close } := by
      rw [Receiver.resource?, hhandle]
      exact Bus.resource?_closeSocket hresource
    refine Or.inl ?_
    show r.isSignalled (s.setBus (s.bus.closeSocket key)) = true
    rw [Receiver.isSignalled, show (s.setBus (s.bus.closeSocket key)).bus.transport = .blocking
      from htransport, hclosed]
    rfl

/-- Every action of a call keeps to it that a task is told before it is waited for. -/
theorem Warns.perform (h : o.Warns s) (hstocked : s.Stocked)
    (hhanded : s.bus.transport = .blocking → s.Handed) (hmem : o ∈ s.bus.operations)
    (hwire : .join ∈ o.todo → o.request.wire? = none) (htodo : o.todo = action :: rest)
    (henter : action ≠ .enter)
    (hperform : { o with todo := rest }.perform s action = some (s', o')) : o'.Warns s' := by
  have halone : .join ∉ rest → o'.Warns s' := by
    intro hrest
    refine .alone ?_
    rcases todo_perform hperform henter with hsame | ⟨-, hremnant⟩
    · rwa [hsame]
    · have hremnants : ∀ todo ∈ remnants, Action.join ∉ todo := by decide
      exact hremnants _ hremnant
  cases h with
  | alone hjoin =>
    rw [htodo] at hjoin
    exact halone (List.not_mem_of_not_mem_cons hjoin)
  | lowering hplan hrest htransport =>
    cases htodo.symm.trans hplan
    cases hperform
    exact .cancelling rfl hrest htransport
  | cancelling hplan hrest htransport =>
    cases htodo.symm.trans hplan
    have hdismissed := dismissed_cancel htransport hperform
    rcases todo_perform hperform henter with hsame | ⟨hgives, -⟩
    · exact .told hsame hrest hdismissed
    · cases hgives
  | unpublishing hplan hrest htransport hpublished =>
    cases htodo.symm.trans hplan
    obtain ⟨key, hkey⟩ := Option.isSome_iff_exists.mp hpublished
    cases hperform
    have hhandle : (s.bus.published <|> o.handle) = some key := by rw [hkey]; rfl
    exact .closing rfl hrest htransport hhandle (hstocked.published_open key hkey)
  | closing hplan hrest htransport hkey hopens =>
    cases htodo.symm.trans hplan
    have hwire := hwire (by rw [hplan]; exact .tail _ (.head _))
    have hdismissed := dismissed_closeSocket (o := { o with todo := .join :: _ })
      (hhanded htransport) ⟨o, hmem, hwire, rfl⟩ htransport hkey hopens hperform
    rcases todo_perform hperform henter with hsame | ⟨hgives, -⟩
    · exact .told hsame hrest hdismissed
    · cases hgives
  | told hplan hrest =>
    cases htodo.symm.trans hplan
    exact halone hrest

/-- What is given back behind an action leaves a call what it is. -/
theorem Warns.collect (h : o.Warns s) (hmem : o ∈ (s.bus.setOperation o).operations) :
    o.Warns (s.setBus (s.bus.setOperation o)).collect := by
  have hbus := Site.collect_bus (s.setBus (s.bus.setOperation o))
  refine h.frame (by rw [hbus]; rfl) (by rw [hbus]; rfl) ?_ ?_
  · exact fun key hkey hopen =>
      Site.opens_collect (Bus.holds_of_operation hmem hkey) (hopen.congr rfl)
  · intro htold r hfind
    obtain ⟨id, hid, hr⟩ := Option.bind_eq_some_iff.mp hfind
    have hr : s.bus.receiver? id = some r := by
      rw [hbus] at hr
      exact hr
    have hset : r.Stands s (s.setBus (s.bus.setOperation o)) r :=
      .of_resources_eq rfl ⟨rfl, rfl, rfl, rfl⟩
    refine (hset.collect (Bus.receiver?_mem hr).1).dismissed (htold r ?_)
    rw [hid]
    exact hr

end Operation

namespace Life

variable {w w' : Life} {id : OperationId} {o : Operation}

/-- What holds of a bus whose calls tell a task to stop before they wait for it. -/
structure Considerate (w : Life) : Prop where
  steady : w.Steady
  handed : w.site.bus.transport = .blocking → w.site.Handed
  warns : ∀ o ∈ w.site.bus.operations, o.Warns w.site

theorem considerate_of_make {transport : Transport} {channel : String} {c : BusConfig}
    {m m' : Medium} {b : Bus} (hfresh : m.kernel.Fresh)
    (hmake : (Bus.make transport channel c).run m = (.ok b, m')) :
    Considerate { site := ⟨b, m'⟩ } := by
  obtain ⟨-, hmade⟩ := Bus.made_of_make hfresh hmake
  refine ⟨steady_of_make hfresh hmake, fun _ => hmade.handed, fun o ho => ?_⟩
  have hnone : b.operations = [] := hmade.operations_eq
  exact absurd (hnone ▸ ho) List.not_mem_nil

theorem Considerate.handed_step (h : w.Considerate) {event : Event} (hstep : Step event w w')
    (htransport : w'.site.bus.transport = .blocking) : w'.site.Handed := by
  have hsame := hstep.transport_eq h.steady.sound
  have hblocking : w.site.bus.transport = .blocking := hsame.symm.trans htransport
  exact hstep.handed h.steady.sound (h.handed hblocking) (by rw [hblocking]; decide)

theorem Considerate.start (h : w.Considerate) (request : Request) :
    (w.after (.start request)).Considerate := by
  have hstep := Step.start (w := w) request
  refine ⟨h.steady.step hstep, h.handed_step hstep, fun o ho => ?_⟩
  rcases List.mem_append.mp ho with hold | hnew
  · exact (h.warns o hold).frame rfl rfl (fun _ _ hopen => hopen.congr rfl) fun htold => htold
  · rw [List.mem_singleton.mp hnew]
    refine .alone ?_
    cases request with
    | connect | disconnect => exact (show .join ∉ [Action.enter] by decide)
    | send frame =>
      show .join ∉ w.site.bus.transport.transmission
      cases w.site.bus.transport <;> decide

/-- What happens outside. -/
theorem Considerate.outside (h : w.Considerate) (hstep : Step .outside w w') : w'.Considerate := by
  refine ⟨h.steady.step hstep, h.handed_step hstep, ?_⟩
  cases hstep with
  | outside hspares =>
    intro o ho
    exact (h.warns o ho).frame rfl rfl (fun _ _ hopen => hopen) fun htold => htold

/-- A task that is there after a task has acted was there before, and has acted or nothing has. -/
theorem Sound.exists_of_run (hw : w.Sound) {task id : ReceiverId} {r' : Receiver}
    (h : (w.site.run task).bus.receiver? id = some r') :
    ∃ r, w.site.bus.receiver? id = some r ∧
      (task = id ∧ r' = (r.step w.site).2 ∨ r' = r ∧ w.site.run task = w.site) := by
  rcases Site.run_eq w.site task with ⟨-, heq⟩ | ⟨t, ht, -⟩
  · exact ⟨r', heq ▸ h, Or.inr ⟨rfl, heq⟩⟩
  · have htasks : id ∈ w.site.bus.tasks := by
      rw [← (Site.aside_run hw.stocked hw.held task).1.tasks_eq]
      exact List.mem_map.mpr ⟨r', (Bus.receiver?_mem h).1, (Bus.receiver?_mem h).2⟩
    obtain ⟨hmem, htask⟩ := Bus.receiver?_mem ht
    rw [Bus.tasks, hw.receivers_eq t hmem, List.map_singleton, List.mem_singleton] at htasks
    obtain rfl : task = id := htask.symm.trans htasks.symm
    cases (Site.receiver?_run ht).symm.trans h
    exact ⟨t, ht, Or.inl ⟨rfl, rfl⟩⟩

/-- A task acts. -/
theorem Considerate.run (h : w.Considerate) (task : ReceiverId) : (w.run task).Considerate := by
  have hw := h.steady.sound
  have hstep := Step.run (w := w) task
  obtain ⟨haside, hoperations, -⟩ := Site.aside_run hw.stocked hw.held task
  refine ⟨h.steady.step hstep, h.handed_step hstep, fun o ho => ?_⟩
  have ho' : o ∈ w.site.bus.operations := hoperations ▸ ho
  refine (h.warns o ho').frame haside.transport_eq haside.published_eq ?_ ?_
  · exact fun key hkey hopen => haside.opens key (Bus.holds_of_operation ho hkey) hopen
  · intro htold r' hfind'
    obtain ⟨id, hid, hr'⟩ := Option.bind_eq_some_iff.mp hfind'
    rw [hid, Option.bind_some] at htold
    obtain ⟨r, hr, ⟨rfl, rfl⟩ | ⟨rfl, hsame⟩⟩ := hw.exists_of_run hr'
    · exact (htold r hr).run hr (h.steady.fits (Bus.receiver?_mem hr).1)
    · show r'.Dismissed (w.site.run task)
      rw [hsame]
      exact htold r' hr

theorem wire?_eq_none_of_join (hw : w.Sound) (hfind : w.site.operation? id = some o)
    (hjoin : .join ∈ o.todo) : o.request.wire? = none := by
  by_cases hlock : w.site.bus.lock = some id
  · obtain ⟨o', hfind', hproceeds⟩ := hw.holder id hlock
    cases hfind.symm.trans hfind'
    exact hproceeds.request
  · cases hw.waits id o hfind hlock with
    | entering hrequest => exact hrequest
    | done hrequest => exact hrequest
    | sending _ htodo => cases htodo _ hjoin

/-- The only call acts. -/
theorem Considerate.act (h : w.Considerate) (hone : w.site.bus.operations = [o])
    (hid : o.id = id) : (w.act id).Considerate := by
  have hw := h.steady.sound
  have hstep := Step.act (w := w) id
  have hfind := operation?_single hone hid
  refine ⟨h.steady.step hstep, h.handed_step hstep, ?_⟩
  by_cases hends : ∃ outcome, (w.site.advance id).1 = .ends outcome
  · obtain ⟨outcome, hends⟩ := hends
    obtain ⟨-, -, hnone⟩ := act_ends hone hid hends
    exact fun o' ho' => absurd (hnone ▸ ho') List.not_mem_nil
  · rcases act_single hone hid fun outcome heq => hends ⟨outcome, heq⟩ with ⟨-, hsame⟩ |
      ⟨action, rest, s', o', htodo, hperform, hsite, hone', -, -⟩
    · rw [hsame]
      exact h.warns
    · have hmem : o ∈ w.site.bus.operations := hone ▸ List.mem_singleton_self o
      have hwarns : o'.Warns s' := by
        by_cases henter : action = .enter
        · subst henter
          have hlock : w.site.bus.lock = none := by
            by_contra hheld
            have hsome := Option.isSome_iff_ne_none.mpr hheld
            simp [Operation.perform, Operation.enter, hsome] at hperform
          exact Operation.warns_enter (hw.free hlock) hlock hperform
        · exact (h.warns o hmem).perform hw.stocked h.handed hmem (wire?_eq_none_of_join hw hfind)
            htodo henter hperform
      intro x hx
      rw [hone', List.mem_singleton] at hx
      rw [hx, hsite]
      refine hwarns.collect ?_
      have hcollected := hone'
      rw [hsite, Site.collect_bus] at hcollected
      have hset : (s'.bus.setOperation o').operations = [o'] := hcollected
      rw [hset]
      exact List.mem_singleton_self o'

/-! ## When the only call waits -/

/-- No call finds the lock taken if there is no other. -/
theorem Sound.lock_eq_none (hw : w.Sound) (hone : w.site.bus.operations = [o])
    {rest : List Action} (htodo : o.todo = .enter :: rest) : w.site.bus.lock = none := by
  cases hlock : w.site.bus.lock with
  | none => rfl
  | some holder =>
    obtain ⟨o', hfind, hproceeds⟩ := hw.holder holder hlock
    have hmem := (Site.operation?_mem hfind).1
    rw [hone, List.mem_singleton] at hmem
    obtain ⟨σ, -, hleads⟩ := hproceeds.plan
    rw [hmem, htodo] at hleads
    obtain ⟨-, σ', hafter, -⟩ := Shape.leads_cons (by decide) hleads
    cases hafter

/-- The only call has to wait exactly where it waits for a task that has not exited. -/
theorem Sound.waits_iff (hw : w.Sound) (hone : w.site.bus.operations = [o]) (hid : o.id = id) :
    (w.site.advance id).1 = .waits ↔ o.todo.head? = some .join ∧ o.Awaits w.site.bus := by
  have hfind := operation?_single hone hid
  cases htodo : o.todo with
  | nil =>
    rw [outcome_advance hfind htodo]
    exact ⟨nofun, fun h => nomatch h.1⟩
  | cons action rest =>
    have hnone : { o with todo := rest }.perform w.site action = none ↔
        (action :: rest).head? = some .join ∧ o.Awaits w.site.bus := by
      rw [Operation.perform_eq_none_iff, List.head?_cons, Option.some.injEq]
      refine ⟨?_, Or.inr⟩
      rintro (⟨rfl, hheld⟩ | hjoin)
      · rw [hw.lock_eq_none hone htodo] at hheld
        cases hheld
      · exact hjoin
    rw [← hnone]
    cases hperform : { o with todo := rest }.perform w.site action with
    | none => simp [Site.advance_waits_of_none hfind htodo hperform]
    | some result => simp [Site.advance_goesOn hfind htodo hperform]

/-- Nothing happens while a call waits. -/
theorem act_of_waits (hfind : w.site.operation? id = some o)
    (h : (w.site.advance id).1 = .waits) : w.act id = w := by
  cases htodo : o.todo with
  | nil => cases (outcome_advance hfind htodo).symm.trans h
  | cons action rest =>
    cases hperform : { o with todo := rest }.perform w.site action with
    | none => exact act_of_waiting hfind htodo hperform
    | some result =>
      rw [Site.advance_goesOn hfind htodo hperform] at h
      cases h

/-- A task that has exited does not come back. -/
theorem awaits_of_run (hw : w.Sound) {task : ReceiverId} (h : o.Awaits (w.run task).site.bus) :
    o.Awaits w.site.bus := by
  obtain ⟨r', hfind', hexited'⟩ := h
  obtain ⟨id, hid, hr'⟩ := Option.bind_eq_some_iff.mp hfind'
  obtain ⟨r, hr, ⟨-, rfl⟩ | ⟨rfl, -⟩⟩ := hw.exists_of_run hr'
  · exact ⟨r, by rw [hid]; exact hr, Receiver.hasExited_of_step hexited'⟩
  · exact ⟨r', by rw [hid]; exact hr, hexited'⟩

end Life

end CanTransport
