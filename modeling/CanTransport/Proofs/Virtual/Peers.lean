import CanTransport.Proofs.Bus.Connectedness
import CanTransport.Proofs.Virtual.Channel
/-!
# What one bus keeps of its connections

Whatever happens on a bus, the accounts of its connections stay true. At most one of its tasks is
there at any time, and it belongs to the connection that was made last; as long as it is there the
bus is not away.
-/

namespace CanTransport

/-- A task that is where the account of its connection says. -/
structure Receiver.Tracks (i : Nat) (said : List Said) (a : Attendance) (position : Nat)
    (pending : Option Frame) (r : Receiver) : Prop where
  position_eq : r.position = position
  holds : r.Holds pending
  attends : r.stage.attends = true
  present : ∀ s ∈ said.drop a.since, i ∉ s.absent

/-- A true account of a connection of the bus with a number. -/
structure Attendance.Kept (i : Nat) (said : List Said) (b : Bus) (a : Attendance) : Prop where
  task_lt : a.task < b.next
  follows : ∃ position pending, a.Follows b (fun s => i ∈ s.absent) said position pending ∧
    ∀ r ∈ b.receivers, r.id = a.task → r.Tracks i said a position pending

/-- Whoever is about to start a task has just taken its position. -/
structure Operation.Listens (i : Nat) (said : List Said) (since : Nat) (o : Operation) : Prop where
  prompt : Prompt o.todo
  position_eq : o.todo.head? = some .spawn → o.position = since
  since_le : o.todo.head? = some .spawn → since ≤ said.length
  present : o.todo.head? = some .spawn → ∀ s ∈ said.drop since, i ∉ s.absent

/-- What is known of a bus at every moment. -/
structure Peer.Kept (i : Nat) (queue : QueueId) (m : Medium) (said : List Said) (p : Peer) : Prop
    where
  sound : (p.life m).Sound
  virtual : p.bus.transport = .virtual
  queue_eq : p.bus.queue = queue
  listens : ∀ o ∈ p.bus.operations, o.Listens i said p.since
  attended : ∀ a ∈ p.attended, a.Kept i said p.bus
  latest : ∀ r ∈ p.bus.receivers, ∃ before a, p.attended = before ++ [a] ∧ a.task = r.id
  tasks_nodup : (p.attended.map Attendance.task).Nodup
  frames_eq : p.bus.reception.frames = p.attended.flatMap Attendance.frames
  dropped_eq : p.bus.reception.stats.dropped = (p.attended.map Attendance.dropped).sum

/-- A change of a bus that does not concern its tasks. -/
structure Bus.Undisturbed (b b' : Bus) : Prop where
  transport_eq : b'.transport = b.transport
  config_eq : b'.config = b.config
  origin_eq : b'.origin = b.origin
  queue_eq : b'.queue = b.queue
  next_le : b.next ≤ b'.next
  frames_eq : b'.reception.frames = b.reception.frames
  dropped_eq : b'.reception.stats.dropped = b.reception.stats.dropped
  receivers : ∀ r' ∈ b'.receivers, ∃ r ∈ b.receivers, r' = { r with cancelled := r'.cancelled }

variable {i : Nat} {queue : QueueId} {m m' : Medium} {said more : List Said} {p p' : Peer}
  {b b' : Bus} {a : Attendance} {name : String}

/-! ## What is said by others -/

theorem mem_drop_append {s : Said} {n : Nat} (hle : n ≤ said.length)
    (h : s ∈ (said ++ more).drop n) : s ∈ said.drop n ∨ s ∈ more := by
  rw [List.drop_append_of_le_length hle] at h
  exact List.mem_append.mp h

theorem Attendance.Kept.append (h : a.Kept i said b)
    (hmore : b.receivers ≠ [] → ∀ s ∈ more, i ∉ s.absent) : a.Kept i (said ++ more) b := by
  obtain ⟨position, pending, hfollows, htracks⟩ := h.follows
  obtain ⟨taken, hreads, -⟩ := hfollows.reads
  refine ⟨h.task_lt, position, pending, hfollows.append more, fun r hr hid => ?_⟩
  have htrack := htracks r hr hid
  refine { htrack with present := fun s hs => ?_ }
  rcases mem_drop_append (hreads.since_le.trans hreads.position_le) hs with hold | hnew
  · exact htrack.present s hold
  · exact hmore (List.ne_nil_of_mem hr) s hnew

/-- A bus that is away has no task, and nobody on it is about to start one. -/
theorem Peer.Kept.of_away (h : p.Kept i queue m said) (haway : p.bus.isAway = true) :
    p.bus.receivers = [] ∧ ∀ o ∈ p.bus.operations, o.todo.head? ≠ some .spawn := by
  rw [Bus.isAway, Bool.and_eq_true, Option.isNone_iff_eq_none, Option.isNone_iff_eq_none] at haway
  obtain ⟨hlock, hconnection⟩ := haway
  refine ⟨?_, fun o ho hspawn => ?_⟩
  · cases h.sound.free hlock with
    | connected hsome => cases hconnection.symm.trans hsome
    | bare _ htasks => exact List.map_eq_nil_iff.mp htasks
  · have hfind := (h.sound.numbered o ho).2
    have hnot : p.bus.lock ≠ some o.id := by rw [hlock]; exact nofun
    cases h.sound.waits o.id o hfind hnot with
    | entering _ htodo => rw [htodo] at hspawn; cases hspawn
    | done _ htodo => rw [htodo] at hspawn; cases hspawn
    | sending _ hsends =>
      have hmem := List.mem_of_mem_head? hspawn
      exact absurd (hsends _ hmem) (by decide)

/-- What is said concerns a bus only while it is not away. -/
theorem Peer.Kept.append (h : p.Kept i queue m said)
    (hmore : ∀ s ∈ more, i ∈ s.absent → p.bus.isAway = true) :
    p.Kept i queue m (said ++ more) := by
  refine { h with listens := fun o ho => ?_, attended := fun a ha => ?_ }
  · have hlistens := h.listens o ho
    refine ⟨hlistens.prompt, hlistens.position_eq, fun hspawn => ?_, fun hspawn s hs habsent => ?_⟩
    · rw [List.length_append]
      exact (hlistens.since_le hspawn).trans (Nat.le_add_right _ _)
    · rcases mem_drop_append (hlistens.since_le hspawn) hs with hold | hnew
      · exact hlistens.present hspawn s hold habsent
      · exact (h.of_away (hmore s hnew habsent)).2 o ho hspawn
  · refine (h.attended a ha).append fun hne s hs habsent => ?_
    exact hne (h.of_away (hmore s hs habsent)).1

/-- What others do with what they share with the bus. -/
theorem Peer.Kept.elsewhere (h : p.Kept i queue m said)
    (hspares : Kernel.Spares (fun _ => False) m.kernel m'.kernel) : p.Kept i queue m' said :=
  { h with sound := (Life.Step.outside hspares).sound h.sound }

/-! ## What happens on the bus itself -/

theorem Attendance.Kept.undisturbed (h : a.Kept i said b) (hbus : b.Undisturbed b') :
    a.Kept i said b' := by
  obtain ⟨position, pending, hfollows, htracks⟩ := h.follows
  refine ⟨Nat.lt_of_lt_of_le h.task_lt hbus.next_le, position, pending,
    hfollows.congr hbus.config_eq hbus.origin_eq, fun r' hr' hid => ?_⟩
  obtain ⟨r, hr, heq⟩ := hbus.receivers r' hr'
  rw [heq] at hid ⊢
  have htrack := htracks r hr hid
  exact ⟨htrack.position_eq, htrack.holds, htrack.attends, htrack.present⟩

/-- A connection whose task is gone. -/
theorem Attendance.Kept.past (h : a.Kept i said b) (hconfig : b'.config = b.config)
    (horigin : b'.origin = b.origin) (hnext : b.next ≤ b'.next)
    (hgone : ∀ r ∈ b'.receivers, r.id ≠ a.task) : a.Kept i said b' := by
  obtain ⟨position, pending, hfollows, -⟩ := h.follows
  exact ⟨Nat.lt_of_lt_of_le h.task_lt hnext, position, pending, hfollows.congr hconfig horigin,
    fun r hr hid => absurd hid (hgone r hr)⟩

theorem Peer.Kept.undisturbed (h : p.Kept i queue m said) (hbus : p.bus.Undisturbed p'.bus)
    (hsound : (p'.life m').Sound) (hattended : p'.attended = p.attended)
    (hlistens : ∀ o ∈ p'.bus.operations, o.Listens i said p'.since) :
    p'.Kept i queue m' said where
  sound := hsound
  virtual := hbus.transport_eq.trans h.virtual
  queue_eq := hbus.queue_eq.trans h.queue_eq
  listens := hlistens
  attended a ha := (h.attended a (hattended ▸ ha)).undisturbed hbus
  latest r' hr' := by
    obtain ⟨r, hr, heq⟩ := hbus.receivers r' hr'
    rw [hattended, heq]
    exact h.latest r hr
  tasks_nodup := hattended ▸ h.tasks_nodup
  frames_eq := by rw [hbus.frames_eq, h.frames_eq, hattended]
  dropped_eq := by rw [hbus.dropped_eq, h.dropped_eq, hattended]

/-- Whoever is to do anything but to enter or to send holds the lock. -/
theorem Life.Sound.lock_eq_of_mem {w : Life} {o : Operation} {action : Action} (h : w.Sound)
    (ho : o ∈ w.site.bus.operations) (hmem : action ∈ o.todo) (henter : action ≠ .enter)
    (hsends : action.sends = false) : w.site.bus.lock = some o.id := by
  by_contra hlock
  cases h.waits o.id o (h.numbered o ho).2 hlock with
  | entering _ htodo =>
    rw [htodo, List.mem_singleton] at hmem
    exact henter hmem
  | done _ htodo =>
    rw [htodo] at hmem
    cases hmem
  | sending _ hall => exact absurd (hall action hmem) (by rw [hsends]; decide)

namespace Site

variable {s : Site} {id : OperationId} {o : Operation} {action : Action} {rest : List Action}

theorem acting?_isSome (hfind : s.operation? id = some o) (htodo : o.todo = action :: rest)
    (other : Action) : (s.acting? id other).isSome = (action == other) := by
  by_cases heq : action = other
  · rw [acting?_eq hfind (by rw [htodo, heq]; rfl), heq]
    exact (beq_self_eq_true other).symm
  · rw [acting?_ne hfind (by simpa [htodo] using heq), beq_eq_false_iff_ne.mpr heq]
    rfl

end Site

/-- What one action of an operation comes to: nothing, its end, or an action. No operation waits that
is to take a position, to start a task or to send. -/
inductive Life.Moves (w : Life) (id : OperationId) : Prop where
  | idle (hsame : w.act id = w) (hnone : ∀ action ∈ [Action.listen, .spawn, .transmit],
      w.site.acting? id action = none)
  | ends {o : Operation} (hfind : w.site.operation? id = some o) (htodo : o.todo = [])
  | acts {o o' : Operation} {action : Action} {rest : List Action} {s' : Site}
      (hfind : w.site.operation? id = some o) (htodo : o.todo = action :: rest)
      (hperform : { o with todo := rest }.perform w.site action = some (s', o'))

theorem Life.moves (w : Life) (id : OperationId) : w.Moves id := by
  cases hfind : w.site.operation? id with
  | none =>
    refine .idle (act_of_none hfind) fun action _ => ?_
    rw [Site.acting?, hfind]
    rfl
  | some o =>
    cases htodo : o.todo with
    | nil => exact .ends hfind htodo
    | cons action rest =>
      cases hperform : { o with todo := rest }.perform w.site action with
      | some result => exact .acts hfind htodo hperform
      | none =>
        refine .idle (act_of_waiting hfind htodo hperform) fun other hother => ?_
        apply Site.acting?_ne hfind
        rw [htodo, List.head?_cons]
        intro heq
        cases heq
        simp only [List.mem_cons, List.not_mem_nil, or_false] at hother
        rcases hother with rfl | rfl | rfl
        · cases hperform
        · cases hperform
        · simp only [Operation.perform] at hperform
          split at hperform <;> cases hperform

theorem Life.site_goesOn {w : Life} {id : OperationId} {o o' : Operation} {action : Action}
    {rest : List Action} {s' : Site} (hfind : w.site.operation? id = some o)
    (htodo : o.todo = action :: rest)
    (hperform : { o with todo := rest }.perform w.site action = some (s', o')) :
    (w.act id).site = (s'.setBus (s'.bus.setOperation o')).collect := by
  rw [site_act, Site.advance_goesOn hfind htodo hperform]

namespace Peer

variable {id : OperationId} {o o' : Operation} {s' : Site} {action : Action} {rest : List Action}

theorem attended_act (now : Nat) (hnone : (p.site m).acting? id .spawn = none) :
    (p.after m now (.act id)).attended = p.attended := by
  show p.attending m ((p.life m).act id).site.bus (.act id) = _
  rw [attending, hnone]
  rfl

theorem attended_spawn (now : Nat) (hfind : (p.site m).operation? id = some o)
    (htodo : o.todo = .spawn :: rest) : (p.after m now (.act id)).attended =
      p.attended ++ [{ task := p.bus.next, since := p.since }] := by
  show p.attending m ((p.life m).act id).site.bus (.act id) = _
  rw [attending, Site.acting?_isSome hfind htodo]
  rfl

theorem sound_after (h : p.Kept i queue m said) (now : Nat) (event : Life.Event) :
    ((p.after m now event).life ((p.life m).after event).site.medium).Sound :=
  (Life.step_after (p.life m) event).sound h.sound

theorem bus_goesOn (now : Nat) (hfind : (p.site m).operation? id = some o)
    (htodo : o.todo = action :: rest)
    (hperform : { o with todo := rest }.perform (p.site m) action = some (s', o')) :
    (p.after m now (.act id)).bus = (s'.setBus (s'.bus.setOperation o')).collect.bus :=
  congrArg Site.bus (Life.site_goesOn (w := p.life m) hfind htodo hperform)

/-- There is never a second task. -/
theorem receivers_eq (h : (p.life m).Sound) {r : Receiver} (hr : r ∈ p.bus.receivers) :
    p.bus.receivers = [r] := by
  have hle : p.bus.receivers.length ≤ 1 := h.length_receivers_le
  obtain ⟨only, honly⟩ := List.length_eq_one_iff.mp
    (Nat.le_antisymm hle (List.length_pos_of_mem hr))
  rw [honly, List.mem_singleton] at hr
  rw [honly, hr]

theorem Kept.start (h : p.Kept i queue m said) (now : Nat) (request : Request) :
    (p.after m now (.start request)).Kept i queue m said := by
  refine h.undisturbed ?_ (sound_after h now _) rfl fun o ho => ?_
  · exact ⟨rfl, rfl, rfl, rfl, Nat.le_succ _, rfl, rfl, fun r hr => ⟨r, hr, rfl⟩⟩
  · rcases List.mem_append.mp ho with hold | hnew
    · exact h.listens o hold
    · cases List.mem_singleton.mp hnew
      have hdeferred : Deferred (request.start p.bus.transport) := by
        rw [h.virtual]
        exact Deferred.start request
      have hnot : ∀ {P : Prop}, (request.start p.bus.transport).head? = some .spawn → P :=
        fun hspawn => absurd hspawn hdeferred.2
      exact ⟨hdeferred.1, hnot, hnot, hnot⟩

theorem Kept.subscribe (h : p.Kept i queue m said) (now : Nat) (listener : Listener) :
    (p.after m now (.subscribe listener)).Kept i queue m said := by
  refine h.undisturbed ?_ (sound_after h now _) rfl h.listens
  exact ⟨rfl, rfl, rfl, rfl, Nat.le_refl _, rfl, rfl, fun r hr => ⟨r, hr, rfl⟩⟩

/-- Where nothing happens nothing changes. -/
theorem after_eq_self {event : Life.Event} {now : Nat}
    (hlife : (p.life m).after event = p.life m) (hsince : p.listenedAt m now event = p.since)
    (hattending : p.attending m p.bus event = p.attended) : p.after m now event = p := by
  unfold after
  simp only [hlife, hsince]
  rw [show (p.life m).site.bus = p.bus from rfl, hattending]
  rfl

/-- What the actions of callers keep of what is known about those who start tasks. -/
theorem Kept.listens_acted (h : p.Kept i queue m said)
    (hcarries : m.hub.Carries name queue (said.map Said.envelope))
    (hfind : (p.site m).operation? id = some o) (htodo : o.todo = action :: rest)
    (hperform : { o with todo := rest }.perform (p.site m) action = some (s', o')) :
    ∀ o ∈ (s'.bus.setOperation o').operations,
      o.Listens i said (p.listenedAt m said.length (.act id)) := by
  obtain ⟨hmem, hid⟩ := Site.operation?_mem hfind
  have hframed := Operation.framed_perform hperform
  have hsince : p.listenedAt m said.length (.act id) =
      if action = .listen then said.length else p.since := by
    rw [listenedAt, Site.acting?_isSome hfind htodo]
    simp
  intro other hother
  rw [hsince]
  rcases Bus.mem_setOperation hother with rfl | ⟨hold, hne⟩
  · obtain ⟨hprompt, hlisten⟩ :=
      Operation.prompt_perform h.virtual htodo (h.listens o hmem).prompt hperform
    refine ⟨hprompt, fun hspawn => ?_, fun hspawn => ?_, fun hspawn => ?_⟩
    · obtain rfl := hlisten hspawn
      cases hperform
      rw [if_pos rfl, ← List.length_map (f := Said.envelope), ← hcarries.tail_eq, ← h.queue_eq]
      rfl
    · rw [if_pos (hlisten hspawn)]
    · rw [if_pos (hlisten hspawn), List.drop_length]
      exact nofun
  · rw [hframed.operations_eq] at hold
    by_cases hlisten : action = .listen
    · -- Two who would hold the lock at once.
      subst hlisten
      have hlistens : Action.listen ∈ o.todo := by rw [htodo]; exact List.mem_cons_self
      have hlock := h.sound.lock_eq_of_mem hmem hlistens (by decide) rfl
      have hnot : ∀ {P : Prop}, other.todo.head? = some .spawn → P := by
        intro P hspawn
        have hlock' := h.sound.lock_eq_of_mem hold (List.mem_of_mem_head? hspawn) (by decide) rfl
        have hsame : o'.id = other.id :=
          hframed.id_eq.trans (Option.some.inj (hlock.symm.trans hlock'))
        exact absurd hsame.symm hne
      exact ⟨(h.listens other hold).prompt, hnot, hnot, hnot⟩
    · rw [if_neg hlisten]
      exact h.listens other hold

theorem undisturbed_acted (hspawn : action ≠ .spawn)
    (hperform : { o with todo := rest }.perform (p.site m) action = some (s', o')) :
    p.bus.Undisturbed (s'.setBus (s'.bus.setOperation o')).collect.bus := by
  have hframed := Operation.framed_perform hperform
  have hbeside := Operation.beside_perform hperform
  rw [Site.collect_bus]
  refine ⟨hframed.transport_eq, hframed.config_eq, hbeside.origin_eq, hbeside.queue_eq,
    (Operation.keeps_perform hperform).next_le, hbeside.frames_eq, hbeside.dropped_eq, ?_⟩
  intro r' hr'
  rcases hbeside.receivers r' hr' with hold | ⟨hnew, -⟩
  · exact hold
  · exact absurd hnew hspawn

theorem Kept.acted (h : p.Kept i queue m said)
    (hcarries : m.hub.Carries name queue (said.map Said.envelope))
    (hfind : (p.site m).operation? id = some o) (htodo : o.todo = action :: rest)
    (hspawn : action ≠ .spawn)
    (hperform : { o with todo := rest }.perform (p.site m) action = some (s', o')) :
    (p.after m said.length (.act id)).Kept i queue ((p.life m).act id).site.medium said := by
  have hbus := bus_goesOn said.length hfind htodo hperform
  have hnot : (p.site m).acting? id .spawn = none := by
    rw [← Option.not_isSome_iff_eq_none, Site.acting?_isSome hfind htodo]
    simpa using hspawn
  refine h.undisturbed ?_ (sound_after h _ _) (attended_act _ hnot) ?_
  · rw [hbus]
    exact undisturbed_acted hspawn hperform
  · rw [hbus, Site.collect_bus]
    exact h.listens_acted hcarries hfind htodo hperform

/-- A task that is started is the only one. -/
theorem Kept.receivers_spawned (h : p.Kept i queue m said) (now : Nat)
    (hfind : (p.site m).operation? id = some o) (htodo : o.todo = .spawn :: rest) :
    (p.after m now (.act id)).bus.receivers =
      [{ id := p.bus.next, handle := o.handle, position := o.position }] := by
  have hreceivers : (p.after m now (.act id)).bus.receivers = p.bus.receivers ++
      [{ id := p.bus.next, handle := o.handle, position := o.position }] := by
    rw [bus_goesOn now hfind htodo rfl, Site.collect_bus]
    rfl
  have hmem := List.mem_append_right p.bus.receivers (List.mem_singleton_self
    ({ id := p.bus.next, handle := o.handle, position := o.position } : Receiver))
  exact receivers_eq (sound_after h now _) (hreceivers ▸ hmem)

/-- It belongs to a new connection. -/
theorem Kept.spawned (h : p.Kept i queue m said)
    (hcarries : m.hub.Carries name queue (said.map Said.envelope))
    (hfind : (p.site m).operation? id = some o) (htodo : o.todo = .spawn :: rest)
    (hperform : { o with todo := rest }.perform (p.site m) .spawn = some (s', o')) :
    (p.after m said.length (.act id)).Kept i queue ((p.life m).act id).site.medium said := by
  have hbus := bus_goesOn said.length hfind htodo hperform
  have hattended := attended_spawn (m := m) said.length hfind htodo
  have hreceivers := h.receivers_spawned said.length hfind htodo
  rw [Site.collect_bus] at hbus
  have hnext : (p.after m said.length (.act id)).bus.next = p.bus.next + 1 := by
    rw [hbus]
    cases hperform
    rfl
  have hframed := Operation.framed_perform hperform
  have hbeside := Operation.beside_perform hperform
  have hlistens := h.listens o (Site.operation?_mem hfind).1
  have hhead : o.todo.head? = some .spawn := by rw [htodo]; rfl
  have htask : ∀ a ∈ p.attended, a.task ≠ p.bus.next := fun a ha =>
    Nat.ne_of_lt (h.attended a ha).task_lt
  refine ⟨sound_after h _ _, ?_, ?_, ?_, ?_, ?_, ?_, ?_, ?_⟩
  · rw [hbus]
    exact hframed.transport_eq.trans h.virtual
  · rw [hbus]
    exact hbeside.queue_eq.trans h.queue_eq
  · rw [hbus]
    exact h.listens_acted hcarries hfind htodo hperform
  · intro a ha
    rw [hattended] at ha
    rcases List.mem_append.mp ha with hold | hnew
    · -- The new task is nobody's of before, and there is no other.
      refine (h.attended a hold).past ?_ ?_ (hnext ▸ Nat.le_succ _) fun r hr => ?_
      · rw [hbus]
        exact hframed.config_eq
      · rw [hbus]
        exact hbeside.origin_eq
      · rw [hreceivers, List.mem_singleton] at hr
        rw [hr]
        exact (htask a hold).symm
    · cases List.mem_singleton.mp hnew
      refine ⟨hnext ▸ Nat.lt_succ_self _, p.since, none,
        Attendance.follows_begin (hlistens.since_le hhead), fun r hr _ => ?_⟩
      rw [hreceivers, List.mem_singleton] at hr
      rw [hr]
      exact ⟨hlistens.position_eq hhead, rfl, rfl, hlistens.present hhead⟩
  · intro r hr
    rw [hreceivers, List.mem_singleton] at hr
    rw [hattended, hr]
    exact ⟨p.attended, _, rfl, rfl⟩
  · rw [hattended, List.map_append, List.nodup_append]
    refine ⟨h.tasks_nodup, List.nodup_singleton _, fun task htask' other hother => ?_⟩
    obtain ⟨a, ha, rfl⟩ := List.mem_map.mp htask'
    cases List.mem_singleton.mp hother
    exact htask a ha
  · rw [hattended, hbus, List.flatMap_append]
    refine (hbeside.frames_eq.trans h.frames_eq).trans ?_
    simp
  · rw [hattended, hbus, List.map_append]
    refine (hbeside.dropped_eq.trans h.dropped_eq).trans ?_
    simp

theorem Kept.finished (h : p.Kept i queue m said) (now : Nat)
    (hfind : (p.site m).operation? id = some o) (htodo : o.todo = []) :
    (p.after m now (.act id)).Kept i queue ((p.life m).act id).site.medium said := by
  have hnot : ∀ action, (p.site m).acting? id action = none := fun action =>
    Site.acting?_ne hfind (by rw [htodo]; exact nofun)
  have hbus : (p.after m now (.act id)).bus = ((p.site m).finish o).bus := by
    show ((p.life m).act id).site.bus = _
    rw [Life.act_of_nil hfind htodo]
    rfl
  have hsince : (p.after m now (.act id)).since = p.since := by
    show p.listenedAt m now (.act id) = _
    rw [listenedAt, hnot]
    rfl
  rw [Site.finish_bus] at hbus
  refine h.undisturbed ?_ (sound_after h _ _) (attended_act _ (hnot .spawn)) fun o ho => ?_
  · rw [hbus]
    exact ⟨rfl, rfl, rfl, rfl, Nat.le_refl _, rfl, rfl, fun r hr => ⟨r, hr, rfl⟩⟩
  · rw [hsince]
    rw [hbus] at ho
    exact h.listens o (List.mem_filter.mp ho).1

theorem Kept.act (h : p.Kept i queue m said)
    (hcarries : m.hub.Carries name queue (said.map Said.envelope)) (id : OperationId) :
    (p.after m said.length (.act id)).Kept i queue ((p.life m).act id).site.medium said := by
  cases (p.life m).moves id with
  | idle hsame hnone =>
    have hlife : (p.life m).after (.act id) = p.life m := hsame
    have hself : p.after m said.length (.act id) = p := by
      apply after_eq_self hlife
      · rw [listenedAt, show (p.site m).acting? id .listen = none from hnone _ (by decide)]
        rfl
      · rw [attending, show (p.site m).acting? id .spawn = none from hnone _ (by decide)]
        rfl
    rw [hself, hsame]
    exact h
  | ends hfind htodo => exact h.finished _ hfind htodo
  | @acts o o' action rest s' hfind htodo hperform =>
    by_cases hspawn : action = .spawn
    · subst hspawn
      exact h.spawned hcarries hfind htodo hperform
    · exact h.acted hcarries hfind htodo hspawn hperform

/-! ### What its tasks do -/

variable {r : Receiver} {before : List Attendance}

theorem Kept.task_ne (h : p.Kept i queue m said) (hattended : p.attended = before ++ [a]) :
    ∀ x ∈ before, x.task ≠ a.task := by
  intro x hx
  have hnodup := h.tasks_nodup
  rw [hattended, List.map_append, List.nodup_append] at hnodup
  exact hnodup.2.2 x.task (List.mem_map_of_mem hx) a.task List.mem_cons_self

/-- The action of a task whose connection is the last. -/
theorem attended_run (h : p.Kept i queue m said) (now : Nat) (hfind : p.bus.receiver? id = some r)
    (hattended : p.attended = before ++ [a]) (htask : a.task = id) :
    (p.after m now (.run id)).attended =
      before ++ [a.heard (r.receipts (p.site m)) p.bus.reception
        (p.after m now (.run id)).bus.reception] := by
  have hreceipts : (p.site m).receipts id = r.receipts (p.site m) := by
    rw [Site.receipts, show (p.site m).bus.receiver? id = some r from hfind]
  show p.attending m (p.after m now (.run id)).bus (.run id) = _
  rw [attending, hattended, List.map_append, List.map_singleton, if_pos htask, hreceipts]
  congr 1
  refine (List.map_congr_left fun x hx => ?_).trans (List.map_id _)
  exact if_neg (htask ▸ h.task_ne hattended x hx)

theorem bus_run (now : Nat) (hfind : p.bus.receiver? id = some r) :
    (p.after m now (.run id)).bus = { p.bus with
      reception := (r.step (p.site m)).1.bus.reception
      echoes := (r.step (p.site m)).1.bus.echoes
      receivers := (p.bus.setReceiver (r.step (p.site m)).2).receivers
      resources := (p.after m now (.run id)).bus.resources } := by
  have hacts := (Receiver.acts_step (p.site m) r).bus_eq
  have hrun : (p.after m now (.run id)).bus =
      (((r.step (p.site m)).1.setBus ((r.step (p.site m)).1.bus.setReceiver
        (r.step (p.site m)).2)).collect).bus := by
    show ((p.site m).run id).bus = _
    rw [Site.run, show (p.site m).bus.receiver? id = some r from hfind]
  rw [hrun, Site.collect_bus]
  revert hacts
  generalize r.step (p.site m) = stepped
  obtain ⟨⟨b', m'⟩, r'⟩ := stepped
  intro hacts
  simp only at hacts
  simp only [Site.setBus, Bus.setReceiver]
  rw [hacts]
  rfl

/-- The account of the last connection is kept up with every action of its task, and the others are
left as they are. -/
theorem Kept.run_some (h : p.Kept i queue m said)
    (hcarries : m.hub.Carries name queue (said.map Said.envelope)) (now : Nat)
    (hfind : p.bus.receiver? id = some r) :
    (p.after m now (.run id)).Kept i queue ((p.life m).run id).site.medium said := by
  obtain ⟨hmem, hid⟩ := Bus.receiver?_mem hfind
  obtain ⟨before, a, hattended, htask⟩ := h.latest r hmem
  obtain ⟨hlt, position, pending, hfollows, htracks⟩ :=
    h.attended a (by rw [hattended]; exact List.mem_append_right _ List.mem_cons_self)
  have htrack := htracks r hmem htask.symm
  have hacts := Receiver.acts_step (p.site m) r
  obtain ⟨hhears, hattends⟩ := Receiver.hears_step (s := p.site m) h.virtual htrack.attends htrack.holds
  -- The account says where the task is, so that the queue's answer is known from what was said.
  rw [← htrack.position_eq] at hfollows
  have hcarries' : (p.site m).medium.hub.Carries name (p.site m).bus.queue
      (said.map Said.envelope) := by
    rw [show (p.site m).bus.queue = queue from h.queue_eq]
    exact hcarries
  obtain ⟨pending', hholds, hfollows'⟩ := Attendance.Follows.heard (s := p.site m) hfollows
    htrack.holds hcarries' htrack.present hhears
  have hattended' := attended_run h now hfind hattended (htask.trans hid)
  have hbus := bus_run (m := m) now hfind
  have hreceivers : (p.after m now (.run id)).bus.receivers = [(r.step (p.site m)).2] := by
    rw [hbus, Bus.setReceiver, receivers_eq h.sound hmem]
    simp [hacts.id_eq]
  have hreception : (p.after m now (.run id)).bus.reception =
      (r.step (p.site m)).1.bus.reception := by rw [hbus]
  have hconfig : (p.after m now (.run id)).bus.config = p.bus.config := by rw [hbus]
  have horigin : (p.after m now (.run id)).bus.origin = p.bus.origin := by rw [hbus]
  have hnext : (p.after m now (.run id)).bus.next = p.bus.next := by rw [hbus]
  rw [hreception] at hattended'
  refine ⟨sound_after h now _, ?_, ?_, ?_, ?_, ?_, ?_, ?_, ?_⟩
  · rw [hbus]
    exact h.virtual
  · rw [hbus]
    exact h.queue_eq
  · rw [hbus]
    exact h.listens
  · intro x hx
    rw [hattended'] at hx
    rcases List.mem_append.mp hx with hearlier | hlast
    · have hx' : x ∈ p.attended := by rw [hattended]; exact List.mem_append_left _ hearlier
      refine (h.attended x hx').past hconfig horigin hnext.ge fun other hother => ?_
      rw [hreceivers, List.mem_singleton] at hother
      rw [hother, hacts.id_eq, ← htask]
      exact (h.task_ne hattended x hearlier).symm
    · cases List.mem_singleton.mp hlast
      refine ⟨hnext ▸ hlt, _, pending', hfollows'.congr hconfig horigin, fun other hother _ => ?_⟩
      rw [hreceivers, List.mem_singleton] at hother
      rw [hother]
      exact ⟨rfl, hholds, hattends, htrack.present⟩
  · intro other hother
    rw [hreceivers, List.mem_singleton] at hother
    rw [hattended', hother]
    exact ⟨before, _, rfl, htask.trans hacts.id_eq.symm⟩
  · have hnodup := h.tasks_nodup
    rw [hattended, List.map_append] at hnodup
    rw [hattended', List.map_append]
    exact hnodup
  · rw [hattended', hreception]
    exact Attendance.flatMap_frames_heard (hattended ▸ h.frames_eq) hhears.prefix_frames
  · rw [hattended', hreception]
    exact Attendance.sum_dropped_heard (hattended ▸ h.dropped_eq)

theorem Kept.run (h : p.Kept i queue m said)
    (hcarries : m.hub.Carries name queue (said.map Said.envelope)) (now : Nat) (id : ReceiverId) :
    (p.after m now (.run id)).Kept i queue ((p.life m).run id).site.medium said := by
  cases hfind : p.bus.receiver? id with
  | some r => exact h.run_some hcarries now hfind
  | none =>
    have hsame : (p.life m).after (.run id) = p.life m := by
      show (p.life m).run id = _
      rw [Life.run, Site.run, Site.bereaves, show (p.life m).site.bus.receiver? id = none from hfind]
      simp
    have hattending : p.attending m p.bus (.run id) = p.attended := by
      refine (List.map_congr_left fun a _ => ?_).trans (List.map_id _)
      rw [Site.receipts, show (p.site m).bus.receiver? id = none from hfind]
      split
      · exact Attendance.heard_self a _
      · rfl
    have hself : p.after m now (.run id) = p := after_eq_self hsame rfl hattending
    rw [hself]
    have hlife : (p.life m).run id = p.life m := hsame
    rw [hlife]
    exact h

theorem Kept.after (h : p.Kept i queue m said)
    (hcarries : m.hub.Carries name queue (said.map Said.envelope)) (event : Life.Event) :
    (p.after m said.length event).Kept i queue ((p.life m).after event).site.medium said := by
  cases event with
  | start request => exact h.start _ request
  | act id => exact h.act hcarries id
  | run id => exact h.run hcarries _ id
  | subscribe listener => exact h.subscribe _ listener
  | outside => exact h

end Peer

end CanTransport
