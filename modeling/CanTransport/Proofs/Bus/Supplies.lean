import CanTransport.Proofs.Bus.Beats
/-!
# What the tasks of a ring read

A bus with a ring and all that can happen to it: its tasks have numbers of their own, and a task
that is in its loop has a ring to read, whatever the other side writes into its memory and even if
the bus is dropped. A resource passes from the acquisition to the task that is started next.
-/

namespace CanTransport

/-- What an action of an operation does to the tasks: where they are stays the same, or it waits for
one that has exited, or it starts one. -/
inductive Bus.Crew (b b' : Bus) : Prop where
  | same (hstages : b'.stages = b.stages)
  | joined {task : ReceiverId} {died : Bool} (hmem : (task, .exited died) ∈ b.stages)
      (hstages : b'.stages = b.stages.filter (·.1 != task))
  | spawned (hstages : b'.stages = b.stages ++ [(b.next, .top)]) (hnext : b.next < b'.next)

namespace Operation

variable {s s' : Site} {o o' : Operation} {action : Action}

theorem stages_perform (hnodup : s.bus.tasks.Nodup) (hspawn : action ≠ .spawn)
    (h : o.perform s action = some (s', o')) :
    s'.bus.stages = s.bus.stages ∨
      ∃ task died, (task, .exited died) ∈ s.bus.stages ∧
        s'.bus.stages = s.bus.stages.filter (·.1 != task) := by
  by_cases hjoin : action = .join
  · subst hjoin
    exact stages_join h
  by_cases hcancel : action = .cancel
  · subst hcancel
    exact Or.inl (stages_cancel hnodup h)
  · have hreceivers := (keeps_perform h).receivers_eq hspawn hjoin hcancel
    exact Or.inl (by rw [Bus.stages, hreceivers, Bus.stages])

theorem tasks_perform (hnodup : s.bus.tasks.Nodup) (hspawn : action ≠ .spawn)
    (h : o.perform s action = some (s', o')) : s'.bus.tasks.Sublist s.bus.tasks := by
  rw [Bus.tasks_eq_stages, Bus.tasks_eq_stages]
  rcases stages_perform hnodup hspawn h with hsame | ⟨task, died, -, hgone⟩
  · rw [hsame]
  · rw [hgone]
    exact List.filter_sublist.map _

theorem crew_perform (hnodup : s.bus.tasks.Nodup) (h : o.perform s action = some (s', o')) :
    s.bus.Crew s'.bus := by
  by_cases hspawn : action = .spawn
  · subst hspawn
    cases h
    exact .spawned (List.map_append ..) (Nat.lt_succ_self _)
  · rcases stages_perform hnodup hspawn h with hsame | ⟨task, died, hmem, hgone⟩
    · exact .same hsame
    · exact .joined hmem hgone

end Operation

/-- What holds of a bus with a ring at every moment. -/
structure Site.Supplied (s : Site) : Prop where
  transport_eq : s.bus.transport = .ring
  fresh : s.medium.kernel.Fresh
  kind : ∀ r ∈ s.bus.resources, r.ring.isSome = true
  orderly : ∀ o ∈ s.bus.operations, Orderly o.todo
  /-- Whoever starts a task next has a resource for it. -/
  armed : ∀ o ∈ s.bus.operations, o.todo.head? = some .spawn → o.handle.isSome = true
  found : ∀ key u p, s.bus.Uses key u p → (s.bus.resource? key).isSome = true
  rings : ∀ r ∈ s.bus.receivers, r.stage.rings = true
  handle : ∀ r ∈ s.bus.receivers, r.stage.loops = true → r.handle.isSome = true
  nodup : s.bus.tasks.Nodup
  lt : ∀ task ∈ s.bus.tasks, task < s.bus.next

namespace Site

variable {s s' : Site} {o o' : Operation} {action : Action} {rest : List Action}

/-- A task in its loop has a ring to read. -/
theorem Supplied.exists_ring? (h : s.Supplied) {r : Receiver} (hr : r ∈ s.bus.receivers)
    (hloops : r.stage.loops = true) : ∃ fd g, r.ring? s = some (fd, g) := by
  obtain ⟨key, hkey⟩ := Option.isSome_iff_exists.mp (h.handle r hr hloops)
  obtain ⟨resource, hfind⟩ := Option.isSome_iff_exists.mp (h.found key _ _ (.receiver hr hkey))
  obtain ⟨⟨fd, g⟩, hring⟩ :=
    Option.isSome_iff_exists.mp (h.kind resource (Bus.resource?_mem hfind).1)
  refine ⟨fd, g, ?_⟩
  rw [Receiver.ring?, Receiver.resource?, hkey, Option.bind_some, hfind, Option.bind_some, hring]

/-- A step that acquires nothing, and after which every user is one that there was before. -/
theorem Supplied.fewer (h : s.Supplied) (htransport : s'.bus.transport = s.bus.transport)
    (hresources : s'.bus.resources = s.bus.resources) (hfresh : s'.medium.kernel.Fresh)
    (hidle : ∀ key, s'.bus.idle = some key → s.bus.idle = some key)
    (hoperations : ∀ o ∈ s'.bus.operations, o ∈ s.bus.operations ∨ Unhurried o.todo)
    (hreceivers : s'.bus.receivers = s.bus.receivers) (hnext : s.bus.next ≤ s'.bus.next) :
    s'.Supplied where
  transport_eq := htransport.trans h.transport_eq
  fresh := hfresh
  kind := hresources ▸ h.kind
  orderly o ho := by
    rcases hoperations o ho with hold | hnew
    · exact h.orderly o hold
    · exact hnew.1
  armed o ho hspawn := by
    rcases hoperations o ho with hold | hnew
    · exact h.armed o hold hspawn
    · exact absurd hspawn hnew.2
  found key u p hu := by
    rw [Bus.resource?, hresources]
    refine h.found key u p (hu.of_fewer hidle ?_ fun r hr => ⟨r, hreceivers ▸ hr, rfl⟩)
    exact fun o ho => (hoperations o ho).imp_right And.right
  rings := hreceivers ▸ h.rings
  handle := hreceivers ▸ h.handle
  nodup := by
    rw [Bus.tasks, hreceivers]
    exact h.nodup
  lt task htask := by
    rw [Bus.tasks, hreceivers] at htask
    exact Nat.lt_of_lt_of_le (h.lt task htask) hnext

/-- What is given back has no user. -/
theorem Supplied.collect (h : s.Supplied) : s.collect.Supplied := by
  have hbus := collect_bus s
  refine ⟨?_, (spares_collect s).fresh h.fresh, ?_, ?_, ?_, ?_, ?_, ?_, ?_, ?_⟩
  · rw [hbus]
    exact h.transport_eq
  · rw [hbus]
    exact fun r hr => h.kind r (List.mem_filter.mp hr).1
  · rw [hbus]
    exact h.orderly
  · rw [hbus]
    exact h.armed
  · intro key u p hu
    have huses : s.bus.Uses key u p := by
      apply hu.congr <;> rw [hbus]
    rw [resource?_collect huses.holds]
    exact h.found key u p huses
  · rw [hbus]
    exact h.rings
  · rw [hbus]
    exact h.handle
  · rw [hbus]
    exact h.nodup
  · rw [hbus]
    exact h.lt

/-- An action of an operation that starts no task. -/
theorem Supplied.acted (h : s.Supplied) (hframed : Operation.Framed s o s' o')
    (hfresh : s'.medium.kernel.Fresh) (hkind : ∀ r ∈ s'.bus.resources, r.ring.isSome = true)
    (hfound : ∀ key, (s.bus.resource? key).isSome = true → (s'.bus.resource? key).isSome = true)
    (hidle : ∀ key, s'.bus.idle = some key → s.bus.idle = some key)
    (hreceivers : ∀ r' ∈ s'.bus.receivers, ∃ r ∈ s.bus.receivers,
      r' = { r with cancelled := r'.cancelled })
    (htasks : s'.bus.tasks.Sublist s.bus.tasks) (hnext : s.bus.next ≤ s'.bus.next)
    (horderly : Orderly o'.todo)
    (hready : o'.todo.head? = some .spawn →
      ∃ key, o'.handle = some key ∧ (s'.bus.resource? key).isSome = true) :
    (s'.setBus (s'.bus.setOperation o')).Supplied where
  transport_eq := hframed.transport_eq.trans h.transport_eq
  fresh := hfresh
  kind := hkind
  orderly x hx := by
    rcases Bus.mem_setOperation hx with rfl | ⟨hold, -⟩
    · exact horderly
    · exact h.orderly x (hframed.operations_eq ▸ hold)
  armed x hx hspawn := by
    rcases Bus.mem_setOperation hx with rfl | ⟨hold, -⟩
    · obtain ⟨key, hkey, -⟩ := hready hspawn
      rw [hkey]
      rfl
    · exact h.armed x (hframed.operations_eq ▸ hold) hspawn
  found key u p hu := by
    show (s'.bus.resource? key).isSome = true
    rcases hu.setOperation with ⟨hold, -⟩ | ⟨-, -, hspawn, hkey⟩
    · have hoperations : ∀ x ∈ s'.bus.operations, x ∈ s.bus.operations ∨
          x.todo.head? ≠ some .spawn := fun x hx => Or.inl (hframed.operations_eq ▸ hx)
      exact hfound key (h.found key u p (hold.of_fewer hidle hoperations hreceivers))
    · obtain ⟨key', hkey', hsome⟩ := hready hspawn
      cases hkey.symm.trans hkey'
      exact hsome
  rings r' hr' := by
    obtain ⟨r, hr, heq⟩ := hreceivers r' hr'
    rw [heq]
    exact h.rings r hr
  handle r' hr' hloops := by
    obtain ⟨r, hr, heq⟩ := hreceivers r' hr'
    rw [heq] at hloops ⊢
    exact h.handle r hr hloops
  nodup := h.nodup.sublist htasks
  lt task htask := Nat.lt_of_lt_of_le (h.lt task (htasks.subset htask)) hnext

/-- A task is started on the resource at hand. -/
theorem Supplied.spawned (h : s.Supplied) (ho : o ∈ s.bus.operations)
    (htodo : o.todo = .spawn :: rest)
    (hperform : { o with todo := rest }.perform s .spawn = some (s', o')) :
    (s'.setBus (s'.bus.setOperation o')).Supplied := by
  have hrest : Unhurried rest := Orderly.unhurried (htodo ▸ h.orderly o ho) (by decide)
  have harmed : o.handle.isSome = true := h.armed o ho (by rw [htodo]; rfl)
  cases hperform
  refine ⟨h.transport_eq, h.fresh, h.kind, ?_, ?_, ?_, ?_, ?_, ?_, ?_⟩
  · intro x hx
    rcases Bus.mem_setOperation hx with rfl | ⟨hold, -⟩
    · exact hrest.1
    · exact h.orderly x hold
  · intro x hx hspawn
    rcases Bus.mem_setOperation hx with rfl | ⟨hold, -⟩
    · exact absurd hspawn hrest.2
    · exact h.armed x hold hspawn
  · intro key u p hu
    show (s.bus.resource? key).isSome = true
    rcases hu.setOperation with ⟨hold, -⟩ | ⟨-, -, hspawn, -⟩
    · cases hold with
      | waiting hidle => exact h.found key _ _ (.waiting hidle)
      | operation hmem hspawn hkey => exact h.found key _ _ (.operation hmem hspawn hkey)
      | receiver hmem hkey =>
        rcases List.mem_append.mp hmem with hold | hnew
        · exact h.found key _ _ (.receiver hold hkey)
        · cases List.mem_singleton.mp hnew
          exact h.found key _ _ (.operation ho htodo hkey)
    · exact absurd hspawn hrest.2
  · intro r hr
    rcases List.mem_append.mp hr with hold | hnew
    · exact h.rings r hold
    · cases List.mem_singleton.mp hnew
      rfl
  · intro r hr hloops
    rcases List.mem_append.mp hr with hold | hnew
    · exact h.handle r hold hloops
    · cases List.mem_singleton.mp hnew
      exact harmed
  · show (List.map _ (s.bus.receivers ++ [_])).Nodup
    rw [List.map_append, List.nodup_append]
    refine ⟨h.nodup, List.nodup_singleton _, ?_⟩
    intro task htask other hother
    cases List.mem_singleton.mp hother
    exact Nat.ne_of_lt (h.lt task htask)
  · intro task htask
    obtain ⟨r, hr, rfl⟩ := List.mem_map.mp htask
    rcases List.mem_append.mp hr with hold | hnew
    · exact Nat.lt_succ_of_lt (h.lt r.id (List.mem_map_of_mem hold))
    · cases List.mem_singleton.mp hnew
      exact Nat.lt_succ_self _

theorem Supplied.performed (h : s.Supplied) (ho : o ∈ s.bus.operations)
    (htodo : o.todo = action :: rest)
    (hperform : { o with todo := rest }.perform s action = some (s', o')) :
    (s'.setBus (s'.bus.setOperation o')).Supplied := by
  by_cases hspawn : action = .spawn
  · subst hspawn
    exact h.spawned ho htodo hperform
  have hkeeps := Operation.keeps_perform hperform
  have hframed := Operation.framed_perform hperform
  have hframed : Operation.Framed s o s' o' :=
    ⟨hframed.operations_eq, hframed.transport_eq, hframed.config_eq, hframed.enabled_eq,
      hframed.id_eq, hframed.request_eq⟩
  have htasks := Operation.tasks_perform h.nodup hspawn hperform
  cases Operation.effect_perform h.transport_eq h.fresh htodo (h.orderly o ho) hperform with
  | aside hresources hidle hreceivers hspares hrest =>
    refine h.acted hframed (hspares.fresh h.fresh) (hresources ▸ h.kind) ?_ ?_ hreceivers htasks
      hkeeps.next_le hrest.1 fun hhead => absurd hhead hrest.2
    · intro key hsome
      rw [Bus.resource?, hresources]
      exact hsome
    · intro key hkey
      rcases hidle with hsame | hnone
      · exact hsame ▸ hkey
      · cases hnone.symm.trans hkey
  | takeWaiting hidle hrest =>
    exact h.acted hframed h.fresh h.kind (fun _ hsome => hsome)
      (fun key hkey => absurd hkey.symm (Option.some_ne_none key))
      (fun r hr => ⟨r, hr, rfl⟩) htasks hkeeps.next_le hrest
      fun _ => ⟨_, rfl, h.found _ _ _ (.waiting hidle)⟩
  | @takeNew _ resource _ hbus hspares hnew hrest =>
    obtain ⟨fd, g, req, hring, -⟩ := hnew.ring_eq
    have hresources : s'.bus.resources = s.bus.resources ++ [resource] := by rw [hbus]
    refine h.acted hframed (hspares.fresh h.fresh) ?_ ?_ ?_ ?_ htasks hkeeps.next_le hrest
      fun _ => ⟨resource.key, rfl, ?_⟩
    · rw [hresources]
      intro r hr
      rcases List.mem_append.mp hr with hold | hsingle
      · exact h.kind r hold
      · cases List.mem_singleton.mp hsingle
        rw [hring]
        rfl
    · intro key hsome
      rw [Bus.resource?, hresources, List.find?_append, Option.isSome_or]
      exact Bool.or_eq_true_iff.mpr (Or.inl hsome)
    · rw [hbus]
      exact fun _ hkey => hkey
    · rw [hbus]
      exact fun r hr => ⟨r, hr, rfl⟩
    · rw [Bus.resource?, hresources, List.find?_isSome]
      exact ⟨resource, List.mem_append_right _ List.mem_cons_self, beq_self_eq_true _⟩
  | spawn hspawning => exact absurd (List.cons.inj (htodo.symm.trans hspawning)).1 hspawn

theorem Supplied.advanced (h : s.Supplied) (id : OperationId) : (s.advance id).2.Supplied := by
  rcases advance_eq s id with heq | ⟨o, ho, -, -, heq⟩ |
    ⟨o, ho, action, rest, s', o', -, htodo, hperform, heq⟩
  · rw [heq]
    exact h
  · have hfinished : (s.setBus { s.bus with
        operations := s.bus.operations.filter (·.id != o.id) }).Supplied :=
      h.fewer rfl rfl h.fresh (fun _ hkey => hkey)
        (fun _ hx => Or.inl (List.mem_filter.mp hx).1) rfl (Nat.le_refl _)
    rw [heq]
    exact hfinished.collect
  · rw [heq]
    exact (h.performed ho htodo hperform).collect

theorem Supplied.started (h : s.Supplied) (request : Request) : (s.start request).2.Supplied := by
  refine h.fewer rfl rfl h.fresh (fun _ hkey => hkey) ?_ rfl (Nat.le_succ _)
  intro o ho
  rcases List.mem_append.mp ho with hold | hnew
  · exact Or.inl hold
  · rw [List.mem_singleton.mp hnew, h.transport_eq]
    exact Or.inr (Unhurried.start request)

/-- Whoever drops a bus lets go of what the bus itself refers to; tasks go on. -/
theorem drop_eq (h : s.bus.transport = .ring) :
    s.drop = (s.setBus { s.bus with
      alive := false, flag := false, idle := none, published := none,
      connection := none }).collect := by
  simp only [drop, forgetChannel, letGo, h]

theorem Supplied.dropped (h : s.Supplied) : s.drop.Supplied := by
  rw [drop_eq h.transport_eq]
  have hletGo : (s.setBus { s.bus with
      alive := false, flag := false, idle := none, published := none,
      connection := none }).Supplied :=
    h.fewer rfl rfl h.fresh nofun (fun _ hx => Or.inl hx) rfl (Nat.le_refl _)
  exact hletGo.collect

/-- One action of a task of the bus, in its sweep. -/
theorem Supplied.beat (h : s.Supplied) {r : Receiver} (hr : r ∈ s.bus.receivers) :
    Receiver.Beat s r (r.step s).1 (r.step s).2 :=
  Receiver.beat_step h.transport_eq (h.rings r hr) fun hloops => h.exists_ring? hr hloops

theorem Supplied.run (h : s.Supplied) (id : ReceiverId) : (s.run id).Supplied := by
  rcases run_eq s id with ⟨-, heq⟩ | ⟨r, hfind, heq⟩
  · rw [heq]
    exact h
  · have hr := (Bus.receiver?_mem hfind).1
    have hacts := Receiver.acts_step s r
    have hbeat := h.beat hr
    have hrings := (Receiver.rings_step h.transport_eq (h.rings r hr)).2
    rw [heq]
    generalize r.step s = stepped at hacts hbeat hrings
    obtain ⟨s', r'⟩ := stepped
    have hbus := hacts.bus_eq
    have hreceivers : ∀ t ∈ (s'.bus.setReceiver r').receivers, t = r' ∨ t ∈ s.bus.receivers := by
      intro t ht
      rcases Bus.mem_setReceiver ht with rfl | ⟨hold, -⟩
      · exact Or.inl rfl
      · rw [hbus] at hold
        exact Or.inr hold
    have htasks : (s'.bus.setReceiver r').tasks = s.bus.tasks := by
      rw [Bus.tasks_setReceiver, hbus]
      rfl
    apply Supplied.collect
    refine ⟨?_, hacts.spares.fresh h.fresh, ?_, ?_, ?_, ?_, ?_, ?_, ?_, ?_⟩
    · show s'.bus.transport = .ring
      rw [hbus]
      exact h.transport_eq
    · show ∀ resource ∈ s'.bus.resources, resource.ring.isSome = true
      rw [hbus]
      exact h.kind
    · show ∀ o ∈ s'.bus.operations, Orderly o.todo
      rw [hbus]
      exact h.orderly
    · show ∀ o ∈ s'.bus.operations, o.todo.head? = some .spawn → o.handle.isSome = true
      rw [hbus]
      exact h.armed
    · intro key u p hu
      show (s'.bus.resource? key).isSome = true
      have hfound : ∀ {u p}, s.bus.Uses key u p → (s'.bus.resource? key).isSome = true := by
        intro u p huses
        rw [hbus]
        exact h.found key u p huses
      rcases hu.setReceiver with ⟨hold, -⟩ | ⟨-, -, hkey⟩
      · apply hfound
        apply hold.congr <;> rw [hbus]
      · rcases hacts.handle_eq with hsame | hnone
        · exact hfound (.receiver hr (hsame ▸ hkey))
        · cases hnone.symm.trans hkey
    · intro t ht
      rcases hreceivers t ht with rfl | hold
      · exact hrings
      · exact h.rings t hold
    · intro t ht hloops
      rcases hreceivers t ht with rfl | hold
      · obtain ⟨hgoing, hhandle⟩ := hbeat.handle hloops
        rw [show t.handle = r.handle from hhandle]
        exact h.handle r hr hgoing
      · exact h.handle t hold hloops
    · exact htasks ▸ h.nodup
    · intro task htask
      show task < s'.bus.next
      rw [hbus]
      exact h.lt task (htasks ▸ htask)

end Site

/-- A bus that was just made with a ring keeps its resource for the first connection. -/
theorem Bus.supplied_of_make {channel : String} {c : BusConfig} {m m' : Medium} {b : Bus}
    (hfresh : m.kernel.Fresh) (h : (Bus.make .ring channel c).run m = (.ok b, m')) :
    Site.Supplied ⟨b, m'⟩ := by
  obtain ⟨-, resource, hrun, rfl⟩ := Bus.make_ring h
  have hnew := Resource.sparing_acquireRing channel c m.kernel hfresh
  unfold Kernel.Op.Sparing Kernel.Op.Yields at hnew
  rw [hrun] at hnew
  obtain ⟨hspares, hacquired⟩ := hnew
  obtain ⟨fd, g, req, hring, -⟩ := (hacquired resource rfl).ring_eq
  refine ⟨rfl, hspares.fresh hfresh, ?_, ?_, ?_, ?_, ?_, ?_, List.nodup_nil, ?_⟩
  · intro r hr
    cases List.mem_singleton.mp hr
    rw [hring]
    rfl
  · exact fun o ho => absurd ho List.not_mem_nil
  · exact fun o ho => absurd ho List.not_mem_nil
  · intro key u p hu
    cases hu with
    | waiting hidle =>
      cases hidle
      simp [resource?]
    | operation hmem => exact absurd hmem List.not_mem_nil
    | receiver hmem => exact absurd hmem List.not_mem_nil
  · exact fun o ho => absurd ho List.not_mem_nil
  · exact fun o ho => absurd ho List.not_mem_nil
  · exact fun o ho => absurd ho List.not_mem_nil

end CanTransport
