import CanTransport.Proofs.Bus.Admission
/-!
# Connectedness

What callers of a bus can rely on, whoever else uses it and however its reception task ends: that
there is a handle for senders exactly while there is a connection, that there is never a second
task, and what connect, disconnect and send report and leave behind.
-/

namespace CanTransport

namespace Life

variable {s : Site} {w w' : Life} {id : OperationId} {o o' : Operation}

/-! ## Tasks -/

/-- There is no second task, not even while a connection is made or taken down. -/
theorem Sound.tasks_eq (hw : w.Sound) :
    w.site.bus.tasks = [] ∨ ∃ id, w.site.bus.tasks = [id] := by
  cases hlock : w.site.bus.lock with
  | none =>
    cases hw.free hlock with
    | connected _ htasks => exact Or.inr ⟨_, htasks⟩
    | bare _ htasks => exact Or.inl htasks
  | some id =>
    obtain ⟨o, -, hproceeds⟩ := hw.holder id hlock
    obtain ⟨σ, hholds, -⟩ := hproceeds.plan
    have hgrip := hholds.task
    cases htask : σ.task with
    | taken | started =>
      rw [htask] at hgrip
      obtain ⟨-, id, htasks, -⟩ := hgrip
      exact Or.inr ⟨id, htasks⟩
    | gone =>
      rw [htask] at hgrip
      exact Or.inl hgrip.2
    | stored =>
      rw [htask] at hgrip
      obtain ⟨c, -, htasks⟩ := hgrip
      exact Or.inr ⟨c.receiver, htasks⟩

theorem Sound.length_receivers_le (hw : w.Sound) : w.site.bus.receivers.length ≤ 1 := by
  have hlength : w.site.bus.tasks.length = w.site.bus.receivers.length := List.length_map _
  rw [← hlength]
  rcases hw.tasks_eq with htasks | ⟨id, htasks⟩
  · rw [htasks]
    decide
  · rw [htasks]
    exact Nat.le_refl 1

/-! ## What a connect or a disconnect leaves behind -/

/-- The moment at which an operation gave the lock back. It has done nothing since. -/
structure Left (s : Site) (w : Life) (id : OperationId) (o : Operation) (u : Life) : Prop where
  reachable : Reachable s u
  since : Run (others (fun _ => True) id) u w
  lock_eq : u.site.bus.lock = none
  refused_eq : o.request.connects = true → u.refused = o.failure.isSome
  bare : o.request.connects = false ∨ o.failure ≠ none → u.site.bus.connection = none ∧
    u.site.bus.published = none ∧ u.site.bus.receivers = []
  stored : o.request.connects = true → o.failure = none → u.site.bus.connection.isSome = true

/-- An operation that has nothing left to do gave the lock back as its last action. -/
theorem Acted.left (hreach : Reachable s w') (hacted : Acted w id w')
    (hfind : w'.site.operation? id = some o) (hrequest : o.request.wire? = none)
    (htodo : o.todo = []) : w' = w ∨ Left s w' id o w' := by
  have hnever : ∀ {refused : Bool} {t : Site}, ¬ o.Proceeds refused t := by
    intro refused t hproceeds
    obtain ⟨action, rest, hcons, -⟩ := hproceeds.exists_action
    rw [htodo] at hcons
    cases hcons
  cases hacted with
  | idle => exact Or.inl rfl
  | finish hold =>
    rw [Site.operation?_finish, if_pos (Site.operation?_mem hold).2.symm] at hfind
    cases hfind
  | send hold _ hsend hperform hpasses =>
    cases (Site.operation?_acted hold hperform).symm.trans hfind
    rw [hpasses.request_eq, hsend] at hrequest
    cases hrequest
  | enter hold _ _ hperform hproceeds =>
    cases (Site.operation?_acted hold hperform).symm.trans hfind
    exact absurd hproceeds hnever
  | hold hold _ hproceeds htodo' _ hleave hperform =>
    cases (Site.operation?_acted hold hperform).symm.trans hfind
    exact absurd (hproceeds.perform htodo' hleave hperform) hnever
  | leave hold hlock hproceeds htodo' hperform =>
    cases (Site.operation?_acted hold hperform).symm.trans hfind
    obtain ⟨rfl, -, hbare, hstored⟩ := hproceeds.leave htodo'
    cases hperform
    refine Or.inr ⟨hreach, .refl, ?_, fun hconnects => if_pos hconnects, fun hcase => ?_,
      fun hconnects hnone => ?_⟩
    · rw [Site.collect_bus]
      rfl
    · obtain ⟨hconnection, hpublished, htasks⟩ := hbare hcase
      rw [Site.collect_bus]
      exact ⟨hconnection, hpublished, List.map_eq_nil_iff.mp htasks⟩
    · rw [Site.collect_bus]
      exact hstored hconnects hnone

theorem Step.left {event : Event} (hstep : Step event w w') (hreach : Reachable s w)
    (hw : w.Sound)
    (hbefore : ∀ id o, w.site.operation? id = some o → o.request.wire? = none → o.todo = [] →
      ∃ u, Left s w id o u)
    (hfind : w'.site.operation? id = some o) (hrequest : o.request.wire? = none)
    (htodo : o.todo = []) : ∃ u, Left s w' id o u := by
  have hreach' : Reachable s w' := .step hreach trivial hstep
  by_cases hown : event = .act id
  · subst hown
    cases hstep
    rcases (hw.acted id).left hreach' hfind hrequest htodo with hsame | hleft
    · rw [hsame] at hfind ⊢
      exact hbefore id o hfind hrequest htodo
    · exact ⟨_, hleft⟩
  · rcases hstep.operation?_or hw hown with heq | ⟨-, request, hnew⟩
    · obtain ⟨u, hleft⟩ := hbefore id o (heq.symm.trans hfind) hrequest htodo
      exact ⟨u, { hleft with since := .step hleft.since ⟨trivial, hown⟩ hstep }⟩
    · cases hnew.symm.trans hfind
      cases request with
      | connect | disconnect => cases htodo
      | send frame => cases hrequest

theorem Reachable.left (hmade : s.Made) (hreach : Reachable s w)
    (hfind : w.site.operation? id = some o) (hrequest : o.request.wire? = none)
    (htodo : o.todo = []) : ∃ u, Left s w id o u := by
  induction hreach generalizing id o with
  | refl =>
    rw [Site.operation?, hmade.operations_eq] at hfind
    cases hfind
  | step hrun _ hstep ih =>
    exact hstep.left hrun (hrun.sound (sound_of_made hmade))
      (fun id o hfind hrequest htodo => ih hfind hrequest htodo) hfind hrequest htodo

theorem advance_eq_ends {outcome : Except Error Unit} (hfind : w.site.operation? id = some o)
    (h : (w.site.advance id).1 = .ends outcome) : o.todo = [] ∧ outcome = o.outcome := by
  cases htodo : o.todo with
  | nil =>
    rw [Site.advance_ends hfind htodo] at h
    cases h
    exact ⟨rfl, rfl⟩
  | cons action rest =>
    cases hperform : { o with todo := rest }.perform w.site action with
    | none => rw [Site.advance_waits_of_none hfind htodo hperform] at h; cases h
    | some result => rw [Site.advance_goesOn hfind htodo hperform] at h; cases h

theorem Reachable.left_of_ends {outcome : Except Error Unit} (hmade : s.Made)
    (hreach : Reachable s w) (hfind : w.site.operation? id = some o)
    (hrequest : o.request.wire? = none) (h : (w.site.advance id).1 = .ends outcome) :
    outcome = o.outcome ∧ ∃ u, Left s w id o u := by
  obtain ⟨htodo, houtcome⟩ := advance_eq_ends hfind h
  exact ⟨houtcome, hreach.left hmade hfind hrequest htodo⟩

/-! ## What callers can rely on -/

/-- What holds of a bus with a socket at a moment of its life. -/
structure Connects (s : Site) (w : Life) : Prop where
  handle_iff : w.site.bus.lock = none →
    (w.site.bus.published.isSome = true ↔ w.site.bus.connection.isSome = true)
  connected_iff : w.site.bus.lock = none → (w.site.bus.isConnected = true ↔
    ∃ c r, w.site.bus.connection = some c ∧ w.site.bus.receiver? c.receiver = some r)
  one_task : (w.site.bus.receivers.filter fun r => !r.hasExited).length ≤ 1
  /-- A connect that finds the task running. -/
  connect_running : w.site.bus.lock = none →
    (∃ r ∈ w.site.bus.receivers, r.hasExited = false) →
    ∀ id o, w.site.operation? id = some o → o.request = .connect → o.todo = [.enter] →
      (w.site.advance id).1 = .goesOn ∧ w.site.Idles (w.act id).site ∧
        Returns (fun _ => True) id Site.Idles (· = .ok ()) (w.act id)
  /-- A connect that fails and every disconnect, when they report. -/
  leaves_bare : ∀ id o outcome, w.site.operation? id = some o →
    (w.site.advance id).1 = .ends outcome →
    o.request = .disconnect ∨ o.request = .connect ∧ outcome ≠ .ok () →
    ∃ u, Reachable s u ∧ Run (others (fun _ => True) id) u w ∧ u.site.bus.lock = none ∧
      u.site.bus.connection = none ∧ u.site.bus.published = none
  /-- A disconnect that finds no connection. -/
  disconnect_bare : w.site.bus.lock = none → w.site.bus.connection = none →
    ∀ id o, w.site.operation? id = some o → o.request = .disconnect → o.todo = [.enter] →
      (w.site.advance id).1 = .goesOn ∧
        Returns (fun _ => True) id (fun _ _ => True) (· = .ok ()) (w.act id)
  /-- A send while there are only sends. -/
  send : w.SendsOnly → ∀ frame,
    Returns Event.sendsOnly (w.site.start (.send frame)).1 (fun _ _ => True)
      (fun outcome => outcome = .error .notConnected ↔ w.site.bus.published = none)
      { w with site := (w.site.start (.send frame)).2 }

/-- Between connects and disconnects a handle comes with its connection. -/
theorem Sound.handle_iff (hw : w.Sound) (hother : w.site.bus.transport ≠ .virtual)
    (hlock : w.site.bus.lock = none) :
    w.site.bus.published.isSome = true ↔ w.site.bus.connection.isSome = true := by
  cases hw.free hlock with
  | connected hconnection _ hpublished =>
    rw [hpublished, hconnection, bne_iff_ne.mpr hother]
    exact ⟨fun _ => rfl, fun _ => rfl⟩
  | bare hconnection _ hpublished =>
    rw [hpublished, hconnection]
    exact ⟨nofun, nofun⟩

theorem Sound.connection_iff (hw : w.Sound) (hlock : w.site.bus.lock = none) :
    w.site.bus.connection.isSome = true ↔
      ∃ c r, w.site.bus.connection = some c ∧ w.site.bus.receiver? c.receiver = some r := by
  cases hw.free hlock with
  | connected hconnection htasks =>
    obtain ⟨r, -, -, hfind⟩ := Bus.exists_receiver? htasks
    exact ⟨fun _ => ⟨_, r, hconnection, hfind⟩, fun _ => by rw [hconnection]; rfl⟩
  | bare hconnection =>
    rw [hconnection]
    exact ⟨nofun, fun ⟨_, _, hsome, _⟩ => nomatch hsome⟩

theorem Reachable.transport_ne {transport : Transport} (hmade : s.Made)
    (hother : transport ≠ .virtual) (htransport : s.bus.transport = transport)
    (hreach : Reachable s w) : w.site.bus.transport ≠ .virtual := by
  rw [Run.transport_eq hreach (sound_of_made hmade)]
  exact htransport ▸ hother

/-- Whatever its callers do and however its reception task ends, a bus with a socket keeps its
handle and its connection together. -/
theorem connects_of_reachable {transport : Transport} {channel : String} {c : BusConfig}
    {m m' : Medium} {b : Bus} (hother : transport ≠ .virtual) (hfresh : m.kernel.Fresh)
    (hmake : (Bus.make transport channel c).run m = (.ok b, m')) {w : Life}
    (hreach : Reachable ⟨b, m'⟩ w) : Connects ⟨b, m'⟩ w := by
  obtain ⟨htransport, hmade⟩ := Bus.made_of_make hfresh hmake
  have hw : w.Sound := Run.sound hreach (sound_of_made hmade)
  have hnot := hreach.transport_ne hmade hother htransport
  have hconnected := Bus.isConnected_of_ne_virtual hnot
  refine ⟨hw.handle_iff hnot, fun hlock => ?_, ?_, ?_, ?_, ?_, ?_⟩
  · rw [hconnected]
    exact (hw.handle_iff hnot hlock).trans (hw.connection_iff hlock)
  · exact (List.length_filter_le _ _).trans hw.length_receivers_le
  · intro hlock hrunning id o hfind hrequest htodo
    exact returns_connect_running hw hlock hfind hrequest htodo hrunning
  · intro id o outcome hfind hends hcase
    have hwire : o.request.wire? = none := by
      rcases hcase with h | ⟨h, -⟩ <;> rw [h] <;> rfl
    obtain ⟨rfl, u, hleft⟩ := hreach.left_of_ends hmade hfind hwire hends
    have hfailed : o.request.connects = false ∨ o.failure ≠ none := by
      rcases hcase with h | ⟨-, hfailed⟩
      · exact Or.inl (by rw [h]; rfl)
      · exact Or.inr fun hnone => hfailed (Operation.outcome_eq_ok_iff.mpr hnone)
    obtain ⟨hconnection, hpublished, -⟩ := hleft.bare hfailed
    exact ⟨u, hleft.reachable, hleft.since, hleft.lock_eq, hconnection, hpublished⟩
  · intro hlock hconnection id o hfind hrequest htodo
    exact returns_disconnect_bare hw hlock hfind hrequest htodo hconnection
  · intro hsends frame
    refine (returns_send hw hsends frame).mono (fun _ _ _ => trivial) fun outcome hiff => ?_
    rw [hiff, hconnected]
    simp

/-- A call that nobody disturbs, up to its end. -/
def calling (id : OperationId) (request : Request) : List Event :=
  .start request :: List.replicate 7 (.act id)

theorem connects_after_connect :
    let s : Site := ⟨Bus.fresh .blocking "can0" {}, {}⟩
    let w := replay s (calling 0 .connect)
    w.site.bus.lock = none ∧ w.site.bus.isConnected = true ∧ w.site.bus.operations.isEmpty = true ∧
      (w.site.bus.receivers.any fun r => !r.hasExited) = true ∧ Connects s w := by
  have hmake : (Bus.make .blocking "can0" {}).run {} = (.ok (Bus.fresh .blocking "can0" {}), {}) :=
    rfl
  have hreach := reachable_replay ⟨Bus.fresh .blocking "can0" {}, {}⟩ (calling 0 .connect)
  refine ⟨by decide +kernel, by decide +kernel, by decide +kernel, by decide +kernel, ?_⟩
  exact connects_of_reachable (by decide) (fun _ _ => rfl) hmake hreach

end Life

end CanTransport
