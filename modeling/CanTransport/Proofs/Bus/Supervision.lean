import CanTransport.Proofs.Bus.Connectedness
/-!
# The published state

A task publishes how its loop ended as its last action. One that its listener ends does not come to
that, and what was published when it was started stays. So whoever watches the state can trust it
exactly as long as no listener has ended the task.
-/

namespace CanTransport

namespace Receiver

variable {s s' : Site} {r r' : Receiver}

theorem hasExited_of_hasDied (h : r.hasDied = true) : r.hasExited = true := by
  unfold hasDied at h
  unfold hasExited
  cases hstage : r.stage with
  | exited died => rfl
  | _ => rw [hstage] at h; cases h

/-- Nobody comes back whom a listener ended. -/
theorem Report.hasDied_eq (h : Report s r s' r') :
    (r.hasDied || (!r.hasDied && r'.hasDied)) = r'.hasDied := by
  cases h with
  | silent _ _ hdied =>
    rw [hdied]
    cases r.hasDied <;> rfl
  | dies _ hgoing => rw [hasDied_of_going hgoing]; rfl
  | ends hstage => rw [hasDied, hstage]; rfl

end Receiver

namespace Bus

variable {b b' : Bus} {died : Bool} {r : Receiver}

/-- What the published state says of the tasks, if it is known whether the last one was ended by its
listener. -/
structure Watched (died : Bool) (b : Bus) : Prop where
  running_iff : b.reception.state = .running ↔ died = true ∨ ∃ r ∈ b.receivers, r.isOver = false
  died_eq : ∀ r ∈ b.receivers, r.hasDied = died

theorem Watched.congr (h : b.Watched died) (hstate : b'.reception.state = b.reception.state)
    (hreceivers : b'.receivers = b.receivers) : b'.Watched died := by
  obtain ⟨hrunning, hdied⟩ := h
  constructor
  · rw [hstate, hreceivers]
    exact hrunning
  · rw [hreceivers]
    exact hdied

theorem watched_of_nil (hreceivers : b.receivers = [])
    (hrunning : b.reception.state = .running ↔ died = true) : b.Watched died := by
  constructor
  · rw [hreceivers, hrunning]
    simp
  · rw [hreceivers]
    simp

theorem watched_of_singleton (hreceivers : b.receivers = [r])
    (hrunning : b.reception.state = .running ↔ r.hasDied = true ∨ r.isOver = false) :
    b.Watched r.hasDied := by
  constructor
  · rw [hreceivers, hrunning]
    simp
  · rw [hreceivers]
    simp

theorem Watched.singleton_iff (h : b.Watched died) (hreceivers : b.receivers = [r]) :
    b.reception.state = .running ↔ r.hasDied = true ∨ r.isOver = false := by
  have hdied := h.died_eq r (by rw [hreceivers]; exact List.mem_singleton_self r)
  rw [h.running_iff, hreceivers, hdied]
  simp

end Bus

namespace Operation

variable {s s' : Site} {o o' : Operation} {died : Bool}

/-- A task is published as running when it is started. -/
theorem watched_spawn (hnone : s.bus.receivers = [])
    (h : o.perform s .spawn = some (s', o')) : s'.bus.Watched false := by
  have hreceivers : s'.bus.receivers =
      [{ id := s.bus.next, handle := o.handle, position := o.position }] := by
    cases h
    show s.bus.receivers ++ [_] = _
    rw [hnone]
    rfl
  have hstate : s'.bus.reception.state = .running := by
    cases h
    rfl
  exact Bus.watched_of_singleton hreceivers ⟨fun _ => Or.inr rfl, fun _ => hstate⟩

theorem watched_join (hwatched : s.bus.Watched died)
    (hone : ∀ r ∈ s.bus.receivers, s.bus.receivers = [r])
    (h : o.perform s .join = some (s', o')) : s'.bus.Watched died := by
  simp only [perform, join] at h
  split at h
  · cases h
    exact hwatched
  · rename_i r hfind
    obtain ⟨id, -, hfind⟩ := Option.bind_eq_some_iff.mp hfind
    have hmem := (Bus.receiver?_mem hfind).1
    have hreceivers := hone r hmem
    split at h
    · rename_i gone hstage
      cases h
      refine Bus.watched_of_nil ?_ ?_
      · simp [Site.setBus, hreceivers]
      · have hover : r.isOver = true := by rw [Receiver.isOver, hstage]; rfl
        have hrunning := hwatched.singleton_iff hreceivers
        rw [hover] at hrunning
        rw [← hwatched.died_eq r hmem]
        exact hrunning.trans (by simp)
    · cases h

theorem watched_cancel (hwatched : s.bus.Watched died)
    (hone : ∀ r ∈ s.bus.receivers, s.bus.receivers = [r])
    (h : o.perform s .cancel = some (s', o')) : s'.bus.Watched died := by
  simp only [perform] at h
  split at h
  · cases h
    exact hwatched
  · rename_i r hfind
    obtain ⟨id, -, hfind⟩ := Option.bind_eq_some_iff.mp hfind
    have hmem := (Bus.receiver?_mem hfind).1
    have hreceivers := hone r hmem
    cases h
    have hrunning := hwatched.singleton_iff hreceivers
    rw [← hwatched.died_eq r hmem]
    refine Bus.watched_of_singleton (r := { r with cancelled := true }) ?_ hrunning
    simp [Site.setBus, Bus.setReceiver, hreceivers]

end Operation

namespace Life

variable {s : Site} {w w' : Life} {id : OperationId} {o : Operation} {r : Receiver}

theorem Sound.receivers_eq (hw : w.Sound) :
    ∀ r ∈ w.site.bus.receivers, w.site.bus.receivers = [r] := by
  intro r hr
  have hlength := hw.length_receivers_le
  cases hcase : w.site.bus.receivers with
  | nil => rw [hcase] at hr; cases hr
  | cons first rest =>
    rw [hcase, List.length_cons] at hlength
    have hrest : rest = [] := List.eq_nil_of_length_eq_zero (by omega)
    rw [hcase, hrest, List.mem_singleton] at hr
    rw [hrest, hr]

theorem watched_run (h : w.site.bus.Watched w.died) (hw : w.Sound) (id : ReceiverId) :
    (w.run id).site.bus.Watched (w.run id).died := by
  rcases Site.run_eq w.site id with ⟨hnone, heq⟩ | ⟨r, hfind, heq⟩
  · have hdied : (w.run id).died = w.died := by simp [run, Site.bereaves, hnone]
    rw [hdied]
    exact h.congr (congrArg (·.bus.reception.state) heq) (congrArg (·.bus.receivers) heq)
  · have hacts := Receiver.acts_step w.site r
    have hreceivers := hw.receivers_eq r (Bus.receiver?_mem hfind).1
    have hdied : (w.run id).died = (r.step w.site).2.hasDied := by
      show (w.died || w.site.bereaves id) = _
      rw [← h.died_eq r (Bus.receiver?_mem hfind).1, Site.bereaves, hfind]
      exact hacts.report.hasDied_eq
    have hreceivers' : (w.run id).site.bus.receivers = [(r.step w.site).2] := by
      show (w.site.run id).bus.receivers = _
      rw [heq, Site.collect_bus]
      show ((r.step w.site).1.bus.setReceiver _).receivers = _
      rw [hacts.bus_eq]
      simp [Bus.setReceiver, hreceivers, hacts.id_eq]
    have hstate : (w.run id).site.bus.reception.state = (r.step w.site).1.bus.reception.state := by
      show (w.site.run id).bus.reception.state = _
      rw [heq, Site.collect_bus]
      rfl
    have hrunning := h.singleton_iff hreceivers
    rw [hdied]
    refine Bus.watched_of_singleton hreceivers' ?_
    rw [hstate]
    cases hacts.report with
    | silent hcontinues hover hdied => rw [hcontinues.state_eq, hover, hdied, hrunning]
    | dies hcontinues hgoing hdied =>
      rw [hcontinues.state_eq, hrunning]
      exact ⟨fun _ => Or.inl hdied, fun _ => Or.inr hgoing⟩
    | @ends outcome hstage hreception hstage' =>
      have hover : (r.step w.site).2.isOver = true := by rw [Receiver.isOver, hstage']; rfl
      have hdied : (r.step w.site).2.hasDied = false := by rw [Receiver.hasDied, hstage']; rfl
      have hended := Reception.state_finish_ne_running outcome w.site.bus.reception
      rw [← hreception] at hended
      rw [hover, hdied]
      exact ⟨fun hrunning => absurd hrunning hended, by simp⟩

/-- An action of whoever holds the lock. -/
theorem watched_hold {s' : Site} {o' : Operation} {action : Action} {rest : List Action}
    (h : w.site.bus.Watched w.died) (hw : w.Sound) (hproceeds : o.Proceeds w.refused w.site)
    (htodo : o.todo = action :: rest) (hleave : action ≠ .leave)
    (hperform : { o with todo := rest }.perform w.site action = some (s', o')) :
    s'.bus.Watched (w.died && action != .spawn) := by
  have hkeeps := Operation.keeps_perform hperform
  by_cases hspawn : action = .spawn
  · subst hspawn
    obtain ⟨σ, hholds, hleads⟩ := hproceeds.plan
    rw [htodo] at hleads
    obtain ⟨-, σ', hafter, -⟩ := Shape.leads_cons hleave hleads
    obtain ⟨⟨htask, -⟩, -⟩ := Option.ite_none_right_eq_some.mp hafter
    have hgrip := hholds.task
    rw [htask] at hgrip
    rw [show (w.died && Action.spawn != Action.spawn) = false from Bool.and_false _]
    exact Operation.watched_spawn (List.map_eq_nil_iff.mp hgrip.2) hperform
  · rw [bne_iff_ne.mpr hspawn, Bool.and_true]
    by_cases hjoin : action = .join
    · subst hjoin
      exact Operation.watched_join h hw.receivers_eq hperform
    · by_cases hcancel : action = .cancel
      · subst hcancel
        exact Operation.watched_cancel h hw.receivers_eq hperform
      · exact h.congr (hkeeps.state_eq hspawn) (hkeeps.receivers_eq hspawn hjoin hcancel)

theorem Acted.watched (hacted : Acted w id w') (h : w.site.bus.Watched w.died) (hw : w.Sound) :
    w'.site.bus.Watched w'.died := by
  have hcollect : ∀ {died : Bool} {t : Site} {o : Operation}, t.bus.Watched died →
      ((t.setBus (t.bus.setOperation o)).collect).bus.Watched died := by
    intro died t o ht
    rw [Site.collect_bus]
    exact ht.congr rfl rfl
  cases hacted with
  | idle => exact h
  | finish =>
    refine h.congr ?_ ?_
    · rw [Site.finish_bus]
    · rw [Site.finish_bus]
  | send _ _ _ _ hpasses =>
    apply hcollect
    refine h.congr hpasses.state_eq ?_
    rw [hpasses.bus_eq]
  | enter _ _ _ hperform =>
    apply hcollect
    have hkeeps := Operation.keeps_perform hperform
    exact h.congr (hkeeps.state_eq (by decide)) (hkeeps.receivers_eq (by decide) (by decide) (by decide))
  | hold _ _ hproceeds htodo _ hleave hperform =>
    exact hcollect (watched_hold h hw hproceeds htodo hleave hperform)
  | leave _ _ _ _ hperform =>
    apply hcollect
    have hkeeps := Operation.keeps_perform hperform
    exact h.congr (hkeeps.state_eq (by decide)) (hkeeps.receivers_eq (by decide) (by decide) (by decide))

theorem Step.watched {event : Event} (hstep : Step event w w') (hw : w.Sound)
    (h : w.site.bus.Watched w.died) : w'.site.bus.Watched w'.died := by
  cases hstep with
  | start | subscribe | outside => exact h.congr rfl rfl
  | act id => exact (hw.acted id).watched h hw
  | run id => exact watched_run h hw id

theorem Reachable.watched (hmade : s.Made) (hreach : Reachable s w) :
    w.site.bus.Watched w.died := by
  induction hreach with
  | refl =>
    refine Bus.watched_of_nil hmade.receivers_eq ?_
    rw [hmade.reception_eq]
    exact ⟨nofun, nofun⟩
  | step hrun _ hstep ih => exact hstep.watched (Run.sound hrun (sound_of_made hmade)) ih

/-! ## What a supervisor can tell -/

/-- What the published state is worth at a moment of a bus's life. -/
structure Supervised (s : Site) (w : Life) : Prop where
  /-- Whether the task was ended by its listener, as long as it was not joined. -/
  died_eq : ∀ r ∈ w.site.bus.receivers, r.hasDied = w.died
  running_iff : (w.site.bus.reception.state = .running →
    ∃ r ∈ w.site.bus.receivers, r.hasExited = false) ↔ w.died = false
  attached_iff : w.site.bus.lock = none →
    ((w.site.bus.reception.state = .running → ∃ c r, w.site.bus.connection = some c ∧
      w.site.bus.receiver? c.receiver = some r ∧ r.hasExited = false) ↔ w.died = false)
  /-- A disconnect, when it reports. -/
  disconnect_iff : ∀ id o outcome, w.site.operation? id = some o → o.request = .disconnect →
    (w.site.advance id).1 = .ends outcome →
    ∃ u, Reachable s u ∧ Run (others (fun _ => True) id) u w ∧ u.site.bus.lock = none ∧
      u.site.bus.receivers = [] ∧ (u.site.bus.reception.state ≠ .running ↔ u.died = false)

theorem running_iff_of_watched (h : w.site.bus.Watched w.died) :
    (w.site.bus.reception.state = .running → ∃ r ∈ w.site.bus.receivers, r.hasExited = false) ↔
      w.died = false := by
  cases hdied : w.died with
  | true =>
    refine ⟨fun htrust => ?_, nofun⟩
    obtain ⟨r, hr, hexited⟩ := htrust (h.running_iff.mpr (Or.inl hdied))
    have hsame := h.died_eq r hr
    rw [hdied] at hsame
    rw [Receiver.hasExited_of_hasDied hsame] at hexited
    cases hexited
  | false =>
    refine ⟨fun _ => rfl, fun _ hrunning => ?_⟩
    rcases h.running_iff.mp hrunning with htrue | ⟨r, hr, hgoing⟩
    · rw [hdied] at htrue
      cases htrue
    · refine ⟨r, hr, ?_⟩
      by_contra hexited
      rw [Receiver.isOver_of_hasExited (by simpa using hexited)] at hgoing
      cases hgoing

theorem not_running_iff (h : w.site.bus.Watched w.died) (hnone : w.site.bus.receivers = []) :
    w.site.bus.reception.state ≠ .running ↔ w.died = false := by
  rw [Ne, h.running_iff, hnone]
  simp

/-- Between connects and disconnects there is no task but that of the connection. -/
theorem Sound.exists_running_iff (hw : w.Sound) (hlock : w.site.bus.lock = none) :
    (∃ r ∈ w.site.bus.receivers, r.hasExited = false) ↔
      ∃ c r, w.site.bus.connection = some c ∧ w.site.bus.receiver? c.receiver = some r ∧
        r.hasExited = false := by
  refine ⟨hw.exists_running hlock, ?_⟩
  rintro ⟨c, r, -, hfind, hexited⟩
  exact ⟨r, (Bus.receiver?_mem hfind).1, hexited⟩

/-- A published state of running means a running task exactly as long as no listener has ended the
task that was started last. -/
theorem supervised_of_reachable {transport : Transport} {channel : String} {c : BusConfig}
    {m m' : Medium} {b : Bus} (hfresh : m.kernel.Fresh)
    (hmake : (Bus.make transport channel c).run m = (.ok b, m')) {w : Life}
    (hreach : Reachable ⟨b, m'⟩ w) : Supervised ⟨b, m'⟩ w := by
  obtain ⟨-, hmade⟩ := Bus.made_of_make hfresh hmake
  have hw : w.Sound := Run.sound hreach (sound_of_made hmade)
  have hwatched := hreach.watched hmade
  refine ⟨hwatched.died_eq, running_iff_of_watched hwatched, fun hlock => ?_, ?_⟩
  · rw [← hw.exists_running_iff hlock]
    exact running_iff_of_watched hwatched
  · intro id o outcome hfind hrequest hends
    obtain ⟨-, u, hleft⟩ := hreach.left_of_ends hmade hfind (by rw [hrequest]; rfl) hends
    obtain ⟨-, -, hnone⟩ := hleft.bare (Or.inl (by rw [hrequest]; rfl))
    exact ⟨u, hleft.reachable, hleft.since, hleft.lock_eq, hnone,
      not_running_iff (hleft.reachable.watched hmade) hnone⟩

theorem supervised_after_connect :
    let s : Site := ⟨Bus.fresh .blocking "can0" {}, {}⟩
    let w := replay s (calling 0 .connect)
    w.died = false ∧ w.site.bus.reception.state = .running ∧ w.site.bus.lock = none ∧
      Supervised s w := by
  have hmake : (Bus.make .blocking "can0" {}).run {} = (.ok (Bus.fresh .blocking "can0" {}), {}) :=
    rfl
  have hreach := reachable_replay ⟨Bus.fresh .blocking "can0" {}, {}⟩ (calling 0 .connect)
  refine ⟨by decide +kernel, by decide +kernel, by decide +kernel, ?_⟩
  exact supervised_of_reachable (fun _ _ => rfl) hmake hreach

/-- A bus that hears itself sends a frame, which its listener does not survive. -/
def bereaving (frame : Frame) : List Event :=
  .subscribe { failsAt := some 1 } :: calling 0 .connect ++ calling 2 (.send frame) ++
    [.run 1, .run 1]

/-- Once its listener has ended the task the state says that it runs, and after the disconnect, which
finds that the task died, it still does. -/
theorem running_of_bereaving : ∃ b m frame,
    (Bus.make .virtual "v" { receiveOwnMessages := true }).run {} = (.ok b, m) ∧
    (let w := replay ⟨b, m⟩ (bereaving frame)
     Reachable ⟨b, m⟩ w ∧ w.site.bus.lock = none ∧ w.site.bus.operations.isEmpty = true ∧
      w.site.bus.receivers.map Receiver.hasExited = [true] ∧
      w.site.bus.reception.state = .running) ∧
    (let w := replay ⟨b, m⟩ (bereaving frame ++ calling 3 .disconnect)
     Reachable ⟨b, m⟩ w ∧ w.site.bus.lock = none ∧ w.site.bus.operations.isEmpty = true ∧
      w.site.bus.receivers.isEmpty = true ∧ w.site.bus.reception.state = .running) := by
  refine ⟨_, _, ⟨0x101, 0, 1, #v[1, 0, 0, 0, 0, 0, 0, 0], by decide⟩, rfl, ?_, ?_⟩
  · exact ⟨reachable_replay _ _, by decide +kernel⟩
  · exact ⟨reachable_replay _ _, by decide +kernel⟩

end Life

end CanTransport
