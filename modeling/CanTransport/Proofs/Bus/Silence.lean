import CanTransport.Proofs.Bus.Audience
/-!
# Listeners and counters over a life

A call takes the lock while it is under way, and a disconnect returns only after it gave the lock
back. From then on there is no task, and nothing is taken in, until a connect takes the lock.
Together with what was noted of listeners and counters this is what a bus promises to its audience.
-/

namespace CanTransport

namespace Life

/-- Notes that are one at most for each step tell of any of them when it was taken. -/
theorem Noted.split {α : Type} {note : Event → Life → Life → List α} {w w' : Life}
    {log before after : List α} {e : α} (hone : ∀ event w w', (note event w w').length ≤ 1)
    (hrun : Noted note w log w') (hlog : log = before ++ e :: after) :
    ∃ u event u', Noted note w before u ∧ Step event u u' ∧ note event u u' = [e] ∧
      Noted note u' after w' := by
  induction hrun generalizing after with
  | refl => exact absurd hlog (by simp)
  | @step log u u' event hrun hstep ih =>
    have hlength := hone event u u'
    match hnote : note event u u' with
    | [] =>
      rw [hnote, List.append_nil] at hlog
      obtain ⟨v, event', v', hbefore, hstep', htold, hafter⟩ := ih hlog
      refine ⟨v, event', v', hbefore, hstep', htold, ?_⟩
      have hlast := Noted.step hafter hstep
      rw [hnote, List.append_nil] at hlast
      exact hlast
    | [last] =>
      rw [hnote] at hlog
      rcases List.eq_nil_or_concat after with rfl | ⟨after', last', rfl⟩
      · obtain ⟨rfl, hlast⟩ := List.append_inj' hlog rfl
        cases hlast
        exact ⟨u, event, u', hrun, hstep, hnote, .refl⟩
      · rw [List.concat_eq_append, ← List.cons_append, ← List.append_assoc] at hlog
        obtain ⟨hearlier, hlast⟩ := List.append_inj' hlog rfl
        cases hlast
        obtain ⟨v, event', v', hbefore, hstep', htold, hafter⟩ := ih hearlier
        refine ⟨v, event', v', hbefore, hstep', htold, ?_⟩
        have hthen := Noted.step hafter hstep
        rw [hnote] at hthen
        rw [List.concat_eq_append]
        exact hthen
    | first :: second :: rest =>
      rw [hnote] at hlength
      simp at hlength

/-- Where an operation comes from that is there after a step. -/
theorem Step.operation?_from {event : Event} {w w' : Life} {id : OperationId} {o' : Operation}
    (hstep : Step event w w') (hw : w.Sound) (hfind' : w'.site.operation? id = some o') :
    event = .start o'.request ∧ id = w.site.bus.next ∧
        o'.todo = o'.request.start w.site.bus.transport ∨
      ∃ o, w.site.operation? id = some o ∧ o'.request = o.request ∧ (event ≠ .act id → o' = o) := by
  cases hstep with
  | start request =>
    rw [Site.operation?_start request fun o ho => (hw.numbered o ho).1] at hfind'
    split at hfind'
    · rename_i hnew
      cases hfind'
      exact Or.inl ⟨rfl, hnew, rfl⟩
    · exact Or.inr ⟨o', hfind', rfl, fun _ => rfl⟩
  | run other =>
    obtain ⟨-, hoperations, -⟩ := Site.aside_run hw.stocked hw.held other
    have hsame : (w.run other).site.operation? id = w.site.operation? id :=
      congrArg (List.find? fun o : Operation => o.id == id) hoperations
    exact Or.inr ⟨o', hsame ▸ hfind', rfl, fun _ => rfl⟩
  | subscribe | outside => exact Or.inr ⟨o', hfind', rfl, fun _ => rfl⟩
  | act other =>
    rw [site_act] at hfind'
    by_cases hown : id = other
    · subst hown
      cases hfind : w.site.operation? id with
      | none =>
        rw [Site.advance_of_none hfind, hfind] at hfind'
        cases hfind'
      | some o =>
        refine Or.inr ⟨o, rfl, ?_, fun hne => absurd rfl hne⟩
        cases htodo : o.todo with
        | nil =>
          rw [Site.advance_ends hfind htodo, Site.operation?_finish,
            if_pos (Site.operation?_mem hfind).2.symm] at hfind'
          cases hfind'
        | cons action rest =>
          cases hperform : { o with todo := rest }.perform w.site action with
          | none =>
            rw [Site.advance_waits_of_none hfind htodo hperform, hfind] at hfind'
            cases hfind'
            rfl
          | some result =>
            rw [Site.advance_goesOn hfind htodo hperform,
              Site.operation?_acted hfind hperform] at hfind'
            cases hfind'
            exact (Operation.framed_perform hperform).request_eq
    · rw [Site.operation?_advance_ne _ hown] at hfind'
      exact Or.inr ⟨o', hfind', rfl, fun _ => rfl⟩

end Life

namespace Audience

/-- What the notes say of the calls that are under way and of those that have returned. -/
structure Recorded (log : List Entry) (w : Life) : Prop where
  numbered : ∀ entry ∈ log, ∀ id, entry.id? = some id → id < w.site.bus.next
  began : ∀ id o, w.site.operation? id = some o → .began id o.request ∈ log
  left : ∀ id o, w.site.operation? id = some o → o.request.wire? = none → o.todo = [] →
    .left id o.request ∈ log
  gone : ∀ id request outcome, .returned id request outcome ∈ log → w.site.operation? id = none

/-- A bus without a task, and on which nobody is about to start one. -/
structure Silenced (w : Life) : Prop where
  receivers_eq : w.site.bus.receivers = []
  holder : ∀ id o, w.site.bus.lock = some id → w.site.operation? id = some o →
    o.request.connects = false

variable {log log' before after : List Entry} {entry : Entry} {w w' : Life} {event : Life.Event}
  {id : OperationId} {o o' : Operation} {s' : Site} {action : Action} {rest : List Action}

/-! ## Calls -/

theorem recorded_made {s : Site} (hmade : s.Made) : Recorded [] { site := s } where
  numbered _ hentry := absurd hentry List.not_mem_nil
  began id o hfind := by
    rw [Site.operation?, hmade.operations_eq] at hfind
    cases hfind
  left id o hfind := by
    rw [Site.operation?, hmade.operations_eq] at hfind
    cases hfind
  gone _ _ _ hentry := absurd hentry List.not_mem_nil

/-- An operation that has nothing left to do gave the lock back just now, or stays as it is. -/
theorem left_of_acted (hacted : Life.Acted w id w') (hfind' : w'.site.operation? id = some o')
    (hrequest : o'.request.wire? = none) (htodo' : o'.todo = []) :
    w' = w ∨ ∃ o, w.site.operation? id = some o ∧ o'.request = o.request ∧
      .left id o.request ∈ acted w.site o := by
  have hnever : ∀ {refused : Bool} {t : Site}, ¬ o'.Proceeds refused t := by
    intro refused t hproceeds
    obtain ⟨action, rest, hcons, -⟩ := hproceeds.exists_action
    rw [htodo'] at hcons
    cases hcons
  cases hacted with
  | idle => exact Or.inl rfl
  | finish hfind =>
    rw [Site.operation?_finish, if_pos (Site.operation?_mem hfind).2.symm] at hfind'
    cases hfind'
  | send hfind _ hsend hperform hpasses =>
    cases (Site.operation?_acted hfind hperform).symm.trans hfind'
    rw [hpasses.request_eq, hsend] at hrequest
    cases hrequest
  | enter hfind _ _ hperform hproceeds =>
    cases (Site.operation?_acted hfind hperform).symm.trans hfind'
    exact absurd hproceeds hnever
  | hold hfind _ hproceeds htodo _ hleave hperform =>
    cases (Site.operation?_acted hfind hperform).symm.trans hfind'
    exact absurd (hproceeds.perform htodo hleave hperform) hnever
  | leave hfind _ _ htodo hperform =>
    cases (Site.operation?_acted hfind hperform).symm.trans hfind'
    refine Or.inr ⟨_, hfind, (Operation.framed_perform hperform).request_eq, ?_⟩
    rw [acted, htodo, (Site.operation?_mem hfind).2]
    exact List.mem_singleton_self _

theorem Recorded.step (h : Recorded log w) (hw : w.Sound) (hstep : Life.Step event w w') :
    Recorded (log ++ notes event w w') w' where
  numbered entry hentry id hid := by
    have hle := hstep.next_le hw
    rcases List.mem_append.mp hentry with hold | hnew
    · exact Nat.lt_of_lt_of_le (h.numbered entry hold id hid) hle
    · rcases exists_acted hnew hid with ⟨request, rfl, -, rfl⟩ | ⟨-, o, hfind, -⟩
      · cases hstep
        exact Nat.lt_succ_self _
      · obtain ⟨hmem, rfl⟩ := Site.operation?_mem hfind
        exact Nat.lt_of_lt_of_le (hw.numbered o hmem).1 hle
  began id o' hfind' := by
    rcases hstep.operation?_from hw hfind' with ⟨rfl, rfl, -⟩ | ⟨o, hfind, hrequest, -⟩
    · exact List.mem_append_right _ (List.mem_singleton_self _)
    · rw [hrequest]
      exact List.mem_append_left _ (h.began id o hfind)
  left id o' hfind' hrequest htodo := by
    rcases hstep.operation?_from hw hfind' with ⟨-, -, hstart⟩ | ⟨o, hfind, -, hsame⟩
    · rw [htodo] at hstart
      cases hcase : o'.request with
      | connect | disconnect => rw [hcase] at hstart; cases hstart
      | send frame => rw [hcase] at hrequest; cases hrequest
    · by_cases hown : event = .act id
      · subst hown
        cases hstep
        rcases left_of_acted (hw.acted id) hfind' hrequest htodo with
          heq | ⟨_, hfound, hkept, hleft⟩
        · rw [heq] at hfind'
          exact List.mem_append_left _ (h.left id o' hfind' hrequest htodo)
        · rw [hkept, notes_act hfound]
          exact List.mem_append_right _ hleft
      · cases hsame hown
        exact List.mem_append_left _ (h.left id o' hfind hrequest htodo)
  gone id request outcome hentry := by
    rcases List.mem_append.mp hentry with hold | hnew
    · have hlt := h.numbered _ hold id rfl
      have hnone := h.gone id request outcome hold
      cases hfind' : w'.site.operation? id with
      | none => rfl
      | some o' =>
        rcases hstep.operation?_from hw hfind' with ⟨-, hnext, -⟩ | ⟨o, hfind, -⟩
        · exact absurd hnext (Nat.ne_of_lt hlt)
        · rw [hnone] at hfind
          cases hfind
    · rcases exists_acted hnew rfl with ⟨_, -, hentry, -⟩ | ⟨rfl, o, hfind, hacted⟩
      · cases hentry
      · have htodo : o.todo = [] := by
          rcases mem_acted hacted with ⟨htodo, -⟩ | ⟨_, -, -, hne⟩ | ⟨_, -, hne⟩ | ⟨_, -, hne⟩
          · exact htodo
          all_goals cases hne
        cases hstep
        rw [Life.site_act, Site.advance_ends hfind htodo, Site.operation?_finish,
          if_pos (Site.operation?_mem hfind).2.symm]

theorem recorded_of_noted {s : Site} (hmade : s.Made)
    (hrun : Life.Noted notes { site := s } log w) : Recorded log w := by
  induction hrun with
  | refl => exact recorded_made hmade
  | step hrun hstep ih => exact ih.step (hrun.sound (Life.sound_of_made hmade)) hstep

/-! ## Silence -/

/-- Without a task only the start of one brings one. -/
theorem receivers_perform {s : Site} (hspawn : action ≠ .spawn) (hnone : s.bus.receivers = [])
    (h : o.perform s action = some (s', o')) : s'.bus.receivers = [] := by
  have hnobody : o.receiver.bind s.bus.receiver? = none := by
    cases o.receiver with
    | none => rfl
    | some id => simp [Bus.receiver?, hnone]
  by_cases hjoin : action = .join
  · subst hjoin
    simp only [Operation.perform, Operation.join, hnobody] at h
    cases h
    exact hnone
  · by_cases hcancel : action = .cancel
    · subst hcancel
      simp only [Operation.perform, hnobody] at h
      cases h
      exact hnone
    · rw [(Operation.keeps_perform h).receivers_eq hspawn hjoin hcancel, hnone]

/-- A step by which no operation comes to hold the lock. -/
theorem Silenced.elsewhere (h : Silenced w) (hw : w.Sound) (hstep : Life.Step event w w')
    (hreceivers : w'.site.bus.receivers = w.site.bus.receivers)
    (hlock : w'.site.bus.lock = w.site.bus.lock) : Silenced w' where
  receivers_eq := hreceivers.trans h.receivers_eq
  holder id o' hholds hfind' := by
    rw [hlock] at hholds
    obtain ⟨o, hfind, -⟩ := hw.holder id hholds
    rcases hstep.operation?_from hw hfind' with ⟨-, hnext, -⟩ | ⟨found, hfound, hrequest, -⟩
    · obtain ⟨hmem, hid⟩ := Site.operation?_mem hfind
      have hlt := (hw.numbered o hmem).1
      rw [hid] at hlt
      exact absurd hnext (Nat.ne_of_lt hlt)
    · rw [hrequest]
      exact h.holder id found hholds hfound

/-- An operation has performed an action that starts no task. -/
theorem Silenced.performed (h : Silenced w) (hfind : w.site.operation? id = some o)
    (hperform : { o with todo := rest }.perform w.site action = some (s', o'))
    (hspawn : action ≠ .spawn)
    (hown : s'.bus.lock = some id → o.request.connects = false)
    (hothers : ∀ other, other ≠ id → s'.bus.lock = some other → w.site.bus.lock = some other)
    (hsite : w'.site = (s'.setBus (s'.bus.setOperation o')).collect) : Silenced w' where
  receivers_eq := by
    have hkept := receivers_perform hspawn h.receivers_eq hperform
    rw [hsite, Site.collect_bus]
    exact hkept
  holder other found hholds hfound := by
    have hlock : s'.bus.lock = some other := by
      rw [hsite, Site.collect_bus] at hholds
      exact hholds
    rw [hsite] at hfound
    by_cases hsame : other = id
    · subst hsame
      cases (Site.operation?_acted hfind hperform).symm.trans hfound
      have hkept : o'.request = o.request := (Operation.framed_perform hperform).request_eq
      rw [hkept]
      exact hown hlock
    · rw [Site.operation?_acted_ne hfind hperform hsame] at hfound
      exact h.holder other found (hothers other hsame hlock) hfound

theorem Silenced.act (h : Silenced w) (hw : w.Sound)
    (hnone : ∀ other, .entered other .connect ∉ notes (.act id) w (w.act id)) :
    Silenced (w.act id) := by
  have hacted := hw.acted id
  generalize w.act id = w' at hacted hnone ⊢
  cases hacted with
  | idle => exact h
  | finish hfind hlock =>
    refine ⟨?_, fun other found hholds hfound => ?_⟩
    · show (w.site.finish _).bus.receivers = []
      rw [Site.finish_bus]
      exact h.receivers_eq
    · have hlock' : w.site.bus.lock = some other := by
        change (w.site.finish _).bus.lock = some other at hholds
        rw [Site.finish_bus] at hholds
        exact hholds
      change (w.site.finish _).operation? other = some found at hfound
      rw [Site.operation?_finish] at hfound
      split at hfound
      · cases hfound
      · exact h.holder other found hlock' hfound
  | send hfind hlock hrequest hperform hpasses htodo =>
    have hkept := hpasses.bus_eq
    refine h.performed hfind hperform ?_ (fun _ => by rw [hrequest]; rfl) ?_ rfl
    · rintro rfl
      have hsends := hw.waits id _ hfind hlock
      cases hsends with
      | entering hwire => rw [hrequest] at hwire; cases hwire
      | done hwire => rw [hrequest] at hwire; cases hwire
      | sending _ hall =>
        rw [htodo] at hall
        cases hall .spawn List.mem_cons_self
    · intro other _ hholds
      rw [hkept] at hholds
      exact hholds
  | @enter o _ _ hfind hlock htodo hperform hproceeds hlock' =>
    refine h.performed hfind hperform (by decide) (fun _ => ?_) ?_ rfl
    · cases hrequest : o.request with
      | connect =>
        refine absurd ?_ (hnone id)
        rw [notes_act hfind, acted, htodo, (Site.operation?_mem hfind).2, hrequest]
        simp [hlock]
      | disconnect | send => rfl
    · intro other hne hholds
      rw [hlock'] at hholds
      cases hholds
      exact absurd rfl hne
  | @hold o _ action _ _ hfind hlock hproceeds htodo henter hleave hperform =>
    have hconnects := h.holder id _ hlock hfind
    have hkept := (Operation.keeps_perform hperform).lock_eq henter hleave
    refine h.performed hfind hperform ?_ (fun _ => hconnects) ?_ rfl
    · rintro rfl
      -- A plan that starts a task is the plan of a connect.
      obtain ⟨σ, -, hleads⟩ := hproceeds.plan
      rw [htodo, hconnects] at hleads
      obtain ⟨-, σ', hafter, hleads'⟩ := Shape.leads_cons (by decide) hleads
      obtain ⟨-, heq⟩ := Option.ite_none_right_eq_some.mp hafter
      cases heq
      cases Shape.connects_of_leads (Or.inl rfl) hleads'
    · intro other _ hholds
      exact hkept ▸ hholds
  | leave hfind hlock _ htodo hperform =>
    refine h.performed hfind hperform (by decide) ?_ ?_ rfl
    · cases hperform
      intro hlock
      cases hlock
    · cases hperform
      intro _ _ hlock
      cases hlock

theorem Silenced.step (h : Silenced w) (hw : w.Sound) (hstep : Life.Step event w w')
    (hnone : ∀ other, .entered other .connect ∉ notes event w w') :
    Silenced w' ∧ ∀ task taking, .took task taking ∉ notes event w w' := by
  have hnobody : ∀ task, w.site.bus.receiver? task = none := by
    intro task
    rw [Bus.receiver?, h.receivers_eq]
    rfl
  cases hstep with
  | start request =>
    exact ⟨h.elsewhere hw (.start request) rfl rfl, by simp [notes]⟩
  | subscribe listener =>
    exact ⟨h.elsewhere hw (.subscribe listener) rfl rfl, by simp [notes]⟩
  | outside hspares => exact ⟨h.elsewhere hw (.outside hspares) rfl rfl, by simp [notes]⟩
  | run task =>
    have hsite : w.site.run task = w.site := by
      rw [Site.run, hnobody task]
    refine ⟨h.elsewhere hw (.run task) ?_ ?_, by simp [notes, hnobody task]⟩
    · show (w.site.run task).bus.receivers = _
      rw [hsite]
    · show (w.site.run task).bus.lock = _
      rw [hsite]
  | act id =>
    refine ⟨h.act hw hnone, fun task taking hmem => ?_⟩
    cases hfind : w.site.operation? id with
    | none =>
      rw [notes, hfind] at hmem
      cases hmem
    | some o =>
      rw [notes_act hfind] at hmem
      rcases mem_acted hmem with ⟨-, hne⟩ | ⟨_, -, -, hne⟩ | ⟨_, -, hne⟩ | ⟨_, -, hne⟩
      all_goals cases hne

/-- Until a connect takes the lock a bus without a task takes in nothing. -/
theorem Silenced.run (h : Silenced w) (hw : w.Sound) (hrun : Life.Noted notes w log w')
    (hnone : ∀ other, .entered other .connect ∉ log) :
    Silenced w' ∧ ∀ task taking, .took task taking ∉ log := by
  induction hrun with
  | refl => exact ⟨h, fun _ _ => List.not_mem_nil⟩
  | step hrun hstep ih =>
    obtain ⟨hsilenced, hbefore⟩ := ih fun other hmem => hnone other (List.mem_append_left _ hmem)
    obtain ⟨hsilenced', hnow⟩ := hsilenced.step (hrun.sound hw) hstep fun other hmem =>
      hnone other (List.mem_append_right _ hmem)
    refine ⟨hsilenced', fun task taking hmem => ?_⟩
    exact (List.mem_append.mp hmem).elim (hbefore task taking) (hnow task taking)

/-- A disconnect leaves no task behind when it gives the lock back. -/
theorem silenced_of_left (hw : w.Sound) (hstep : Life.Step event w w')
    (hleft : .left id .disconnect ∈ notes event w w') : Silenced w' := by
  rcases exists_acted hleft rfl with ⟨_, -, hentry, -⟩ | ⟨rfl, o, hfind, hmem⟩
  · cases hentry
  · have hleaves : ∃ rest, o.todo = .leave :: rest ∧ o.request = .disconnect := by
      rcases mem_acted hmem with ⟨-, hne⟩ | ⟨_, -, -, hne⟩ | ⟨rest, htodo, hentry⟩ | ⟨_, -, hne⟩
      · cases hne
      · cases hne
      · rw [Entry.left.injEq] at hentry
        exact ⟨rest, htodo, hentry.2.symm⟩
      · cases hne
    obtain ⟨rest, htodo, hrequest⟩ := hleaves
    have hlock : w.site.bus.lock = some id := by
      by_contra hnot
      cases hw.waits id o hfind hnot with
      | entering _ htodo' => rw [htodo] at htodo'; cases htodo'
      | done _ htodo' => rw [htodo] at htodo'; cases htodo'
      | sending hsend => rw [hrequest] at hsend; cases hsend
    obtain ⟨_, hsame, hproceeds⟩ := hw.holder id hlock
    cases hfind.symm.trans hsame
    obtain ⟨-, -, hbare, -⟩ := hproceeds.leave htodo
    obtain ⟨-, -, htasks⟩ := hbare (Or.inl (by rw [hrequest]; rfl))
    cases hstep
    have hsite : (w.act id).site = ((w.site.setBus { w.site.bus with lock := none }).setBus
        (({ w.site.bus with lock := none } : Bus).setOperation
          { o with todo := rest })).collect := by
      rw [Life.site_act, Site.advance_goesOn hfind htodo rfl]
      rfl
    refine ⟨?_, fun other found hholds => ?_⟩
    · rw [hsite, Site.collect_bus]
      exact List.map_eq_nil_iff.mp htasks
    · rw [hsite, Site.collect_bus] at hholds
      cases hholds

/-! ## What a bus promises -/

/-- No counter is less than before, as long as it holds what was noted altogether. -/
structure Grows (log : List Entry) (before after : Stats) : Prop where
  sent_le : sends log < 2 ^ 64 → before.sent ≤ after.sent
  received_le : (frames log).length < 2 ^ 64 → before.received ≤ after.received
  dropped_le : losses log < 2 ^ 64 → before.dropped ≤ after.dropped
  errors_le : failures log < 2 ^ 64 → before.errors ≤ after.errors

theorem ofNat_le_ofNat {a b : Nat} (hle : a ≤ b) (hlt : b < 2 ^ 64) :
    UInt64.ofNat a ≤ UInt64.ofNat b := by
  rw [UInt64.le_iff_toNat_le, UInt64.toNat_ofNat_of_lt' (Nat.lt_of_le_of_lt hle hlt),
    UInt64.toNat_ofNat_of_lt' hlt]
  exact hle

theorem grows_tally (log log' : List Entry) :
    Grows (log ++ log') (tally log) (tally (log ++ log')) where
  sent_le := ofNat_le_ofNat (by rw [sends, sends, List.countP_append]; exact Nat.le_add_right _ _)
  received_le := by
    apply ofNat_le_ofNat
    rw [frames, frames, List.filterMap_append, List.length_append]
    exact Nat.le_add_right _ _
  dropped_le := by
    apply ofNat_le_ofNat
    rw [losses, losses, List.filterMap_append, List.sum_append]
    exact Nat.le_add_right _ _
  errors_le :=
    ofNat_le_ofNat (by rw [failures, failures, List.countP_append]; exact Nat.le_add_right _ _)

/-- What a bus promises to its listeners and to those who read its counters. -/
structure Attentive (s : Site) : Prop where
  /-- Every frame that is counted is handed once, to the listener that was installed last. -/
  heard : ∀ log w, Life.Noted notes { site := s } log w → Heard log w.site.bus.reception
  grows : ∀ log u log' w, Life.Noted notes { site := s } log u → Life.Noted notes u log' w →
    Grows (log ++ log') u.site.bus.reception.stats w.site.bus.reception.stats
  /-- Only tasks and sends count. -/
  uncounted : ∀ u event w, Life.Reachable s u → Life.Step event u w → (∀ task, event ≠ .run task) →
    (∀ id o, event = .act id → u.site.operation? id = some o → o.request.wire? = none) →
    w.site.bus.reception.stats = u.site.bus.reception.stats
  /-- Only a listener that is installed takes the place of another. -/
  stays : ∀ u event w, Life.Reachable s u → Life.Step event u w →
    (∀ listener, event ≠ .subscribe listener) →
    w.site.bus.reception.subscription = u.site.bus.reception.subscription ∧
      w.site.bus.reception.listener.log = u.site.bus.reception.listener.log ∧
      w.site.bus.reception.listener.failsAt = u.site.bus.reception.listener.failsAt
  /-- A call takes the lock while it is under way. -/
  entered : ∀ log w, Life.Noted notes { site := s } log w →
    ∀ before id request after, log = before ++ .entered id request :: after →
      .began id request ∈ before ∧ ∀ request' outcome, .returned id request' outcome ∉ before
  /-- A disconnect returns after it gave the lock back. -/
  left : ∀ log w, Life.Noted notes { site := s } log w →
    ∀ before id outcome after, log = before ++ .returned id .disconnect outcome :: after →
      .left id .disconnect ∈ before
  /-- From then on nothing is taken in until a connect takes the lock. -/
  silent : ∀ log w, Life.Noted notes { site := s } log w →
    ∀ before id after, log = before ++ .left id .disconnect :: after →
      (∀ other, .entered other .connect ∉ after) → ∀ task taking, .took task taking ∉ after
  /-- When no connect is under way meanwhile, nothing is taken in between the return of a disconnect
  and the beginning of the next connect. -/
  between : ∀ log w, Life.Noted notes { site := s } log w →
    ∀ past id within outcome after,
      log = past ++ .began id .disconnect ::
        (within ++ .returned id .disconnect outcome :: after) →
      (∀ other, .began other .connect ∈ past → ∃ outcome, .returned other .connect outcome ∈ past) →
      (∀ other, .began other .connect ∉ within ++ after) → ∀ task taking, .took task taking ∉ after

theorem silent_of_left (hw : w.Sound) (hrun : Life.Noted notes w log w')
    (hlog : log = before ++ .left id .disconnect :: after)
    (hnone : ∀ other, .entered other .connect ∉ after) :
    ∀ task taking, .took task taking ∉ after := by
  obtain ⟨u, event, u', hbefore, hstep, hnote, hafter⟩ := hrun.split length_notes_le hlog
  have hu := hbefore.sound hw
  have hsilenced := silenced_of_left hu hstep (hnote ▸ List.mem_singleton_self _)
  exact (hsilenced.run (hstep.sound hu) hafter hnone).2

section

variable {s : Site} {request : Request} {outcome : Except Error Unit}

theorem entered_within (hmade : s.Made) (hrun : Life.Noted notes { site := s } log w)
    (hlog : log = before ++ .entered id request :: after) :
    .began id request ∈ before ∧ ∀ request' outcome, .returned id request' outcome ∉ before := by
  obtain ⟨u, event, u', hbefore, hstep, hnote, -⟩ := hrun.split length_notes_le hlog
  have hrecorded := recorded_of_noted hmade hbefore
  rcases exists_acted (hnote ▸ List.mem_singleton_self _) rfl with
    ⟨_, -, hentry, -⟩ | ⟨-, o, hfind, hacted⟩
  · cases hentry
  · refine ⟨?_, fun request' outcome hmem => ?_⟩
    · have hbegan := hrecorded.began id o hfind
      rcases mem_acted hacted with ⟨-, hne⟩ | ⟨_, -, -, hentry⟩ | ⟨_, -, hne⟩ | ⟨_, -, hne⟩
      · cases hne
      · rw [Entry.entered.injEq] at hentry
        rw [hentry.2]
        exact hbegan
      · cases hne
      · cases hne
    · rw [hrecorded.gone id request' outcome hmem] at hfind
      cases hfind

theorem left_before (hmade : s.Made) (hrun : Life.Noted notes { site := s } log w)
    (hlog : log = before ++ .returned id .disconnect outcome :: after) :
    .left id .disconnect ∈ before := by
  obtain ⟨u, event, u', hbefore, hstep, hnote, -⟩ := hrun.split length_notes_le hlog
  have hrecorded := recorded_of_noted hmade hbefore
  rcases exists_acted (hnote ▸ List.mem_singleton_self _) rfl with
    ⟨_, -, hentry, -⟩ | ⟨-, o, hfind, hacted⟩
  · cases hentry
  · rcases mem_acted hacted with ⟨htodo, hentry⟩ | ⟨_, -, -, hne⟩ | ⟨_, -, hne⟩ | ⟨_, -, hne⟩
    · rw [Entry.returned.injEq] at hentry
      rw [hentry.2.1]
      exact hrecorded.left id o hfind (by rw [← hentry.2.1]; rfl) htodo
    · cases hne
    · cases hne
    · cases hne

/-- Who begins is new. -/
theorem not_mem_of_began (hmade : s.Made) (hrun : Life.Noted notes { site := s } log w)
    (hlog : log = before ++ .began id request :: after) (hid : entry.id? = some id) :
    entry ∉ before := by
  intro hmem
  obtain ⟨u, event, u', hbefore, hstep, hnote, -⟩ := hrun.split length_notes_le hlog
  have hlt := (recorded_of_noted hmade hbefore).numbered entry hmem id hid
  rcases exists_acted (hnote ▸ List.mem_singleton_self _) rfl with
    ⟨_, -, -, hnext⟩ | ⟨-, o, -, hacted⟩
  · exact absurd hnext (Nat.ne_of_lt hlt)
  · rcases mem_acted hacted with ⟨-, hne⟩ | ⟨_, -, -, hne⟩ | ⟨_, -, hne⟩ | ⟨_, -, hne⟩
    all_goals cases hne

theorem silent_between {past within : List Entry} (hmade : s.Made)
    (hrun : Life.Noted notes { site := s } log w)
    (hlog : log = past ++ .began id .disconnect ::
      (within ++ .returned id .disconnect outcome :: after))
    (hpast : ∀ other, .began other .connect ∈ past →
      ∃ outcome, .returned other .connect outcome ∈ past)
    (hsince : ∀ other, .began other .connect ∉ within ++ after) :
    ∀ task taking, .took task taking ∉ after := by
  have hbegan : log = (past ++ .began id .disconnect :: within) ++
      .returned id .disconnect outcome :: after := by
    rw [hlog, List.append_assoc, List.cons_append]
  have hleft : .left id .disconnect ∈ within := by
    rcases List.mem_append.mp (left_before hmade hrun hbegan) with hmem | hmem
    · exact absurd hmem (not_mem_of_began hmade hrun hlog rfl)
    · exact (List.mem_cons.mp hmem).resolve_left nofun
  obtain ⟨first, second, rfl⟩ := List.append_of_mem hleft
  have hsplit : log = (past ++ .began id .disconnect :: first) ++ .left id .disconnect ::
      (second ++ .returned id .disconnect outcome :: after) := by
    rw [hlog]
    simp
  have hnone : ∀ other, .entered other .connect ∉
      second ++ .returned id .disconnect outcome :: after := by
    intro other hmem
    obtain ⟨tail, rest, htail⟩ := List.append_of_mem hmem
    have hentered : log = (past ++ .began id .disconnect :: first ++
        .left id .disconnect :: tail) ++ .entered other .connect :: rest := by
      rw [hsplit, htail]
      simp
    obtain ⟨hbefore, hunreturned⟩ := entered_within hmade hrun hentered
    -- The connect began before the disconnect did, and then it had returned by then.
    have hearly : .began other .connect ∈ past := by
      by_contra hnot
      have hall : Entry.began other .connect ∈ log := by
        rw [hentered]
        exact List.mem_append_left _ hbefore
      have hlate := hsince other
      rw [hlog] at hall
      simp only [List.mem_append, List.mem_cons, hnot, reduceCtorEq, false_or,
        Entry.began.injEq, and_false] at hall hlate
      exact hlate hall
    obtain ⟨outcome', hreturned⟩ := hpast other hearly
    refine hunreturned .connect outcome' ?_
    simp [hreturned]
  intro task taking hmem
  apply silent_of_left (Life.sound_of_made hmade) hrun hsplit hnone task taking
  exact List.mem_append_right _ (List.mem_cons_of_mem _ hmem)

end

theorem exists_noted {s : Site} (hreach : Life.Reachable s w) :
    ∃ log, Life.Noted notes { site := s } log w := by
  induction hreach with
  | refl => exact ⟨[], .refl⟩
  | step _ _ hstep ih =>
    obtain ⟨log, hrun⟩ := ih
    exact ⟨_, .step hrun hstep⟩

/-- What callers do that is no send changes no counter. -/
theorem stats_of_step (hw : w.Sound) (hstep : Life.Step event w w')
    (hrun : ∀ task, event ≠ .run task)
    (hsend : ∀ id o, event = .act id → w.site.operation? id = some o → o.request.wire? = none) :
    w'.site.bus.reception.stats = w.site.bus.reception.stats := by
  cases hstep with
  | start | subscribe | outside => rfl
  | run task => exact absurd rfl (hrun task)
  | act id =>
    rw [Life.site_act]
    cases hfind : w.site.operation? id with
    | none => rw [Site.advance_of_none hfind]
    | some o =>
      cases htodo : o.todo with
      | nil => rw [Site.advance_ends hfind htodo, Site.finish_bus]
      | cons action rest =>
        cases hperform : { o with todo := rest }.perform w.site action with
        | none => rw [Site.advance_waits_of_none hfind htodo hperform]
        | some result =>
          have hcount := Outbox.ne_countSent hw hfind (hsend id o rfl hfind) htodo
          have hstats := Operation.stats_perform hcount hperform
          rw [Site.advance_goesOn hfind htodo hperform, Site.collect_bus]
          exact hstats

/-- Notes of other steps do not say that a listener was installed. -/
theorem listeners_notes (hevent : ∀ listener, event ≠ .subscribe listener) :
    listeners (notes event w w') = [] := by
  rw [listeners, List.filterMap_eq_nil_iff]
  intro entry hmem
  cases event with
  | subscribe listener => exact absurd rfl (hevent listener)
  | outside => cases hmem
  | start request =>
    cases List.mem_singleton.mp hmem
    rfl
  | run task =>
    obtain ⟨t, -, rfl⟩ := List.mem_map.mp hmem
    rfl
  | act id =>
    cases hfind : w.site.operation? id with
    | none =>
      rw [notes, hfind] at hmem
      cases hmem
    | some o =>
      rw [notes_act hfind] at hmem
      rcases mem_acted hmem with ⟨-, rfl⟩ | ⟨_, -, -, rfl⟩ | ⟨_, -, rfl⟩ | ⟨_, -, rfl⟩
      all_goals rfl

theorem listener_of_step {s : Site} (hmade : s.Made) (hreach : Life.Reachable s w)
    (hstep : Life.Step event w w') (hevent : ∀ listener, event ≠ .subscribe listener) :
    w'.site.bus.reception.subscription = w.site.bus.reception.subscription ∧
      w'.site.bus.reception.listener.log = w.site.bus.reception.listener.log ∧
      w'.site.bus.reception.listener.failsAt = w.site.bus.reception.listener.failsAt := by
  obtain ⟨log, hrun⟩ := exists_noted hreach
  have hbefore := heard_of_noted hmade hrun
  have hafter := heard_of_noted hmade (.step hrun hstep)
  have hlisteners : listeners (log ++ notes event w w') = listeners log := by
    have happend : listeners (log ++ notes event w w') =
        listeners log ++ listeners (notes event w w') := List.filterMap_append
    rw [happend, listeners_notes hevent, List.append_nil]
  have hlatest : latest (log ++ notes event w w') = latest log := by
    rw [latest, latest, hlisteners]
  refine ⟨?_, ?_, ?_⟩
  · rw [hafter.subscription_eq, hlisteners, hbefore.subscription_eq]
  · rw [hafter.log_eq, hlatest, hbefore.log_eq]
  · rw [hafter.failsAt_eq, hlatest, hbefore.failsAt_eq]

/-- On every transport, whatever its callers do and whatever its tasks receive, the counters of a
bus tell what was sent and taken in since it was made, each frame goes to the listener of the latest
subscription, and after a disconnect there is silence. -/
theorem attentive_of_make {transport : Transport} {channel : String} {c : BusConfig} {m m' : Medium}
    {b : Bus} (hfresh : m.kernel.Fresh)
    (hmake : (Bus.make transport channel c).run m = (.ok b, m')) : Attentive ⟨b, m'⟩ := by
  obtain ⟨-, hmade⟩ := Bus.made_of_make hfresh hmake
  have hsound := Life.sound_of_made hmade
  refine ⟨fun log w => heard_of_noted hmade, ?_, ?_, ?_, ?_, ?_, ?_, ?_⟩
  · intro log u log' w hbefore hafter
    rw [(heard_of_noted hmade hbefore).stats_eq,
      (heard_of_noted hmade (hbefore.append hafter)).stats_eq]
    exact grows_tally log log'
  · intro u event w hreach hstep
    exact stats_of_step (Life.Run.sound hreach hsound) hstep
  · intro u event w hreach hstep
    exact listener_of_step hmade hreach hstep
  · intro log w hrun before id request after
    exact entered_within hmade hrun
  · intro log w hrun before id outcome after
    exact left_before hmade hrun
  · intro log w hrun before id after
    exact silent_of_left hsound hrun
  · intro log w hrun past id within outcome after
    exact silent_between hmade hrun

/-- A listener hears the first connection, which is taken down, and another one the second. -/
def twoConnections : List Life.Event :=
  .subscribe { log := some "first" } :: Life.calling 0 .connect ++ List.replicate 3 (.run 1) ++
    .start .disconnect :: List.replicate 3 (.act 2) ++ List.replicate 3 (.run 1) ++
    List.replicate 5 (.act 2) ++
    .subscribe { log := some "second" } :: Life.calling 3 .connect ++ List.replicate 3 (.run 4)

theorem attentive_to_two_connections : ∃ frame b m',
    (Bus.make .blocking "can0" {}).run
      { kernel := { greeting := [.record frame.encode.toList] } } = (.ok b, m') ∧
    (let log := Life.taken notes { site := ⟨b, m'⟩ } twoConnections
     let w := Life.replay ⟨b, m'⟩ twoConnections
     frames log = [frame, frame] ∧
      w.site.bus.reception.deliveries =
        [⟨1, some "first", frame, true⟩, ⟨2, some "second", frame, true⟩] ∧
      w.site.bus.reception.stats = { received := 2 }) ∧
    Attentive ⟨b, m'⟩ := by
  obtain ⟨frame, m, b, m', hm, hfresh, hmake, htold⟩ :
      ∃ (frame : Frame) (m : Medium) (b : Bus) (m' : Medium),
        m = { kernel := { greeting := [.record frame.encode.toList] } } ∧ m.kernel.Fresh ∧
        (Bus.make .blocking "can0" {}).run m = (.ok b, m') ∧
        (let log := Life.taken notes { site := ⟨b, m'⟩ } twoConnections
         let w := Life.replay ⟨b, m'⟩ twoConnections
         frames log = [frame, frame] ∧
          w.site.bus.reception.deliveries =
            [⟨1, some "first", frame, true⟩, ⟨2, some "second", frame, true⟩] ∧
          w.site.bus.reception.stats = { received := 2 }) :=
    ⟨⟨0x101, 0, 1, #v[1, 0, 0, 0, 0, 0, 0, 0], by decide⟩, _, _, _, rfl, fun _ _ => rfl, rfl,
      by decide +kernel, by decide +kernel, by decide +kernel⟩
  exact ⟨frame, b, m', hm ▸ hmake, htold, attentive_of_make hfresh hmake⟩

end Audience

end CanTransport
