import CanTransport.Proofs.Bus.Sends
import CanTransport.Proofs.Bus.Stopping
/-!
# Echoes and the connections of their sends

A send takes the published resource and remembers its record a moment later, and no lock keeps a
disconnect from coming between the two. What is remembered while the send's own resource is still
published goes with that connection. What is remembered later stays, and so it is found by the next
connection.
-/

namespace CanTransport

namespace Life

/-- A record that a send remembered, the resource that the send had taken, and the one that senders
found at that moment. -/
structure Memo where
  raw : Wire
  own : Option Descriptor
  published : Option Descriptor
deriving DecidableEq

/-- Whether the connection of the send was still there. -/
def Memo.IsTimely (memo : Memo) : Prop := memo.own ≠ none ∧ memo.published = memo.own

/-- What is remembered in one step. -/
def memos (event : Event) (w _ : Life) : List Memo :=
  match event with
  | .act id =>
    match w.site.acting? id .remember with
    | some o => o.request.wire?.toList.map fun raw => ⟨raw, o.handle, w.site.bus.published⟩
    | none => []
  | _ => []

end Life

/-! ## The actions of a connect or a disconnect -/

/-- What a connect or a disconnect of a ring that holds the lock can still have before it. -/
def callPoints : List (List Action) :=
  (Transport.teardown .ring true ++ Request.remainder .ring .connect).tails ++
    (Transport.teardown .ring false ++ Request.remainder .ring .disconnect).tails ++
    [[.letGo, .leave]]

namespace Action

/-- Whether the resource has been taken from senders and the echoes have not been cleared yet. -/
def clears (todo : List Action) : Bool := todo.contains .clearEchoes && !todo.contains .unpublish

/-- Whether a resource is to be published for which nothing has to be cleared before. -/
def publishes (todo : List Action) : Bool :=
  todo.contains .publish && !todo.contains .clearEchoes

theorem tail_mem_callPoints : ∀ todo ∈ callPoints, todo.tail ∈ callPoints := by decide

theorem head_of_clears : ∀ todo ∈ callPoints, clears todo = true →
    todo.head? = some .letGo ∧ clears todo.tail = true ∨ todo.head? = some .clearEchoes := by
  decide

theorem clears_leave : ∀ todo ∈ callPoints, todo.head? = some .leave → clears todo = false := by
  decide

theorem clears_tail : ∀ todo ∈ callPoints, clears todo.tail = true →
    clears todo = true ∨ todo.head? = some .unpublish := by decide

theorem clears_unpublish : ∀ todo ∈ callPoints, todo.head? = some .unpublish →
    clears todo.tail = true := by decide

theorem publishes_tail : ∀ todo ∈ callPoints, publishes todo.tail = true →
    publishes todo = true ∨ clears todo = true := by decide

theorem publishes_publish : ∀ todo ∈ callPoints, todo.head? = some .publish →
    publishes todo = true ∧ clears todo.tail = false ∧ publishes todo.tail = false := by decide

theorem givenUp_mem_callPoints : ∀ todo ∈ [[.letGo, .leave], [.leave], []],
    todo ∈ callPoints ∧ clears todo = false ∧ publishes todo = false := by decide

end Action

namespace Request

variable {request : Request}

theorem remainder_mem_callPoints (h : request.wire? = none) :
    request.remainder .ring ∈ callPoints ∧ Action.clears (request.remainder .ring) = false := by
  cases request with
  | send frame => cases h
  | connect | disconnect => decide

theorem teardown_mem_callPoints (h : request.wire? = none) (reconnecting : Bool) :
    let todo := Transport.teardown .ring reconnecting ++ request.remainder .ring
    todo ∈ callPoints ∧ Action.clears todo = false ∧ Action.publishes todo = false := by
  cases request with
  | send frame => cases h
  | connect | disconnect => cases reconnecting <;> decide

end Request

namespace Operation

variable {s s' : Site} {o o' : Operation} {action : Action} {rest : List Action}

/-- An operation goes on as it was to do, or it has given up. -/
theorem todo_or_givenUp (hrequest : o.request.wire? = none) (henter : action ≠ .enter)
    (h : { o with todo := rest }.perform s action = some (s', o')) :
    o'.todo = rest ∨ o'.todo ∈ [[.letGo, .leave], [.leave], []] := by
  have hcleanup := cleanup_of_wire?_eq_none hrequest s.bus.transport
  cases action with
  | enter => exact absurd rfl henter
  | acquire =>
    simp only [perform, acquire] at h
    split at h
    · cases h
      exact Or.inl rfl
    · split at h
      · cases h
        exact Or.inl rfl
      · cases h
        rw [giveUp, hcleanup]
        exact Or.inr List.mem_cons_self
  | register =>
    cases h
    unfold register
    split
    · exact Or.inl rfl
    · rw [giveUp, hcleanup]
      exact Or.inr List.mem_cons_self
  | write =>
    simp only [perform, write, hrequest] at h
    split at h
    · rename_i hwire
      cases hwire
    · cases h
      exact Or.inr (by simp [giveUp])
  | join =>
    simp only [perform, join] at h
    split at h
    · cases h
      exact Or.inl rfl
    · split at h <;> cases h
      exact Or.inl rfl
  | check | checkFlag =>
    cases h
    split
    · first | exact Or.inl rfl | exact Or.inr (by simp)
    · first | exact Or.inl rfl | exact Or.inr (by simp [giveUp])
  | borrow =>
    simp only [perform] at h
    split at h <;> cases h
    · exact Or.inr (by simp [giveUp])
    · exact Or.inl rfl
  | cancel | closeSocket | remember | forget | transmit =>
    simp only [perform] at h
    split at h <;> cases h <;> exact Or.inl rfl
  | leave | unpublish | letGo | clearEchoes | listen | spawn | publish | store | raiseFlag
  | lowerFlag | dropIdle | countSent =>
    cases h
    exact Or.inl rfl

/-- What an action does to the echoes, and who finds a resource after it. -/
structure Echoing (action : Action) (s : Site) (o : Operation) (s' : Site) : Prop where
  pending : ∀ raw ∈ s'.bus.echoes.pending, raw ∈ s.bus.echoes.pending ∨
    action = .remember ∧ o.request.wire? = some raw
  published : action ≠ .unpublish → action ≠ .publish → s'.bus.published = s.bus.published

theorem Echoing.of_eq (hechoes : s'.bus.echoes = s.bus.echoes)
    (hpublished : s'.bus.published = s.bus.published) : Echoing action s o s' :=
  ⟨fun _ hraw => Or.inl (hechoes ▸ hraw), fun _ _ => hpublished⟩

theorem echoing_perform (h : o.perform s action = some (s', o')) : Echoing action s o s' := by
  cases action with
  | enter =>
    obtain ⟨connection, rfl, -⟩ := enter_eq_some h
    exact .of_eq rfl rfl
  | join =>
    simp only [perform, join] at h
    split at h
    · cases h
      exact .of_eq rfl rfl
    · split at h <;> cases h
      exact .of_eq rfl rfl
  | acquire =>
    simp only [perform, acquire] at h
    split at h
    · cases h
      exact .of_eq rfl rfl
    · split at h
      all_goals
        rename_i hrun
        have hbus := (onKernel_beside hrun).1
        have hechoes := congrArg Bus.echoes hbus
        have hpublished := congrArg Bus.published hbus
        cases h
        exact .of_eq hechoes hpublished
  | write =>
    simp only [perform, write] at h
    split at h
    · split at h
      all_goals
        rename_i hrun
        have hbus := (onKernel_beside hrun).1
        have hechoes := congrArg Bus.echoes hbus
        have hpublished := congrArg Bus.published hbus
        cases h
        exact .of_eq hechoes hpublished
    · cases h
      exact .of_eq rfl rfl
  | remember =>
    simp only [perform] at h
    split at h <;> cases h
    · exact .of_eq rfl rfl
    · rename_i raw hwire
      refine ⟨fun other hother => ?_, fun _ _ => rfl⟩
      rcases Echoes.mem_record hother with hold | rfl
      · exact Or.inl hold
      · exact Or.inr ⟨rfl, hwire⟩
  | forget =>
    simp only [perform] at h
    split at h <;> cases h
    · exact .of_eq rfl rfl
    · exact ⟨fun other hother => Or.inl (Echoes.mem_forget hother), fun _ _ => rfl⟩
  | clearEchoes =>
    cases h
    exact ⟨fun _ hraw => absurd hraw List.not_mem_nil, fun _ _ => rfl⟩
  | unpublish | publish =>
    cases h
    exact ⟨fun _ hraw => Or.inl hraw, fun hunpublish hpublish => by contradiction⟩
  | cancel | closeSocket | borrow | transmit =>
    simp only [perform] at h
    split at h <;> cases h <;> exact .of_eq rfl rfl
  | leave | letGo | check | register | listen | spawn | store | raiseFlag | lowerFlag | dropIdle
  | checkFlag | countSent =>
    cases h
    exact .of_eq rfl rfl

/-- A connect begins to set up at its entrance only where senders find no resource. -/
theorem enter_mem_callPoints {refused : Bool} (hlock : s.bus.lock = none)
    (hsettled : s.bus.Settled refused) (hring : s.bus.transport = .ring)
    (hrequest : o.request.wire? = none) (h : o.enter s = some (s', o')) :
    o'.todo ∈ callPoints ∧ Action.clears o'.todo = false ∧
      (Action.publishes o'.todo = true → s.bus.published = none) := by
  cases hsettled with
  | bare hconnection _ hpublished =>
    rw [enter_bare hlock hconnection, hring] at h
    cases h
    obtain ⟨hpoint, hclears⟩ := Request.remainder_mem_callPoints hrequest
    exact ⟨hpoint, hclears, fun _ => hpublished⟩
  | connected hconnection =>
    simp only [enter, hlock, hconnection, hring, Option.isSome_none, Bool.false_eq_true,
      if_false] at h
    have hpoint : o'.todo ∈ callPoints ∧ Action.clears o'.todo = false ∧
        Action.publishes o'.todo = false := by
      rcases ite_eq_iff.mp h with ⟨-, h⟩ | ⟨-, h⟩ <;> cases h
      · exact Action.givenUp_mem_callPoints [.leave] (by decide)
      · exact Request.teardown_mem_callPoints hrequest _
    exact ⟨hpoint.1, hpoint.2.1, fun h => absurd h (ne_true_of_eq_false hpoint.2.2)⟩

end Operation

namespace Life

variable {w w' : Life} {event : Event} {id : OperationId} {log log' : List Memo}

/-- Every pending record was remembered through the resource that senders find, or while they found
none. -/
def Explained (log : List Memo) (b : Bus) : Prop :=
  ∀ raw ∈ b.echoes.pending, ∃ memo ∈ log, memo.raw = raw ∧
    (memo.published = none ∨ memo.published = b.published)

/-- What is known of the echoes of a ring, and of whoever holds the lock. -/
structure Tidy (log : List Memo) (s : Site) : Prop where
  explained : (∀ id o, s.bus.lock = some id → s.operation? id = some o →
    Action.clears o.todo = false) → Explained log s.bus
  holder : ∀ id o, s.bus.lock = some id → s.operation? id = some o →
    o.todo ∈ callPoints ∧ (Action.clears o.todo = true ∨ Action.publishes o.todo = true →
      s.bus.published = none)

variable {s t s' : Site} {o o' : Operation} {action : Action} {rest : List Action}

/-- A step that leaves the lock, whoever holds it, and the published resource as they are. -/
theorem Tidy.beside (h : Tidy log s) (hlock : t.bus.lock = s.bus.lock)
    (hpublished : t.bus.published = s.bus.published)
    (hholder : ∀ id, s.bus.lock = some id → t.operation? id = s.operation? id)
    (hpending : ∀ raw ∈ t.bus.echoes.pending, raw ∈ s.bus.echoes.pending ∨
      ∃ memo ∈ log', memo.raw = raw ∧ memo.published = s.bus.published) :
    Tidy (log ++ log') t := by
  refine ⟨fun hclears raw hraw => ?_, fun id o hid hfind => ?_⟩
  · rw [hpublished]
    rcases hpending raw hraw with hold | ⟨memo, hmemo, hmade, hnow⟩
    · have hbefore : Explained log s.bus := by
        refine h.explained fun id o hid hfind => hclears id o (hlock.trans hid) ?_
        rw [hholder id hid]
        exact hfind
      obtain ⟨memo, hmemo, hmade⟩ := hbefore raw hold
      exact ⟨memo, List.mem_append_left _ hmemo, hmade⟩
    · exact ⟨memo, List.mem_append_right _ hmemo, hmade, Or.inr hnow⟩
  · rw [hlock] at hid
    rw [hpublished]
    exact h.holder id o hid ((hholder id hid).symm.trans hfind)

theorem Tidy.mono (h : Tidy log s) : Tidy (log ++ log') s :=
  h.beside rfl rfl (fun _ _ => rfl) fun _ hraw => Or.inl hraw

theorem tidy_of_free (hlock : s.bus.lock = none) (h : Explained log s.bus) : Tidy log s where
  explained _ := h
  holder _ _ hheld := by
    rw [hlock] at hheld
    cases hheld

theorem Tidy.explained_of_free (h : Tidy log s) (hlock : s.bus.lock = none) :
    Explained log s.bus := by
  refine h.explained fun id o hheld => ?_
  rw [hlock] at hheld
  cases hheld

/-- An action after which its operation holds the lock. -/
theorem tidy_of_acted {id : OperationId} (hfind : s.operation? id = some o)
    (hperform : { o with todo := rest }.perform s action = some (s', o'))
    (hlock : s'.bus.lock = some id) (hpoint : o'.todo ∈ callPoints)
    (hexplained : Action.clears o'.todo = false → Explained log s'.bus)
    (hnone : Action.clears o'.todo = true ∨ Action.publishes o'.todo = true →
      s'.bus.published = none) :
    Tidy log (s'.setBus (s'.bus.setOperation o')).collect := by
  have hfind' := Site.operation?_acted hfind hperform
  have hlock' : (s'.setBus (s'.bus.setOperation o')).collect.bus.lock = some id := by
    rw [Site.collect_bus]
    exact hlock
  refine ⟨fun hclears => ?_, fun other found hother hfound => ?_⟩
  · have hexplained' := hexplained (hclears id o' hlock' hfind')
    rw [Site.collect_bus]
    exact hexplained'
  · cases hlock'.symm.trans hother
    cases hfind'.symm.trans hfound
    rw [Site.collect_bus]
    exact ⟨hpoint, hnone⟩

/-- Whoever holds the lock takes the resource from senders before it clears the echoes, and
publishes one only where there was none. -/
theorem Tidy.hold (h : Tidy log s) (hfind : s.operation? id = some o)
    (hlock : s.bus.lock = some id) (hrequest : o.request.wire? = none)
    (htodo : o.todo = action :: rest) (henter : action ≠ .enter) (hleave : action ≠ .leave)
    (hperform : { o with todo := rest }.perform s action = some (s', o')) :
    Tidy log (s'.setBus (s'.bus.setOperation o')).collect := by
  obtain ⟨hpoint, hnone⟩ := h.holder id o hlock hfind
  rw [htodo] at hpoint hnone
  have hrest : rest ∈ callPoints := Action.tail_mem_callPoints _ hpoint
  have hlock' : s'.bus.lock = some id :=
    ((Operation.keeps_perform hperform).lock_eq henter hleave).trans hlock
  cases hclears : Action.clears (action :: rest) with
  | true =>
    have hbare := hnone (Or.inl hclears)
    rcases Action.head_of_clears _ hpoint hclears with ⟨hhead, hstill⟩ | hhead
    · cases Option.some.inj hhead
      refine tidy_of_acted hfind hperform hlock' ?_ ?_ ?_ <;> cases hperform
      · exact hrest
      · exact fun hdone => absurd hstill (ne_true_of_eq_false hdone)
      · exact fun _ => hbare
    · cases Option.some.inj hhead
      refine tidy_of_acted hfind hperform hlock' ?_ ?_ ?_ <;> cases hperform
      · exact hrest
      · exact fun _ => nofun
      · exact fun _ => hbare
  | false =>
    have hexplained : Explained log s.bus := by
      refine h.explained fun other found hother hfound => ?_
      cases hlock.symm.trans hother
      cases hfind.symm.trans hfound
      rw [htodo]
      exact hclears
    have hpending : ∀ raw ∈ s'.bus.echoes.pending, raw ∈ s.bus.echoes.pending := by
      intro raw hraw
      rcases (Operation.echoing_perform hperform).pending raw hraw with hold | ⟨-, hwire⟩
      · exact hold
      · cases hrequest.symm.trans hwire
    by_cases hunpublish : action = .unpublish
    · subst hunpublish
      have hstill : Action.clears rest = true := Action.clears_unpublish _ hpoint rfl
      refine tidy_of_acted hfind hperform hlock' ?_ ?_ ?_ <;> cases hperform
      · exact hrest
      · exact fun hdone => absurd hstill (ne_true_of_eq_false hdone)
      · exact fun _ => rfl
    by_cases hpublish : action = .publish
    · subst hpublish
      obtain ⟨hpublishes, hdone⟩ := Action.publishes_publish _ hpoint rfl
      have hbare := hnone (Or.inr hpublishes)
      refine tidy_of_acted hfind hperform hlock' ?_ ?_ ?_ <;> cases hperform
      · exact hrest
      · intro _ raw hraw
        obtain ⟨memo, hmemo, hmade, hfound⟩ := hexplained raw hraw
        rw [hbare, or_self] at hfound
        exact ⟨memo, hmemo, hmade, Or.inl hfound⟩
      · rintro (hclears' | hpublishes')
        · exact absurd hclears' (ne_true_of_eq_false hdone.1)
        · exact absurd hpublishes' (ne_true_of_eq_false hdone.2)
    have hpublished := (Operation.echoing_perform hperform).published hunpublish hpublish
    have hexplained' : Explained log s'.bus := by
      intro raw hraw
      rw [hpublished]
      exact hexplained raw (hpending raw hraw)
    rcases Operation.todo_or_givenUp hrequest henter hperform with hsame | hgivenUp
    · refine tidy_of_acted hfind hperform hlock' (hsame ▸ hrest) (fun _ => hexplained') ?_
      rw [hsame, hpublished]
      rintro (hclears' | hpublishes)
      · rcases Action.clears_tail _ hpoint hclears' with hbefore | hhead
        · cases hbefore.symm.trans hclears
        · exact absurd (Option.some.inj hhead) hunpublish
      · rcases Action.publishes_tail _ hpoint hpublishes with hbefore | hbefore
        · exact hnone (Or.inr hbefore)
        · cases hbefore.symm.trans hclears
    · obtain ⟨hpoint', hclears', hpublishes⟩ := Action.givenUp_mem_callPoints _ hgivenUp
      refine tidy_of_acted hfind hperform hlock' hpoint' (fun _ => hexplained') fun hmore => ?_
      rw [hclears', hpublishes] at hmore
      simp at hmore

/-- A task takes echoes from what is pending, and adds nothing. -/
theorem Tidy.ran (h : Tidy log s) (hs : s.Supplied) (id : ReceiverId) : Tidy log (s.run id) := by
  have hsweeps : ∀ r ∈ s.bus.receivers, r.Sweeps :=
    fun r hr => Receiver.sweeps_of_rings (hs.rings r hr)
  obtain ⟨hbus, -, -⟩ := Site.run_kept hs.transport_eq hsweeps id
  have hoperations : (s.run id).bus.operations = s.bus.operations := by rw [hbus]
  rw [← List.append_nil log]
  refine h.beside (by rw [hbus]) (by rw [hbus]) (fun other _ => ?_) fun raw hraw => Or.inl ?_
  · rw [Site.operation?, Site.operation?, hoperations]
  · cases hhanding : s.handing? id with
    | none =>
      rw [(Site.run_of_none hs.transport_eq hsweeps hhanding).1] at hraw
      exact hraw
    | some handing =>
      rw [(Site.run_of_some hs.transport_eq hsweeps hhanding).1] at hraw
      exact Echoes.mem_judge hraw

/-- What an action of a send, or of any other operation, does to the echoes. -/
theorem Tidy.acted (h : Tidy log w.site) (hw : w.Sound) (hring : w.site.bus.transport = .ring)
    (id : OperationId) : Tidy (log ++ memos (.act id) w w') (w.act id).site := by
  have hacted := hw.acted id
  generalize w.act id = after at hacted
  cases hacted with
  | idle => exact h.mono
  | finish hfind hlock _ =>
    have hid := (Site.operation?_mem hfind).2
    refine h.beside (by rw [Site.finish_bus]) (by rw [Site.finish_bus]) (fun other hother => ?_)
      fun raw hraw => Or.inl ?_
    · rw [Site.operation?_finish, if_neg]
      rintro rfl
      exact hlock (hid ▸ hother)
    · rw [Site.finish_bus] at hraw
      exact hraw
  | @send o o' frame action rest s' hfind hlock hrequest hperform hpasses htodo =>
    have hbus := hpasses.bus_eq
    refine h.beside ?_ ?_ (fun other hother => ?_) fun raw hraw => ?_
    · rw [Site.collect_bus]
      show s'.bus.lock = _
      rw [hbus]
    · rw [Site.collect_bus]
      show s'.bus.published = _
      rw [hbus]
    · apply Site.operation?_acted_ne hfind hperform
      rintro rfl
      exact hlock hother
    · rw [Site.collect_bus] at hraw
      refine ((Operation.echoing_perform hperform).pending raw hraw).imp_right ?_
      rintro ⟨rfl, hwire⟩
      have hnext : w.site.acting? id .remember = some o :=
        Site.acting?_eq hfind (by rw [htodo]; rfl)
      refine ⟨⟨raw, o.handle, w.site.bus.published⟩, ?_, rfl, rfl⟩
      have hwire' : o.request.wire? = some raw := hwire
      simp [memos, hnext, hwire']
  | enter hfind hlock htodo hperform hproceeds hlock' =>
    have hrequest := (Operation.framed_perform hperform).request_eq
    have hechoing := Operation.echoing_perform hperform
    have hpublished := hechoing.published (by decide) (by decide)
    obtain ⟨hpoint, hclears, hbare⟩ := Operation.enter_mem_callPoints hlock (hw.free hlock) hring
      (hrequest ▸ hproceeds.request) hperform
    refine Tidy.mono (tidy_of_acted hfind hperform hlock' hpoint (fun _ raw hraw => ?_) ?_)
    · rw [hpublished]
      rcases hechoing.pending raw hraw with hold | ⟨hremember, -⟩
      · exact h.explained_of_free hlock raw hold
      · cases hremember
    · rw [hclears, hpublished]
      exact fun hmore => hbare (hmore.resolve_left Bool.false_ne_true)
  | hold hfind hlock hproceeds htodo henter hleave hperform =>
    exact (h.hold hfind hlock hproceeds.request htodo henter hleave hperform).mono
  | leave hfind hlock hproceeds htodo hperform =>
    cases hperform
    have hpoint := (h.holder _ _ hlock hfind).1
    refine Tidy.mono (tidy_of_free (by rw [Site.collect_bus]; rfl) ?_)
    rw [Site.collect_bus]
    refine h.explained fun other found hother hfound => ?_
    cases hlock.symm.trans hother
    cases hfind.symm.trans hfound
    exact Action.clears_leave _ hpoint (by rw [htodo]; rfl)

theorem Tidy.step (h : Tidy log w.site) (hw : w.Sound) (hs : w.site.Supplied)
    (hstep : Step event w w') : Tidy (log ++ memos event w w') w'.site := by
  have hstep' := hstep
  cases hstep with
  | act id => exact h.acted hw hs.transport_eq id
  | run id => exact (h.ran hs id).mono
  | start request =>
    refine h.beside rfl rfl (fun id hlock => ?_) fun _ hraw => Or.inl hraw
    obtain ⟨o, hfind, -⟩ := hw.holder id hlock
    rw [hfind]
    exact hstep'.operation?_eq hw nofun hfind
  | subscribe | outside => exact h.beside rfl rfl (fun _ _ => rfl) fun _ hraw => Or.inl hraw

theorem Noted.tidy (hrun : Noted memos w log w') (hw : w.Steady)
    (hring : w.site.bus.transport = .ring) (h : Tidy [] w.site) : Tidy log w'.site := by
  induction hrun with
  | refl => exact h
  | step hrun hstep ih =>
    have hw' := hrun.run.steady hw
    exact ih.step hw'.sound (hw'.supplied ((hrun.run.transport_eq hw.sound).trans hring)) hstep

theorem Explained.of_timely {b : Bus} (h : Explained log b) (htimely : ∀ memo ∈ log, memo.IsTimely)
    {raw : Wire} (hraw : raw ∈ b.echoes.pending) :
    ∃ memo ∈ log, memo.raw = raw ∧ memo.own = b.published ∧ b.published ≠ none := by
  obtain ⟨memo, hmemo, hmade, hfound⟩ := h raw hraw
  obtain ⟨hown, hsame⟩ := htimely memo hmemo
  rw [hsame] at hfound
  have hnow := hfound.resolve_left hown
  exact ⟨memo, hmemo, hmade, hnow, hnow ▸ hown⟩

/-- Unless somebody is about to clear the echoes, whatever a ring still waits for was remembered
through the resource that senders find, or while they found none. So if every send remembers its
record while the resource that it took is still the one that senders find, then without a connection
nothing is pending, and in a connection only what was sent through its own resource. -/
theorem forgotten_unless_late {channel : String} {c : BusConfig} {m m' : Medium} {b : Bus}
    (hfresh : m.kernel.Fresh) (hmake : (Bus.make .ring channel c).run m = (.ok b, m'))
    (hrun : Noted memos { site := ⟨b, m'⟩ } log w)
    (hcleared : ∀ o ∈ w.site.bus.operations, .clearEchoes ∉ o.todo) :
    (∀ raw ∈ w.site.bus.echoes.pending, ∃ memo ∈ log, memo.raw = raw ∧
      (memo.published = none ∨ memo.published = w.site.bus.published)) ∧
    ((∀ memo ∈ log, memo.IsTimely) →
      (w.site.bus.published = none → w.site.bus.echoes.pending = []) ∧
      ∀ key, w.site.bus.published = some key → ∀ raw ∈ w.site.bus.echoes.pending,
        ∃ memo ∈ log, memo.raw = raw ∧ memo.own = some key) := by
  obtain ⟨hring, hmade⟩ := Bus.made_of_make hfresh hmake
  have hnone : b.echoes.pending = [] := by
    obtain ⟨-, resource, -, rfl⟩ := Bus.make_ring hmake
    rfl
  have htidy : Tidy log w.site := by
    refine hrun.tidy (steady_of_make hfresh hmake) hring (tidy_of_free hmade.lock_eq ?_)
    intro raw hraw
    rw [hnone] at hraw
    cases hraw
  have hexplained : Explained log w.site.bus := by
    refine htidy.explained fun id o _ hfind => ?_
    have hnot := hcleared o (Site.operation?_mem hfind).1
    simp [Action.clears, hnot]
  refine ⟨hexplained, fun htimely => ⟨fun hbare => ?_, fun key hkey raw hraw => ?_⟩⟩
  · refine List.eq_nil_iff_forall_not_mem.mpr fun raw hraw => ?_
    obtain ⟨-, -, -, -, hsome⟩ := hexplained.of_timely htimely hraw
    exact hsome hbare
  · obtain ⟨memo, hmemo, hmade, hown, -⟩ := hexplained.of_timely htimely hraw
    exact ⟨memo, hmemo, hmade, hown.trans hkey⟩

/-- A send, and a disconnect behind it. -/
def sendThenDisconnect (frame : Frame) : List Event :=
  calling 0 .connect ++ calling 2 (.send frame) ++ [.start .disconnect, .act 3, .act 3] ++
    List.replicate 4 (.run 1) ++ List.replicate 8 (.act 3)

/-- The echo of the send never came, and nobody waits for it any longer. -/
theorem forgotten_at_disconnect : ∃ b m' raw, (Bus.make .ring "can0" {}).run {} = (.ok b, m') ∧
    ∃ frame : Frame, frame.encode = raw ∧
    (let w := replay ⟨b, m'⟩ (sendThenDisconnect frame)
     taken memos { site := ⟨b, m'⟩ } (sendThenDisconnect frame) = [⟨raw, some 1, some 1⟩] ∧
      w.site.bus.operations = [] ∧ w.site.bus.published = none ∧
      w.site.bus.echoes.pending = []) := by
  obtain ⟨frame, hframe⟩ : ∃ frame : Frame, frame =
    ⟨0x101, 0, 1, #v[1, 0, 0, 0, 0, 0, 0, 0], by decide⟩ := ⟨_, rfl⟩
  obtain ⟨b, m', hmake, hlog, hoperations, hpublished⟩ : ∃ b m',
      (Bus.make .ring "can0" {}).run {} = (.ok b, m') ∧
      taken memos { site := ⟨b, m'⟩ } (sendThenDisconnect frame) =
        [⟨frame.encode, some 1, some 1⟩] ∧
      (replay ⟨b, m'⟩ (sendThenDisconnect frame)).site.bus.operations.isEmpty = true ∧
      (replay ⟨b, m'⟩ (sendThenDisconnect frame)).site.bus.published = none := by
    subst hframe
    exact ⟨_, _, rfl, by decide +kernel, by decide +kernel, by decide +kernel⟩
  have hnone := List.isEmpty_iff.mp hoperations
  have hcleared : ∀ o ∈ (replay ⟨b, m'⟩ (sendThenDisconnect frame)).site.bus.operations,
      .clearEchoes ∉ o.todo := by
    rw [hnone]
    exact fun _ ho => absurd ho List.not_mem_nil
  have hrun := noted_replay memos ⟨b, m'⟩ (sendThenDisconnect frame)
  rw [hlog] at hrun
  have hforgotten := (forgotten_unless_late (fun _ _ => rfl) hmake hrun hcleared).2
  refine ⟨b, m', frame.encode, hmake, frame, rfl, hlog, hnone, hpublished, ?_⟩
  refine (hforgotten fun memo hmemo => ?_).1 hpublished
  cases List.mem_singleton.mp hmemo
  exact ⟨Option.some_ne_none _, rfl⟩

/-- A send that has taken the resource before a disconnect begins and remembers its record after it
has ended. -/
def sendAcrossDisconnect (frame : Frame) : List Event :=
  calling 0 .connect ++ [.start (.send frame), .act 2, .start .disconnect, .act 3, .act 3] ++
    List.replicate 4 (.run 1) ++ List.replicate 8 (.act 3) ++ List.replicate 4 (.act 2)

/-- The bus is disconnected and nobody is about to do anything, yet a record is pending; in the next
connection the same frame from a peer is taken for its echo. -/
theorem pending_after_late_send : ∃ b m' raw, (Bus.make .ring "can0" {}).run {} = (.ok b, m') ∧
    ∃ frame : Frame, frame.encode = raw ∧
    (let w := replay ⟨b, m'⟩ (sendAcrossDisconnect frame)
     w.site.bus.lock = none ∧ w.site.bus.connection = none ∧ w.site.bus.published = none ∧
      w.site.bus.operations.isEmpty = true ∧ w.site.bus.echoes.pending = [raw]) ∧
    (let w := replay ⟨b, m'⟩ (sendAcrossDisconnect frame ++ calling 4 .connect)
     w.site.bus.lock = none ∧ w.site.bus.published.isSome = true ∧
      (w.site.bus.echoes.judge (some (.record raw 0))).1 = .echo) := by
  obtain ⟨frame, hframe⟩ : ∃ frame : Frame, frame =
    ⟨0x101, 0, 1, #v[1, 0, 0, 0, 0, 0, 0, 0], by decide⟩ := ⟨_, rfl⟩
  refine ⟨_, _, frame.encode, rfl, frame, rfl, ?_, ?_⟩ <;> subst hframe <;> decide +kernel

end Life

end CanTransport
