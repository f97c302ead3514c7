import CanTransport.Proofs.Bus.Backlog
import CanTransport.Proofs.Bus.Dispatch
import CanTransport.Proofs.Bus.EchoLifetime
/-!
# Sends that fail

A send through a ring remembers its record before it writes it, and takes the memory back if the
write fails. What is taken back is what was added, whatever else is remembered. What had to go to
make room for it does not come back: a send that fails while the memory is full costs the oldest
record.
-/

namespace CanTransport

namespace Echoes

variable {e : Echoes} {raw : Wire}

/-- What is left of the pending records behind a record that was remembered and forgotten. -/
def spared (e : Echoes) : List Wire :=
  if e.enabled = true ∧ e.pending.length = capacity then e.pending.drop 1 else e.pending

theorem pending_forget_record (e : Echoes) (raw : Wire) :
    ((e.record raw).forget raw).pending = e.spared := by
  unfold spared
  cases henabled : e.enabled with
  | false =>
    have hrecord : e.record raw = e := by rw [record, henabled]; rfl
    rw [hrecord, forget, henabled]
    rfl
  | true =>
    rw [forget_pending ((record_enabled raw).trans henabled), record_pending henabled,
      eraseLast_append_self]
    simp only [true_and]

/-- Nothing is lost, unless the memory was full. -/
theorem spared_eq_iff :
    e.spared = e.pending ↔ ¬ (e.enabled = true ∧ e.pending.length = capacity) := by
  unfold spared
  split
  · rename_i hfull
    refine iff_of_false (fun hsame => ?_) (not_not_intro hfull)
    have hlength := congrArg List.length hsame
    rw [List.length_drop, hfull.2] at hlength
    exact absurd hlength (by decide)
  · rename_i hroom
    exact iff_of_true rfl hroom

theorem take_suffix (e : Echoes) (raw : Wire) : (e.take raw).2.pending <:+ e.pending := by
  by_cases htaken : e.enabled = true ∧ raw ∈ e.pending
  · obtain ⟨before, behind, hpending, -, htake⟩ := take_of_mem htaken.1 htaken.2
    rw [htake, hpending]
    exact (List.suffix_cons raw behind).trans (List.suffix_append _ _)
  · have hsame : e.take raw = (false, e) := by
      cases henabled : e.enabled with
      | false => exact take_of_disabled henabled raw
      | true => exact take_of_not_mem fun hmem => htaken ⟨henabled, hmem⟩
    refine hsame ▸ ?_
    exact List.suffix_rfl

theorem judge_suffix (p : Option Slot.Packet) (e : Echoes) :
    (e.judge p).2.pending <:+ e.pending := by
  match p with
  | none | some (.unsupported _) => exact List.suffix_rfl
  | some (.record raw kind) =>
    have htake := e.take_suffix raw
    unfold judge
    simp only
    split
    · exact List.suffix_rfl
    · split <;> rename_i heq <;> rw [heq] at htake <;> exact htake

/-- No more is remembered than there is room for. -/
def Bounded (e : Echoes) : Prop := e.pending.length ≤ capacity

theorem Bounded.record (h : e.Bounded) (raw : Wire) : (e.record raw).Bounded := by
  unfold Bounded at h ⊢
  cases henabled : e.enabled with
  | false =>
    rw [Echoes.record, henabled]
    exact h
  | true =>
    rw [record_pending henabled, List.length_append, List.length_singleton]
    split
    · rename_i hfull
      rw [List.length_drop, hfull]
      decide
    · rename_i hroom
      omega

theorem Bounded.forget (h : e.Bounded) (raw : Wire) : (e.forget raw).Bounded := by
  unfold Bounded at h ⊢
  cases henabled : e.enabled with
  | false =>
    rw [Echoes.forget, henabled]
    exact h
  | true =>
    rw [forget_pending henabled, eraseLast, List.length_reverse]
    exact (List.length_erase_le.trans (List.length_reverse).le).trans h

end Echoes

namespace Operation

variable {s s' : Site} {o o' : Operation} {action : Action} {rest : List Action} {frame : Frame}

/-- What an action does to the echoes. -/
def echoes (o : Operation) (action : Action) (e : Echoes) : Echoes :=
  match action, o.request.wire? with
  | .remember, some raw => e.record raw
  | .forget, some raw => e.forget raw
  | .clearEchoes, _ => e.clear
  | _, _ => e

theorem echoes_perform (h : o.perform s action = some (s', o')) :
    s'.bus.echoes = o.echoes action s.bus.echoes := by
  cases action with
  | enter =>
    obtain ⟨connection, rfl, -⟩ := enter_eq_some h
    rfl
  | join =>
    simp only [perform, join] at h
    split at h
    · cases h
      rfl
    · split at h <;> cases h
      rfl
  | acquire =>
    simp only [perform, acquire] at h
    split at h
    · cases h
      rfl
    · split at h
      all_goals
        rename_i hrun
        have hechoes := congrArg Bus.echoes (onKernel_beside hrun).1
        cases h
        exact hechoes
  | write =>
    simp only [perform, write] at h
    split at h
    · split at h
      all_goals
        rename_i hrun
        have hechoes := congrArg Bus.echoes (onKernel_beside hrun).1
        cases h
        exact hechoes
    · cases h
      rfl
  | remember | forget =>
    simp only [perform] at h
    split at h
    all_goals
      rename_i hwire
      cases h
      unfold echoes
      rw [hwire]
    rfl
  | cancel | closeSocket | borrow | transmit =>
    simp only [perform] at h
    split at h <;> cases h <;> rfl
  | leave | letGo | check | register | listen | spawn | store | raiseFlag | lowerFlag | dropIdle
  | checkFlag | countSent | unpublish | publish | clearEchoes =>
    cases h
    rfl

theorem bounded_echoes {e : Echoes} (h : e.Bounded) (o : Operation) (action : Action) :
    (o.echoes action e).Bounded := by
  unfold echoes
  split
  · exact h.record _
  · exact h.forget _
  · exact Nat.zero_le _
  · exact h

/-- How far a send through a ring has come, and what it has made so far of the echoes and the
counters that it found. -/
inductive Stands (found : Echoes) (counted : Stats) (raw : Wire) (b : Bus) (o : Operation) :
    Prop where
  | asking (htodo : o.todo = Transport.ring.transmission ∨ o.todo = [.remember, .write, .countSent])
      (hfailure : o.failure = none) (hechoes : b.echoes = found)
      (hstats : b.reception.stats = counted)
  | remembered (htodo : o.todo = [.write, .countSent]) (hfailure : o.failure = none)
      (hechoes : b.echoes = found.record raw) (hstats : b.reception.stats = counted)
  | failed (htodo : o.todo = [.forget]) (hfailure : o.failure ≠ none)
      (hechoes : b.echoes = found.record raw) (hstats : b.reception.stats = counted)
  | undone (htodo : o.todo = []) (hfailure : o.failure ≠ none)
      (hechoes : b.echoes = (found.record raw).forget raw) (hstats : b.reception.stats = counted)
  | written (htodo : o.todo = [.countSent]) (hfailure : o.failure = none)
      (hechoes : b.echoes = found.record raw) (hstats : b.reception.stats = counted)
  | counted (htodo : o.todo = []) (hfailure : o.failure = none)
      (hechoes : b.echoes = found.record raw) (hstats : b.reception.stats = counted.countSent)
  | refused (htodo : o.todo = []) (hfailure : o.failure = some .notConnected)

variable {found : Echoes} {counted : Stats} {raw : Wire} {b b' : Bus}

/-- Nobody else matters to a send who leaves the echoes and the counters as they are. -/
theorem Stands.congr (h : o.Stands found counted raw b) (hechoes : b'.echoes = b.echoes)
    (hstats : b'.reception.stats = b.reception.stats) : o.Stands found counted raw b' := by
  cases h with
  | asking htodo hfailure he hs => exact .asking htodo hfailure (hechoes ▸ he) (hstats ▸ hs)
  | remembered htodo hfailure he hs => exact .remembered htodo hfailure (hechoes ▸ he) (hstats ▸ hs)
  | failed htodo hfailure he hs => exact .failed htodo hfailure (hechoes ▸ he) (hstats ▸ hs)
  | undone htodo hfailure he hs => exact .undone htodo hfailure (hechoes ▸ he) (hstats ▸ hs)
  | written htodo hfailure he hs => exact .written htodo hfailure (hechoes ▸ he) (hstats ▸ hs)
  | counted htodo hfailure he hs => exact .counted htodo hfailure (hechoes ▸ he) (hstats ▸ hs)
  | refused htodo hfailure => exact .refused htodo hfailure

/-- The write of a send is taken, or it fails and the send is about to forget its record. -/
theorem stands_write (hring : s.bus.transport = .ring) (hrequest : o.request = .send frame)
    (hfailure : o.failure = none) (hechoes : s.bus.echoes = found.record frame.encode)
    (hstats : s.bus.reception.stats = counted)
    (h : { o with todo := [.countSent] }.perform s .write = some (s', o')) :
    o'.Stands found counted frame.encode s'.bus := by
  have hwire : o.request.wire? = some frame.encode := by rw [hrequest]; rfl
  simp only [perform, write, hwire] at h
  split at h
  · rename_i resource raw hresource heq
    cases heq
    rcases hrun : s.onKernel (resource.socket.writeWire frame.encode).run with ⟨_ | _, t⟩
    all_goals
      have hbus : t.bus = s.bus := (onKernel_beside hrun).1
      rw [hrun] at h
      cases h
    · refine .failed ?_ (Option.some_ne_none _) (hbus ▸ hechoes) (hbus ▸ hstats)
      show o.request.cleanup _ = [.forget]
      rw [hrequest, hbus, hring]
      rfl
    · exact .written rfl hfailure (hbus ▸ hechoes) (hbus ▸ hstats)
  · cases h
    exact .refused rfl rfl

theorem Stands.perform (h : o.Stands found counted frame.encode s.bus)
    (hring : s.bus.transport = .ring) (hrequest : o.request = .send frame)
    (htodo : o.todo = action :: rest)
    (hperform : { o with todo := rest }.perform s action = some (s', o')) :
    o'.Stands found counted frame.encode s'.bus := by
  have hwire : o.request.wire? = some frame.encode := by rw [hrequest]; rfl
  cases h with
  | asking hpoint hfailure hechoes hstats =>
    rw [htodo] at hpoint
    rcases hpoint with hpoint | hpoint <;> cases hpoint
    · simp only [Operation.perform] at hperform
      split at hperform <;> cases hperform
      · exact .refused rfl rfl
      · exact .asking (Or.inr rfl) hfailure hechoes hstats
    · simp only [Operation.perform, hwire] at hperform
      cases hperform
      exact .remembered rfl hfailure (congrArg (Echoes.record · frame.encode) hechoes) hstats
  | remembered hpoint hfailure hechoes hstats =>
    cases htodo.symm.trans hpoint
    exact stands_write hring hrequest hfailure hechoes hstats hperform
  | failed hpoint hfailure hechoes hstats =>
    cases htodo.symm.trans hpoint
    simp only [Operation.perform, hwire] at hperform
    cases hperform
    exact .undone rfl hfailure (congrArg (Echoes.forget · frame.encode) hechoes) hstats
  | written hpoint hfailure hechoes hstats =>
    cases htodo.symm.trans hpoint
    cases hperform
    exact .counted rfl hfailure hechoes (congrArg Stats.countSent hstats)
  | undone hpoint | counted hpoint | refused hpoint => cases htodo.symm.trans hpoint

/-- A send that has come to its end and failed, but not for want of a connection, has taken its
record back. -/
theorem Stands.of_failed {e : Error} (h : o.Stands found counted raw b) (htodo : o.todo = [])
    (hfailure : o.failure = some e) (hasked : e ≠ .notConnected) :
    b.echoes = (found.record raw).forget raw ∧ b.reception.stats = counted := by
  cases h with
  | undone _ _ hechoes hstats => exact ⟨hechoes, hstats⟩
  | refused _ hrefused =>
    cases hrefused.symm.trans hfailure
    exact absurd rfl hasked
  | counted _ hsuccess => cases hsuccess.symm.trans hfailure
  | asking hpoint => rcases hpoint with hpoint | hpoint <;> cases htodo.symm.trans hpoint
  | remembered hpoint | failed hpoint | written hpoint => cases htodo.symm.trans hpoint

end Operation

namespace Life

variable {u w w' : Life} {event : Event} {id : OperationId} {frame : Frame}

/-- A ring never remembers more than its capacity. -/
theorem bounded_of_reachable {s : Site} (hs : (Life.mk s false false).Steady)
    (hring : s.bus.transport = .ring) (hbounded : s.bus.echoes.Bounded) (h : Reachable s w) :
    w.site.bus.echoes.Bounded := by
  induction h with
  | refl => exact hbounded
  | @step w w' event hrun _ hstep ih =>
    cases hstep with
    | start | subscribe | outside => exact ih
    | act id =>
      show (w.site.advance id).2.bus.echoes.Bounded
      rcases Site.advance_eq w.site id with heq | ⟨o, -, -, -, heq⟩ |
        ⟨o, -, action, rest, s', o', -, -, hperform, heq⟩
      · rw [heq]
        exact ih
      · rw [heq, Site.finish_bus]
        exact ih
      · rw [heq, Site.collect_bus]
        show s'.bus.echoes.Bounded
        rw [Operation.echoes_perform hperform]
        exact Operation.bounded_echoes ih _ _
    | run id =>
      have hsupplied := (hrun.steady hs).supplied ((hrun.transport_eq hs.sound).trans hring)
      have hsweeps : ∀ r ∈ w.site.bus.receivers, r.Sweeps :=
        fun r hr => Receiver.sweeps_of_rings (hsupplied.rings r hr)
      show (w.site.run id).bus.echoes.pending.length ≤ _
      cases hhanding : w.site.handing? id with
      | none =>
        rw [(Site.run_of_none hsupplied.transport_eq hsweeps hhanding).1]
        exact ih
      | some handing =>
        rw [(Site.run_of_some hsupplied.transport_eq hsweeps hhanding).1]
        exact (Echoes.judge_suffix _ _).length_le.trans ih

/-- What happens from the start of an operation on, as long as nobody else touches the echoes or the
counters. -/
inductive Undisturbed (id : OperationId) (u : Life) : Life → Prop where
  | refl : Undisturbed id u u
  | own {w : Life} (h : Undisturbed id u w) : Undisturbed id u (w.act id)
  | beside {w w' : Life} {event : Event} (h : Undisturbed id u w) (hevent : event ≠ .act id)
      (hstep : Step event w w') (hechoes : w'.site.bus.echoes = w.site.bus.echoes)
      (hstats : w'.site.bus.reception.stats = w.site.bus.reception.stats) : Undisturbed id u w'

theorem Undisturbed.run (h : Undisturbed id u w) : Run (fun _ => True) u w := by
  induction h with
  | refl => exact .refl
  | own _ ih => exact .step ih trivial (.act id)
  | beside _ _ hstep _ _ ih => exact .step ih trivial hstep

/-- The send with a number, if it has not returned yet, stands where its actions have brought it. -/
def Sends (found : Echoes) (counted : Stats) (frame : Frame) (id : OperationId) (w : Life) : Prop :=
  ∀ o, w.site.operation? id = some o →
    o.request = .send frame ∧ o.Stands found counted frame.encode w.site.bus

variable {found : Echoes} {counted : Stats}

theorem Sends.act (h : w.Sends found counted frame id) (hring : w.site.bus.transport = .ring) :
    (w.act id).Sends found counted frame id := by
  intro o' hfind'
  rw [site_act] at hfind'
  cases hfind : w.site.operation? id with
  | none =>
    rw [Site.advance_of_none hfind, hfind] at hfind'
    cases hfind'
  | some o =>
    obtain ⟨hrequest, hstands⟩ := h o hfind
    cases htodo : o.todo with
    | nil =>
      rw [Site.advance_ends hfind htodo, Site.operation?_finish,
        if_pos (Site.operation?_mem hfind).2.symm] at hfind'
      cases hfind'
    | cons action rest =>
      cases hperform : { o with todo := rest }.perform w.site action with
      | none =>
        rw [site_act, Site.advance_waits_of_none hfind htodo hperform]
        rw [Site.advance_waits_of_none hfind htodo hperform] at hfind'
        exact h o' hfind'
      | some result =>
        obtain ⟨s', o₁⟩ := result
        rw [Site.advance_goesOn hfind htodo hperform,
          Site.operation?_acted hfind hperform] at hfind'
        cases hfind'
        refine ⟨(Operation.framed_perform hperform).request_eq.trans hrequest, ?_⟩
        rw [site_act, Site.advance_goesOn hfind htodo hperform]
        refine (hstands.perform hring hrequest htodo hperform).congr ?_ ?_ <;>
          rw [Site.collect_bus] <;> rfl

theorem Sends.beside (h : w.Sends found counted frame id) (hw : w.Sound)
    (hlt : id < w.site.bus.next) (hevent : event ≠ .act id) (hstep : Step event w w')
    (hechoes : w'.site.bus.echoes = w.site.bus.echoes)
    (hstats : w'.site.bus.reception.stats = w.site.bus.reception.stats) :
    w'.Sends found counted frame id := by
  intro o hfind
  rcases hstep.operation?_or hw hevent with heq | ⟨hnew, -⟩
  · obtain ⟨hrequest, hstands⟩ := h o (heq ▸ hfind)
    exact ⟨hrequest, hstands.congr hechoes hstats⟩
  · exact absurd hnew (Nat.ne_of_lt hlt)

theorem Undisturbed.sends (h : Undisturbed id u w) (hu : u.Sound)
    (hring : u.site.bus.transport = .ring) (hlt : id < u.site.bus.next)
    (hsends : u.Sends found counted frame id) :
    w.Sends found counted frame id ∧ id < w.site.bus.next := by
  induction h with
  | refl => exact ⟨hsends, hlt⟩
  | own h ih =>
    have hw := h.run.sound hu
    exact ⟨ih.1.act ((h.run.transport_eq hu).trans hring),
      Nat.lt_of_lt_of_le ih.2 ((Step.act id).next_le hw)⟩
  | beside h hevent hstep hechoes hstats ih =>
    have hw := h.run.sound hu
    exact ⟨ih.1.beside hw ih.2 hevent hstep hechoes hstats,
      Nat.lt_of_lt_of_le ih.2 (hstep.next_le hw)⟩

theorem sends_start (hu : u.Sound) (hring : u.site.bus.transport = .ring) (frame : Frame) :
    (u.after (.start (.send frame))).Sends u.site.bus.echoes u.site.bus.reception.stats frame
      u.site.bus.next := by
  intro o hfind
  have hnew := Site.operation?_start (.send frame) (fun o ho => (hu.numbered o ho).1)
    u.site.bus.next
  rw [if_pos rfl] at hnew
  cases hnew.symm.trans hfind
  refine ⟨rfl, .asking (Or.inl ?_) rfl rfl rfl⟩
  show u.site.bus.transport.transmission = _
  rw [hring]

/-- An operation that reports an error has ended with it. -/
theorem ended_of_error {e : Error} (h : (w.site.advance id).1 = .ends (.error e)) :
    ∃ o, w.site.operation? id = some o ∧ o.todo = [] ∧ o.outcome = .error e ∧
      o.failure = some e := by
  cases hfind : w.site.operation? id with
  | none =>
    rw [Site.advance, show w.site.bus.operations.find? (·.id == id) = none from hfind] at h
    cases h
  | some o =>
    cases htodo : o.todo with
    | nil =>
      rw [outcome_advance hfind htodo, Progress.ends.injEq] at h
      refine ⟨o, rfl, htodo, h, ?_⟩
      unfold Operation.outcome at h
      split at h
      · cases h
      · rename_i hfailure
        cases h
        exact hfailure
    | cons action rest =>
      cases hperform : { o with todo := rest }.perform w.site action with
      | none =>
        rw [Site.advance_waits_of_none hfind htodo hperform] at h
        cases h
      | some result =>
        rw [Site.advance_goesOn hfind htodo hperform] at h
        cases h

/-- A send through a ring that ends with an error, but not for want of a connection, had this error
from the kernel's answer to its record. -/
theorem exists_rejected {s : Site} (hmade : s.Made) (hreach : Reachable s w)
    (hring : w.site.bus.transport = .ring) {o : Operation} (hmem : o ∈ w.site.bus.operations)
    (hrequest : o.request = .send frame) (htodo : o.todo = []) {e : Error}
    (houtcome : o.outcome = .error e) (hasked : e ≠ .notConnected) :
    ∃ fd answer, (Parcel.toKernel fd frame.encode answer).verdict = .error e := by
  obtain ⟨log, hnoted⟩ := Outbox.exists_noted hreach
  have hconcluded :=
    ((Outbox.kept_of_noted hmade hnoted).courses o hmem frame hrequest).concluded htodo
  rw [houtcome, hring] at hconcluded
  generalize Outbox.parcels o.id log = parcels, Outbox.counts o.id log = counts at hconcluded
  cases hconcluded with
  | refused => exact absurd rfl hasked
  | @rejected p _ hraw hsuits hverdict =>
    cases p with
    | toQueue => cases hsuits
    | toKernel fd raw answer =>
      cases hraw
      exact ⟨fd, answer, hverdict⟩

/-- A send through a ring whose write fails or is short, while nobody else touches the echoes or the
counters, has counted nothing, and has taken its own record back and no other. Only where the memory
was full, the oldest record is gone. -/
theorem undone_unless_full {channel : String} {c : BusConfig} {m m' : Medium} {b : Bus}
    (hfresh : m.kernel.Fresh) (hmake : (Bus.make .ring channel c).run m = (.ok b, m'))
    (hreach : Reachable ⟨b, m'⟩ u) (frame : Frame)
    (hrun : Undisturbed u.site.bus.next (u.after (.start (.send frame))) w) {e : Error}
    (hends : (w.site.advance u.site.bus.next).1 = .ends (.error e)) (hasked : e ≠ .notConnected) :
    let found := u.site.bus.echoes
    let left := (w.act u.site.bus.next).site.bus
    (∃ fd answer, (Parcel.toKernel fd frame.encode answer).verdict = .error e) ∧
      left.reception.stats = u.site.bus.reception.stats ∧
      found.pending.length ≤ Echoes.capacity ∧
      (left.echoes.pending = found.pending ↔
        ¬ (found.enabled = true ∧ found.pending.length = Echoes.capacity)) ∧
      (found.enabled = true → found.pending.length = Echoes.capacity →
        left.echoes.pending = found.pending.drop 1) := by
  obtain ⟨hring, hmade⟩ := Bus.made_of_make hfresh hmake
  have hsteady := steady_of_make hfresh hmake
  have hu := hreach.sound hsteady.sound
  have hring' : u.site.bus.transport = .ring := (hreach.transport_eq hsteady.sound).trans hring
  have hstart : Step (.start (.send frame)) u (u.after (.start (.send frame))) := step_after u _
  have hsends := (hrun.sends (hstart.sound hu) hring' (Nat.lt_succ_self _)
    (sends_start hu hring' frame)).1
  obtain ⟨o, hfind, htodo, houtcome, hfailure⟩ := ended_of_error hends
  obtain ⟨hrequest, hstands⟩ := hsends o hfind
  have hleft : (w.act u.site.bus.next).site.bus = (w.site.finish o).bus := by
    rw [site_act, Site.advance_ends hfind htodo]
  have hnone : b.echoes.pending = [] := by
    obtain ⟨-, resource, -, rfl⟩ := Bus.make_ring hmake
    rfl
  have hbounded : b.echoes.Bounded := by
    rw [Echoes.Bounded, hnone]
    exact Nat.zero_le _
  have hcause : ∃ fd answer, (Parcel.toKernel fd frame.encode answer).verdict = .error e := by
    have hall : Reachable ⟨b, m'⟩ w := (hreach.step trivial hstart).trans hrun.run
    exact exists_rejected hmade hall ((hall.transport_eq hsteady.sound).trans hring)
      (Site.operation?_mem hfind).1 hrequest htodo houtcome hasked
  obtain ⟨hechoes, hstats⟩ : (w.act u.site.bus.next).site.bus.echoes =
      (u.site.bus.echoes.record frame.encode).forget frame.encode ∧
      (w.act u.site.bus.next).site.bus.reception.stats = u.site.bus.reception.stats := by
    rw [hleft, Site.finish_bus]
    exact hstands.of_failed htodo hfailure hasked
  have hpending : (w.act u.site.bus.next).site.bus.echoes.pending = u.site.bus.echoes.spared := by
    rw [hechoes, Echoes.pending_forget_record]
  refine ⟨hcause, hstats, bounded_of_reachable hsteady hring hbounded hreach, ?_, ?_⟩
  · rw [hpending]
    exact Echoes.spared_eq_iff
  · intro henabled hfull
    rw [hpending, Echoes.spared, if_pos ⟨henabled, hfull⟩]

/-- Two sends through a ring whose kernel takes the first record and a part of the second. -/
theorem undone_after_short_write : ∃ b m', ∃ frame : Frame,
    (Bus.make .ring "can0" {}).run { kernel := { replies := [.accepted 16, .accepted 8] } } =
      (.ok b, m') ∧
    (let u := replay ⟨b, m'⟩ (calling 0 .connect ++ calling 2 (.send frame))
     let w := (((u.after (.start (.send frame))).act 3).act 3).act 3
     u.site.bus.echoes.pending = [frame.encode] ∧
      w.site.bus.echoes.pending = [frame.encode, frame.encode] ∧
      ((w.act 3).site.advance 3).1 = .ends (.error (.shortWrite 8 16)) ∧
      ((w.act 3).act 3).site.bus.echoes.pending = [frame.encode] ∧
      ((w.act 3).act 3).site.bus.reception.stats = { sent := 1 }) := by
  obtain ⟨frame, m, b, m', hm, hfresh, hmake, hnext, hpending, hrecorded, hended, hstats⟩ :
      ∃ (frame : Frame) (m : Medium) (b : Bus) (m' : Medium),
        m = { kernel := { replies := [.accepted 16, .accepted 8] } } ∧ m.kernel.Fresh ∧
        (Bus.make .ring "can0" {}).run m = (.ok b, m') ∧
        (let u := replay ⟨b, m'⟩ (calling 0 .connect ++ calling 2 (.send frame))
         let w := (((u.after (.start (.send frame))).act 3).act 3).act 3
         u.site.bus.next = (3 : OperationId) ∧ u.site.bus.echoes.pending = [frame.encode] ∧
          w.site.bus.echoes.pending = [frame.encode, frame.encode] ∧
          ((w.act 3).site.operation? 3).map (fun o => (o.todo, o.outcome)) =
            some ([], .error (.shortWrite 8 16)) ∧
          u.site.bus.reception.stats = { sent := 1 }) :=
    ⟨⟨0x101, 0, 1, #v[1, 0, 0, 0, 0, 0, 0, 0], by decide⟩, _, _, _, rfl, fun _ _ => rfl, rfl,
      by decide +kernel, by decide +kernel, by decide +kernel, by decide +kernel,
      by decide +kernel⟩
  have hreach := reachable_replay ⟨b, m'⟩ (calling 0 .connect ++ calling 2 (.send frame))
  generalize hu : replay ⟨b, m'⟩ (calling 0 .connect ++ calling 2 (.send frame)) = u at *
  have hrun : Undisturbed 3 (u.after (.start (.send frame)))
      (((((u.after (.start (.send frame))).act 3).act 3).act 3).act 3) :=
    .own (.own (.own (.own .refl)))
  generalize hw : (((u.after (.start (.send frame))).act 3).act 3).act 3 = w at *
  have hends : ((w.act 3).site.advance 3).1 = .ends (.error (.shortWrite 8 16)) := by
    obtain ⟨o, hfind, hsame⟩ := Option.map_eq_some_iff.mp hended
    obtain ⟨htodo, houtcome⟩ := Prod.mk.inj hsame
    rw [outcome_advance hfind htodo, houtcome]
  have hnot : Error.shortWrite 8 16 ≠ .notConnected := nofun
  rw [← hnext] at hrun hends
  obtain ⟨-, hcounted, -, hkept, -⟩ := undone_unless_full hfresh hmake hreach frame hrun hends hnot
  rw [hnext, hpending] at hkept
  rw [hnext] at hcounted hends
  rw [hm] at hmake
  have hroom : [frame.encode].length ≠ Echoes.capacity := by
    rw [List.length_singleton]
    decide
  have hsame := hkept.mpr fun hfull => hroom hfull.2
  have hsent := hcounted.trans hstats
  subst hu hw
  exact ⟨b, m', frame, hmake, hpending, hrecorded, hends, hsame, hsent⟩

/-- With 1024 records waiting for their echoes, a send that is refused costs the oldest of them. -/
theorem oldest_lost_on_refusal : ∃ b m' u w, ∃ frame : Frame,
    (Bus.make .ring "can0" {}).run {} = (.ok b, m') ∧ Reachable ⟨b, m'⟩ u ∧
    Undisturbed u.site.bus.next (u.after (.start (.send frame))) w ∧
    (w.site.advance u.site.bus.next).1 = .ends (.error (.io (.os ⟨105⟩))) ∧
    u.site.bus.echoes.pending = List.replicate 1024 frame.encode ∧
    (w.act u.site.bus.next).site.bus.echoes.pending = List.replicate 1023 frame.encode := by
  obtain ⟨b, m', resource, hmake, hconnected⟩ : ∃ b m' resource,
      (Bus.make .ring "can0" {}).run {} = (.ok b, m') ∧
      (replay ⟨b, m'⟩ (calling 0 .connect)).site.Serves resource [] [] { enabled := true } :=
    ⟨_, _, _, rfl, rfl, rfl, rfl, rfl, rfl, rfl, rfl⟩
  obtain ⟨frame, -⟩ : ∃ frame : Frame, frame.dlc = 1 :=
    ⟨⟨0x101, 0, 1, #v[1, 0, 0, 0, 0, 0, 0, 0], by decide⟩, rfl⟩
  obtain ⟨v, hrun, hv⟩ := exists_filled hconnected frame (Nat.le_refl _)
  -- the next write is refused
  obtain ⟨u, hu⟩ : ∃ u : Life, u = { v with site := { v.site with medium := { v.site.medium with
    kernel := { v.site.medium.kernel with replies := [.refused ⟨105⟩] } } } } := ⟨_, rfl⟩
  have hserves : u.site.Serves resource [.refused ⟨105⟩] []
      { enabled := true, pending := List.replicate 1024 frame.encode } := by
    rw [hu]
    exact hv.written rfl
  have hrefused := (hserves.remembered frame).refused rfl rfl rfl
  have hreach : Reachable ⟨b, m'⟩ u := by
    have hall := (reachable_replay ⟨b, m'⟩ (calling 0 .connect)).trans hrun
    rw [hu]
    exact .step hall trivial (.outside ⟨Nat.le_refl _, nofun, fun hfresh => hfresh⟩)
  refine ⟨b, m', u, ((((u.after (.start (.send frame))).act u.site.bus.next).act
    u.site.bus.next).act u.site.bus.next).act u.site.bus.next, frame, hmake, hreach,
    .own (.own (.own (.own .refl))), ?_, ?_, ?_⟩
  · exact congrArg Prod.fst (Site.advance_ends hrefused.operation? rfl)
  · rw [hserves.echoes_eq]
  · have hleft := (hrefused.finish rfl).echoes_eq
    rw [site_act]
    refine (congrArg Echoes.pending hleft).trans ?_
    rw [Echoes.pending_forget_record, Echoes.spared, if_pos ⟨rfl, List.length_replicate⟩,
      List.drop_replicate]

end Life

end CanTransport
