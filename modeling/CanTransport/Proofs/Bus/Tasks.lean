import CanTransport.Proofs.Bus.Turns
import CanTransport.Proofs.Bus.Actions
/-!
# Tasks of any transport

What one action of a reception task does to the rest of its bus, whatever it reads: it leaves the
callers and the lock alone, and it publishes in one case only, how its loop ended once it has
returned. A task whose listener does not return publishes nothing.
-/

namespace CanTransport

namespace Reception

/-- Nothing is published, and calls of listeners are only added. -/
structure Continues (r r' : Reception) : Prop where
  published_eq : r'.published = r.published
  deliveries : r.deliveries <+: r'.deliveries

theorem Continues.refl (r : Reception) : Continues r r := ⟨rfl, List.prefix_rfl⟩

theorem Continues.state_eq {r r' : Reception} (h : Continues r r') : r'.state = r.state := by
  rw [state, state, h.published_eq]

theorem Continues.count (change : Stats → Stats) (r : Reception) :
    Continues r (r.count change) := ⟨rfl, List.prefix_rfl⟩

theorem Continues.deliverWire (raw : Wire) (r : Reception) :
    Continues r (r.deliverWire raw).2 := by
  unfold Reception.deliverWire
  split
  · exact ⟨rfl, List.prefix_append _ _⟩
  · exact .count _ r

/-- A call that did not return is on record. -/
theorem exists_not_returned {raw : Wire} {r : Reception} (h : (r.deliverWire raw).1 = false) :
    ∃ d ∈ (r.deliverWire raw).2.deliveries, d.returned = false := by
  unfold deliverWire at h ⊢
  split
  · rename_i frame hframe
    rw [hframe] at h
    exact ⟨_, List.mem_append_right _ List.mem_cons_self, h⟩
  · rename_i e hframe
    rw [hframe] at h
    cases h

/-- A loop that has ended is not published as running. -/
theorem state_finish_ne_running (outcome : Except Error Unit) (r : Reception) :
    (r.finish outcome).state ≠ .running := by
  cases outcome with
  | ok done => exact nofun
  | error e => exact nofun

end Reception

namespace Stage

/-- Whether a task there has published its end, or will never do so. -/
def isOver : Stage → Bool
  | .published | .exited _ => true
  | _ => false

/-- Whether a task there was ended by its listener. -/
def hasDied : Stage → Bool
  | .exited died => died
  | _ => false

end Stage

namespace Receiver

def isOver (r : Receiver) : Bool := r.stage.isOver

def hasDied (r : Receiver) : Bool := r.stage.hasDied

theorem hasDied_of_going {r : Receiver} (h : r.isOver = false) : r.hasDied = false := by
  unfold isOver at h
  unfold hasDied
  cases hstage : r.stage with
  | exited died => rw [hstage] at h; cases h
  | _ => rfl

theorem isOver_of_hasExited {r : Receiver} (h : r.hasExited = true) : r.isOver = true := by
  unfold hasExited at h
  split at h
  · rename_i died hstage
    rw [isOver, hstage]
    rfl
  · cases h

/-- What one action of a task publishes. -/
inductive Report (s : Site) (r : Receiver) (s' : Site) (r' : Receiver) : Prop where
  /-- Nothing, and the task goes on as before, or was over already. -/
  | silent (hcontinues : s.bus.reception.Continues s'.bus.reception)
      (hover : r'.isOver = r.isOver) (hdied : r'.hasDied = r.hasDied)
  /-- Nothing, and the task is gone. -/
  | dies (hcontinues : s.bus.reception.Continues s'.bus.reception) (hgoing : r.isOver = false)
      (hdied : r'.hasDied = true)
      (hlistener : ∃ d ∈ s'.bus.reception.deliveries, d.returned = false)
  /-- How the loop ended. -/
  | ends {outcome : Except Error Unit} (hstage : r.stage = .returned outcome)
      (hreception : s'.bus.reception = s.bus.reception.finish outcome)
      (hstage' : r'.stage = .published)

/-- What one action of a task comes to for its bus. -/
structure Acts (s : Site) (r : Receiver) (s' : Site) (r' : Receiver) : Prop where
  bus_eq : s'.bus = { s.bus with reception := s'.bus.reception, echoes := s'.bus.echoes }
  quiet : Kernel.Quiet s.medium.kernel s'.medium.kernel
  id_eq : r'.id = r.id
  /-- A task keeps its resource or lets go of it. -/
  handle_eq : r'.handle = r.handle ∨ r'.handle = none
  report : Report s r s' r'

variable {s s' : Site} {r r' : Receiver}

theorem Acts.spares (h : Acts s r s' r') :
    Kernel.Spares (fun _ => False) s.medium.kernel s'.medium.kernel :=
  h.quiet.spares fun _ hfalse => hfalse.elim

/-- A task that goes on, or has left its loop without saying so. -/
theorem Acts.silent (hgoing : r.isOver = false)
    (hbus : s'.bus = { s.bus with reception := s'.bus.reception, echoes := s'.bus.echoes })
    (hcontinues : s.bus.reception.Continues s'.bus.reception)
    (hquiet : Kernel.Quiet s.medium.kernel s'.medium.kernel) (hid : r'.id = r.id)
    (hhandle : r'.handle = r.handle ∨ r'.handle = none) (hover : r'.isOver = false) :
    Acts s r s' r' :=
  ⟨hbus, hquiet, hid, hhandle, .silent hcontinues (hover.trans hgoing.symm)
    ((hasDied_of_going hover).trans (hasDied_of_going hgoing).symm)⟩

theorem isOver_goTo (r : Receiver) (stage : Stage) : (r.goTo stage).isOver = stage.isOver := by
  rw [isOver, stage_goTo]

/-- A task that only goes to another place. -/
theorem Acts.move (stage : Stage) (hgoing : r.isOver = false) (hover : stage.isOver = false) :
    Acts s r s (r.goTo stage) :=
  .silent hgoing rfl (.refl _) (Kernel.Quiet.refl _) (id_goTo r stage)
    (goTo_handle r stage) ((isOver_goTo r stage).trans hover)

theorem Acts.leave (outcome : Except Error Unit) (hgoing : r.isOver = false) :
    Acts s r s (r.goTo (.returned outcome)) :=
  .move _ hgoing rfl

theorem acts_ask (hgoing : r.isOver = false) : Acts s r (r.ask s).1 (r.ask s).2 := by
  unfold ask
  split
  · simp only
    split
    · exact .silent hgoing rfl (.refl _) (Kernel.Quiet.refl _) rfl (Or.inl rfl) hgoing
    · exact .silent hgoing rfl (.refl _) (Kernel.Quiet.refl _) (id_goTo _ _) (goTo_handle _ _) rfl
  · exact .silent hgoing rfl (.count _ _) (Kernel.Quiet.refl _) rfl (Or.inl rfl) hgoing
  · exact .leave _ hgoing
  · exact .silent hgoing rfl (.refl _) (Kernel.Quiet.refl _) rfl (Or.inl rfl) hgoing

theorem acts_atTop (hgoing : r.isOver = false) : Acts s r (r.atTop s).1 (r.atTop s).2 := by
  unfold atTop
  cases s.bus.transport with
  | cancellable =>
    simp only
    split
    · exact .leave _ hgoing
    · split
      · exact .silent hgoing rfl (.refl _) (Kernel.Quiet.refl _) rfl (Or.inl rfl) hgoing
      · exact .move .receiving hgoing rfl
  | virtual =>
    simp only
    split
    · exact .leave _ hgoing
    · exact acts_ask hgoing
  | blocking | batched =>
    simp only
    split
    · exact .leave _ hgoing
    · exact .move .receiving hgoing rfl
  | ring =>
    simp only
    split
    · exact .leave _ hgoing
    · exact .move (.looking { cursor := r.cursor }) hgoing rfl

/-- A failed call ends the loop or leads back to its top. -/
theorem acts_fail {k : Kernel} (f : Failure) (hgoing : r.isOver = false)
    (hquiet : Kernel.Quiet s.medium.kernel k) :
    Acts s r (r.fail (s.withKernel k) f).1 (r.fail (s.withKernel k) f).2 := by
  have hover : (r.goTo (afterFailure f).2).isOver = false := by
    unfold afterFailure
    split
    · rfl
    · rfl
  unfold fail
  split
  · exact .silent hgoing rfl (.refl _) hquiet (id_goTo _ _) (goTo_handle _ _) rfl
  · simp only
    split
    · exact .silent hgoing rfl (.count _ _) hquiet (id_goTo _ _) (goTo_handle _ _) hover
    · exact .silent hgoing rfl (.refl _) hquiet (id_goTo _ _) (goTo_handle _ _) hover

/-- A listener that does not return ends the task; nothing is published then. -/
theorem acts_handOn (echoes : Echoes) {raw : Wire} {next : Stage} (hgoing : r.isOver = false)
    (hover : next.isOver = false) :
    Acts s r (r.handOn (s.setBus { s.bus with echoes := echoes }) raw next).1
      (r.handOn (s.setBus { s.bus with echoes := echoes }) raw next).2 := by
  refine ⟨rfl, Kernel.Quiet.refl _, ?_, ?_, ?_⟩
  · rw [handOn_snd, id_goTo]
  · rw [handOn_snd]
    exact goTo_handle _ _
  · have hcontinues := Reception.Continues.deliverWire raw s.bus.reception
    rw [handOn_snd]
    split
    · have hnext : (r.goTo next).isOver = false := (isOver_goTo r next).trans hover
      exact .silent hcontinues (hnext.trans hgoing.symm)
        ((hasDied_of_going hnext).trans (hasDied_of_going hgoing).symm)
    · rename_i hreturned
      exact .dies hcontinues hgoing rfl
        (Reception.exists_not_returned (Bool.eq_false_iff.mpr hreturned))

theorem acts_handleRecord {bytes : List UInt8} {rest : List (List UInt8)}
    (hgoing : r.isOver = false) :
    Acts s r (r.handleRecord s bytes rest).1 (r.handleRecord s bytes rest).2 := by
  unfold handleRecord
  split
  · have hnext : (if rest.isEmpty then Stage.top else .holding rest).isOver = false := by
      split
      · rfl
      · rfl
    exact acts_handOn s.bus.echoes hgoing hnext
  · exact .silent hgoing rfl (.count _ _) (Kernel.Quiet.refl _) (id_goTo _ _) (goTo_handle _ _) rfl

theorem acts_look {g : Geometry} {m : Memory} {sweep : Sweep} (hgoing : r.isOver = false) :
    Acts s r (r.look s g m sweep).1 (r.look s g m sweep).2 := by
  unfold look
  split
  · exact .move (.swept sweep) hgoing rfl
  · simp only
    split
    · exact .silent hgoing rfl (.refl _) (Kernel.Quiet.refl _) (id_goTo _ _) (goTo_handle _ _) rfl
    · exact .silent hgoing rfl (.refl _) (Kernel.Quiet.refl _) (id_goTo _ _) (goTo_handle _ _) rfl
    · exact .silent hgoing rfl (.count _ _) (Kernel.Quiet.refl _) (id_goTo _ _) (goTo_handle _ _)
        rfl
    · exact acts_handOn _ hgoing rfl

theorem continues_countLost (s : Site) :
    s.bus.reception.Continues (countLost s).bus.reception := by
  unfold countLost
  rcases hrun : s.onKernel Kernel.statistics.run with ⟨e | n, s'⟩
  all_goals have hbus : s.bus = s'.bus := congrArg (·.2.bus) hrun
  · rw [hbus]
    exact .refl _
  · rw [hbus]
    exact .count _ _

theorem acts_endSweep {g : Geometry} {sweep : Sweep} (hgoing : r.isOver = false) :
    Acts s r (r.endSweep s g sweep).1 (r.endSweep s g sweep).2 := by
  have hlost : ∃ s', s' = (if sweep.losing then countLost s else s) ∧
      s'.bus = { s.bus with reception := s'.bus.reception } ∧
      s.bus.reception.Continues s'.bus.reception ∧
      Kernel.Quiet s.medium.kernel s'.medium.kernel := by
    refine ⟨_, rfl, ?_⟩
    split
    · exact ⟨(bus_countLost s).1, continues_countLost s, quiet_countLost s⟩
    · exact ⟨rfl, .refl _, Kernel.Quiet.refl _⟩
  obtain ⟨s', hs', hbus, hcontinues, hquiet⟩ := hlost
  have hbus' : s'.bus = { s.bus with reception := s'.bus.reception, echoes := s'.bus.echoes } := by
    rw [hbus]
  unfold endSweep
  simp only [← hs']
  split
  · exact .silent hgoing hbus' hcontinues hquiet (id_goTo _ _) (goTo_handle _ _) rfl
  · exact .silent hgoing hbus' hcontinues hquiet (id_goTo _ _) (goTo_handle _ _) rfl

theorem acts_onRing {action : Descriptor → Geometry → Memory → Site × Receiver}
    (hgoing : r.isOver = false)
    (h : ∀ fd g m, Acts s r (action fd g m).1 (action fd g m).2) :
    Acts s r (r.onRing s action).1 (r.onRing s action).2 := by
  unfold onRing
  split
  · exact .leave _ hgoing
  · exact h _ _ _

/-- A receive call takes something from a queue, if the kernel is asked at all. -/
theorem acts_receive (hgoing : r.isOver = false) :
    Acts s r (r.receive s).1 (r.receive s).2 := by
  unfold receive
  split
  · exact .leave _ hgoing
  · rename_i resource hresource
    simp only
    split
    · have hquiet : Kernel.Quiet s.medium.kernel
          ((if resource.socket.closed then throw CanSocket.closedFailure
            else ExceptT.adapt Failure.os (Kernel.receiveMany resource.key
              s.bus.config.batch.size.toNat) : Kernel.Op Failure (List (List UInt8))).run
            s.medium.kernel).2 := by
        split
        · exact Kernel.Quiet.refl _
        · exact Kernel.quiet_receiveMany resource.key s.bus.config.batch.size.toNat _
      split
      all_goals
        rename_i hrun
        cases congrArg Prod.snd hrun
      · exact .silent hgoing rfl (.count _ _) hquiet (id_goTo _ _) (goTo_handle _ _) rfl
      · exact .silent hgoing rfl (.refl _) hquiet (id_goTo _ _) (goTo_handle _ _) rfl
      · exact acts_fail _ hgoing hquiet
    · have hquiet : Kernel.Quiet s.medium.kernel
          ((if s.bus.transport = .blocking then resource.socket.awaitRecord
            else resource.socket.receive : Kernel.Op Failure (List UInt8)).run
            s.medium.kernel).2 := by
        unfold CanSocket.receive
        split
        · exact Kernel.quiet_receive resource.key _
        · split
          · exact Kernel.Quiet.refl _
          · exact Kernel.quiet_receive resource.key _
      split
      all_goals
        rename_i hrun
        cases congrArg Prod.snd hrun
      · exact .silent hgoing rfl (.refl _) hquiet (id_goTo _ _) (goTo_handle _ _) rfl
      · exact acts_fail _ hgoing hquiet

/-- What one action of any task comes to for its bus. -/
theorem acts_step (s : Site) (r : Receiver) : Acts s r (r.step s).1 (r.step s).2 := by
  unfold step
  cases hstage : r.stage with
  | published =>
    have hover : r.isOver = true := by rw [isOver, hstage]; rfl
    have hdied : r.hasDied = false := by rw [hasDied, hstage]; rfl
    exact ⟨rfl, Kernel.Quiet.refl _, id_goTo _ _, goTo_handle _ _,
      .silent (.refl _) hover.symm hdied.symm⟩
  | exited died => exact ⟨rfl, Kernel.Quiet.refl _, rfl, Or.inl rfl, .silent (.refl _) rfl rfl⟩
  | returned outcome =>
    have hgoing : r.isOver = false := by rw [isOver, hstage]; rfl
    exact ⟨rfl, Kernel.Quiet.refl _, id_goTo _ _, goTo_handle _ _,
      .ends hstage rfl rfl⟩
  | top => exact acts_atTop (by rw [isOver, hstage]; rfl)
  | receiving => exact acts_receive (by rw [isOver, hstage]; rfl)
  | holding records =>
    have hgoing : r.isOver = false := by rw [isOver, hstage]; rfl
    cases records with
    | nil => exact .move .top hgoing rfl
    | cons bytes rest => exact acts_handleRecord hgoing
  | looking sweep =>
    have hgoing : r.isOver = false := by rw [isOver, hstage]; rfl
    exact acts_onRing hgoing fun _ _ _ => acts_look hgoing
  | releasing sweep =>
    have hgoing : r.isOver = false := by rw [isOver, hstage]; rfl
    refine acts_onRing hgoing fun fd g m => ?_
    have hquiet := Kernel.quiet_changePacket fd (fun packet => { packet with
      memory := sweep.release g m }) s.medium.kernel
    exact .silent hgoing rfl (.refl _) hquiet (id_goTo _ _) (goTo_handle _ _) rfl
  | advancing sweep =>
    have hgoing : r.isOver = false := by rw [isOver, hstage]; rfl
    exact acts_onRing hgoing fun _ g _ => .move (.looking (sweep.advance g)) hgoing rfl
  | swept sweep =>
    have hgoing : r.isOver = false := by rw [isOver, hstage]; rfl
    exact acts_onRing hgoing fun _ _ _ => acts_endSweep hgoing
  | sleeping deadline order =>
    have hgoing : r.isOver = false := by rw [isOver, hstage]; rfl
    simp only
    split
    · exact .leave _ hgoing
    · split
      · exact .move .top hgoing rfl
      · exact .silent hgoing rfl (.refl _) (Kernel.Quiet.refl _) rfl (Or.inl rfl) hgoing

end Receiver

end CanTransport
