import CanTransport.Bus.Lifetime
import CanTransport.Proofs.Bus.Withdrawal
/-!
# Agreement of the sockets

The three loops that read a socket make the same of the same events, however these were cut into
portions, and whatever the caller and the task do first.
-/

namespace CanTransport

namespace Intake

variable {key : Descriptor} {id : ReceiverId} {result : Reception × Ending} {R : Reception}
variable {s : Site} {w w' w'' : Intake} {r : Receiver}

theorem sound_start (h : s.Attends key id) :
    Sound key (s.bus.reception.through (start key s).arrived) (start key s) := by
  obtain ⟨r, hreceivers, hid, hstage, hhandle, hcancelled⟩ := h.receivers_eq
  obtain ⟨resource, hfind, hopen⟩ := h.resource
  have htold : ¬ r.Told s := by
    unfold Receiver.Told
    split
    · unfold Receiver.isClosed Receiver.resource?
      rw [hhandle, Option.bind_some, hfind, Option.map_some, Option.getD_some, hopen]
      decide
    · rw [hcancelled]
      decide
  refine Or.inl ⟨r, hreceivers, ⟨h.socket, h.size_pos, ?_, ?_⟩, ?_, ?_, ?_, ?_⟩
  · rw [Receiver.Reads, hstage]
    exact hhandle
  · exact fun _ => ⟨⟨resource, hfind, fun _ => hopen⟩, h.proper, fun hstop => absurd hstop htold⟩
  · rw [Receiver.LeadsTo, hstage]
    rfl
  · rintro ⟨⟩
  · intro _ hnone
    rw [hhandle] at hnone
    cases hnone
  · refine .going rfl h.operations_eq ⟨h.published_eq, h.lock_eq, ?_⟩ fun _ => htold
    rw [hid]
    exact h.connection_eq

/-- More to read leads to what follows from it, unless the task has ended. -/
theorem Attending.arrive {medium : Medium} {events : List Arrival}
    (h : Attending key (R.through w.arrived) w r) (hgoing : w.stopping = false)
    (hproper : .endOfStream ∉ events)
    (hqueue : medium.kernel.arrivals key = w.site.medium.kernel.arrivals key ++ events) :
    Attending key (R.through (w.arrived ++ events))
      { w with site := { w.site with medium := medium }, arrived := w.arrived ++ events } r := by
  have hended : r.handle = none →
      R.through (w.arrived ++ events) = R.through w.arrived :=
    fun hnone => Reception.through_append_of_ended (h.ended hgoing hnone)
  refine ⟨h.receivers_eq, ⟨h.attached.socket, h.attached.size_pos, h.attached.reads, ?_⟩,
    ?_, ?_, ?_, ?_⟩
  · intro hhandle
    have hlistening := h.attached.listening hhandle
    refine ⟨hlistening.resource, ?_, fun hstop =>
      absurd hstop (h.course.not_told hgoing hhandle)⟩
    show .endOfStream ∉ medium.kernel.arrivals key
    rw [hqueue, List.mem_append]
    rintro (hold | hnew)
    · exact hlistening.proper hold
    · exact hproper hnew
  · have hreads := h.attached.reads
    have hleads := h.leadsTo
    unfold Receiver.LeadsTo at hleads ⊢
    unfold Receiver.Reads at hreads
    cases hstage : r.stage <;> simp only [hstage] at hleads hreads ⊢
    case top | receiving =>
      rw [hqueue]
      exact (Reception.through_append_congr hleads.symm events).symm
    case holding records =>
      rw [hqueue, ← List.append_assoc]
      exact (Reception.through_append_congr hleads.symm events).symm
    case returned | published | exited =>
      rw [hended hreads]
      exact hleads
  · intro hstopping
    rw [show w.stopping = true from hstopping] at hgoing
    cases hgoing
  · intro _ hnone
    rw [hended hnone]
    exact h.ended hgoing hnone
  · apply h.course.congr
    · rfl
    · rfl
    · rfl
    · rfl
    · rfl
    · rfl
    · rfl
    · exact fun hhandle => ⟨hhandle, Iff.rfl⟩

theorem Attending.disconnect (h : Attending key result w r) (hgoing : w.stopping = false)
    (hdrained : w.Drained key) :
    Attending key result { w with site := (w.site.start .disconnect).2, stopping := true } r := by
  refine h.aside rfl rfl (fun _ hhandle => ?_) (fun hnot => ?_) ?_
  · exact hdrained r (by rw [h.receivers_eq]; exact List.mem_singleton_self r) hhandle
  · cases hnot
  · cases h.course with
    | going _ hnone hconnected =>
      have hone : (w.site.start .disconnect).2.bus.operations =
          [{ id := w.site.bus.next, request := .disconnect, todo := [.enter] }] := by
        show w.site.bus.operations ++ _ = _
        rw [hnone]
        rfl
      exact .asked rfl hone rfl rfl hconnected
    | asked hstopping | withdrawing hstopping | closing hstopping | cancelling hstopping
    | joining hstopping =>
      rw [hgoing] at hstopping
      cases hstopping

/-- Every step keeps what all events so far lead to. -/
theorem Step.sound (hstep : Step key w w') (h : Sound key (R.through w.arrived) w) :
    Sound key (R.through w'.arrived) w' := by
  cases hstep with
  | arrive hgoing hproper hqueue =>
    rcases h with ⟨r, h⟩ | h
    · exact Or.inl ⟨r, h.arrive hgoing hproper hqueue⟩
    · rw [h.stopping] at hgoing
      cases hgoing
  | run id =>
    rcases h with ⟨r, h⟩ | h
    · exact Or.inl (h.run id)
    · have hsame : w.site.run id = w.site := by
        unfold Site.run
        simp [Bus.receiver?, h.receivers_eq]
      rw [hsame]
      exact Or.inr h
  | disconnect hgoing hdrained =>
    rcases h with ⟨r, h⟩ | h
    · exact Or.inl ⟨r, h.disconnect hgoing hdrained⟩
    · rw [h.stopping] at hgoing
      cases hgoing
  | act id => exact h.act id

theorem Reaches.sound (hreach : Reaches key w w') (h : Sound key (R.through w.arrived) w) :
    Sound key (R.through w'.arrived) w' := by
  induction hreach with
  | refl => exact h
  | step _ hstep ih => exact hstep.sound ih

theorem Reaches.trans (h : Reaches key w w') (h' : Reaches key w' w'') : Reaches key w w'' := by
  induction h' with
  | refl => exact h
  | step _ hstep ih => exact .step ih hstep

/-! ## The end -/

theorem Sound.reception_of_over (h : Sound key result w) (hover : w.Over) :
    w.site.bus.reception = Reception.settle result := by
  rcases h with ⟨r, h⟩ | h
  · have hexited := hover.2 r (by rw [h.receivers_eq]; exact List.mem_singleton_self r)
    have hleads := h.leadsTo
    unfold Receiver.hasExited at hexited
    unfold Receiver.LeadsTo at hleads
    cases hstage : r.stage <;> simp only [hstage] at hexited hleads
    case exited => exact hleads
    all_goals cases hexited
  · exact h.reception_eq

/-- A task that reads and finds nothing more has everything handed on. -/
theorem Sound.through_of_reading (h : Sound key result w) (hr : r ∈ w.site.bus.receivers)
    (hstage : r.stage = .top ∨ r.stage = .receiving)
    (hempty : w.site.medium.kernel.arrivals key = []) :
    result = (w.site.bus.reception, .reading) := by
  rcases h with ⟨other, h⟩ | h
  · rw [h.receivers_eq, List.mem_singleton] at hr
    subst hr
    have hleads := h.leadsTo
    rcases hstage with hstage | hstage
    all_goals
      rw [Receiver.LeadsTo, hstage, hempty] at hleads
      exact hleads.symm
  · rw [h.receivers_eq] at hr
    cases hr

/-- A bus to which nothing more comes is over, or an action brings it closer to its end. -/
theorem Sound.closer (h : Sound key result w) (hover : ¬ w.Over) :
    ∃ w', Step key w w' ∧ w'.arrived = w.arrived ∧ w'.rank key < w.rank key := by
  rcases h with ⟨r, h⟩ | h
  · have hrun : (w.site.medium.kernel.arrivals key ≠ [] ∨ r.Told w.site ∨ r.stage ≠ .top) →
        r.hasExited = false →
        ∃ w', Step key w w' ∧ w'.arrived = w.arrived ∧ w'.rank key < w.rank key :=
      fun hbusy hexited => ⟨_, .run r.id, rfl, h.run_lt hbusy hexited⟩
    rcases h.operations_eq with ⟨hgoing, hnone⟩ | ⟨-, o, hone⟩
    · have hexited : r.hasExited = false := by
        rw [← Bool.not_eq_true]
        intro hexited
        refine hover ⟨hnone, ?_⟩
        rw [h.receivers_eq]
        intro other hmem
        rw [List.mem_singleton.mp hmem]
        exact hexited
      by_cases hidle : w.site.medium.kernel.arrivals key = [] ∧ r.stage = .top
      · have hdrained : w.Drained key := fun _ _ _ => hidle.1
        refine ⟨_, .disconnect hgoing hdrained, rfl, ?_⟩
        rw [(h.disconnect hgoing hdrained).rank_eq, h.rank_eq, hgoing, hnone]
        show 0 + total ((w.site.bus.operations ++ [_]).map _) + _ < 20 + 0 + _
        rw [hnone]
        show 0 + (10 + 0) + r.rank (w.site.medium.kernel.arrivals key).length < _
        omega
      · refine hrun ?_ hexited
        rcases not_and_or.mp hidle with hbusy | hbusy
        · exact Or.inl hbusy
        · exact Or.inr (Or.inr hbusy)
    · rcases h.acted hone with ⟨-, hexited, htold⟩ | ⟨-, hlt⟩
      · refine hrun ?_ hexited
        rcases Receiver.handle_of_reads h.attached.reads with hhandle | hhandle
        · refine Or.inr (Or.inr fun hstage => ?_)
          have hreads := h.attached.reads
          rw [Receiver.Reads, hstage, hhandle] at hreads
          cases hreads
        · exact Or.inr (Or.inl (htold hhandle))
      · exact ⟨_, .act o.id, rfl, hlt⟩
  · rcases h.course with hnone | ⟨o, hone, htodo⟩
    · refine absurd ⟨hnone, ?_⟩ hover
      rw [h.receivers_eq]
      intro r hmem
      cases hmem
    · exact ⟨_, .act o.id, rfl, (h.acted hone htodo).2⟩

/-- By induction on how far it is: every bus can be brought to its end without further events. -/
theorem Sound.over (h : Sound key (R.through w.arrived) w) :
    ∃ last, Reaches key w last ∧ last.arrived = w.arrived ∧ last.Over := by
  generalize hrank : w.rank key = n
  induction n using Nat.strongRecOn generalizing w with
  | ind n ih =>
    by_cases hover : w.Over
    · exact ⟨w, .refl, rfl, hover⟩
    · obtain ⟨w', hstep, harrived, hlt⟩ := h.closer hover
      obtain ⟨last, hreach, hlast, hover'⟩ :=
        ih (w'.rank key) (hrank ▸ hlt) (hstep.sound h) rfl
      exact ⟨last, Reaches.trans (.step .refl hstep) hreach, hlast.trans harrived, hover'⟩

end Intake

end CanTransport
