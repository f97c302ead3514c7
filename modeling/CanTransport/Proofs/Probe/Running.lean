import CanTransport.Proofs.Bus.Takings
import CanTransport.Proofs.Bus.Counters
import CanTransport.Proofs.Probe.Dumping
import CanTransport.Proofs.Probe.Sessions
/-!
# A dump in a session

A run of the probe lets the tasks go as far as they can before it looks at what they left. That is
one of the orders in which a dump and its bus can act, so that what the probe prints is what such a
dump prints.
-/

namespace CanTransport

/-- Every frame was handed to the listener that is installed. -/
def Reception.Sole (r : Reception) : Prop := ∀ d ∈ r.deliveries, d.subscription = r.subscription

namespace Reception

variable {r : Reception}

theorem Sole.take (h : r.Sole) (taking : Taking) : (r.take taking).Sole := by
  cases taking with
  | nothing | lost | failure => exact h
  | frame received =>
    intro d hd
    rcases List.mem_append.mp hd with hold | hnew
    · exact h d hold
    · rw [List.mem_singleton.mp hnew]
      rfl

theorem subscription_take (r : Reception) (taking : Taking) :
    (r.take taking).subscription = r.subscription := by
  cases taking <;> rfl

end Reception

namespace Life

variable {w w' : Life} {event : Event}

theorem Step.sole (hstep : Step event w w') (hold : event.isNew = false)
    (h : w.site.bus.reception.Sole) :
    w'.site.bus.reception.Sole ∧
      w'.site.bus.reception.subscription = w.site.bus.reception.subscription := by
  cases hstep with
  | start | subscribe => cases hold
  | outside => exact ⟨h, rfl⟩
  | act id =>
    show (w.site.advance id).2.bus.reception.Sole ∧
      (w.site.advance id).2.bus.reception.subscription = _
    rcases Site.advance_eq w.site id with heq | ⟨o, -, -, -, heq⟩ |
      ⟨o, -, action, rest, s', o', -, -, hperform, heq⟩
    · rw [heq]
      exact ⟨h, rfl⟩
    · rw [heq, Site.finish_bus]
      exact ⟨h, rfl⟩
    · rw [heq, Site.collect_bus]
      show s'.bus.reception.Sole ∧ s'.bus.reception.subscription = _
      rw [Operation.reception_perform hperform]
      cases action <;> exact ⟨h, rfl⟩
  | run id =>
    show (w.site.run id).bus.reception.Sole ∧ (w.site.run id).bus.reception.subscription = _
    rcases Site.run_eq w.site id with ⟨-, heq⟩ | ⟨r, -, heq⟩
    · rw [heq]
      exact ⟨h, rfl⟩
    · rw [heq, Site.collect_bus]
      show (r.step w.site).1.bus.reception.Sole ∧ (r.step w.site).1.bus.reception.subscription = _
      rw [Receiver.reception_step]
      split
      · rename_i outcome _
        cases outcome <;> exact ⟨h, rfl⟩
      · exact ⟨h.take _, Reception.subscription_take _ _⟩

end Life

namespace Probe

namespace Dumping

variable {limit : Option Nat} {d d' d'' : Dumping} {w : Life} {m : Member} {s : Site}
  {outcome : Except Error Unit} {t : Session}

theorem Run.trans (h : Run limit d d') (h' : Run limit d' d'') : Run limit d d'' := by
  induction h' with
  | refl => exact h
  | step _ hstep ih => exact .step ih hstep

/-- What others do is something that the bus of a dump does. -/
theorem run_others (h : Life.Run Life.Event.ofOthers d.life w) :
    Run limit d { d with life := w } := by
  induction h with
  | refl => exact .refl
  | @step w w' event _ hothers hstep ih =>
    refine .step ih (Step.bus (d := { d with life := w }) hstep ?_ fun outcome heq => ?_)
    · cases event with
      | run | outside => rfl
      | start | act | subscribe => cases hothers
    · rw [heq] at hothers
      cases hothers

/-- So is what its call does before it returns. -/
theorem run_advances (h : Life.Advances d.call d.life w) : Run limit d { d with life := w } := by
  induction h with
  | refl => exact .refl
  | @act w _ hgoes ih =>
    exact .step ih (Step.bus (d := { d with life := w }) (.act d.call) rfl
      fun outcome _ => hgoes outcome)
  | @others w w' event _ hothers hstep ih =>
    exact ih.trans (run_others (d := { d with life := w })
      (.step .refl hothers hstep))

/-- Everything that a listener was handed is in its queue. -/
theorem handed_eq (hsole : d.life.site.bus.reception.Sole)
    (hsubscription : d.life.site.bus.reception.subscription = d.subscription) :
    d.handed = d.life.site.bus.reception.deliveries.map Delivery.frame := by
  rw [handed, List.filter_eq_self.mpr]
  intro delivery hmem
  rw [beq_iff_eq, hsole delivery hmem, hsubscription]

theorem result?_of_pending (hconnected : d.connected = some (.ok ()))
    (hpending : (follow limit 0 d.wakes).2 = .pending) : d.result? limit = none := by
  rw [result?, hconnected]
  simp only [hpending]

theorem taken_map_frame (frames : List Frame) : taken (frames.map .frame) = frames := by
  rw [taken, List.filterMap_map]
  exact List.filterMap_some

/-- A dump takes what is in its queue, as long as it waits. -/
theorem run_frames (hpoint : d.point = .following) (hconnected : d.connected = some (.ok ()))
    (hwakes : d.wakes = []) (k : Nat) (hk : k ≤ d.handed.length) :
    ∃ wakes, Run limit d { d with wakes := wakes } ∧
      follow limit 0 wakes = follow limit 0 ((d.handed.take k).map .frame) ∧
      ((follow limit 0 wakes).2 = .pending → wakes = (d.handed.take k).map .frame) := by
  induction k with
  | zero => exact ⟨[], hwakes ▸ .refl, rfl, fun _ => rfl⟩
  | succ k ih =>
    obtain ⟨wakes, hrun, hfollow, hall⟩ := ih (Nat.le_of_succ_le hk)
    have hnext : (d.handed.take (k + 1)).map Wake.frame =
        (d.handed.take k).map .frame ++ [.frame d.handed[k]] := by
      rw [List.take_succ_eq_append_getElem hk, List.map_append]
      rfl
    by_cases hpending : (follow limit 0 wakes).2 = .pending
    · have hwakes' := hall hpending
      have hnow : { d with wakes := wakes }.handed[(taken wakes).length]? = some d.handed[k] := by
        rw [hwakes', taken_map_frame, List.length_take, Nat.min_eq_left (Nat.le_of_succ_le hk)]
        exact List.getElem?_eq_getElem hk
      have hstep := Step.frame (d := { d with wakes := wakes }) hpoint
        (result?_of_pending (d := { d with wakes := wakes }) hconnected hpending) hnow
      refine ⟨wakes ++ [.frame d.handed[k]], ?_, ?_, fun _ => ?_⟩
      · exact hrun.step hstep
      · rw [hnext, hwakes']
      · rw [hnext, hwakes']
    · refine ⟨wakes, hrun, ?_, fun h => absurd h hpending⟩
      rw [hnext, follow_append_of_ended (hfollow ▸ hpending), hfollow]

/-- What is known of the listener of a dump that has its bus to itself. -/
structure Alone (d : Dumping) : Prop where
  sole : d.life.site.bus.reception.Sole
  subscription_eq : d.life.site.bus.reception.subscription = d.subscription
  idle : .idle ∈ d.life.site.bus.reception.published

theorem Alone.step (h : d.Alone) (hw : d.life.Sound) {event : Life.Event}
    (hstep : Life.Step event d.life w) (hold : event.isNew = false) :
    { d with life := w }.Alone := by
  obtain ⟨hsole, hsubscription⟩ := hstep.sole hold h.sole
  exact ⟨hsole, hsubscription.trans h.subscription_eq, published_kept hstep hw h.idle⟩

theorem Run.alone (hrun : Run limit (begun s) d) (hmade : s.Made) : d.Alone := by
  induction hrun with
  | refl =>
    have hreception : (begun s).life.site.bus.reception =
        ({} : Reception).subscribe { log := some probed } :=
      congrArg (Reception.subscribe _) hmade.reception_eq
    refine ⟨?_, rfl, ?_⟩
    · rw [hreception]
      exact nofun
    · rw [hreception]
      exact List.mem_singleton_self _
  | @step d d' hrun hstep ih =>
    have hw := Life.Run.sound (hrun.kept hmade).reachable (Life.sound_of_made hmade)
    cases hstep with
    | bus hstep hold => exact ih.step hw hstep hold
    | connected | disconnected =>
      have hafter := ih.step hw (.act d.call) rfl
      exact ⟨hafter.sole, hafter.subscription_eq, hafter.idle⟩
    | frame | state | closed | shutdown | returned | printed =>
      exact ⟨ih.sole, ih.subscription_eq, ih.idle⟩

/-- A dump is woken by all that its bus has for it, in the order in which the probe looks at it. -/
theorem run_wakes (h : d.Alone) (hpoint : d.point = .following)
    (hconnected : d.connected = some (.ok ())) (hwakes : d.wakes = []) (hseen : d.seen = 1) :
    ∃ d', Run limit d d' ∧ d'.life = d.life ∧ d'.point = .following ∧
      d'.connected = some (.ok ()) ∧
      follow limit 0 d'.wakes = follow limit 0 (Probe.wakes d.life.site.bus.reception) := by
  obtain ⟨woken, hrun, hfollow, hall⟩ := @run_frames limit d hpoint hconnected hwakes
    d.handed.length (Nat.le_refl _)
  have hframes : Probe.wakes d.life.site.bus.reception =
      (d.handed.take d.handed.length).map .frame ++ [.state d.life.site.bus.reception.state] := by
    rw [List.take_length, handed_eq h.sole h.subscription_eq, List.map_map]
    rfl
  by_cases hpending : (follow limit 0 woken).2 = .pending
  · cases hstate : d.life.site.bus.reception.state with
    | failed reason =>
      -- The bus was idle first, so a failure is news.
      have hmem := mem_published_of_state hstate
      have hidle := h.idle
      have hlength : 1 < d.life.site.bus.reception.published.length := by
        rcases hpublished : d.life.site.bus.reception.published with _ | ⟨first, _ | ⟨second, rest⟩⟩
        · rw [hpublished] at hmem
          cases hmem
        · rw [hpublished, List.mem_singleton] at hmem hidle
          cases hmem.trans hidle.symm
        · exact Nat.succ_lt_succ (Nat.zero_lt_succ _)
      have hstep := Step.state (d := { d with wakes := woken }) hpoint
        (result?_of_pending (d := { d with wakes := woken }) hconnected hpending)
        (hseen ▸ hlength) (Nat.le_refl _)
      refine ⟨_, hrun.step hstep, rfl, hpoint, hconnected, ?_⟩
      rw [hframes, ← hall hpending]
      rfl
    | idle | running | stopped =>
      refine ⟨_, hrun, rfl, hpoint, hconnected, ?_⟩
      rw [hframes, hstate, ← hall hpending, follow_concat hpending]
      simp [Wake.frame?, Wake.ending, ← hpending]
  · refine ⟨_, hrun, rfl, hpoint, hconnected, ?_⟩
    rw [hframes, follow_append_of_ended (hfollow ▸ hpending)]
    exact hfollow

/-- What a dump in a session comes to is what a dump beside its bus can come to. -/
theorem exists_run_of_dump (hname : m.name = probed) (hmade : s.Made) {frames : List Frame}
    {ending : Ending} (h : dump limit (sessionOf m s) = (.ok (frames, ending), t)) :
    ∃ d, Run limit (begun s) d ∧ d.point = .following ∧ d.connected = some (.ok ()) ∧
      follow limit 0 d.wakes = (frames, ending) ∧ t = sessionOf m d.life.site := by
  rw [dump, Session.subscribe, visit_sessionOf hname] at h
  rcases hconnect : (sessionOf m (s.onReception (Reception.subscribe
    { log := some probed }))).request probed .connect with ⟨outcome, u⟩
  simp only [hconnect] at h
  cases outcome with
  | error e => cases h
  | ok done =>
    cases done
    obtain ⟨w, w', hadvances, hends, hothers, rfl⟩ :=
      advances_request (w := (begun s).life) hname rfl hconnect nofun
    have hall : ∃ w'', Life.Run Life.Event.ofOthers w' w'' ∧
        (sessionOf m w'.site).runAll = sessionOf m w''.site := exists_run_forEach _ w'
    obtain ⟨w'', hall, hsession⟩ := hall
    have hcalled : Run limit (begun s) { begun s with life := w } := run_advances hadvances
    have hconnected := hcalled.step (.connected rfl hends)
    have hlater := hconnected.trans (run_others (hothers.trans hall))
    have hfollows := @run_wakes limit _ (hlater.alone hmade) rfl rfl rfl (by
      show s.bus.reception.published.length = 1
      rw [hmade.reception_eq]
      rfl)
    obtain ⟨d, hwoken, hlife, hpoint, hok, hfollow⟩ := hfollows
    simp only [hsession, reception_sessionOf hname] at h
    obtain ⟨hsame, rfl⟩ := Prod.mk.inj h
    exact ⟨d, hlater.trans hwoken, hpoint, hok, hfollow.trans (Except.ok.inj hsame), by rw [hlife]⟩

/-- What the probe prints of a dump that has returned is what a dump beside its bus has printed by
the time that it has printed its counters. -/
theorem exists_run_of_runDump (hname : m.name = probed) (hmade : s.Made) {frames : List Frame}
    {ending : Ending} {u : Session} (hdump : dump limit (sessionOf m s) = (.ok (frames, ending), t))
    (hends : ending ≠ .pending) (hdisconnect : t.request probed .disconnect = (.ok (), u))
    (colors : Bool) (channel : String) (json : Bool) :
    ∃ d, Run limit (begun s) d ∧ d.lines limit = frames ∧ d.result? limit = some (.ok ending) ∧
      d.statistics = some (reception u).stats ∧ u = sessionOf m d.life.site ∧
      (runDump colors channel limit json (sessionOf m s)).stdout =
        String.join ((d.lines limit).map fun frame =>
          "  " ++ styled colors .cyan channel ++ "  " ++ frame.text ++ "\n") ++
        if json then statsJson (reception u).stats else statsText colors (reception u).stats := by
  obtain ⟨d, hrun, hpoint, hconnected, hfollow, rfl⟩ := exists_run_of_dump hname hmade hdump
  have hresult : d.result? limit = some (.ok ending) :=
    (result?_eq_some_iff hconnected ending).mpr ⟨congrArg Prod.snd hfollow, hends⟩
  have hlines : d.lines limit = frames := congrArg Prod.fst hfollow
  have hreturned := hrun.step (.returned hpoint hresult)
  obtain ⟨w, w', hadvances, hleft, hothers, rfl⟩ :=
    advances_request (w := d.life.after (.start .disconnect)) hname rfl hdisconnect nofun
  have hended := (hreturned.trans (run_advances hadvances)).step (.disconnected rfl hleft)
  have hprinted := (hended.trans (run_others hothers)).step (.printed rfl)
  refine ⟨_, hprinted, hlines, hresult, ?_, rfl, ?_⟩
  · rw [reception_sessionOf hname]
  · unfold runDump
    simp only [hdump, hdisconnect]
    cases ending with
    | pending => exact absurd rfl hends
    | done | failed =>
      rw [← hlines]
      rfl

/-! ## What a dump prints and when it returns -/

/-- Whatever wakes it in whatever order, a dump on any transport prints the first frames that its
listener is handed, at most as many as its limit says, but one if that is none. It returns as soon
as so many are printed, and otherwise only for a failure, a closed channel or a signal. Then the bus
is disconnected, and after that the counters are printed. -/
theorem faithful_of_run {transport : Transport} {channel : String} {c : BusConfig}
    {medium m' : Medium} {b : Bus} (hfresh : medium.kernel.Fresh)
    (hmake : (Bus.make transport channel c).run medium = (.ok b, m'))
    (hrun : Run limit (begun ⟨b, m'⟩) d) : d.Faithful limit := by
  obtain ⟨-, hmade⟩ := Bus.made_of_make hfresh hmake
  have hkept := hrun.kept hmade
  exact hkept.faithful (Life.Run.sound hkept.reachable (Life.sound_of_made hmade))

/-- A medium on which every socket finds three frames. -/
def greeted (frame : UInt32 → Frame) : Medium :=
  { kernel := { greeting := [1, 2, 3].map fun n => .record (frame n).encode.toList } }

/-- A dump of two frames prints the first two and returns; all three are counted when the bus is
disconnected. -/
theorem faithful_dump : ∃ frame b m' d,
    (Bus.make .cancellable "can0" {}).run (greeted frame) = (.ok b, m') ∧
    Run (some 2) (begun ⟨b, m'⟩) d ∧ d.lines (some 2) = [frame 1, frame 2] ∧
    d.result? (some 2) = some (.ok .done) ∧ d.statistics = some { received := 3 } ∧
    d.Faithful (some 2) := by
  obtain ⟨frame, b, m', hmake, hdump, hdisconnect, hstats⟩ : ∃ (frame : UInt32 → Frame) (b : Bus)
      (m' : Medium), (Bus.make .cancellable "can0" {}).run (greeted frame) = (.ok b, m') ∧
      (let following := dump (some 2) (sessionOf { name := probed, bus := b } ⟨b, m'⟩)
       let leaving := following.2.request probed .disconnect
       following.1 = .ok ([frame 1, frame 2], .done) ∧ leaving.1 = .ok () ∧
        (reception leaving.2).stats = { received := 3 }) :=
    ⟨fun n => ⟨n, 0, 1, Frame.padded [7], by decide⟩, _, _, rfl, by decide +kernel⟩
  have hfresh : (greeted frame).kernel.Fresh := fun _ _ => rfl
  obtain ⟨-, hmade⟩ := Bus.made_of_make hfresh hmake
  obtain ⟨d, hrun, hlines, hresult, hprinted, -⟩ := exists_run_of_runDump rfl hmade
    (Prod.ext hdump rfl) nofun (Prod.ext hdisconnect rfl) false "can0" false
  rw [hstats] at hprinted
  exact ⟨frame, b, m', d, hmake, hrun, hlines, hresult, hprinted, faithful_of_run hfresh hmake hrun⟩

/-- A dump of no frames prints the first one, and only then returns. -/
theorem line_of_no_limit : ∃ frame b m' d,
    (Bus.make .cancellable "can0" {}).run (greeted frame) = (.ok b, m') ∧
    Run (some 0) (begun ⟨b, m'⟩) d ∧ d.lines (some 0) = [frame 1] ∧
    d.result? (some 0) = some (.ok .done) := by
  obtain ⟨frame, b, m', hmake, hdump⟩ : ∃ (frame : UInt32 → Frame) (b : Bus)
      (m' : Medium), (Bus.make .cancellable "can0" {}).run (greeted frame) = (.ok b, m') ∧
      (dump (some 0) (sessionOf { name := probed, bus := b } ⟨b, m'⟩)).1 =
        .ok ([frame 1], .done) :=
    ⟨fun n => ⟨n, 0, 1, Frame.padded [7], by decide⟩, _, _, rfl, by decide +kernel⟩
  have hfresh : (greeted frame).kernel.Fresh := fun _ _ => rfl
  obtain ⟨-, hmade⟩ := Bus.made_of_make hfresh hmake
  obtain ⟨d, hrun, -, hconnected, hfollow, -⟩ :=
    exists_run_of_dump rfl hmade (Prod.ext hdump rfl)
  refine ⟨frame, b, m', d, hmake, hrun, congrArg Prod.fst hfollow, ?_⟩
  exact (result?_eq_some_iff hconnected .done).mpr ⟨congrArg Prod.snd hfollow, nofun⟩

end Dumping

end Probe

end CanTransport
