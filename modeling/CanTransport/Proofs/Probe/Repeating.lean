import CanTransport.Proofs.Probe.Finishing
/-!
# A repeated send on a bus

A repeated send on a bus of any transport, beside a reception task and whatever happens outside.
Each of its sends writes the record of the frame once and reports how that was answered. So what the
run has written, printed and returned follows from the answers to its writes and from the report of
its disconnect.
-/

namespace CanTransport.Probe

/-! ## Calls that hand their records over -/

section

variable {calls : List Call} {transport : Transport} {frame : Frame}

theorem verdicts_of_hands (h : ∀ c ∈ calls, c.Hands transport frame) :
    (calls.flatMap Call.parcels).map Parcel.verdict = calls.map Call.outcome := by
  induction calls with
  | nil => rfl
  | cons c rest ih =>
    obtain ⟨⟨p, hparcels, -, -, houtcome⟩, hrest⟩ := List.forall_mem_cons.mp h
    rw [List.flatMap_cons, hparcels, List.singleton_append, List.map_cons, List.map_cons, ih hrest,
      houtcome]

theorem records_of_hands (h : ∀ c ∈ calls, c.Hands transport frame) :
    ∀ w ∈ calls.flatMap Call.parcels, w.raw = frame.encode ∧ w.Suits transport := by
  intro w hw
  obtain ⟨c, hc, hmem⟩ := List.mem_flatMap.mp hw
  obtain ⟨p, hparcels, hraw, hsuits, -⟩ := h c hc
  rw [hparcels, List.mem_singleton] at hmem
  subst hmem
  exact ⟨hraw, hsuits⟩

theorem opened_of_sends {c : Call} (hconnects : c.Connects)
    (h : ∀ d ∈ calls, d.request = .send frame) : Opened (c :: calls) := by
  induction calls using List.reverseRecOn with
  | nil => exact .connected hconnects
  | append_singleton before last ih =>
    obtain ⟨hbefore, hlast⟩ := List.forall_mem_append.mp h
    exact (ih hbefore).sent (hlast last (List.mem_singleton_self last))

end

/-- Everything that has left the bus. -/
def Courier.writes (d : Courier) : List Parcel := d.calls.flatMap Call.parcels ++ d.left

namespace Repetition

/-- What a repeated send has done when it has come to its end, with the report of its disconnect
and what it comes to. -/
structure Settles (p : Repetition) (transport : Transport) (d : Courier)
    (left : Except Error Unit) (result : Result) : Prop where
  /-- One send for each write, and then a disconnect. -/
  requests_eq : d.calls.map Call.request =
    .connect :: List.replicate d.writes.length (.send p.frame) ++ [.disconnect]
  left_eq : d.calls.getLast? = some ⟨.disconnect, [], left⟩
  /-- Always the same record. -/
  records : ∀ w ∈ d.writes, w.raw = p.frame.encode ∧ w.Suits transport
  /-- The writes end with the first that fails. -/
  length_eq : ∀ answers, d.writes.map Parcel.verdict = (List.range d.writes.length).map answers →
    d.writes.length = min p.times.toNat (firstFailure answers p.times.toNat)
  printed_iff : result.stdout = p.line ↔ ∀ w ∈ d.writes, w.verdict = .ok ()
  silent_iff : result.stdout = "" ↔ ∃ w ∈ d.writes, w.verdict ≠ .ok ()
  code_iff : result.code = 0 ↔ (∀ w ∈ d.writes, w.verdict = .ok ()) ∧ left = .ok ()
  /-- An error of the disconnect goes first. -/
  left_reported : ∀ e, left = .error e → result.stderr = report e.chain
  sent_reported : left = .ok () → ∀ w ∈ d.writes, ∀ e, w.verdict = .error e →
    result.stderr = report (("Failed to send " ++ p.frame.text) :: e.chain)

/-- What holds of a repeated send on a bus, whatever happens meanwhile. -/
structure Performed (p : Repetition) (transport : Transport) (s : Site) : Prop where
  /-- What the probe prints and returns in a session that sees its calls through is what a run can
  come to. -/
  in_session : ∀ m : Member, m.name = probed → p.errand.Completes (sessionOf m s) →
    ∃ d, Courier.Reachable s p.errand d ∧ d.place = .between (.ended
      (runSend p.colors p.channel p.frame p.times.toNat p.interval (sessionOf m s)))
  /-- The index never becomes too large for its type. -/
  fits : ∀ d, Courier.Reachable s p.errand d → d.place ≠ .between .overflow
  ends : ∀ d, Courier.Reachable s p.errand d → d.Ends
  begins : ∀ d result, Courier.Reachable s p.errand d → d.place = .between (.ended result) →
    ∃ c rest, d.calls = c :: rest ∧ c.request = .connect
  refused : ∀ d result c rest e, Courier.Reachable s p.errand d →
    d.place = .between (.ended result) → d.calls = c :: rest → c.outcome = .error e →
    rest = [] ∧ d.writes = [] ∧ result = .failed "" e.chain
  settles : ∀ d result c rest, Courier.Reachable s p.errand d →
    d.place = .between (.ended result) → d.calls = c :: rest → c.outcome = .ok () →
    ∃ left, p.Settles transport d left result

variable {p : Repetition} {s : Site} {d : Courier} {log : List Outbox.Entry} {result : Result}
  {c : Call} {rest : List Call} {e : Error}

open Courier

theorem fits (hreach : Reachable s p.errand d) : d.place ≠ .between .overflow :=
  fun hplace => (stands_of_leads (hreach.leads.1 _ hplace)).ne_overflow rfl

/-- What has left the bus by the end of a run has left it with a call. -/
theorem writes_eq (hkept : d.Kept s log) (hplace : d.place = .between (.ended result)) :
    d.writes = d.calls.flatMap Call.parcels := by
  cases hkept.underway with
  | between _ _ hleft => rw [writes, hleft, List.append_nil]
  | calling hother => cases hplace.symm.trans hother

/-- A call that is no send has handed nothing over. -/
theorem parcels_eq_nil (hkept : d.Kept s log) (hc : c ∈ d.calls)
    (hrequest : c.request = .connect ∨ c.request = .disconnect) : c.parcels = [] := by
  refine hkept.silent c hc ?_
  rcases hrequest with hrequest | hrequest <;> rw [hrequest] <;> rfl

/-- A run that has come to its end behind a connect that succeeded: each of its sends has handed a
record over, and its other calls none. -/
theorem exists_sends (hkept : d.Kept s log) (hreach : Reachable s p.errand d)
    (hplace : d.place = .between (.ended result)) (hcalls : d.calls = c :: rest)
    (hok : c.outcome = .ok ()) : ∃ sends sent left,
      d.calls = c :: sends ++ [⟨.disconnect, [], left⟩] ∧ c.request = .connect ∧
      p.Sent sends sent ∧ d.writes = sends.flatMap Call.parcels ∧
      (∀ c ∈ sends, c.Hands s.bus.transport p.frame) ∧ result = p.result sent left := by
  have hstands := stands_of_leads (hreach.leads.1 _ hplace)
  rcases hstands.of_ended with ⟨first, e, hone, -, hfailed, -⟩ |
    ⟨first, sends, last, sent, hall, hconnects, hsent, hlast, hresult⟩
  · obtain ⟨rfl, -⟩ := List.cons.inj (hcalls.symm.trans hone)
    cases hok.symm.trans hfailed
  · obtain ⟨rfl, -⟩ := List.cons.inj (hcalls.symm.trans hall)
    have hfirst : c.parcels = [] :=
      parcels_eq_nil hkept (hcalls ▸ List.mem_cons_self) (Or.inl hconnects.1)
    have hsilent : last.parcels = [] := parcels_eq_nil hkept
      (hall ▸ List.mem_append_right _ (List.mem_singleton_self _)) (Or.inr hlast)
    have hhands : ∀ c ∈ sends, c.Hands s.bus.transport p.frame := by
      intro call hcall
      have hrequests := hsent.request_eq
      obtain ⟨before, after, rfl⟩ := List.append_of_mem hcall
      have hopened : Opened (c :: before) := opened_of_sends hconnects fun other hother =>
        hrequests other (List.mem_append_left _ hother)
      refine hkept.hands (c :: before) call (after ++ [last]) p.frame ?_ hopened
        (hrequests call hcall)
      rw [hall]
      simp
    refine ⟨sends, sent, last.outcome, ?_, hconnects.1, hsent, ?_, hhands, hresult⟩
    · rw [hall, ← hlast, ← hsilent]
    · rw [writes_eq hkept hplace, hall]
      simp [hfirst, hsilent]

/-- What a run has come to follows from the answers to its writes and the report of its
disconnect. -/
theorem settles_of_ended (hkept : d.Kept s log) (hreach : Reachable s p.errand d)
    (hplace : d.place = .between (.ended result)) (hcalls : d.calls = c :: rest)
    (hok : c.outcome = .ok ()) : ∃ left, p.Settles s.bus.transport d left result := by
  obtain ⟨sends, sent, left, hall, hconnect, hsent, hwrites, hhands, rfl⟩ :=
    exists_sends hkept hreach hplace hcalls hok
  have hverdicts : d.writes.map Parcel.verdict = sends.map Call.outcome := by
    rw [hwrites]
    exact verdicts_of_hands hhands
  have hlength : d.writes.length = sends.length := by
    simpa only [List.length_map] using congrArg List.length hverdicts
  have htaken := calc
    (∀ w ∈ d.writes, w.verdict = .ok ()) ↔
        ∀ outcome ∈ d.writes.map Parcel.verdict, outcome = .ok () := by rw [List.forall_mem_map]
    _ ↔ ∀ outcome ∈ sends.map Call.outcome, outcome = .ok () := by rw [hverdicts]
    _ ↔ ∀ c ∈ sends, c.outcome = .ok () := by rw [List.forall_mem_map]
    _ ↔ sent = .ok () := hsent.ok_iff.symm
  have hfailed : ∀ e, (∃ w ∈ d.writes, w.verdict = .error e) ↔ sent = .error e := by
    intro e
    rw [hsent.error_iff e, ← List.mem_map, hverdicts, List.mem_map]
  have hrequests : sends.map Call.request = List.replicate sends.length (.send p.frame) := by
    rw [List.eq_replicate_iff, List.length_map]
    exact ⟨rfl, List.forall_mem_map.mpr hsent.request_eq⟩
  refine ⟨left, {
    requests_eq := ?requests
    left_eq := hall ▸ List.getLast?_concat
    records := hwrites ▸ records_of_hands hhands
    length_eq := fun answers hanswers => ?length
    printed_iff := by rw [stdout_result, stdout_eq_line_iff, htaken]
    silent_iff := ?silent
    code_iff := by rw [code_result_eq_zero_iff, htaken]
    left_reported := ?left
    sent_reported := ?sent }⟩
  case requests =>
    rw [hall, List.map_append, List.map_cons, hconnect, hrequests, hlength]
    rfl
  case length =>
    rw [hverdicts, hlength] at hanswers
    rw [hlength]
    exact hsent.length_eq hanswers
  case silent =>
    rw [stdout_result, stdout_eq_empty_iff, ne_eq, ← htaken]
    simp only [not_forall, exists_prop, ne_eq]
  case left =>
    rintro e rfl
    rfl
  case sent =>
    rintro rfl w hw e hverdict
    rw [(hfailed e).mp ⟨w, hw, hverdict⟩]
    rfl

theorem begins_of_ended (hreach : Reachable s p.errand d)
    (hplace : d.place = .between (.ended result)) :
    ∃ c rest, d.calls = c :: rest ∧ c.request = .connect := by
  rcases (stands_of_leads (hreach.leads.1 _ hplace)).of_ended with ⟨c, e, hone, hconnect, -⟩ |
    ⟨c, sends, last, sent, hall, hconnects, -⟩
  · exact ⟨c, [], hone, hconnect⟩
  · exact ⟨c, sends ++ [last], hall, hconnects.1⟩

/-- A run whose connect failed has done nothing else. -/
theorem refused_of_ended (hkept : d.Kept s log) (hreach : Reachable s p.errand d)
    (hplace : d.place = .between (.ended result)) (hcalls : d.calls = c :: rest)
    (hfailed : c.outcome = .error e) : rest = [] ∧ d.writes = [] ∧ result = .failed "" e.chain := by
  have hstands := stands_of_leads (hreach.leads.1 _ hplace)
  rcases hstands.of_ended with ⟨first, e', hone, hconnect, hfailed', rfl⟩ |
    ⟨first, sends, last, sent, hall, hconnects, -⟩
  · obtain ⟨rfl, rfl⟩ := List.cons.inj (hcalls.symm.trans hone)
    cases hfailed.symm.trans hfailed'
    have hparcels : c.parcels = [] :=
      parcels_eq_nil hkept (hcalls ▸ List.mem_cons_self) (Or.inl hconnect)
    refine ⟨rfl, ?_, rfl⟩
    rw [writes_eq hkept hplace, hcalls, List.flatMap_singleton, hparcels]
  · obtain ⟨rfl, -⟩ := List.cons.inj (hcalls.symm.trans hall)
    cases hfailed.symm.trans hconnects.2

/-- A repeated send on a bus of any transport, whatever happens meanwhile, comes to its end, and
what it has written, printed and returned by then follows from the answers to its writes and the
report of its disconnect. -/
theorem performed_of_make {transport : Transport} {channel : String} {config : BusConfig}
    {medium m' : Medium} {b : Bus} (hfresh : medium.kernel.Fresh)
    (hmake : (Bus.make transport channel config).run medium = (.ok b, m')) (p : Repetition) :
    p.Performed transport ⟨b, m'⟩ := by
  obtain ⟨htransport, hmade⟩ := Bus.made_of_make hfresh hmake
  have hbegin := Life.considerate_of_make hfresh hmake
  refine ⟨fun m hname hcompletes => ?_, fun d => fits, fun d hreach => ?_,
    fun d result => begins_of_ended, ?_, ?_⟩
  · exact exists_run_of_inSession (s := ⟨b, m'⟩) hname p.errand .refl rfl hcompletes
      (inSession_errand p _)
  · exact hreach.ends hmade hbegin fun d => fits
  · intro d result c rest e hreach hplace hcalls hfailed
    obtain ⟨log, hkept⟩ := hreach.exists_kept hmade
    exact refused_of_ended hkept hreach hplace hcalls hfailed
  · intro d result c rest hreach hplace hcalls hok
    obtain ⟨log, hkept⟩ := hreach.exists_kept hmade
    rw [← htransport]
    exact settles_of_ended hkept hreach hplace hcalls hok

/-- A medium that takes one record and refuses the next. -/
def refusing : Medium := { kernel := { replies := [.accepted 16, .refused .notPermitted] } }

/-- Of three sends the second is refused: there is no third, the bus is disconnected, and nothing is
printed but the error of the send. The probe itself can run so in a session. -/
theorem performed_refused : ∃ (p : Repetition) (b : Bus) (m' : Medium) (d : Courier)
    (result : Result), (Bus.make .cancellable "can0" {}).run refusing = (.ok b, m') ∧
    Reachable ⟨b, m'⟩ p.errand d ∧ d.place = .between (.ended result) ∧ p.times = 3 ∧
    d.calls.map Call.request = [.connect, .send p.frame, .send p.frame, .disconnect] ∧
    d.writes.map Parcel.verdict = [.ok (), .error (.io (.os .notPermitted))] ∧
    result.code = 1 ∧ result.stdout = "" ∧ p.Performed .cancellable ⟨b, m'⟩ ∧
    (∃ left, p.Settles .cancellable d left result) ∧
    ∃ d', Reachable ⟨b, m'⟩ p.errand d' ∧ d'.place = .between (.ended (runSend p.colors p.channel
      p.frame p.times.toNat p.interval (sessionOf { name := probed, bus := b } ⟨b, m'⟩))) := by
  obtain ⟨p, b, m', movers, hmake, hcourier, hcompletes⟩ : ∃ (p : Repetition) (b : Bus)
      (m' : Medium) (movers : List Mover),
      (Bus.make .cancellable "can0" {}).run refusing = (.ok b, m') ∧
      (let d := (setOut ⟨b, m'⟩ p.errand).follow movers
       d.result?.map (fun result => (result.code, result.stdout)) = some (1, "") ∧ p.times = 3 ∧
        d.calls.map Call.request = [.connect, .send p.frame, .send p.frame, .disconnect] ∧
        d.calls.head?.map Call.outcome = some (.ok ()) ∧
        d.writes.map Parcel.verdict = [.ok (), .error (.io (.os .notPermitted))]) ∧
      p.errand.Completes (sessionOf { name := probed, bus := b } ⟨b, m'⟩) :=
    ⟨⟨⟨0x101, 0, 1, Frame.padded [1], by decide⟩, 3, 5, "can0", false⟩, _, _,
      List.replicate 24 .courier ++ List.replicate 3 (.task 1) ++ List.replicate 9 .courier, rfl,
      by decide +kernel⟩
  obtain ⟨hresult, htimes, hrequests, hconnect, hwrites⟩ := hcourier
  obtain ⟨result, hended, hprinted⟩ := Option.map_eq_some_iff.mp hresult
  obtain ⟨hcode, hstdout⟩ := Prod.mk.inj hprinted
  obtain ⟨c, hc, hok⟩ := Option.map_eq_some_iff.mp hconnect
  obtain ⟨rest, hcalls⟩ := List.head?_eq_some_iff.mp hc
  have hreach := reachable_follow ⟨b, m'⟩ p.errand movers
  have hplace := place_of_result? hended
  have hperformed := performed_of_make (fun _ _ => rfl) hmake p
  exact ⟨p, b, m', _, result, hmake, hreach, hplace, htimes, hrequests, hwrites, hcode, hstdout,
    hperformed, hperformed.settles _ _ c rest hreach hplace hcalls hok,
    hperformed.in_session { name := probed, bus := b } rfl hcompletes⟩

end Repetition

end CanTransport.Probe
