import CanTransport.Proofs.Bus.Agreement
import CanTransport.Proofs.Bus.Ledger
/-!
# Rings and sockets

What the notes of a ring come to in sum, and that a bus on a socket makes the same of the same
records, if none of them is held back on the ring.
-/

namespace CanTransport

namespace Reception

/-- A whole record is handed on. -/
theorem absorb_wire (r : Reception) (raw : Wire) :
    r.absorb (.record raw.toList) =
      ((r.deliverWire raw).2, if (r.deliverWire raw).1 then .reading else .died) := by
  have hwhole : Kernel.truncated raw.toList = raw.toList :=
    List.take_of_length_le (Nat.le_of_eq raw.length_toList)
  simp only [absorb, hwhole]
  rw [dif_pos (by simp)]
  rfl

/-- Whole records end a reader only if a listener does not return. -/
theorem through_wires (r : Reception) (raws : List Wire) :
    ∃ r', r.through (raws.map fun raw => .record raw.toList) = (r', .reading) ∨
      r.through (raws.map fun raw => .record raw.toList) = (r', .died) ∧
        ∃ d ∈ r'.deliveries, d.returned = false := by
  induction raws generalizing r with
  | nil => exact ⟨r, Or.inl rfl⟩
  | cons raw raws ih =>
    have habsorb := absorb_wire r raw
    rw [List.map_cons]
    by_cases hreturned : (r.deliverWire raw).1 = true
    · rw [if_pos hreturned] at habsorb
      rw [through_cons_of_reading habsorb]
      exact ih _
    · rw [if_neg hreturned] at habsorb
      rw [through_cons_of_ended habsorb (by decide)]
      exact ⟨_, Or.inr ⟨rfl, exists_not_returned (by simpa using hreturned)⟩⟩

end Reception

/-- Whether a bus on a socket has handed on all that arrived: its task waits for more, or it is over
and its listeners have returned from every call. -/
def Intake.HandedOn (key : Descriptor) (w : Intake) : Prop :=
  (∃ r ∈ w.site.bus.receivers, (r.stage = .top ∨ r.stage = .receiving) ∧
    w.site.medium.kernel.arrivals key = []) ∨
  w.Over ∧ ∀ d ∈ w.site.bus.reception.deliveries, d.returned = true

/-- A slot with a whole record that is no copy of a packet on its way out. -/
def Consumed.Plain (c : Consumed) : Prop :=
  ∃ raw kind, c.packet = some (.record raw kind) ∧ kind ≠ Slot.outgoing

/-- Without a memory of own sends every record is an arrival. -/
theorem Consumed.Plain.arrival {c : Consumed} {e : Echoes} (h : c.Plain)
    (hdisabled : e.enabled = false) (hfate : c.fate = e.fate c.packet) :
    ∃ raw, c.record? = some raw ∧
      c.fate = if Frame.Fits raw then .delivered else .malformed := by
  obtain ⟨raw, kind, hpacket, hkind⟩ := h
  refine ⟨raw, by rw [record?, hpacket], ?_⟩
  rw [hfate, hpacket, Echoes.fate_arrival hkind (by simp [hdisabled])]

namespace Ledger

variable {log : List Entry} {s t : Site} {base r r' : Reception} {cs : List Consumed}
  {key : Descriptor} {id : ReceiverId} {w : Intake}

/-- The records of the slots, as they come to a socket. -/
def records (log : List Entry) : List Arrival :=
  ((slots log).filterMap Consumed.record?).map fun raw => .record raw.toList

/-- What the notes of a ring come to. Every slot had its fate from its packet and the echoes that
were awaited then. -/
structure Tallies (first : Bus) (log : List Entry) (s : Site) : Prop where
  slots_eq : (slots log).length = s.bus.reception.deliveries.length + count log .outgoing +
    count log .echo + drops log
  fates : ∀ c ∈ slots log, ∃ e : Echoes,
    e.enabled = first.echoes.enabled ∧ c.fate = e.fate c.packet
  frames_eq : s.bus.reception.frames.map Except.ok =
    ((slots log).filterMap Consumed.arrival?).map Frame.ofWire
  received_eq : s.bus.reception.stats.received = UInt64.ofNat s.bus.reception.deliveries.length
  dropped_eq : s.bus.reception.stats.dropped =
    UInt64.ofNat (drops log + Kernel.losses (answers log))
  errors_eq : s.bus.reception.stats.errors = 0
  sweeps : ∀ task, ∃ passes rest, Sweeps log s task passes rest

/-- A bus on a socket got the same frames from the records of a ring, and counted the same, but for
what the kernel lost. -/
structure Agrees (log : List Entry) (s t : Site) (w : Intake) : Prop where
  frames_eq : w.site.bus.reception.frames = t.bus.reception.frames ++ s.bus.reception.frames
  received_eq : w.site.bus.reception.stats.received =
    t.bus.reception.stats.received + s.bus.reception.stats.received
  dropped_eq :
    w.site.bus.reception.stats.dropped + UInt64.ofNat (Kernel.losses (answers log)) =
      t.bus.reception.stats.dropped + s.bus.reception.stats.dropped
  errors_eq : w.site.bus.reception.stats.errors = t.bus.reception.stats.errors

/-- By induction on the slots: whoever hands on their records gets to the same sums. -/
theorem Sums.through (h : Sums base log r)
    (hcs : ∀ c ∈ cs, ∃ raw, c.record? = some raw ∧
      c.fate = if Frame.Fits raw then .delivered else .malformed)
    (hthrough : r.through ((cs.filterMap Consumed.record?).map fun raw => .record raw.toList) =
      (r', .reading)) (task : ReceiverId) :
    Sums base (log ++ cs.map (.consumed task)) r' := by
  induction cs generalizing log r with
  | nil =>
    cases hthrough
    rw [List.map_nil, List.append_nil]
    exact h
  | cons c cs ih =>
    obtain ⟨raw, hrecord, hfate⟩ := hcs c List.mem_cons_self
    have habsorb := Reception.absorb_wire r raw
    rw [List.filterMap_cons_some hrecord, List.map_cons] at hthrough
    by_cases hreturned : (r.deliverWire raw).1 = true
    · rw [if_pos hreturned] at habsorb
      rw [Reception.through_cons_of_reading habsorb] at hthrough
      have hnext := h.consumed (Reception.takes_deliverWire hrecord hfate r) task
      have hrest := ih hnext (fun c hc => hcs c (List.mem_cons_of_mem _ hc)) hthrough
      rw [List.append_assoc] at hrest
      exact hrest
    · rw [if_neg hreturned] at habsorb
      rw [Reception.through_cons_of_ended habsorb (by decide)] at hthrough
      cases hthrough

/-- A bus that has handed the records on has done nothing else. -/
theorem exists_through (hattends : t.Attends key id)
    (hreach : Intake.Reaches key (Intake.start key t) w) (harrived : w.arrived = records log)
    (hhanded : w.HandedOn key) :
    ∃ r', t.bus.reception.through (records log) = (r', .reading) ∧
      w.site.bus.reception.deliveries = r'.deliveries ∧ w.site.bus.reception.stats = r'.stats := by
  have hsound := hreach.sound (Intake.sound_start hattends)
  rw [harrived] at hsound
  rcases hhanded with ⟨r, hr, hstage, hempty⟩ | ⟨hover, hreturned⟩
  · exact ⟨_, hsound.through_of_reading hr hstage hempty, rfl, rfl⟩
  · have hreception := hsound.reception_of_over hover
    obtain ⟨r', hread | ⟨hdied, d, hd, hlost⟩⟩ := Reception.through_wires t.bus.reception
      ((slots log).filterMap Consumed.record?)
    · rw [records, hread] at hreception
      exact ⟨r', hread, by rw [hreception]; rfl, by rw [hreception]; rfl⟩
    · rw [records, hdied] at hreception
      have hd' : d ∈ w.site.bus.reception.deliveries := by
        rw [hreception]
        exact hd
      rw [hreturned d hd'] at hlost
      cases hlost

theorem slots_map_consumed (task : ReceiverId) (cs : List Consumed) :
    slots (cs.map (.consumed task)) = cs := by
  rw [slots, List.filterMap_map]
  exact List.filterMap_some

theorem answers_map_consumed (task : ReceiverId) (cs : List Consumed) :
    answers (cs.map (.consumed task)) = [] := by
  rw [answers, List.filterMap_map, List.filterMap_eq_nil_iff]
  exact fun _ _ => rfl

/-- Who handed on the records of a ring agrees with it. -/
theorem agrees_of_sums {first : Bus} (hfirst : first.reception = {})
    (hring : Sums first.reception log s.bus.reception)
    (hsocket : Sums t.bus.reception ((slots log).map (.consumed 0)) w.site.bus.reception) :
    Agrees log s t w := by
  have hslots := slots_map_consumed 0 (slots log)
  have hcount : ∀ fate, count ((slots log).map (.consumed 0)) fate = count log fate := by
    intro fate
    rw [count, hslots]
    rfl
  have hdrops : drops ((slots log).map (.consumed 0)) = drops log := by
    simp only [drops, hcount]
  have hframes := hsocket.frames_eq
  have hreceived := hsocket.received_eq
  have hdropped := hsocket.dropped_eq
  rw [hslots] at hframes
  rw [hcount] at hreceived
  rw [hdrops, answers_map_consumed] at hdropped
  have hframes' := hring.frames_eq
  have hreceived' := hring.received_eq
  have hdropped' := hring.dropped_eq
  rw [hfirst] at hframes' hreceived' hdropped'
  refine ⟨?_, ?_, ?_, hsocket.errors_eq⟩
  · have hinjective : Function.Injective (Except.ok : Frame → Except FrameFault Frame) :=
      fun _ _ h => Except.ok.inj h
    apply List.map_injective_iff.mpr hinjective
    rw [List.map_append, hframes, hframes']
    rfl
  · rw [hreceived, hreceived']
    exact congrArg _ (UInt64.zero_add _).symm
  · rw [hdropped, hdropped', UInt64.add_assoc, ← UInt64.ofNat_add]
    exact congrArg _ (UInt64.zero_add _).symm

/-- A bus that was just made has received nothing. -/
theorem reception_of_make {channel : String} {c : BusConfig} {m m' : Medium} {b : Bus}
    (h : (Bus.make .ring channel c).run m = (.ok b, m')) : b.reception = {} := by
  obtain ⟨-, resource, -, rfl⟩ := Bus.make_ring h
  rfl

theorem Kept.tallies {first : Bus} (h : Kept first log s) (hfirst : first.reception = {}) :
    Tallies first log s := by
  have hsums := h.sums
  rw [hfirst] at hsums
  have hdelivered : s.bus.reception.deliveries.length = count log .delivered :=
    hsums.delivered_eq.trans (Nat.zero_add _)
  refine ⟨?_, h.judged, hsums.frames_eq, ?_, ?_, hsums.errors_eq, h.sweeps⟩
  · rw [length_slots, hdelivered]
  · rw [hdelivered, hsums.received_eq]
    exact UInt64.zero_add _
  · rw [hsums.dropped_eq]
    exact UInt64.zero_add _

/-- Whatever happens to a bus with a ring, also to what is in its ring and between any two actions
of a task: each slot that a task consumed was delivered, or left out as the copy of a packet on its
way out or as the echo of an own send, or counted as one drop. Beyond that the drops grow by what
the kernel answered, and it was asked behind just those sweeps in which a slot said that packets
were lost. If every slot had a whole record, none of them a copy of a packet on its way out, and
echoes are not held back, a bus on a socket gets the same frames from these records and counts the
same, but for what the kernel lost. -/
theorem tallies_of_run {channel : String} {c : BusConfig} {m m' : Medium} {b : Bus}
    (hfresh : m.kernel.Fresh) (hmake : (Bus.make .ring channel c).run m = (.ok b, m'))
    (hrun : Run ⟨b, m'⟩ log s) : Tallies b log s ∧
    (b.echoes.enabled = false → (∀ c ∈ slots log, c.Plain) → ∀ {t key id w},
      Site.Attends key id t → Intake.Reaches key (Intake.start key t) w →
      w.arrived = records log → w.HandedOn key → Agrees log s t w) := by
  have hkept := hrun.kept (kept_of_make hfresh hmake)
  have hfirst := reception_of_make hmake
  refine ⟨hkept.tallies hfirst, ?_⟩
  intro hdisabled hplain t key id w hattends hreach harrived hhanded
  obtain ⟨r', hthrough, hdeliveries, hstats⟩ :=
    exists_through hattends hreach harrived hhanded
  have harrivals : ∀ c ∈ slots log, ∃ raw, c.record? = some raw ∧
      c.fate = if Frame.Fits raw then .delivered else .malformed := by
    intro c hc
    obtain ⟨e, henabled, hfate⟩ := hkept.judged c hc
    exact (hplain c hc).arrival (henabled.trans hdisabled) hfate
  have hsocket := (Sums.refl t.bus.reception).through harrivals hthrough 0
  exact agrees_of_sums hfirst hkept.sums (hsocket.congr hdeliveries (by rw [hstats]))

/-! ## A sweep with a loss -/

/-- What is noted of events, one after the other. -/
def entries (s : Site) : List Event → List Entry
  | [] => []
  | event :: rest => notes s event ++ entries (after s event) rest

theorem Run.follow {s' : Site} {events : List Event} (hrun : Run s log s')
    (hpossible : ∀ event ∈ events, ∀ s, event.Possible s) :
    Run s (log ++ entries s' events) (events.foldl after s') := by
  induction events generalizing log s' with
  | nil =>
    rw [entries, List.append_nil]
    exact hrun
  | cons event events ih =>
    rw [entries, ← List.append_assoc]
    exact ih (.step hrun (hpossible event List.mem_cons_self s'))
      fun other hother => hpossible other (List.mem_cons_of_mem _ hother)

/-- Something else happens to what buses share. -/
theorem Run.outside {b : Bus} {m m' : Medium} (hnext : m.kernel.next ≤ m'.kernel.next)
    (hfresh : m'.kernel.Fresh) : Run ⟨b, m⟩ [] ⟨b, m'⟩ := by
  have hpossible : Event.Possible ⟨b, m⟩ (.outside m') :=
    ⟨hnext, fun _ hfalse => hfalse.elim, fun _ => hfresh⟩
  exact @Run.step _ [] _ _ .refl hpossible

/-- A ring bus that does not hold echoes back is made and connected. Its first sweep finds a frame,
before which packets were lost, and a record that is no frame; the kernel says that it were seven
packets. -/
theorem exists_lossy_sweep : ∃ b m log s,
    (Bus.make .ring "can0" { loopback := false }).run {} = (.ok b, m) ∧ Run ⟨b, m⟩ log s ∧
    b.echoes.enabled = false ∧ answers log = [.ok 7] ∧
    slots log = [
      ⟨true, some (.record #v[1, 1, 0, 0, 1, 0, 0, 0, 5, 0, 0, 0, 0, 0, 0, 0] 1), .delivered⟩,
      ⟨false, some (.record #v[1, 1, 0, 0, 9, 0, 0, 0, 5, 0, 0, 0, 0, 0, 0, 0] 1), .malformed⟩] ∧
    s.bus.reception.stats = { received := 1, dropped := 8 } := by
  obtain ⟨good, hgood⟩ : ∃ good : Wire, good =
      #v[1, 1, 0, 0, 1, 0, 0, 0, 5, 0, 0, 0, 0, 0, 0, 0] := ⟨_, rfl⟩
  obtain ⟨bad, hbad⟩ : ∃ bad : Wire, bad =
      #v[1, 1, 0, 0, 9, 0, 0, 0, 5, 0, 0, 0, 0, 0, 0, 0] := ⟨_, rfl⟩
  obtain ⟨memory, hmemory⟩ : ∃ memory : Memory, memory =
      Slot.fill (Slot.fill ⟨262144, {}⟩ 128 0 { data := good.toList, status := 5 })
        128 128 { data := bad.toList } := ⟨_, rfl⟩
  obtain ⟨medium, hmedium⟩ : ∃ medium : Medium, medium =
      { kernel := { next := 2, packets := [(0, { memory := memory })], drops := [7] } } := ⟨_, rfl⟩
  obtain ⟨events, hevents⟩ : ∃ events : List Event, events =
      .start .connect :: List.replicate 4 (.act 0) ++ List.replicate 9 (.run 1) := ⟨_, rfl⟩
  have hring : ∃ b m, (Bus.make .ring "can0" { loopback := false }).run {} = (.ok b, m) ∧
      m.kernel.next ≤ medium.kernel.next ∧ b.echoes.enabled = false ∧
      answers (entries ⟨b, medium⟩ events) = [.ok 7] ∧
      slots (entries ⟨b, medium⟩ events) =
        [⟨true, some (.record good 1), .delivered⟩, ⟨false, some (.record bad 1), .malformed⟩] ∧
      (events.foldl after ⟨b, medium⟩).bus.reception.stats = { received := 1, dropped := 8 } := by
    subst hevents hmedium hmemory hgood hbad
    refine ⟨_, _, rfl, ?_, rfl, ?_, ?_, ?_⟩
    · decide +kernel
    · decide +kernel
    · decide +kernel
    · decide +kernel
  obtain ⟨b, m, hmake, hnext, hdisabled, hanswers, hslots, hstats⟩ := hring
  have hfresh : medium.kernel.Fresh := by
    intro fd hfd
    rw [hmedium] at hfd
    have hpos : 0 < fd := Nat.lt_of_lt_of_le Nat.two_pos hfd
    rw [hmedium, Kernel.region?, List.lookup_cons, beq_false_of_ne (Nat.ne_of_gt hpos)]
    rfl
  have hpossible : ∀ event ∈ events, ∀ s, event.Possible s := by
    rw [hevents]
    intro event hevent s
    simp only [List.cons_append, List.mem_cons, List.mem_append, List.mem_replicate] at hevent
    rcases hevent with rfl | ⟨-, rfl⟩ | ⟨-, rfl⟩ <;> trivial
  rw [hgood, hbad] at hslots
  exact ⟨b, m, _, _, hmake, (Run.outside hnext hfresh).follow hpossible, hdisabled, hanswers,
    hslots, hstats⟩

/-- A blocking bus has been made and connected, and has not received anything. -/
theorem exists_attends : ∃ t, Site.Attends 0 1 t ∧ t.medium.kernel.arrivals 0 = [] ∧
    t.bus.reception = { published := [.running, .idle] } := by
  refine ⟨(Site.advanceFar 0 Site.actions (Site.start ⟨Bus.fresh .blocking "can0" {}, {}⟩
    .connect).2).2, ⟨trivial, ?_, ⟨_, rfl, rfl, rfl, rfl, rfl⟩, ⟨_, rfl, rfl⟩, rfl, rfl, rfl, rfl,
      ?_⟩, ?_, rfl⟩
  · decide +kernel
  · decide +kernel
  · decide +kernel

/-- The records of a ring come to a socket whose queue is empty. -/
theorem exists_over (log : List Entry) (hattends : t.Attends key id) (hempty : t.medium.kernel.arrivals key = []) :
    ∃ w, Intake.Reaches key (Intake.start key t) w ∧ w.arrived = records log ∧ w.Over ∧
      w.site.bus.reception = Reception.settle (t.bus.reception.through (records log)) := by
  have hcome : Intake.Reaches key (Intake.start key t) { Intake.start key t with
      site := { t with medium := { kernel := { raws := [(key, { arrivals := records log })] } } }
      arrived := records log } := by
    have harrived : records log = (Intake.start key t).arrived ++ records log := by
      rw [Intake.start, hempty, List.nil_append]
    rw [harrived]
    refine .step .refl (.arrive rfl (by simp [records]) ?_)
    rw [Intake.start, hempty]
    simp [Kernel.arrivals]
  obtain ⟨w, hrest, harrived, hover⟩ := (hcome.sound (Intake.sound_start hattends)).over
  have hreach := hcome.trans hrest
  have hresult := (hreach.sound (Intake.sound_start hattends)).reception_of_over hover
  rw [harrived] at hresult
  exact ⟨w, hreach, harrived, hover, hresult⟩

/-- The ring bus with a loss, and a blocking bus that reads the same two records. -/
theorem tallies_of_lossy_sweep : ∃ b m log s t w,
    (Bus.make .ring "can0" { loopback := false }).run {} = (.ok b, m) ∧ Run ⟨b, m⟩ log s ∧
    Tallies b log s ∧ answers log = [.ok 7] ∧
    (slots log).map (fun c => (c.losing, c.fate)) = [(true, .delivered), (false, .malformed)] ∧
    Site.Attends 0 1 t ∧ Intake.Reaches 0 (Intake.start 0 t) w ∧ w.arrived = records log ∧
    Agrees log s t w ∧ s.bus.reception.stats = { received := 1, dropped := 8 } ∧
    w.site.bus.reception.stats = { received := 1, dropped := 1 } := by
  obtain ⟨b, m, log, s, hmake, hrun, hdisabled, hanswers, hslots, hstats⟩ := exists_lossy_sweep
  obtain ⟨t, hattends, hempty, hreception⟩ := exists_attends
  obtain ⟨w, hreach, harrived, hover, hresult⟩ := exists_over log hattends hempty
  rw [hreception, records, hslots] at hresult
  have hreturned : ∀ d ∈ w.site.bus.reception.deliveries, d.returned = true := by
    rw [hresult]
    decide +kernel
  have hplain : ∀ c ∈ slots log, c.Plain := by
    rw [hslots]
    intro c hc
    rcases List.mem_pair.mp hc with rfl | rfl
    · exact ⟨_, 1, rfl, by decide⟩
    · exact ⟨_, 1, rfl, by decide⟩
  obtain ⟨htallies, hagrees⟩ := tallies_of_run (fun _ _ => rfl) hmake hrun
  have hagree := hagrees hdisabled hplain hattends hreach harrived (Or.inr ⟨hover, hreturned⟩)
  refine ⟨b, m, log, s, t, w, hmake, hrun, htallies, hanswers, ?_, hattends, hreach, harrived,
    hagree, hstats, ?_⟩
  · rw [hslots]
    rfl
  · rw [hresult]
    decide +kernel

end Ledger

end CanTransport
