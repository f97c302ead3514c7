import CanTransport.Proofs.Bus.Sends
/-!
# Sending and listening on one bus

A ring bus that holds its own echoes back, between a connect and the next disconnect: any number of
callers that send, the tasks that sweep its ring, and whatever else happens outside. What was sent,
what came back and what peers sent is noted beside it.
-/

namespace CanTransport

/-- A ring bus with loopback that does not deliver its own messages, before its first send. -/
structure Site.Quiet (s : Site) : Prop where
  transport_eq : s.bus.transport = .ring
  loopback : s.bus.config.loopback = true
  own : s.bus.config.receiveOwnMessages = false
  echoes_eq : s.bus.echoes = Echoes.ofConfig s.bus.config
  operations_eq : s.bus.operations = []
  sweeps : ∀ r ∈ s.bus.receivers, r.Sweeps

structure Exchange where
  site : Site
  /-- Records of sends, in the order in which they were remembered. -/
  recorded : List Wire := []
  /-- Records that the system took, in the order of the writes. -/
  accepted : List Wire := []
  /-- Records that were forgotten after a failed write. -/
  forgotten : List Wire := []
  /-- Whether a record found the queue of echoes full. -/
  crowded : Bool := false
  /-- Echoes that a sweep came to, in order. -/
  echoed : List Wire := []
  /-- Accepted records whose echo is still to come, in order. -/
  awaited : List Wire := []
  /-- Records of peers that a sweep came to, in order. -/
  peers : List Wire := []

namespace Exchange

/-- The records that wait in the queue of echoes. -/
def pending (w : Exchange) : List Wire := w.site.bus.echoes.pending

/-- The frames that listeners got. -/
def frames (w : Exchange) : List Frame := w.site.bus.reception.frames

/-- One action of an operation. -/
def act (w : Exchange) (id : OperationId) : Exchange := { w with
  site := (w.site.advance id).2
  recorded := w.recorded ++ (w.site.remembering? id).toList
  accepted := w.accepted ++ (w.site.accepting? id).toList
  forgotten := w.forgotten ++ (w.site.forgetting? id).toList
  crowded := w.crowded ||
    ((w.site.remembering? id).isSome && w.pending.length == Echoes.capacity)
  awaited := w.awaited ++ (w.site.accepting? id).toList }

/-- What can happen. -/
inductive Event where
  /-- A caller begins to send. -/
  | send
  | act (id : OperationId)
  /-- A sweep comes to an echo, before which others were lost. -/
  | echo (lost : List Wire)
  /-- A sweep comes to the record of a peer. -/
  | hear
  | other

/-- Echoes come in the order of the writes, and the record of a peer equals none that waits for its
echo. Copies of packets on their way out may lie in the ring as well. -/
inductive Step : Exchange → Event → Exchange → Prop where
  | send {w : Exchange} (frame : Frame) :
      Step w .send { w with site := (w.site.start (.send frame)).2 }
  | act {w : Exchange} (id : OperationId) : Step w (.act id) (w.act id)
  | echo {w : Exchange} {id : ReceiverId} {fd : Descriptor} {raw : Wire} {kind : UInt8}
      {lost rest : List Wire} (hhanding : w.site.handing? id = some (fd, some (.record raw kind)))
      (hkind : kind ≠ Slot.outgoing) (hawaited : w.awaited = lost ++ raw :: rest) :
      Step w (.echo lost)
        { w with site := w.site.run id, echoed := w.echoed ++ [raw], awaited := rest }
  | hear {w : Exchange} {id : ReceiverId} {fd : Descriptor} {raw : Wire} {kind : UInt8}
      (hhanding : w.site.handing? id = some (fd, some (.record raw kind)))
      (hkind : kind ≠ Slot.outgoing) (hnew : raw ∉ w.pending) :
      Step w .hear { w with site := w.site.run id, peers := w.peers ++ [raw] }
  | run {w : Exchange} {id : ReceiverId}
      (hhanding : ∀ fd raw kind, w.site.handing? id = some (fd, some (.record raw kind)) →
        kind = Slot.outgoing) : Step w .other { w with site := w.site.run id }
  | subscribe {w : Exchange} (listener : Listener) :
      Step w .other { w with site := w.site.onReception (Reception.subscribe listener) }
  | outside {w : Exchange} (medium : Medium) :
      Step w .other { w with site := { w.site with medium := medium } }

/-- Any number of steps, each of them allowed where it is taken. -/
inductive Run (allowed : Exchange → Event → Prop) (w : Exchange) : Exchange → Prop where
  | refl : Run allowed w w
  | step {w' w'' : Exchange} {event : Event} (hrun : Run allowed w w') (hallowed : allowed w' event)
      (hstep : Step w' event w'') : Run allowed w w''

/-- The frames among some records: those whose length byte is eight at most. -/
def readable (records : List Wire) : List Frame :=
  (records.filter fun raw => (raw.get 4).toNat ≤ 8).filterMap fun raw => (Frame.ofWire raw).toOption

/-- Listeners got what peers sent, in order, and nothing else. -/
def Exact (s : Site) (w : Exchange) : Prop :=
  w.frames = s.bus.reception.frames ++ readable w.peers

theorem readable_append (records others : List Wire) :
    readable (records ++ others) = readable records ++ readable others := by
  unfold readable
  rw [List.filter_append, List.filterMap_append]

theorem readable_singleton (raw : Wire) :
    readable [raw] = (Frame.ofWire raw).toOption.toList := by
  have hsome := Frame.isSome_ofWire raw
  unfold readable
  cases hread : (Frame.ofWire raw).toOption with
  | none =>
    rw [hread] at hsome
    have hlong : ¬ (raw.get 4).toNat ≤ 8 := of_decide_eq_false hsome.symm
    simp [hlong]
  | some frame =>
    rw [hread] at hsome
    have hshort : (raw.get 4).toNat ≤ 8 := of_decide_eq_true hsome.symm
    simp [hshort, hread]

/-- What holds of the bus in every run. -/
structure Steady (w : Exchange) : Prop where
  transport_eq : w.site.bus.transport = .ring
  enabled : w.site.bus.echoes.enabled = true
  sweeps : ∀ r ∈ w.site.bus.receivers, r.Sweeps
  sends : ∀ o ∈ w.site.bus.operations, ∃ frame, o.Sends frame
  own : ∀ raw ∈ w.awaited, (Frame.ofWire raw).toOption.isSome = true

/-! ## Actions of sends -/

/-- One operation is replaced, and nothing else but the echoes changes that anybody notices. -/
structure Replaced (w : Exchange) (o o' : Operation) (site : Site) : Prop where
  mem : o ∈ w.site.bus.operations
  sends : ∃ frame, o.Sends frame ∧ o'.Sends frame
  id_eq : o'.id = o.id
  operations_eq : site.bus.operations =
    w.site.bus.operations.map fun other => if other.id = o'.id then o' else other
  receivers_eq : site.bus.receivers = w.site.bus.receivers
  transport_eq : site.bus.transport = w.site.bus.transport
  next_eq : site.bus.next = w.site.bus.next
  enabled_eq : site.bus.echoes.enabled = w.site.bus.echoes.enabled
  frames_eq : site.bus.reception.frames = w.site.bus.reception.frames

/-- What one action of a send comes to. -/
inductive Acted (w : Exchange) : Exchange → Prop where
  | idle : Acted w w
  | finish {o : Operation} (hmem : o ∈ w.site.bus.operations) (htodo : o.todo = []) :
      Acted w { w with site := w.site.finish o }
  | quiet {o o' : Operation} {site : Site} (hreplaced : Replaced w o o' site)
      (hechoes : site.bus.echoes = w.site.bus.echoes)
      (hthen : o'.todo ≠ [.write, .countSent] ∧ o'.todo ≠ [.forget]) :
      Acted w { w with site := site }
  | remember {o o' : Operation} {site : Site} {raw : Wire} (hreplaced : Replaced w o o' site)
      (hechoes : site.bus.echoes = w.site.bus.echoes.record raw)
      (hwire : o'.request.wire? = some raw) (hthen : o'.todo = [.write, .countSent]) :
      Acted w { w with
        site := site, recorded := w.recorded ++ [raw]
        crowded := w.crowded || w.pending.length == Echoes.capacity }
  | accept {o o' : Operation} {site : Site} {raw : Wire} (hreplaced : Replaced w o o' site)
      (hechoes : site.bus.echoes = w.site.bus.echoes) (hwire : o.request.wire? = some raw)
      (hnow : o.todo = [.write, .countSent]) (hthen : o'.todo = [.countSent]) :
      Acted w { w with
        site := site, accepted := w.accepted ++ [raw], awaited := w.awaited ++ [raw] }
  | refuse {o o' : Operation} {site : Site} (hreplaced : Replaced w o o' site)
      (hechoes : site.bus.echoes = w.site.bus.echoes) (hwire : o'.request.wire? = o.request.wire?)
      (hnow : o.todo = [.write, .countSent]) (hthen : o'.todo = [.forget]) :
      Acted w { w with site := site }
  | forget {o o' : Operation} {site : Site} {raw : Wire} (hreplaced : Replaced w o o' site)
      (hechoes : site.bus.echoes = w.site.bus.echoes.forget raw)
      (hwire : o.request.wire? = some raw) (hnow : o.todo = [.forget]) (hthen : o'.todo = []) :
      Acted w { w with site := site, forgotten := w.forgotten ++ [raw] }

variable {s : Site} {w w' w'' : Exchange} {event : Event}

theorem mem_awaited {raw : Wire} {lost rest : List Wire} (h : w.awaited = lost ++ raw :: rest) :
    raw ∈ w.awaited := by
  rw [h]
  exact List.mem_append_right _ List.mem_cons_self

theorem act_of_unasked {id : OperationId} (hremember : w.site.remembering? id = none)
    (haccept : w.site.accepting? id = none) (hforget : w.site.forgetting? id = none) :
    w.act id = { w with site := (w.site.advance id).2 } := by
  unfold act
  rw [hremember, haccept, hforget]
  simp

theorem unasked_of_next {id : OperationId} {o : Operation} (h : w.site.operation? id = some o) :
    (o.todo.head? ≠ some .remember → w.site.remembering? id = none) ∧
    (o.todo.head? ≠ some .write → w.site.accepting? id = none) ∧
    (o.todo.head? ≠ some .forget → w.site.forgetting? id = none) := by
  refine ⟨fun hne => ?_, fun hne => ?_, fun hne => ?_⟩
  · rw [Site.remembering?, Site.acting?_ne h hne, Option.bind_none]
  · rw [Site.accepting?, Site.acting?_ne h hne, Option.bind_none]
  · rw [Site.forgetting?, Site.acting?_ne h hne, Option.bind_none]

theorem replaced_of_sends {id : OperationId} {o o' : Operation} {frame : Frame} {s' : Site}
    (hmem : o ∈ w.site.bus.operations) (hsends : o.Sends frame)
    (hadvance : (w.site.advance id).2 = (s'.setBus (s'.bus.setOperation o')).collect)
    (hsparing : o.Sparing w.site s' o') (hpoint : o'.todo ∈ Operation.sendPoints)
    (henabled : s'.bus.echoes.enabled = w.site.bus.echoes.enabled) :
    Replaced w o o' (w.site.advance id).2 := by
  have hbus := Site.collect_bus (s'.setBus (s'.bus.setOperation o'))
  refine ⟨hmem, ⟨frame, hsends, hsparing.request_eq.trans hsends.1, hpoint⟩, hsparing.id_eq, ?_, ?_,
    ?_, ?_, ?_, ?_⟩
  all_goals rw [hadvance, hbus]
  · show s'.bus.operations.map _ = _
    rw [hsparing.bus_eq]
  · show s'.bus.receivers = _
    rw [hsparing.bus_eq]
  · show s'.bus.transport = _
    rw [hsparing.bus_eq]
  · show s'.bus.next = _
    rw [hsparing.bus_eq]
  · exact henabled
  · exact hsparing.frames_eq

/-- What every action of an operation comes to while all operations are sends. -/
theorem acted (h : Steady w) (id : OperationId) : Acted w (w.act id) := by
  cases hfind : w.site.operation? id with
  | none =>
    have hsame : w.act id = w := by
      unfold act
      simp [Site.remembering?, Site.accepting?, Site.forgetting?, Site.acting?, hfind,
        Site.advance_of_none hfind]
    rw [hsame]
    exact .idle
  | some o =>
    obtain ⟨hmem, -⟩ := Site.operation?_mem hfind
    obtain ⟨frame, hsends⟩ := h.sends o hmem
    obtain ⟨hnoremember, hnowrite, hnoforget⟩ := unasked_of_next hfind
    have hwire : o.request.wire? = some frame.encode := by rw [hsends.1]; rfl
    by_cases hnil : o.todo = []
    · rw [act_of_unasked (hnoremember (by simp [hnil])) (hnowrite (by simp [hnil]))
        (hnoforget (by simp [hnil])), Site.advance_of_nil hfind hnil]
      exact .finish hmem hnil
    · obtain ⟨s', o', hadvance, hsparing, hsending⟩ :=
        Site.advance_of_sends h.transport_eq hfind hsends hnil
      have hreplaced := replaced_of_sends hmem hsends hadvance hsparing hsending.point
      have hechoes : (w.site.advance id).2.bus.echoes = s'.bus.echoes := by
        rw [hadvance, Site.collect_bus]
        rfl
      generalize hbehind : s'.bus.echoes = e at hsending hechoes hreplaced
      generalize hthen : o'.todo = todo at hsending
      cases hsending with
      | borrow htodo | disconnected htodo | count htodo =>
        rw [act_of_unasked (hnoremember (by simp [htodo])) (hnowrite (by simp [htodo]))
          (hnoforget (by simp [htodo]))]
        exact .quiet (hreplaced rfl) hechoes (by simp [hthen])
      | remember htodo =>
        have hremember : w.site.remembering? id = some frame.encode := by
          rw [Site.remembering?, Site.acting?_eq hfind (by simp [htodo]), Option.bind_some, hwire]
        have hact : w.act id = { w with
            site := (w.site.advance id).2, recorded := w.recorded ++ [frame.encode]
            crowded := w.crowded || w.pending.length == Echoes.capacity } := by
          unfold act
          rw [hremember, hnowrite (by simp [htodo]), hnoforget (by simp [htodo])]
          simp
        rw [hact]
        exact .remember (hreplaced (Echoes.record_enabled _)) hechoes
          (hsparing.request_eq ▸ hwire) hthen
      | accept htodo haccepted =>
        have haccept : w.site.accepting? id = some frame.encode := by
          rw [Site.accepting?, Site.acting?_eq hfind (by simp [htodo]), Option.bind_some,
            haccepted]
        have hact : w.act id = { w with
            site := (w.site.advance id).2, accepted := w.accepted ++ [frame.encode]
            awaited := w.awaited ++ [frame.encode] } := by
          unfold act
          rw [hnoremember (by simp [htodo]), haccept, hnoforget (by simp [htodo])]
          simp
        rw [hact]
        exact .accept (hreplaced rfl) hechoes hwire htodo hthen
      | refuse htodo haccepted | lose htodo haccepted =>
        have haccept : w.site.accepting? id = none := by
          rw [Site.accepting?, Site.acting?_eq hfind (by simp [htodo]), Option.bind_some,
            haccepted]
        rw [act_of_unasked (hnoremember (by simp [htodo])) haccept (hnoforget (by simp [htodo]))]
        first
        | exact .refuse (hreplaced rfl) hechoes (congrArg Request.wire? hsparing.request_eq) htodo
            hthen
        | exact .quiet (hreplaced rfl) hechoes (by simp [hthen])
      | forget htodo =>
        have hforget : w.site.forgetting? id = some frame.encode := by
          rw [Site.forgetting?, Site.acting?_eq hfind (by simp [htodo]), Option.bind_some, hwire]
        have hact : w.act id = { w with
            site := (w.site.advance id).2, forgotten := w.forgotten ++ [frame.encode] } := by
          unfold act
          rw [hnoremember (by simp [htodo]), hnowrite (by simp [htodo]), hforget]
          simp
        rw [hact]
        exact .forget (hreplaced (Echoes.forget_enabled _)) hechoes hwire htodo hthen

/-! ## What a step comes to -/

/-- What tasks and the outside leave as it is. -/
structure Kept (w : Exchange) (site : Site) : Prop where
  transport_eq : site.bus.transport = w.site.bus.transport
  enabled_eq : site.bus.echoes.enabled = w.site.bus.echoes.enabled
  sweeps : ∀ r ∈ site.bus.receivers, r.Sweeps
  operations_eq : site.bus.operations = w.site.bus.operations
  next_eq : site.bus.next = w.site.bus.next

/-- What a step means to the queue of echoes and to listeners. -/
inductive Effect (w : Exchange) : Event → Exchange → Prop where
  | send (frame : Frame) : Effect w .send { w with site := (w.site.start (.send frame)).2 }
  | act {id : OperationId} {w' : Exchange} (hacted : Acted w w') : Effect w (.act id) w'
  /-- An echo goes with everything that was remembered before it. -/
  | heldBack {site : Site} {raw : Wire} {lost rest before behind : List Wire}
      (hkept : Kept w site) (hawaited : w.awaited = lost ++ raw :: rest)
      (hpending : w.pending = before ++ raw :: behind) (hbefore : raw ∉ before)
      (hbehind : site.bus.echoes.pending = behind)
      (hframes : site.bus.reception.frames = w.frames) :
      Effect w (.echo lost)
        { w with site := site, echoed := w.echoed ++ [raw], awaited := rest }
  /-- An echo that nobody remembers reaches the listener. -/
  | leak {site : Site} {raw : Wire} {frame : Frame} {lost rest : List Wire}
      (hkept : Kept w site) (hawaited : w.awaited = lost ++ raw :: rest) (hnew : raw ∉ w.pending)
      (hpending : site.bus.echoes.pending = w.pending)
      (hframes : site.bus.reception.frames = w.frames ++ [frame]) :
      Effect w (.echo lost)
        { w with site := site, echoed := w.echoed ++ [raw], awaited := rest }
  | hear {site : Site} {raw : Wire} (hkept : Kept w site)
      (hpending : site.bus.echoes.pending = w.pending)
      (hframes : site.bus.reception.frames = w.frames ++ (Frame.ofWire raw).toOption.toList) :
      Effect w .hear { w with site := site, peers := w.peers ++ [raw] }
  | other {site : Site} (hkept : Kept w site)
      (hpending : site.bus.echoes.pending = w.pending)
      (hframes : site.bus.reception.frames = w.frames) : Effect w .other { w with site := site }

theorem Steady.kept_run (h : Steady w) (id : ReceiverId) : Kept w (w.site.run id) := by
  obtain ⟨hbus, henabled, hsweeps⟩ := Site.run_kept h.transport_eq h.sweeps id
  refine ⟨?_, henabled, hsweeps, ?_, ?_⟩ <;> rw [hbus]

theorem Step.effect (h : Steady w) (hstep : Step w event w') : Effect w event w' := by
  cases hstep with
  | send frame => exact .send frame
  | act id => exact .act (acted h id)
  | @echo id fd raw kind lost rest hhanding hkind hawaited =>
    obtain ⟨hechoes, hframes⟩ := Site.run_of_some h.transport_eq h.sweeps hhanding
    by_cases hmem : raw ∈ w.pending
    · obtain ⟨before, behind, hpending, hbefore, hjudge⟩ :=
        Echoes.judge_echo h.enabled hkind hmem
      rw [hjudge] at hechoes hframes
      refine .heldBack (h.kept_run id) hawaited hpending hbefore ?_ ?_
      · rw [hechoes]
      · rw [hframes]
        exact List.append_nil _
    · rw [Echoes.judge_new hkind hmem] at hechoes hframes
      obtain ⟨frame, hframe⟩ := Option.isSome_iff_exists.mp (h.own raw (mem_awaited hawaited))
      have hleaked : (w.site.run id).bus.reception.frames = w.frames ++ [frame] := by
        rw [hframes, Verdict.frames, hframe]
        rfl
      refine .leak (h.kept_run id) hawaited hmem ?_ hleaked
      rw [hechoes]
      rfl
  | @hear id fd raw kind hhanding hkind hnew =>
    obtain ⟨hechoes, hframes⟩ := Site.run_of_some h.transport_eq h.sweeps hhanding
    rw [Echoes.judge_new hkind hnew] at hechoes hframes
    refine .hear (h.kept_run id) ?_ hframes
    rw [hechoes]
    rfl
  | @run id hhanding =>
    have hsame : (w.site.run id).bus.echoes = w.site.bus.echoes ∧
        (w.site.run id).bus.reception.frames = w.frames := by
      cases hhanded : w.site.handing? id with
      | none => exact Site.run_of_none h.transport_eq h.sweeps hhanded
      | some handed =>
        obtain ⟨fd, p⟩ := handed
        obtain ⟨hechoes, hframes⟩ := Site.run_of_some h.transport_eq h.sweeps hhanded
        have hjudge : (w.site.bus.echoes.judge p).2 = w.site.bus.echoes ∧
            (w.site.bus.echoes.judge p).1.frames = [] := by
          by_cases hrecord : ∃ raw kind, p = some (.record raw kind)
          · obtain ⟨raw, kind, rfl⟩ := hrecord
            rw [hhanding fd raw kind hhanded, Echoes.judge_outgoing]
            exact ⟨rfl, rfl⟩
          · rw [Echoes.judge_no_record (fun raw kind heq => hrecord ⟨raw, kind, heq⟩)]
            exact ⟨rfl, rfl⟩
        rw [hjudge.1] at hechoes
        rw [hjudge.2, List.append_nil] at hframes
        exact ⟨hechoes, hframes⟩
    refine .other (h.kept_run id) ?_ hsame.2
    rw [hsame.1]
    rfl
  | subscribe listener => exact .other ⟨rfl, rfl, h.sweeps, rfl, rfl⟩ rfl rfl
  | outside medium => exact .other ⟨rfl, rfl, h.sweeps, rfl, rfl⟩ rfl rfl

/-! ## What every step keeps -/

theorem Replaced.steady {o o' : Operation} {site : Site} (h : Steady w)
    (hreplaced : Replaced w o o' site) : ∀ o ∈ site.bus.operations, ∃ frame, o.Sends frame := by
  intro other hother
  rw [hreplaced.operations_eq, List.mem_map] at hother
  obtain ⟨old, hold, heq⟩ := hother
  split at heq
  · obtain ⟨frame, -, hsends⟩ := hreplaced.sends
    exact ⟨frame, heq ▸ hsends⟩
  · exact heq ▸ h.sends old hold

theorem own_of_wire {o : Operation} {raw : Wire} (h : ∃ frame, o.Sends frame)
    (hwire : o.request.wire? = some raw) : (Frame.ofWire raw).toOption.isSome = true := by
  obtain ⟨frame, hrequest, -⟩ := h
  rw [hrequest] at hwire
  cases hwire
  exact Frame.isSome_ofWire_encode frame

theorem Acted.steady (h : Steady w) (hacted : Acted w w') : Steady w' := by
  have hafter : ∀ {o o' : Operation} {site : Site}, Replaced w o o' site →
      site.bus.transport = .ring ∧ site.bus.echoes.enabled = true ∧
        (∀ r ∈ site.bus.receivers, r.Sweeps) ∧ ∀ o ∈ site.bus.operations, ∃ frame, o.Sends frame :=
    fun hreplaced => ⟨hreplaced.transport_eq.trans h.transport_eq,
      hreplaced.enabled_eq.trans h.enabled, hreplaced.receivers_eq ▸ h.sweeps, hreplaced.steady h⟩
  cases hacted with
  | idle => exact h
  | @finish o hmem htodo =>
    have hbus := Site.finish_bus w.site o
    refine ⟨?_, ?_, ?_, ?_, h.own⟩ <;> rw [hbus]
    · exact h.transport_eq
    · exact h.enabled
    · exact h.sweeps
    · exact fun o ho => h.sends o (List.mem_filter.mp ho).1
  | quiet hreplaced | remember hreplaced | refuse hreplaced | forget hreplaced =>
    obtain ⟨htransport, henabled, hsweeps, hsends⟩ := hafter hreplaced
    exact ⟨htransport, henabled, hsweeps, hsends, h.own⟩
  | accept hreplaced hechoes hwire =>
    obtain ⟨htransport, henabled, hsweeps, hsends⟩ := hafter hreplaced
    refine ⟨htransport, henabled, hsweeps, hsends, ?_⟩
    intro raw hraw
    rcases List.mem_append.mp hraw with hold | hnew
    · exact h.own raw hold
    · rw [List.mem_singleton] at hnew
      subst hnew
      exact own_of_wire (h.sends _ hreplaced.mem) hwire

theorem Kept.steady {site : Site} {awaited : List Wire} (h : Steady w) (hkept : Kept w site)
    (hawaited : ∀ raw ∈ awaited, raw ∈ w.awaited) :
    site.bus.transport = .ring ∧ site.bus.echoes.enabled = true ∧
      (∀ r ∈ site.bus.receivers, r.Sweeps) ∧
      (∀ o ∈ site.bus.operations, ∃ frame, o.Sends frame) ∧
      ∀ raw ∈ awaited, (Frame.ofWire raw).toOption.isSome = true := by
  refine ⟨hkept.transport_eq.trans h.transport_eq, hkept.enabled_eq.trans h.enabled, hkept.sweeps,
    ?_, fun raw hraw => h.own raw (hawaited raw hraw)⟩
  rw [hkept.operations_eq]
  exact h.sends

theorem Effect.steady (h : Steady w) (heffect : Effect w event w') : Steady w' := by
  cases heffect with
  | send frame =>
    refine ⟨h.transport_eq, h.enabled, h.sweeps, ?_, h.own⟩
    intro o ho
    rcases List.mem_append.mp ho with hold | hnew
    · exact h.sends o hold
    · rw [List.mem_singleton] at hnew
      subst hnew
      refine ⟨frame, rfl, ?_⟩
      show w.site.bus.transport.transmission ∈ Operation.sendPoints
      rw [h.transport_eq]
      decide
  | act hacted => exact hacted.steady h
  | heldBack hkept hawaited | leak hkept hawaited =>
    obtain ⟨htransport, henabled, hsweeps, hsends, hown⟩ := hkept.steady h (fun raw hraw => by
      rw [hawaited]
      exact List.mem_append_right _ (List.mem_cons_of_mem _ hraw))
    exact ⟨htransport, henabled, hsweeps, hsends, hown⟩
  | hear hkept | other hkept =>
    obtain ⟨htransport, henabled, hsweeps, hsends, hown⟩ := hkept.steady h fun _ hraw => hraw
    exact ⟨htransport, henabled, hsweeps, hsends, hown⟩

theorem steady_start (h : s.Quiet) : Steady { site := s } := by
  refine ⟨h.transport_eq, ?_, h.sweeps, ?_, ?_⟩
  · show s.bus.echoes.enabled = true
    rw [h.echoes_eq, Echoes.ofConfig, h.loopback, h.own]
    rfl
  · rw [h.operations_eq]
    intro o ho
    cases ho
  · intro raw hraw
    cases hraw

theorem Run.steady {allowed : Exchange → Event → Prop} (hrun : Run allowed w w') (h : Steady w) :
    Steady w' := by
  induction hrun with
  | refl => exact h
  | step _ _ hstep ih => exact (hstep.effect ih).steady ih

theorem Effect.room (heffect : Effect w event w') (hroom : w'.crowded = false) :
    w.crowded = false := by
  cases heffect with
  | act hacted =>
    cases hacted with
    | remember => exact (Bool.or_eq_false_iff.mp hroom).1
    | idle | finish | quiet | accept | refuse | forget => exact hroom
  | send | heldBack | leak | hear | other => exact hroom

/-! ## What listeners got -/

theorem Acted.heard (h : Acted w w') : w'.frames = w.frames ∧ w'.peers = w.peers := by
  cases h with
  | idle => exact ⟨rfl, rfl⟩
  | @finish o =>
    refine ⟨?_, rfl⟩
    show (w.site.finish o).bus.reception.frames = _
    rw [Site.finish_bus]
    rfl
  | quiet hreplaced | remember hreplaced | accept hreplaced | refuse hreplaced
  | forget hreplaced => exact ⟨hreplaced.frames_eq, rfl⟩

/-- A step either adds to what listeners got what it adds to what peers sent, or an own frame. -/
theorem Effect.heard (heffect : Effect w event w') :
    (∃ came, w'.peers = w.peers ++ came ∧ w'.frames = w.frames ++ readable came) ∨
    (∃ frame, w'.peers = w.peers ∧ w'.frames = w.frames ++ [frame] ∧
      ∃ raw ∈ w.awaited, raw ∉ w.pending) := by
  have hnothing : w'.peers = w.peers → w'.frames = w.frames →
      ∃ came, w'.peers = w.peers ++ came ∧ w'.frames = w.frames ++ readable came :=
    fun hpeers hframes => ⟨[], hpeers.trans (List.append_nil _).symm,
      hframes.trans (List.append_nil _).symm⟩
  cases heffect with
  | send => exact Or.inl (hnothing rfl rfl)
  | act hacted => exact Or.inl (hnothing hacted.heard.2 hacted.heard.1)
  | heldBack _ _ _ _ _ hframes | other _ _ hframes => exact Or.inl (hnothing rfl hframes)
  | @leak site raw frame lost rest hkept hawaited hnew hpending hframes =>
    exact Or.inr ⟨frame, rfl, hframes, raw, mem_awaited hawaited, hnew⟩
  | @hear site raw hkept hpending hframes =>
    exact Or.inl ⟨[raw], rfl, hframes.trans (by rw [readable_singleton])⟩

/-- Nothing is delivered that should not be while every awaited echo is remembered. -/
theorem Effect.exact (heffect : Effect w event w') (hkept : w.awaited.Sublist w.pending)
    (hexact : Exact s w) : Exact s w' := by
  unfold Exact at hexact ⊢
  rcases heffect.heard with ⟨came, hpeers, hframes⟩ | ⟨-, -, -, raw, hawaited, hnew⟩
  · rw [hframes, hpeers, readable_append, hexact, List.append_assoc]
  · exact absurd (hkept.subset hawaited) hnew

end Exchange

end CanTransport
