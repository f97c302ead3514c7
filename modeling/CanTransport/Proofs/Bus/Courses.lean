import CanTransport.Proofs.Bus.Admission
/-!
# The course of a send

A send hands its record over once or not at all: to the kernel, by one call on a socket that is not
closed, or to the queue of a virtual channel. What it reports follows from the answer, and it counts
only what was taken as a whole. All of this holds whatever else is under way.
-/

namespace CanTransport

/-- A record that leaves a bus. -/
inductive Parcel where
  /-- Given to the kernel by one call on a socket, with its answer. -/
  | toKernel (fd : Descriptor) (raw : Wire) (answer : Except Errno Nat)
  /-- Put into the queue of a virtual channel, which takes everything. -/
  | toQueue (id : QueueId) (envelope : Envelope)

namespace Parcel

def raw : Parcel → Wire
  | toKernel _ raw _ => raw
  | toQueue _ envelope => envelope.raw

/-- What the caller of a send is told about it. -/
def verdict : Parcel → Except Error Unit
  | toKernel _ _ (.ok n) => if n = wireSize then .ok () else .error (.shortWrite n wireSize)
  | toKernel _ _ (.error number) => .error (.io (.os number))
  | toQueue _ _ => .ok ()

/-- Whether it leaves a bus of a transport in this way. -/
def Suits (transport : Transport) : Parcel → Prop
  | toKernel _ _ _ => transport ≠ .virtual
  | toQueue _ _ => transport = .virtual

/-- A parcel is taken, unless the kernel refuses it or takes a part of it only. -/
theorem verdict_eq_ok_iff (p : Parcel) : p.verdict = .ok () ↔
    ∀ fd raw answer, p = .toKernel fd raw answer → answer = .ok wireSize := by
  cases p with
  | toQueue id envelope => simp [verdict]
  | toKernel fd raw answer =>
    cases answer with
    | error number => simp [verdict]
    | ok n =>
      by_cases hwhole : n = wireSize
      · simp [verdict, hwhole]
      · simp [verdict, hwhole]

theorem verdict_ne_notConnected (p : Parcel) : p.verdict ≠ .error .notConnected := by
  cases p with
  | toQueue id envelope => exact nofun
  | toKernel fd raw answer =>
    cases answer with
    | error number => exact nofun
    | ok n =>
      by_cases hwhole : n = wireSize
      · simp [verdict, hwhole]
      · simp [verdict, hwhole]

end Parcel

/-- What buses share, once a parcel has left one of them. -/
def Medium.after (m : Medium) : Option Parcel → Medium
  | none => m
  | some (.toKernel fd raw _) => { m with kernel := ((Kernel.send fd raw).run m.kernel).2 }
  | some (.toQueue id envelope) => { m with hub := m.hub.send id envelope }

/-- A write through an open socket is one call of the kernel, whose answer decides. -/
theorem CanSocket.run_writeWire {socket : CanSocket} (hopen : socket.closed = false) (raw : Wire)
    (k : Kernel) : (socket.writeWire raw).run k =
      ((Parcel.toKernel socket.descriptor raw
          ((Kernel.send socket.descriptor raw).run k).1).verdict,
        ((Kernel.send socket.descriptor raw).run k).2) := by
  have hyields : (socket.writeWire raw).Yields k fun r k' =>
      (r, k') = ((Parcel.toKernel socket.descriptor raw
          ((Kernel.send socket.descriptor raw).run k).1).verdict,
        ((Kernel.send socket.descriptor raw).run k).2) := by
    unfold writeWire
    rw [if_neg (by rw [hopen]; decide), Kernel.Op.yields_bind, Kernel.Op.yields_orError]
    unfold Kernel.Op.Yields
    rcases (Kernel.send socket.descriptor raw).run k with ⟨number | n, k'⟩
    · rfl
    · show ((if n ≠ wireSize then throw (.shortWrite n wireSize) else pure () :
        Kernel.Op Error Unit).run k' : Except Error Unit × Kernel) = _
      by_cases hwhole : n = wireSize
      · rw [if_neg (not_not_intro hwhole), Parcel.verdict, if_pos hwhole]
        rfl
      · rw [if_pos hwhole, Parcel.verdict, if_neg hwhole]
        rfl
  exact hyields

/-- What a write through an open socket comes to for a site. -/
theorem Site.onKernel_writeWire {s : Site} {resource : Resource} {raw : Wire} {p : Parcel}
    (hopen : resource.socket.closed = false)
    (hparcel : p = .toKernel resource.key raw
      ((Kernel.send resource.key raw).run s.medium.kernel).1) :
    s.onKernel (resource.socket.writeWire raw).run =
      (p.verdict, { s with medium := s.medium.after (some p) }) := by
  have hrun := CanSocket.run_writeWire hopen raw s.medium.kernel
  show (((resource.socket.writeWire raw).run s.medium.kernel).1, s.withKernel
    ((resource.socket.writeWire raw).run s.medium.kernel).2) = _
  rw [hrun, hparcel]
  rfl

namespace Operation

/-- The parcel that leaves with an action. -/
def parcel? (s : Site) (o : Operation) : Action → Option Parcel
  | .write =>
    match o.handle.bind s.bus.resource?, o.request.wire? with
    | some resource, some raw =>
      if resource.socket.closed then none
      else some (.toKernel resource.key raw ((Kernel.send resource.key raw).run s.medium.kernel).1)
    | _, _ => none
  | .transmit =>
    o.request.wire?.map fun raw => .toQueue s.bus.queue { origin := s.bus.origin, raw := raw }
  | _ => none

/-- Where a send is: which parcels have left with it, how it changed the counters, and what it has
left to do. -/
inductive Course (transport : Transport) (frame : Frame) (o : Operation) :
    List Parcel → List (Stats × Stats) → Prop where
  | asking (htodo : o.todo = transport.transmission) (hfailure : o.failure = none)
      (hhandle : o.handle = none) : Course transport frame o [] []
  | admitted (hfailure : o.failure = none)
      (htodo : (transport ≠ .virtual ∧
          o.todo ∈ [[.remember, .write, .countSent], [.write, .countSent]]) ∨
        (transport = .virtual ∧ o.todo = [.transmit, .countSent])) :
      Course transport frame o [] []
  | refused (htodo : o.todo = [.forget] ∨ o.todo = []) (hfailure : o.failure = some .notConnected) :
      Course transport frame o [] []
  | rejected {p : Parcel} {e : Error} (htodo : o.todo = [.forget] ∨ o.todo = [])
      (hfailure : o.failure = some e) (hraw : p.raw = frame.encode) (hsuits : p.Suits transport)
      (hverdict : p.verdict = .error e) : Course transport frame o [p] []
  | accepted {p : Parcel} (htodo : o.todo = [.countSent]) (hfailure : o.failure = none)
      (hraw : p.raw = frame.encode) (hsuits : p.Suits transport) (hverdict : p.verdict = .ok ()) :
      Course transport frame o [p] []
  | counted {p : Parcel} {stats : Stats} (htodo : o.todo = []) (hfailure : o.failure = none)
      (hraw : p.raw = frame.encode) (hsuits : p.Suits transport) (hverdict : p.verdict = .ok ()) :
      Course transport frame o [p] [(stats, stats.countSent)]

/-- How an action changes the counters. -/
def counts (s : Site) (action : Action) : List (Stats × Stats) :=
  if action = .countSent then [(s.bus.reception.stats, s.bus.reception.stats.countSent)] else []

/-- What one action of a send comes to, on a bus of any transport. -/
structure Proceeding (transport : Transport) (frame : Frame) (s : Site) (o : Operation)
    (action : Action) (rest : List Action) (parcels : List Parcel) (changes : List (Stats × Stats))
    (s' : Site) (o' : Operation) : Prop where
  course : o'.Course transport frame (parcels ++ (o.parcel? s action).toList)
    (changes ++ counts s action)
  request_eq : o'.request = o.request
  medium_eq : s'.medium = s.medium.after (o.parcel? s action)
  reception_eq : s'.bus.reception =
    if action = .countSent then s.bus.reception.count Stats.countSent else s.bus.reception
  length_le : o'.todo.length ≤ rest.length

variable {transport : Transport} {s s' : Site} {o o' : Operation} {frame : Frame} {action : Action}
  {rest : List Action} {parcels : List Parcel} {changes : List (Stats × Stats)}

/-- Only what is transmitted leaves for a queue, which is that of the bus. -/
theorem parcel?_eq_toQueue_iff {queue : QueueId} {envelope : Envelope} :
    o.parcel? s action = some (.toQueue queue envelope) ↔
      action = .transmit ∧ ∃ frame, o.request = .send frame ∧ queue = s.bus.queue ∧
        envelope = { origin := s.bus.origin, raw := frame.encode } := by
  constructor
  · intro h
    cases action with
    | write =>
      simp only [parcel?] at h
      split at h
      · split at h <;> cases h
      · cases h
    | transmit =>
      obtain ⟨raw, hwire, hparcel⟩ := Option.map_eq_some_iff.mp h
      cases hrequest : o.request with
      | connect | disconnect => rw [hrequest] at hwire; cases hwire
      | send frame =>
        rw [hrequest] at hwire
        cases hwire
        cases hparcel
        exact ⟨rfl, frame, rfl, rfl, rfl⟩
    | _ => cases h
  · rintro ⟨rfl, frame, hrequest, rfl, rfl⟩
    rw [parcel?, hrequest]
    rfl

/-- An action by which nothing leaves and nothing is counted. -/
theorem Proceeding.quiet (haction : action ≠ .write ∧ action ≠ .transmit ∧ action ≠ .countSent)
    (hcourse : o'.Course transport frame parcels changes) (hrequest : o'.request = o.request)
    (hmedium : s'.medium = s.medium) (hreception : s'.bus.reception = s.bus.reception)
    (hlength : o'.todo.length ≤ rest.length) :
    o.Proceeding transport frame s action rest parcels changes s' o' := by
  obtain ⟨hwrite, htransmit, hcount⟩ := haction
  have hparcel : o.parcel? s action = none := by
    cases action with
    | write => exact absurd rfl hwrite
    | transmit => exact absurd rfl htransmit
    | _ => rfl
  refine ⟨?_, hrequest, ?_, ?_, hlength⟩
  · rw [hparcel, counts, if_neg hcount]
    simpa using hcourse
  · rw [hparcel]
    exact hmedium
  · rw [if_neg hcount]
    exact hreception

theorem proceeding_checkFlag (hvirtual : transport = .virtual) (hfailure : o.failure = none) :
    ∃ s' o', { o with todo := [.transmit, .countSent] }.perform s .checkFlag = some (s', o') ∧
      o.Proceeding transport frame s .checkFlag [.transmit, .countSent] [] [] s' o' := by
  by_cases hflag : s.bus.flag = true
  · exact ⟨s, { o with todo := [.transmit, .countSent] }, by simp [perform, hflag],
      .quiet (by decide) (.admitted hfailure (Or.inr ⟨hvirtual, rfl⟩)) rfl rfl rfl
        (Nat.le_refl _)⟩
  · exact ⟨s, { o with todo := [] }.giveUp .notConnected [], by simp [perform, hflag, giveUp],
      .quiet (by decide) (.refused (Or.inr rfl) rfl) rfl rfl rfl (Nat.zero_le _)⟩

theorem proceeding_borrow (hother : transport ≠ .virtual)
    (hrest : rest ∈ [[.remember, .write, .countSent], [.write, .countSent]])
    (hfailure : o.failure = none) :
    ∃ s' o', { o with todo := rest }.perform s .borrow = some (s', o') ∧
      o.Proceeding transport frame s .borrow rest [] [] s' o' := by
  cases hpublished : s.bus.published with
  | none =>
    exact ⟨s, { o with todo := rest }.giveUp .notConnected [], by simp [perform, hpublished],
      .quiet (by decide) (.refused (Or.inr rfl) rfl) rfl rfl rfl (Nat.zero_le _)⟩
  | some key =>
    exact ⟨s, { o with todo := rest, handle := some key }, by simp [perform, hpublished],
      .quiet (by decide) (.admitted hfailure (Or.inl ⟨hother, hrest⟩)) rfl rfl rfl
        (Nat.le_refl _)⟩

theorem proceeding_ask (hplan : action :: rest = transport.transmission)
    (hfailure : o.failure = none) :
    ∃ s' o', { o with todo := rest }.perform s action = some (s', o') ∧
      o.Proceeding transport frame s action rest [] [] s' o' := by
  cases transport with
  | virtual =>
    cases hplan
    exact proceeding_checkFlag rfl hfailure
  | blocking | cancellable | batched | ring =>
    cases hplan
    exact proceeding_borrow (by decide) (by decide) hfailure

/-- A write hands its record to the kernel if it finds a socket that is not closed. -/
theorem proceeding_write (hother : transport ≠ .virtual) (hrequest : o.request = .send frame)
    (hfailure : o.failure = none) :
    ∃ s' o', { o with todo := [.countSent] }.perform s .write = some (s', o') ∧
      o.Proceeding transport frame s .write [.countSent] [] [] s' o' := by
  have hwire : o.request.wire? = some frame.encode := by rw [hrequest]; rfl
  -- Of a ring the echo is forgotten, which is one action too.
  have hcleanup : o.request.cleanup s.bus.transport = [.forget] ∨
      o.request.cleanup s.bus.transport = [] := by
    rw [hrequest]
    show (if s.bus.transport = .ring then [Action.forget] else []) = _ ∨
      (if s.bus.transport = .ring then [Action.forget] else []) = _
    by_cases hring : s.bus.transport = .ring
    · exact Or.inl (if_pos hring)
    · exact Or.inr (if_neg hring)
  have hlength : (o.request.cleanup s.bus.transport).length ≤ 1 := by
    rcases hcleanup with h | h <;> rw [h] <;> decide
  cases hresource : o.handle.bind s.bus.resource? with
  | none =>
    have hparcel : o.parcel? s .write = none := by simp [parcel?, hresource]
    refine ⟨s, { o with todo := [.countSent] }.giveUp .notConnected [], ?_, ?_, rfl, ?_, rfl,
      Nat.zero_le _⟩
    · simp [perform, write, hresource]
    · rw [hparcel]
      exact .refused (Or.inr rfl) rfl
    · rw [hparcel]
      rfl
  | some resource =>
    cases hclosed : resource.socket.closed with
    | true =>
      have hparcel : o.parcel? s .write = none := by simp [parcel?, hresource, hwire, hclosed]
      have hrun : s.onKernel (resource.socket.writeWire frame.encode).run =
          (.error .notConnected, s) := by
        unfold CanSocket.writeWire
        rw [if_pos hclosed]
        rfl
      refine ⟨s, { o with todo := [.countSent] }.giveUp .notConnected
        (o.request.cleanup s.bus.transport), ?_, ?_, rfl, ?_, rfl, hlength⟩
      · simp [perform, write, hresource, hwire, hrun]
      · rw [hparcel]
        exact .refused hcleanup rfl
      · rw [hparcel]
        rfl
    | false =>
      obtain ⟨p, hp⟩ : ∃ p, p = Parcel.toKernel resource.key frame.encode
        ((Kernel.send resource.key frame.encode).run s.medium.kernel).1 := ⟨_, rfl⟩
      have hparcel : o.parcel? s .write = some p := by
        simp [parcel?, hresource, hwire, hclosed, hp]
      have hrun := Site.onKernel_writeWire hclosed hp
      have hraw : p.raw = frame.encode := by rw [hp]; rfl
      have hsuits : p.Suits transport := by rw [hp]; exact hother
      cases hverdict : p.verdict with
      | ok done =>
        refine ⟨{ s with medium := s.medium.after (some p) }, { o with todo := [.countSent] }, ?_,
          ?_, rfl, ?_, rfl, Nat.le_refl _⟩
        · simp [perform, write, hresource, hwire, hrun, hverdict]
        · rw [hparcel]
          exact .accepted rfl hfailure hraw hsuits hverdict
        · rw [hparcel]
      | error e =>
        refine ⟨{ s with medium := s.medium.after (some p) }, { o with todo := [.countSent] }.giveUp e
          (o.request.cleanup s.bus.transport), ?_, ?_, rfl, ?_, rfl, hlength⟩
        · simp [perform, write, hresource, hwire, hrun, hverdict]
        · rw [hparcel]
          exact .rejected hcleanup rfl hraw hsuits hverdict
        · rw [hparcel]

theorem proceeding_remember (hother : transport ≠ .virtual) (hfailure : o.failure = none)
    (hrequest : o.request = .send frame) :
    ∃ s' o', { o with todo := [.write, .countSent] }.perform s .remember = some (s', o') ∧
      o.Proceeding transport frame s .remember [.write, .countSent] [] [] s' o' := by
  have hwire : o.request.wire? = some frame.encode := by rw [hrequest]; rfl
  exact ⟨s.setBus { s.bus with echoes := s.bus.echoes.record frame.encode },
    { o with todo := [.write, .countSent] }, by simp [perform, hwire],
    .quiet (by decide) (.admitted hfailure (Or.inl ⟨hother, by simp⟩)) rfl rfl rfl
      (Nat.le_refl _)⟩

/-- The queue of a virtual channel takes every record. -/
theorem proceeding_transmit (hvirtual : transport = .virtual) (hrequest : o.request = .send frame)
    (hfailure : o.failure = none) :
    ∃ s' o', { o with todo := [.countSent] }.perform s .transmit = some (s', o') ∧
      o.Proceeding transport frame s .transmit [.countSent] [] [] s' o' := by
  have hwire : o.request.wire? = some frame.encode := by rw [hrequest]; rfl
  have hparcel : o.parcel? s .transmit =
      some (.toQueue s.bus.queue { origin := s.bus.origin, raw := frame.encode }) := by
    simp [parcel?, hwire]
  refine ⟨s.setHub (s.medium.hub.send s.bus.queue { origin := s.bus.origin, raw := frame.encode }),
    { o with todo := [.countSent] }, by simp [perform, hwire], ?_, rfl, ?_, rfl, Nat.le_refl _⟩
  · rw [hparcel]
    exact .accepted rfl hfailure rfl hvirtual rfl
  · rw [hparcel]
    rfl

theorem proceeding_forget (hrequest : o.request = .send frame)
    (hcourse : { o with todo := [] }.Course transport frame parcels changes) :
    ∃ s' o', { o with todo := [] }.perform s .forget = some (s', o') ∧
      o.Proceeding transport frame s .forget [] parcels changes s' o' := by
  have hwire : o.request.wire? = some frame.encode := by rw [hrequest]; rfl
  exact ⟨s.setBus { s.bus with echoes := s.bus.echoes.forget frame.encode }, { o with todo := [] },
    by simp [perform, hwire], .quiet (by decide) hcourse rfl rfl rfl (Nat.le_refl _)⟩

/-- A send never waits, and each of its actions keeps to its course. -/
theorem Course.exists_proceeding (h : o.Course transport frame parcels changes)
    (hrequest : o.request = .send frame) (htodo : o.todo = action :: rest) :
    ∃ s' o', { o with todo := rest }.perform s action = some (s', o') ∧
      o.Proceeding transport frame s action rest parcels changes s' o' := by
  cases h with
  | asking hplan hfailure _ => exact proceeding_ask (htodo.symm.trans hplan) hfailure
  | admitted hfailure hplan =>
    rw [htodo] at hplan
    simp only [List.mem_cons, List.cons.injEq, List.not_mem_nil, or_false] at hplan
    rcases hplan with ⟨hother, ⟨rfl, rfl⟩ | ⟨rfl, rfl⟩⟩ | ⟨hvirtual, rfl, rfl⟩
    · exact proceeding_remember hother hfailure hrequest
    · exact proceeding_write hother hrequest hfailure
    · exact proceeding_transmit hvirtual hrequest hfailure
  | refused hplan hfailure =>
    rcases hplan with hplan | hplan
    · cases htodo.symm.trans hplan
      exact proceeding_forget hrequest (.refused (Or.inr rfl) hfailure)
    · cases htodo.symm.trans hplan
  | rejected hplan hfailure hraw hsuits hverdict =>
    rcases hplan with hplan | hplan
    · cases htodo.symm.trans hplan
      exact proceeding_forget hrequest (.rejected (Or.inr rfl) hfailure hraw hsuits hverdict)
    · cases htodo.symm.trans hplan
  | accepted hplan hfailure hraw hsuits hverdict =>
    cases htodo.symm.trans hplan
    exact ⟨_, _, rfl, .counted rfl hfailure hraw hsuits hverdict, rfl, rfl, rfl, Nat.le_refl _⟩
  | counted hplan => cases htodo.symm.trans hplan

/-- How a send ended: which parcels have left with it, how it changed the counters, and what it
reported. -/
inductive Concluded (transport : Transport) (frame : Frame) :
    List Parcel → List (Stats × Stats) → Except Error Unit → Prop where
  /-- Nothing has left. -/
  | refused : Concluded transport frame [] [] (.error .notConnected)
  /-- The record was not taken as a whole. -/
  | rejected {p : Parcel} {e : Error} (hraw : p.raw = frame.encode) (hsuits : p.Suits transport)
      (hverdict : p.verdict = .error e) : Concluded transport frame [p] [] (.error e)
  | accepted {p : Parcel} {stats : Stats} (hraw : p.raw = frame.encode)
      (hsuits : p.Suits transport) (hverdict : p.verdict = .ok ()) :
      Concluded transport frame [p] [(stats, stats.countSent)] (.ok ())

theorem Course.concluded (h : o.Course transport frame parcels changes) (htodo : o.todo = []) :
    Concluded transport frame parcels changes o.outcome := by
  cases h with
  | asking hplan =>
    rw [htodo] at hplan
    cases transport <;> cases hplan
  | admitted hfailure hplan =>
    rw [htodo] at hplan
    simp at hplan
  | refused _ hfailure =>
    rw [show o.outcome = .error .notConnected by rw [outcome, hfailure]]
    exact .refused
  | rejected _ hfailure hraw hsuits hverdict =>
    rw [show o.outcome = .error _ by rw [outcome, hfailure]]
    exact .rejected hraw hsuits hverdict
  | accepted hplan => cases htodo.symm.trans hplan
  | counted _ hfailure hraw hsuits hverdict =>
    rw [outcome_eq_ok_iff.mpr hfailure]
    exact .accepted hraw hsuits hverdict

/-- Whatever has left is the record of the frame, and it has left once. -/
theorem Course.raw_eq (h : o.Course transport frame parcels changes) :
    parcels.length ≤ 1 ∧ ∀ p ∈ parcels, p.raw = frame.encode := by
  cases h with
  | asking | admitted | refused => exact ⟨Nat.zero_le 1, nofun⟩
  | rejected _ _ hraw | accepted _ _ hraw | counted _ _ hraw =>
    refine ⟨Nat.le_refl 1, fun p hp => ?_⟩
    cases List.mem_singleton.mp hp
    exact hraw

theorem Course.of_asking (h : o.Course transport frame parcels changes)
    (htodo : o.todo = transport.transmission) : o.failure = none ∧ o.handle = none := by
  cases h with
  | asking _ hfailure hhandle => exact ⟨hfailure, hhandle⟩
  | admitted _ hplan | refused hplan | rejected hplan | accepted hplan | counted hplan =>
    rw [htodo] at hplan
    cases transport <;> simp [Transport.transmission] at hplan

/-- Whether an operation is a send that was counted and has not returned yet. -/
def isCounted (o : Operation) : Bool :=
  o.request.wire?.isSome && o.todo.isEmpty && o.failure.isNone

theorem Course.isCounted_eq (h : o.Course transport frame parcels changes)
    (hrequest : o.request = .send frame) : o.isCounted = !changes.isEmpty := by
  cases h with
  | asking hplan =>
    rw [isCounted, hplan]
    cases transport <;> simp [Transport.transmission]
  | admitted hfailure hplan =>
    rcases hplan with ⟨-, hplan⟩ | ⟨-, hplan⟩
    · simp only [List.mem_cons, List.not_mem_nil, or_false] at hplan
      rcases hplan with hplan | hplan <;> simp [isCounted, hplan]
    · simp [isCounted, hplan]
  | refused _ hfailure | rejected _ hfailure => simp [isCounted, hfailure]
  | accepted hplan => simp [isCounted, hplan]
  | counted hplan hfailure => simp [isCounted, hplan, hfailure, hrequest, Request.wire?]

end Operation
end CanTransport
