import CanTransport.Proofs.Bus.Standing
import CanTransport.Proofs.Bus.Supplies
/-!
# What the actions of a loop come to

Every place in a loop has a budget: what a task that is told to stop there may still do before it
returns. One action spends some of it and leads to a place whose budget is no more than the rest,
and it leads nowhere from where the loop could be kept going. Apart from that a sweep has room for
as many slots as its ring has, whoever fills them.
-/

namespace CanTransport

/-- What some actions of a task come to, or may come to. -/
@[ext] structure Effort where
  /-- Receive operations that were completed. -/
  receives : Nat
  /-- Calls of listeners. -/
  deliveries : Nat
  actions : Nat
  /-- Slots of a ring that were consumed. -/
  slots : Nat
deriving DecidableEq, Repr

namespace Effort

instance : Add Effort := ⟨fun a b =>
  ⟨a.receives + b.receives, a.deliveries + b.deliveries, a.actions + b.actions, a.slots + b.slots⟩⟩

instance : LE Effort := ⟨fun a b =>
  a.receives ≤ b.receives ∧ a.deliveries ≤ b.deliveries ∧ a.actions ≤ b.actions ∧ a.slots ≤ b.slots⟩

/-- All of some efforts. -/
def total : List Effort → Effort
  | [] => ⟨0, 0, 0, 0⟩
  | e :: rest => e + total rest

variable {a b c d : Effort}

theorem add_eq (a b : Effort) : a + b =
    ⟨a.receives + b.receives, a.deliveries + b.deliveries, a.actions + b.actions,
      a.slots + b.slots⟩ := rfl

theorem le_iff : a ≤ b ↔ a.receives ≤ b.receives ∧ a.deliveries ≤ b.deliveries ∧
    a.actions ≤ b.actions ∧ a.slots ≤ b.slots := Iff.rfl

@[simp] theorem total_nil : total [] = ⟨0, 0, 0, 0⟩ := rfl

theorem total_concat (log : List Effort) (e : Effort) : total (log ++ [e]) = total log + e := by
  induction log with
  | nil => simp [total, add_eq]
  | cons first rest ih =>
    rw [List.cons_append, total, ih, total]
    simp only [add_eq, Nat.add_assoc]

/-- Who spends from a budget what leads to another keeps within the first. -/
theorem spend (hpaid : a + b ≤ c) (hnext : d + e ≤ b) : a + d + e ≤ c := by
  simp only [le_iff, add_eq] at hpaid hnext ⊢
  omega

theorem le_of_add_le (h : a + b ≤ c) : a ≤ c := by
  simp only [le_iff, add_eq] at h ⊢
  omega

end Effort

namespace Stage

/-- What a task that is told to stop there may still do. `portion` is how many frames one receive
operation can bring. -/
def budget (portion : Nat) : Stage → Effort
  | .top | .sleeping _ _ => ⟨0, 0, 1, 0⟩
  | .receiving => ⟨1, portion, portion + 3, 0⟩
  | .holding records => ⟨0, records.length, records.length + 2, 0⟩
  | .looking sweep =>
    let left := portion - sweep.consumed
    ⟨1, left, 3 * left + 3, left⟩
  | .releasing sweep =>
    let left := portion - sweep.consumed - 1
    ⟨1, left, 3 * left + 5, left⟩
  | .advancing sweep =>
    let left := portion - sweep.consumed - 1
    ⟨1, left, 3 * left + 4, left⟩
  | .swept _ => ⟨1, 0, 2, 0⟩
  | .returned _ | .published | .exited _ => ⟨0, 0, 0, 0⟩

/-- The slots that a task there can still consume before it ends a sweep. -/
def room (portion : Nat) : Stage → Nat
  | .top | .receiving | .holding _ | .sleeping _ _ => portion
  | .looking sweep => portion - sweep.consumed
  | .releasing sweep | .advancing sweep => portion - sweep.consumed - 1
  | .swept _ | .returned _ | .published | .exited _ => 0

theorem room_le (portion : Nat) (stage : Stage) : stage.room portion ≤ portion := by
  cases stage <;> simp only [room] <;> omega

theorem one_le_actions (portion : Nat) {stage : Stage} (h : stage.loops = true) :
    1 ≤ (stage.budget portion).actions := by
  cases stage with
  | returned _ | published | exited _ => cases h
  | _ => simp only [budget]; omega

end Stage

namespace Bus

/-- The most records that one receive call brings. -/
def batch (b : Bus) : Nat :=
  match b.transport with
  | .batched => b.config.batch.size.toNat
  | _ => 1

/-- Whether a task of the bus can be at a place of its loop. -/
def Admits (b : Bus) : Stage → Prop
  | .receiving => b.transport ≠ .ring
  | .holding records => b.transport ≠ .ring ∧ records.length ≤ b.batch
  | .looking _ | .releasing _ | .advancing _ | .swept _ | .sleeping _ _ => b.transport = .ring
  | .top | .returned _ | .published | .exited _ => True

theorem Admits.congr {b b' : Bus} {stage : Stage} (h : b.Admits stage)
    (hkeeps : b.Keeps b') : b'.Admits stage := by
  have hbatch : b'.batch = b.batch := by rw [batch, batch, hkeeps.transport_eq, hkeeps.config_eq]
  have htransport := hkeeps.transport_eq
  cases stage with
  | top | returned _ | published | exited _ => trivial
  | holding records =>
    rw [Admits, htransport, hbatch]
    exact h
  | receiving | looking _ | releasing _ | advancing _ | swept _ | sleeping _ _ =>
    rw [Admits, htransport]
    exact h

end Bus

namespace Receiver

/-- How many frames one receive operation of the task can bring. -/
def portion (s : Site) (r : Receiver) : Nat :=
  match s.bus.transport with
  | .ring => ((r.ring? s).map fun ring => ring.2.slotCount).getD 0
  | _ => s.bus.batch

/-- Whether the task has been told to stop: a blocking read by the mark of its socket. -/
def isSignalled (s : Site) (r : Receiver) : Bool :=
  match s.bus.transport with
  | .blocking => (r.resource? s).any fun resource => resource.socket.closed
  | _ => r.cancelled

/-- The receive operations that the next action completes: a call, a sweep that ends, or what the
virtual queue gives. -/
def completes (s : Site) (r : Receiver) : Nat :=
  match r.stage with
  | .receiving | .swept _ => 1
  | .top =>
    if s.bus.transport = .virtual ∧ r.cancelled = false ∧
      (s.medium.hub.receive s.bus.queue r.position).1 ≠ .nothing then 1 else 0
  | _ => 0

/-- What one action of a task comes to. -/
def effort (s s' : Site) (r : Receiver) : Effort where
  receives := r.completes s
  deliveries := s'.bus.reception.deliveries.length - s.bus.reception.deliveries.length
  actions := 1
  slots := (r.consumption? s).isSome.toNat

/-! ## Receive calls -/

/-- A receive call for a single record. -/
def callOne (s : Site) (resource : Resource) : Kernel.Op Failure (List UInt8) :=
  if s.bus.transport = .blocking then resource.socket.awaitRecord else resource.socket.receive

/-- One receive call: the records that it brings. -/
def call (s : Site) (resource : Resource) : Kernel.Op Failure (List (List UInt8)) :=
  if s.bus.transport = .batched then
    if resource.socket.closed then throw CanSocket.closedFailure
    else ExceptT.adapt Failure.os (Kernel.receiveMany resource.key s.bus.config.batch.size.toNat)
  else do
    let bytes ← callOne s resource
    return [bytes]

variable {s s' : Site} {r r' : Receiver} {resource : Resource}

/-- A receive call and what its result leads to. -/
theorem receive_eq (h : r.resource? s = some resource) : r.receive s =
    match s.onKernel (call s resource).run with
    | (.ok [], s') =>
      (s'.count Stats.countError, r.goTo (.returned (.error (.io emptyBatch))))
    | (.ok records, s') => (s', r.goTo (.holding records))
    | (.error f, s') => r.fail s' f := by
  unfold receive call
  rw [h]
  simp only
  split
  · rfl
  · rw [← callOne]
    generalize callOne s resource = op
    have hrun := Kernel.Op.run_bind op (fun bytes => pure [bytes]) s.medium.kernel
    have honKernel : ∀ {β : Type} (op : Kernel.Op Failure β), s.onKernel op.run =
        ((op.run s.medium.kernel).1, s.withKernel (op.run s.medium.kernel).2) := fun _ => rfl
    rw [honKernel, honKernel, hrun]
    rcases (op.run s.medium.kernel : Except Failure (List UInt8) × Kernel) with ⟨_ | _, _⟩ <;> rfl

/-- A receive call brings no more records than it has room for. -/
theorem length_call {records : List (List UInt8)}
    (h : ((call s resource).run s.medium.kernel).1 = .ok records) :
    records.length ≤ s.bus.batch := by
  unfold call at h
  split at h
  · rename_i hbatched
    have hbatch : s.bus.batch = s.bus.config.batch.size.toNat := by rw [Bus.batch, hbatched]
    split at h
    · cases h
    · have hcall : ((Kernel.receiveMany resource.key s.bus.config.batch.size.toNat).run
          s.medium.kernel).1 = .ok records := by
        have hadapt : ((Kernel.receiveMany resource.key s.bus.config.batch.size.toNat).run
          s.medium.kernel).1.mapError Failure.os = .ok records := h
        generalize ((Kernel.receiveMany resource.key s.bus.config.batch.size.toNat).run
          s.medium.kernel).1 = result at hadapt
        cases result with
        | error number => cases hadapt
        | ok found => cases hadapt; rfl
      rw [hbatch]
      exact Kernel.length_receiveMany hcall
  · rename_i hbatched
    have hbatch : s.bus.batch = 1 := by
      unfold Bus.batch
      split
      · rename_i heq
        exact absurd heq hbatched
      · rfl
    rw [Kernel.Op.run_bind] at h
    split at h
    · cases h
      exact Nat.le_of_eq hbatch.symm
    · cases h

/-! ## How a loop can end -/

/-- What the last receive operation of a task brought that it does not survive: something else than
a whole record, or a failed call. A blocking read that fails after the close of its socket is none. -/
inductive Fatal (s : Site) (r : Receiver) : Error → Prop where
  | record {bytes : List UInt8} {rest : List (List UInt8)}
      (hstage : r.stage = .holding (bytes :: rest)) (hsize : bytes.length ≠ wireSize) :
      Fatal s r (.shortRead bytes.length wireSize)
  | failure {resource : Resource} {f : Failure} (hstage : r.stage = .receiving)
      (hresource : r.resource? s = some resource)
      (hcall : ((call s resource).run s.medium.kernel).1 = .error f)
      (htransient : f.isTransient = false)
      (hopen : ¬ (s.bus.transport = .blocking ∧ resource.socket.closed = true)) :
      Fatal s r (.io f)
  | empty {resource : Resource} (hstage : r.stage = .receiving)
      (hresource : r.resource? s = some resource)
      (hcall : ((call s resource).run s.medium.kernel).1 = .ok []) : Fatal s r (.io emptyBatch)

/-- How a task that was told to stop goes on. -/
inductive Heeds (s : Site) (r : Receiver) (s' : Site) (r' : Receiver) : Prop where
  | remains (hloops : r'.stage.loops = true)
  | stops (hstage : r'.stage = .returned (.ok ()))
  | fails {e : Error} (hfatal : r.Fatal s e) (hstage : r'.stage = .returned (.error e))
  /-- Its listener did not return. -/
  | dies (hstage : r'.stage = .exited true)
      (hlistener : ∃ d ∈ s'.bus.reception.deliveries, d.returned = false)

/-- Where a task is, on a bus with receive operations of a size. -/
structure Fits (portion : Nat) (s : Site) (r : Receiver) : Prop where
  admitted : s.bus.Admits r.stage
  portion_eq : r.portion s = portion
  ring : s.bus.transport = .ring → ∃ fd g, r.ring? s = some (fd, g)

/-- What one action of a task in its loop comes to. -/
structure Stride (p : Nat) (s : Site) (r : Receiver) (s' : Site) (r' : Receiver) : Prop where
  admitted : s'.bus.Admits r'.stage
  going : r'.stage.loops = true → r'.handle = r.handle ∧ r'.cancelled = r.cancelled
  told : r.isSignalled s = true →
    r.effort s s' + r'.stage.budget p ≤ r.stage.budget p ∧ Heeds s r s' r'
  room : (r.consumption? s).isSome.toNat + r'.stage.room p ≤ r.stage.room p + r.completes s * p

variable {p n d c : Nat} {place next : Stage}

theorem Stride.of (hstage : r.stage = place) (hnext : r'.stage = next)
    (hcompletes : r.completes s = n)
    (hdeliveries : s'.bus.reception.deliveries.length ≤ s.bus.reception.deliveries.length + d)
    (hconsumption : (r.consumption? s).isSome.toNat = c) (hadmitted : s'.bus.Admits next)
    (hgoing : next.loops = true → r'.handle = r.handle ∧ r'.cancelled = r.cancelled)
    (htold : r.isSignalled s = true →
      (⟨n, d, 1, c⟩ : Effort) + next.budget p ≤ place.budget p ∧ Heeds s r s' r')
    (hroom : c + next.room p ≤ place.room p + n * p) : Stride p s r s' r' := by
  subst hstage hnext hcompletes hconsumption
  refine ⟨hadmitted, hgoing, fun hsignalled => ?_, hroom⟩
  obtain ⟨hbudget, hheeds⟩ := htold hsignalled
  refine ⟨?_, hheeds⟩
  simp only [Effort.le_iff, Effort.add_eq, effort] at hbudget ⊢
  omega

/-! ## What each action comes to -/

theorem goTo_of_loops (r : Receiver) {next : Stage} (h : next.loops = true) :
    (r.goTo next).handle = r.handle ∧ (r.goTo next).cancelled = r.cancelled := by
  cases next with
  | returned _ | published | exited _ => cases h
  | _ => exact ⟨rfl, rfl⟩

theorem isSignalled_of_isClosed (htransport : s.bus.transport = .blocking)
    (h : r.isClosed s = false) : r.isSignalled s = false := by
  unfold isClosed at h
  unfold isSignalled
  rw [htransport]
  cases hresource : r.resource? s with
  | none => rfl
  | some resource =>
    rw [hresource] at h
    exact h

theorem isSignalled_eq_cancelled (htransport : s.bus.transport ≠ .blocking) :
    r.isSignalled s = r.cancelled := by
  unfold isSignalled
  split
  · rename_i heq
    exact absurd heq htransport
  · rfl

theorem completes_top (hstage : r.stage = .top) (h : r.isSignalled s = true) :
    r.completes s = 0 := by
  rw [completes, hstage]
  refine if_neg fun hreceives => ?_
  rw [isSignalled_eq_cancelled (by rw [hreceives.1]; decide), hreceives.2.1] at h
  cases h

/-- An action that calls no listener and consumes nothing. -/
theorem Stride.calm (hstage : r.stage = place) (hlooking : ∀ sweep, place ≠ .looking sweep)
    (hcompletes : r.completes s = n)
    (hdeliveries : s'.bus.reception.deliveries = s.bus.reception.deliveries)
    (hadmitted : s'.bus.Admits r'.stage)
    (hgoing : r'.stage.loops = true → r'.handle = r.handle ∧ r'.cancelled = r.cancelled)
    (htold : r.isSignalled s = true →
      (⟨n, 0, 1, 0⟩ : Effort) + r'.stage.budget p ≤ place.budget p ∧ Heeds s r s' r')
    (hroom : r'.stage.room p ≤ place.room p + n * p) : Stride p s r s' r' := by
  refine .of hstage rfl hcompletes ?_ ?_ hadmitted hgoing htold (by rw [Nat.zero_add]; exact hroom)
  · rw [hdeliveries]
    exact Nat.le_refl _
  · rw [consumption?_eq_none hstage hlooking]
    rfl

/-- Who was not told to stop may begin a receive operation. -/
theorem Stride.onward (hstage : r.stage = place) (hlooking : ∀ sweep, place ≠ .looking sweep)
    (hroom : place.room p = p) (huntold : r.isSignalled s = false)
    (hdeliveries : s'.bus.reception.deliveries = s.bus.reception.deliveries)
    (hadmitted : s'.bus.Admits r'.stage)
    (hgoing : r'.stage.loops = true → r'.handle = r.handle ∧ r'.cancelled = r.cancelled) :
    Stride p s r s' r' := by
  refine .calm hstage hlooking rfl hdeliveries hadmitted hgoing
    (fun htold => absurd htold (by rw [huntold]; decide)) ?_
  rw [hroom]
  exact Nat.le_add_right_of_le (Stage.room_le p r'.stage)

/-- The loop returns as it should. -/
theorem Stride.stop (hstage : r.stage = place) (hlooking : ∀ sweep, place ≠ .looking sweep)
    (hloops : place.loops = true)
    (hcompletes : r.isSignalled s = true → r.completes s ≤ (place.budget p).receives)
    (hdeliveries : s'.bus.reception.deliveries = s.bus.reception.deliveries) :
    Stride p s r s' (r.goTo (.returned (.ok ()))) := by
  refine .calm hstage hlooking rfl hdeliveries trivial nofun (fun htold => ⟨?_, .stops rfl⟩)
    (Nat.zero_le _)
  exact ⟨hcompletes htold, Nat.zero_le _, Stage.one_le_actions p hloops, Nat.zero_le _⟩

theorem stride_atTop (hfits : Fits p s r) (hstage : r.stage = .top) :
    Stride p s r (r.atTop s).1 (r.atTop s).2 := by
  have hstop : Stride p s r s (r.goTo (.returned (.ok ()))) :=
    .stop hstage nofun rfl (fun htold => Nat.le_of_eq (completes_top hstage htold)) rfl
  have hgo : ∀ next : Stage, r.isSignalled s = false → s.bus.Admits next →
      Stride p s r s (r.goTo next) := by
    intro next huntold hadmits
    refine .onward hstage nofun rfl huntold rfl (by rw [stage_goTo]; exact hadmits) fun hloops => ?_
    rw [stage_goTo] at hloops
    exact goTo_of_loops r hloops
  unfold atTop
  cases htransport : s.bus.transport with
  | blocking =>
    simp only
    split
    · exact hstop
    · rename_i hopen
      refine hgo .receiving (isSignalled_of_isClosed htransport (by simpa using hopen)) ?_
      rw [Bus.Admits, htransport]
      decide
  | cancellable | batched =>
    have hsignalled : r.isSignalled s = r.cancelled :=
      isSignalled_eq_cancelled (by rw [htransport]; decide)
    have hreceives : s.bus.Admits .receiving := by
      rw [Bus.Admits, htransport]
      decide
    simp only
    split
    · exact hstop
    · rename_i hgoing
      have huntold : r.isSignalled s = false := by rw [hsignalled]; simpa using hgoing
      first
        | exact hgo .receiving huntold hreceives
        | split
          · exact .onward hstage nofun rfl huntold rfl hfits.admitted fun _ => ⟨rfl, rfl⟩
          · exact hgo .receiving huntold hreceives
  | ring =>
    simp only
    split
    · exact hstop
    · rename_i hgoing
      refine hgo (.looking { cursor := r.cursor }) ?_ htransport
      rw [isSignalled_eq_cancelled (by rw [htransport]; decide)]
      simpa using hgoing
  | virtual =>
    simp only
    split
    · exact hstop
    · rename_i hgoing
      have huntold : r.isSignalled s = false := by
        rw [isSignalled_eq_cancelled (by rw [htransport]; decide)]
        simpa using hgoing
      have htop : ∀ position, Stride p s r s { r with position } := fun position =>
        .onward hstage nofun rfl huntold rfl hfits.admitted fun _ => ⟨rfl, rfl⟩
      unfold ask
      split
      · split
        · exact htop _
        · refine .onward hstage nofun rfl huntold rfl ?_ fun _ => ⟨rfl, rfl⟩
          show s.bus.transport ≠ .ring ∧ 1 ≤ s.bus.batch
          rw [Bus.batch, htransport]
          exact ⟨nofun, Nat.le_refl 1⟩
      · exact .onward hstage nofun rfl huntold rfl hfits.admitted fun _ => ⟨rfl, rfl⟩
      · exact hgo (.returned (.error .notConnected)) huntold trivial
      · exact .onward hstage nofun rfl huntold rfl hfits.admitted fun _ => ⟨rfl, rfl⟩

theorem portion_eq_batch (htransport : s.bus.transport ≠ .ring) : r.portion s = s.bus.batch := by
  unfold portion
  split
  · rename_i heq
    exact absurd heq htransport
  · rfl

theorem stride_fail {f : Failure} (hstage : r.stage = .receiving)
    (hresource : r.resource? s = some resource)
    (hcall : ((call s resource).run s.medium.kernel).1 = .error f)
    (hbus : s'.bus = s.bus) : Stride p s r (r.fail s' f).1 (r.fail s' f).2 := by
  have hone : r.completes s = 1 := by rw [completes, hstage]
  have hlooking : ∀ sweep, Stage.receiving ≠ .looking sweep := by
    intro sweep h
    cases h
  have hclosed : r.isClosed s' = resource.socket.closed := by
    rw [isClosed, show r.resource? s' = some resource by rw [resource?, hbus]; exact hresource]
    rfl
  unfold fail
  rw [hclosed, hbus]
  split
  · exact .stop hstage hlooking rfl (fun _ => Nat.le_of_eq hone) (by rw [hbus])
  · rename_i hopen
    have hdeliveries : ∀ counts : Bool,
        (if counts then s'.count Stats.countError else s').bus.reception.deliveries =
          s.bus.reception.deliveries := by
      intro counts
      split
      · exact congrArg (·.reception.deliveries) hbus
      · rw [hbus]
    by_cases htransient : f.isTransient = true
    · rw [show afterFailure f = (f.kind == .interrupted, .top) from if_pos htransient]
      refine .calm hstage hlooking hone (hdeliveries _) trivial (fun _ => ⟨rfl, rfl⟩)
        (fun _ => ⟨?_, .remains rfl⟩) (Nat.le_add_right _ _)
      simp only [stage_goTo, Stage.budget, Effort.le_iff, Effort.add_eq]
      omega
    · rw [show afterFailure f = (true, .returned (.error (.io f))) from if_neg htransient]
      have hfatal : r.Fatal s (.io f) :=
        .failure hstage hresource hcall (by simpa using htransient) hopen
      refine .calm hstage hlooking hone (hdeliveries true) trivial
        (fun hloops => absurd hloops Bool.false_ne_true) (fun _ => ⟨?_, .fails hfatal rfl⟩)
        (Nat.zero_le _)
      simp only [stage_goTo, Stage.budget, Effort.le_iff, Effort.add_eq]
      omega

theorem stride_receive (hfits : Fits p s r) (hstage : r.stage = .receiving) :
    Stride p s r (r.receive s).1 (r.receive s).2 := by
  have hone : r.completes s = 1 := by rw [completes, hstage]
  have htransport : s.bus.transport ≠ .ring := by
    have hadmitted := hfits.admitted
    rw [hstage] at hadmitted
    exact hadmitted
  have hbatch : s.bus.batch = p := (portion_eq_batch htransport).symm.trans hfits.portion_eq
  cases hresource : r.resource? s with
  | none =>
    unfold receive
    rw [hresource]
    exact .stop hstage nofun rfl (fun _ => Nat.le_of_eq hone) rfl
  | some resource =>
    rw [receive_eq hresource]
    have hrun : ∀ {result s'}, s.onKernel (call s resource).run = (result, s') →
        ((call s resource).run s.medium.kernel).1 = result ∧ s'.bus = s.bus :=
      fun heq => ⟨congrArg Prod.fst heq, congrArg (·.2.bus) heq.symm⟩
    split
    · rename_i s' heq
      obtain ⟨hcall, hbus⟩ := hrun heq
      refine .calm hstage nofun hone (congrArg (·.reception.deliveries) hbus) trivial nofun
        (fun _ => ⟨?_, .fails (.empty hstage hresource hcall) rfl⟩) (Nat.zero_le _)
      simp only [stage_goTo, Stage.budget, Effort.le_iff, Effort.add_eq]
      omega
    · rename_i records s' hne heq
      obtain ⟨hcall, hbus⟩ := hrun heq
      have hlength : records.length ≤ p := hbatch ▸ length_call hcall
      refine .calm hstage nofun hone (congrArg (·.reception.deliveries) hbus) ?_
        (fun _ => ⟨rfl, rfl⟩) (fun _ => ⟨?_, .remains rfl⟩) (Nat.le_add_right _ _)
      · show s'.bus.Admits (.holding records)
        rw [hbus]
        exact ⟨htransport, hbatch ▸ hlength⟩
      · simp only [stage_goTo, Stage.budget, Effort.le_iff, Effort.add_eq]
        omega
    · rename_i f s' heq
      obtain ⟨hcall, hbus⟩ := hrun heq
      exact stride_fail hstage hresource hcall hbus

/-- A record that is handed on is one call of a listener, or none. -/
theorem length_deliverWire (raw : Wire) (reception : Reception) :
    (reception.deliverWire raw).2.deliveries.length ≤ reception.deliveries.length + 1 := by
  unfold Reception.deliverWire
  split
  · exact Nat.le_of_eq List.length_append
  · exact Nat.le_succ _

theorem stride_handleRecord {bytes : List UInt8} {rest : List (List UInt8)} (hfits : Fits p s r)
    (hstage : r.stage = .holding (bytes :: rest)) :
    Stride p s r (r.handleRecord s bytes rest).1 (r.handleRecord s bytes rest).2 := by
  have hnone : r.completes s = 0 := by rw [completes, hstage]
  have hconsumption : (r.consumption? s).isSome.toNat = 0 := by
    rw [consumption?_eq_none hstage nofun]
    rfl
  have hadmitted := hfits.admitted
  rw [hstage] at hadmitted
  obtain ⟨htransport, hlength⟩ := hadmitted
  rw [List.length_cons] at hlength
  unfold handleRecord
  split
  · rename_i hsize
    have hdeliveries := length_deliverWire ⟨bytes.toArray, hsize⟩ s.bus.reception
    have hstage' := congrArg Receiver.stage (handOn_snd s r ⟨bytes.toArray, hsize⟩
      (if rest.isEmpty then .top else .holding rest))
    rw [stage_goTo] at hstage'
    cases hreturned : (s.bus.reception.deliverWire ⟨bytes.toArray, hsize⟩).1 with
    | false =>
      rw [hreturned] at hstage'
      refine .of hstage hstage' hnone hdeliveries hconsumption trivial nofun (fun _ => ⟨?_, ?_⟩)
        (Nat.zero_le _)
      · simp only [Bool.false_eq_true, if_false, Stage.budget, Effort.le_iff, Effort.add_eq,
          List.length_cons]
        omega
      · exact .dies hstage' (Reception.exists_not_returned hreturned)
    | true =>
      rw [hreturned, if_pos rfl] at hstage'
      have hgoing : (r.handOn s ⟨bytes.toArray, hsize⟩
            (if rest.isEmpty then .top else .holding rest)).2.handle = r.handle ∧
          (r.handOn s ⟨bytes.toArray, hsize⟩
            (if rest.isEmpty then .top else .holding rest)).2.cancelled = r.cancelled := by
        rw [handOn_snd, hreturned, if_pos rfl]
        exact goTo_of_loops r (by split <;> rfl)
      cases rest with
      | nil =>
        refine .of hstage hstage' hnone hdeliveries hconsumption trivial (fun _ => hgoing)
          (fun _ => ⟨?_, .remains (congrArg Stage.loops hstage')⟩) (by simp [Stage.room])
        simp [Stage.budget, Effort.le_iff, Effort.add_eq]
      | cons next rest =>
        refine .of hstage hstage' hnone hdeliveries hconsumption ?_ (fun _ => hgoing)
          (fun _ => ⟨?_, .remains (congrArg Stage.loops hstage')⟩) (by simp [Stage.room])
        · exact ⟨htransport, Nat.le_of_succ_le hlength⟩
        · simp only [List.isEmpty_cons, Bool.false_eq_true, if_false, Stage.budget, Effort.le_iff,
            Effort.add_eq, List.length_cons]
          omega
  · rename_i hsize
    refine .calm hstage nofun hnone rfl trivial nofun
      (fun _ => ⟨?_, .fails (.record hstage (by simpa [wireSize] using hsize)) rfl⟩)
      (Nat.zero_le _)
    simp only [stage_goTo, Stage.budget, Effort.le_iff, Effort.add_eq]
    omega

theorem portion_eq_slotCount {fd : Descriptor} {g : Geometry} (htransport : s.bus.transport = .ring)
    (hring : r.ring? s = some (fd, g)) : r.portion s = g.slotCount := by
  rw [portion, htransport]
  simp only [hring, Option.map_some, Option.getD_some]

theorem length_settle (verdict : Verdict) (reception : Reception) :
    (verdict.settle reception).2.deliveries.length ≤ reception.deliveries.length + 1 := by
  cases verdict with
  | outgoing | echo | unusable => exact Nat.le_succ _
  | arrival raw => exact length_deliverWire raw reception

theorem stride_look {fd : Descriptor} {g : Geometry} {sweep : Sweep} (hfits : Fits p s r)
    (hring : r.ring? s = some (fd, g)) (hstage : r.stage = .looking sweep) :
    Stride p s r (r.look s g (s.medium.kernel.memory fd) sweep).1
      (r.look s g (s.medium.kernel.memory fd) sweep).2 := by
  have hnone : r.completes s = 0 := by rw [completes, hstage]
  have htransport : s.bus.transport = .ring := by
    have hadmitted := hfits.admitted
    rw [hstage] at hadmitted
    exact hadmitted
  have hportion : g.slotCount = p :=
    (portion_eq_slotCount htransport hring).symm.trans hfits.portion_eq
  by_cases hopen : sweep.consumed < g.slotCount ∧
      Slot.hasBit (Slot.status (s.medium.kernel.memory fd) (sweep.base g)) Slot.userBit = true
  · have hlook := show sweep.look g (s.medium.kernel.memory fd) = some _ by
      rw [Sweep.look, if_pos hopen.1]
      exact if_pos hopen.2
    have hconsumption : (r.consumption? s).isSome.toNat = 1 := by
      simp only [consumption?, hstage, hring, Option.bind_eq_bind, Option.bind_some]
      rw [if_pos hopen]
      rfl
    obtain ⟨hsite, htask⟩ := look_eq (r := r) (s := s) hlook
    have hdeliveries := length_settle
      (s.bus.echoes.judge (Slot.packet? (s.medium.kernel.memory fd) g.slotSize (sweep.base g))).1
      s.bus.reception
    rw [hsite, htask]
    cases hreturned : ((s.bus.echoes.judge (Slot.packet? (s.medium.kernel.memory fd) g.slotSize
      (sweep.base g))).1.settle s.bus.reception).1 with
    | false =>
      refine .of hstage rfl hnone hdeliveries hconsumption trivial
        (fun hloops => absurd hloops Bool.false_ne_true)
        (fun _ => ⟨?_, .dies rfl (exists_unreturned hreturned)⟩) ?_
      · simp only [Bool.false_eq_true, if_false, stage_goTo, Stage.budget, Effort.le_iff,
          Effort.add_eq]
        omega
      · simp only [Bool.false_eq_true, if_false, stage_goTo, Stage.room]
        omega
    | true =>
      refine .of hstage rfl hnone hdeliveries hconsumption htransport (fun _ => ⟨rfl, rfl⟩)
        (fun _ => ⟨?_, .remains rfl⟩) ?_
      · simp only [if_true, stage_goTo, Stage.budget, Effort.le_iff, Effort.add_eq]
        omega
      · simp only [if_true, stage_goTo, Stage.room]
        omega
  · have hlook : sweep.look g (s.medium.kernel.memory fd) = none := by
      unfold Sweep.look
      split
      · rename_i hlt
        exact if_neg fun huser => hopen ⟨hlt, huser⟩
      · rfl
    have hconsumption : (r.consumption? s).isSome.toNat = 0 := by
      simp only [consumption?, hstage, hring, Option.bind_eq_bind, Option.bind_some]
      rw [if_neg hopen]
      rfl
    unfold look
    rw [hlook]
    show Stride p s r s (r.goTo (.swept sweep))
    refine .of (d := 0) hstage rfl hnone (Nat.le_refl _) hconsumption htransport (fun _ => ⟨rfl, rfl⟩)
      (fun _ => ⟨?_, .remains rfl⟩) (by simp [Stage.room])
    simp only [stage_goTo, Stage.budget, Effort.le_iff, Effort.add_eq]
    omega

theorem stride_endSweep (g : Geometry) {sweep : Sweep} (htransport : s.bus.transport = .ring)
    (hstage : r.stage = .swept sweep) :
    Stride p s r (r.endSweep s g sweep).1 (r.endSweep s g sweep).2 := by
  have hone : r.completes s = 1 := by rw [completes, hstage]
  have hlost : ∃ s', s' = (if sweep.losing then countLost s else s) ∧
      s'.bus.transport = .ring ∧ s'.bus.reception.deliveries = s.bus.reception.deliveries := by
    refine ⟨_, rfl, ?_⟩
    split
    · exact ⟨by rw [(bus_countLost s).1]; exact htransport, (countLost_eq s).1⟩
    · exact ⟨htransport, rfl⟩
  obtain ⟨s', hs', htransport', hdeliveries⟩ := hlost
  unfold endSweep
  simp only [← hs']
  split
  · refine .calm hstage nofun hone hdeliveries trivial (fun _ => ⟨rfl, rfl⟩)
      (fun _ => ⟨?_, .remains rfl⟩) (by simp [Stage.room])
    simp [Stage.budget, Effort.le_iff, Effort.add_eq]
  · refine .calm hstage nofun hone hdeliveries htransport' (fun _ => ⟨rfl, rfl⟩)
      (fun _ => ⟨?_, .remains rfl⟩) (by simp [Stage.room])
    simp [Stage.budget, Effort.le_iff, Effort.add_eq]

/-- What one action of a task in its loop comes to. -/
theorem stride_step (hfits : Fits p s r) (hloops : r.stage.loops = true) :
    Stride p s r (r.step s).1 (r.step s).2 := by
  have honRing : ∀ {action : Descriptor → Geometry → Memory → Site × Receiver},
      s.bus.transport = .ring →
      (∀ fd g, r.ring? s = some (fd, g) → Stride p s r (action fd g (s.medium.kernel.memory fd)).1
        (action fd g (s.medium.kernel.memory fd)).2) →
      Stride p s r (r.onRing s action).1 (r.onRing s action).2 := by
    intro action htransport h
    obtain ⟨fd, g, hring⟩ := hfits.ring htransport
    unfold onRing
    rw [show (r.resource? s).bind Resource.ring = some (fd, g) from hring]
    exact h fd g hring
  have hadmitted := hfits.admitted
  unfold step
  cases hstage : r.stage with
  | returned _ | published | exited _ => rw [hstage] at hloops; cases hloops
  | top => exact stride_atTop hfits hstage
  | receiving => exact stride_receive hfits hstage
  | holding records =>
    cases records with
    | nil =>
      have hnone : r.completes s = 0 := by rw [completes, hstage]
      refine .calm hstage nofun hnone rfl trivial (fun _ => ⟨rfl, rfl⟩)
        (fun _ => ⟨?_, .remains rfl⟩) (Nat.le_add_right _ _)
      simp [Stage.budget, Effort.le_iff, Effort.add_eq]
    | cons bytes rest => exact stride_handleRecord hfits hstage
  | looking sweep =>
    rw [hstage] at hadmitted
    exact honRing hadmitted fun fd g hring => stride_look hfits hring hstage
  | releasing sweep =>
    rw [hstage] at hadmitted
    have hnone : r.completes s = 0 := by rw [completes, hstage]
    refine honRing hadmitted fun fd g _ => ?_
    refine .calm hstage nofun hnone rfl hadmitted (fun _ => ⟨rfl, rfl⟩)
      (fun _ => ⟨?_, .remains rfl⟩) (Nat.le_add_right _ _)
    simp only [stage_goTo, Stage.budget, Effort.le_iff, Effort.add_eq]
    omega
  | advancing sweep =>
    rw [hstage] at hadmitted
    have hnone : r.completes s = 0 := by rw [completes, hstage]
    refine honRing hadmitted fun fd g _ => ?_
    refine .calm hstage nofun hnone rfl hadmitted (fun _ => ⟨rfl, rfl⟩)
      (fun _ => ⟨?_, .remains rfl⟩) (Nat.le_add_right _ _)
    simp only [stage_goTo, Sweep.advance, Stage.budget, Effort.le_iff, Effort.add_eq]
    omega
  | swept sweep =>
    rw [hstage] at hadmitted
    exact honRing hadmitted fun fd g _ => stride_endSweep g hadmitted hstage
  | sleeping deadline order =>
    have hnone : r.completes s = 0 := by rw [completes, hstage]
    rw [hstage] at hadmitted
    have hsignalled : r.isSignalled s = r.cancelled :=
      isSignalled_eq_cancelled (by rw [show s.bus.transport = .ring from hadmitted]; decide)
    simp only
    split
    · exact .stop hstage nofun rfl (fun _ => Nat.le_of_eq hnone) rfl
    · rename_i hgoing
      have huntold : r.isSignalled s = false := by rw [hsignalled]; simpa using hgoing
      split
      · exact .onward hstage nofun rfl huntold rfl trivial fun _ => ⟨rfl, rfl⟩
      · exact .onward hstage nofun rfl huntold rfl hfits.admitted fun _ => ⟨rfl, rfl⟩

end Receiver

end CanTransport
