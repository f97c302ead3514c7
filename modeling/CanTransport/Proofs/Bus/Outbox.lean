import CanTransport.Proofs.Bus.Connectedness
import CanTransport.Proofs.Bus.Counters
import CanTransport.Proofs.Bus.Courses
import CanTransport.Proofs.Bus.History
/-!
# What leaves a bus

Notes that are taken along a run: which operations begin and how they return, which records leave
the bus with them, and how the counters change while they act. Each send is noted as one that keeps
to its course, and the frames that were counted are the sends that reported success.
-/

namespace CanTransport

namespace Site

/-- The parcel that leaves with the next action of an operation. -/
def parcel? (s : Site) (id : OperationId) : Option Parcel :=
  (s.operation? id).bind fun o => o.todo.head?.bind (o.parcel? s)

variable {s : Site} {id : OperationId} {o : Operation} {action : Action} {rest : List Action}

theorem parcel?_of_none (h : s.operation? id = none) : s.parcel? id = none := by
  rw [parcel?, h]
  rfl

theorem parcel?_of_nil (h : s.operation? id = some o) (htodo : o.todo = []) :
    s.parcel? id = none := by
  rw [parcel?, h, Option.bind_some, htodo]
  rfl

theorem parcel?_of_cons (h : s.operation? id = some o) (htodo : o.todo = action :: rest) :
    s.parcel? id = o.parcel? s action := by
  rw [parcel?, h, Option.bind_some, htodo]
  rfl

end Site

namespace Outbox

inductive Entry where
  /-- An operation began. -/
  | began (id : OperationId) (request : Request)
  /-- A parcel left with an action of an operation. -/
  | left (id : OperationId) (parcel : Parcel)
  /-- An action of an operation changed the counters. -/
  | changed (id : OperationId) (before after : Stats)
  /-- An operation returned. -/
  | ended (id : OperationId) (request : Request) (outcome : Except Error Unit)

namespace Entry

def id : Entry → OperationId
  | began id _ | left id _ | changed id _ _ | ended id _ _ => id

def parcel? (id : OperationId) : Entry → Option Parcel
  | left other parcel => if other = id then some parcel else none
  | _ => none

def change? (id : OperationId) : Entry → Option (Stats × Stats)
  | changed other before after => if other = id then some (before, after) else none
  | _ => none

/-- Whether a send reports success. -/
def isSuccess : Entry → Bool
  | ended _ (.send _) (.ok ()) => true
  | _ => false

end Entry

/-- The return of an operation that has nothing left to do. -/
def endings (s : Site) (id : OperationId) : List Entry :=
  match s.operation? id with
  | some o => if o.todo = [] then [.ended id o.request o.outcome] else []
  | none => []

/-- What becomes of the counters. -/
def changes (id : OperationId) (before after : Stats) : List Entry :=
  if before = after then [] else [.changed id before after]

/-- What is noted of a step. -/
def notes : Life.Event → Life → Life → List Entry
  | .start request, w, _ => [.began w.site.bus.next request]
  | .act id, w, w' =>
    (w.site.parcel? id).toList.map (.left id) ++ endings w.site id ++
      changes id w.site.bus.reception.stats w'.site.bus.reception.stats
  | .run _, _, _ | .subscribe _, _, _ | .outside, _, _ => []

/-- The parcels that left with an operation. -/
def parcels (id : OperationId) (log : List Entry) : List Parcel := log.filterMap (Entry.parcel? id)

/-- How an operation changed the counters. -/
def counts (id : OperationId) (log : List Entry) : List (Stats × Stats) :=
  log.filterMap (Entry.change? id)

/-- How many sends reported success. -/
def successes (log : List Entry) : Nat := log.countP Entry.isSuccess

/-- How many sends were counted and have not returned yet. -/
def pending (s : Site) : Nat := s.bus.operations.countP Operation.isCounted

/-- What the notes say of the sends of a bus. -/
structure Kept (log : List Entry) (w : Life) : Prop where
  ids : (w.site.bus.operations.map Operation.id).Nodup
  numbered : ∀ entry ∈ log, entry.id < w.site.bus.next
  began : ∀ o ∈ w.site.bus.operations, .began o.id o.request ∈ log
  gone : ∀ id request outcome, .ended id request outcome ∈ log → w.site.operation? id = none
  left : ∀ id p, .left id p ∈ log → ∃ frame, .began id (.send frame) ∈ log ∧ p.raw = frame.encode
  courses : ∀ o ∈ w.site.bus.operations, ∀ frame, o.request = .send frame →
    o.Course w.site.bus.transport frame (parcels o.id log) (counts o.id log)
  concluded : ∀ id frame outcome, .ended id (.send frame) outcome ∈ log →
    Operation.Concluded w.site.bus.transport frame (parcels id log) (counts id log) outcome
  sent_eq : w.site.bus.reception.stats.sent = UInt64.ofNat (successes log + pending w.site)

variable {log log' : List Entry} {w w' : Life} {event : Life.Event} {id : OperationId}
  {o o' : Operation} {s' : Site} {action : Action} {rest : List Action}

/-! ## Notes of one operation -/

theorem parcels_append (id : OperationId) (log log' : List Entry) :
    parcels id (log ++ log') = parcels id log ++ parcels id log' := List.filterMap_append

theorem counts_append (id : OperationId) (log log' : List Entry) :
    counts id (log ++ log') = counts id log ++ counts id log' := List.filterMap_append

theorem successes_append (log log' : List Entry) :
    successes (log ++ log') = successes log + successes log' := List.countP_append

/-- Notes that are not about an operation. -/
theorem eq_nil_of_ne (h : ∀ entry ∈ log, entry.id ≠ id) : parcels id log = [] ∧ counts id log = [] := by
  constructor
  · rw [parcels, List.filterMap_eq_nil_iff]
    intro entry hentry
    cases entry with
    | left other parcel => exact if_neg (h _ hentry)
    | began | changed | ended => rfl
  · rw [counts, List.filterMap_eq_nil_iff]
    intro entry hentry
    cases entry with
    | changed other before after => exact if_neg (h _ hentry)
    | began | left | ended => rfl

/-! ## What is counted -/

theorem pending_acted (hids : (w.site.bus.operations.map Operation.id).Nodup)
    (hfind : w.site.operation? id = some o) (htodo : o.todo = action :: rest)
    (hperform : { o with todo := rest }.perform w.site action = some (s', o')) :
    pending (s'.setBus (s'.bus.setOperation o')).collect =
      pending w.site + if o'.isCounted then 1 else 0 := by
  have hframed := Operation.framed_perform hperform
  obtain ⟨hmem, -⟩ := Site.operation?_mem hfind
  obtain ⟨before, behind, hbefore, hafter, -⟩ :=
    Bus.operations_split hids hmem (show o'.id = o.id from hframed.id_eq)
  have hnot : o.isCounted = false := by simp [Operation.isCounted, htodo]
  have hoperations : (s'.setBus (s'.bus.setOperation o')).collect.bus.operations =
      before ++ o' :: behind := by
    rw [Site.collect_bus, ← hafter]
    show (s'.bus.setOperation o').operations = _
    rw [Bus.setOperation, hframed.operations_eq]
    rfl
  rw [pending, pending, hoperations, hbefore]
  simp only [List.countP_append, List.countP_cons, hnot]
  simp +arith

theorem pending_finish (hids : (w.site.bus.operations.map Operation.id).Nodup)
    (hfind : w.site.operation? id = some o) :
    pending w.site = pending (w.site.finish o) + if o.isCounted then 1 else 0 := by
  obtain ⟨hmem, -⟩ := Site.operation?_mem hfind
  obtain ⟨before, behind, hbefore, -, hfilter⟩ := Bus.operations_split hids hmem (Eq.refl o.id)
  rw [pending, pending, Site.finish_operations, hfilter, hbefore]
  simp only [List.countP_append, List.countP_cons]
  omega

theorem pending_start (s : Site) (request : Request) : pending (s.start request).2 = pending s := by
  have hnot : ∀ o : Operation, o.todo = request.start s.bus.transport → o.isCounted = false := by
    intro o htodo
    have hbusy : o.todo ≠ [] := by
      rw [htodo]
      cases request with
      | connect | disconnect => exact nofun
      | send frame =>
        show s.bus.transport.transmission ≠ []
        cases s.bus.transport <;> exact nofun
    simp [Operation.isCounted, hbusy]
  show List.countP _ (s.bus.operations ++ [_]) = _
  rw [List.countP_append, List.countP_singleton, hnot _ rfl]
  rfl

/-- Only a send counts itself. -/
theorem ne_countSent (hw : w.Sound) (hfind : w.site.operation? id = some o)
    (hrequest : o.request.wire? = none) (htodo : o.todo = action :: rest) :
    action ≠ .countSent := by
  rintro rfl
  by_cases hlock : w.site.bus.lock = some id
  · obtain ⟨_, hsame, hproceeds⟩ := hw.holder id hlock
    cases hfind.symm.trans hsame
    obtain ⟨σ, -, hleads⟩ := hproceeds.plan
    rw [htodo] at hleads
    obtain ⟨-, σ', hafter, -⟩ := Shape.leads_cons (by decide) hleads
    cases hafter
  · cases hw.waits id o hfind hlock with
    | entering _ hplan => cases hplan.symm.trans htodo
    | done _ hplan => cases hplan.symm.trans htodo
    | sending hsend => rw [hsend] at hrequest; cases hrequest

theorem parcel?_eq_none (hrequest : o.request.wire? = none) (s : Site) (action : Action) :
    o.parcel? s action = none := by
  cases action with
  | write =>
    simp only [Operation.parcel?, hrequest]
    split
    · contradiction
    · rfl
  | transmit => simp [Operation.parcel?, hrequest]
  | _ => rfl

/-! ## Steps -/

theorem kept_of_made {s : Site} (hmade : s.Made) : Kept [] { site := s } where
  ids := by
    rw [hmade.operations_eq]
    exact List.nodup_nil
  numbered _ hentry := absurd hentry List.not_mem_nil
  began o ho := by
    rw [hmade.operations_eq] at ho
    cases ho
  gone _ _ _ hentry := absurd hentry List.not_mem_nil
  left _ _ hentry := absurd hentry List.not_mem_nil
  courses o ho := by
    rw [hmade.operations_eq] at ho
    cases ho
  concluded _ _ _ hentry := absurd hentry List.not_mem_nil
  sent_eq := by
    have hpending : pending s = 0 := by
      rw [pending, hmade.operations_eq]
      rfl
    rw [hmade.reception_eq, hpending]
    rfl

/-- A step that is no action of an operation and begins none. -/
theorem Kept.elsewhere (h : Kept log w) (hoperations : w'.site.bus.operations = w.site.bus.operations)
    (hnext : w'.site.bus.next = w.site.bus.next)
    (htransport : w'.site.bus.transport = w.site.bus.transport)
    (hsent : w'.site.bus.reception.stats.sent = w.site.bus.reception.stats.sent) :
    Kept log w' := by
  refine ⟨?_, ?_, ?_, ?_, h.left, ?_, ?_, ?_⟩
  · rw [hoperations]
    exact h.ids
  · rw [hnext]
    exact h.numbered
  · rw [hoperations]
    exact h.began
  · intro id request outcome hmem
    rw [Site.operation?, hoperations]
    exact h.gone id request outcome hmem
  · rw [hoperations, htransport]
    exact h.courses
  · rw [htransport]
    exact h.concluded
  · rw [hsent, pending, hoperations]
    exact h.sent_eq

theorem Kept.start (h : Kept log w) (hw : w.Sound) (request : Request) :
    Kept (log ++ [.began w.site.bus.next request])
      { w with site := (w.site.start request).2 } := by
  have hlt : ∀ o ∈ w.site.bus.operations, o.id < w.site.bus.next := fun o ho => (hw.numbered o ho).1
  have hoperations : (w.site.start request).2.bus.operations = w.site.bus.operations ++
      [{ id := w.site.bus.next, request := request,
         todo := request.start w.site.bus.transport }] := rfl
  have hparcels : ∀ id, parcels id (log ++ [.began w.site.bus.next request]) = parcels id log :=
    fun id => (parcels_append id _ _).trans (List.append_nil _)
  have hcounts : ∀ id, counts id (log ++ [.began w.site.bus.next request]) = counts id log :=
    fun id => (counts_append id _ _).trans (List.append_nil _)
  have hended : ∀ id other outcome,
      .ended id other outcome ∈ log ++ [.began w.site.bus.next request] →
        .ended id other outcome ∈ log := by
    intro id other outcome hmem
    rcases List.mem_append.mp hmem with hold | hnew
    · exact hold
    · cases List.mem_singleton.mp hnew
  refine ⟨?_, ?_, ?_, ?_, ?_, ?_, ?_, ?_⟩
  · rw [hoperations, List.map_append, List.nodup_append]
    refine ⟨h.ids, List.nodup_cons.mpr ⟨List.not_mem_nil, List.nodup_nil⟩, ?_⟩
    rintro id hold id' hnew rfl
    obtain ⟨o, hmem, rfl⟩ := List.mem_map.mp hold
    have hid := List.mem_singleton.mp hnew
    exact Nat.ne_of_lt (hlt o hmem) hid
  · intro entry hentry
    rcases List.mem_append.mp hentry with hold | hnew
    · exact Nat.lt_succ_of_lt (h.numbered entry hold)
    · cases List.mem_singleton.mp hnew
      exact Nat.lt_succ_self _
  · intro o ho
    rw [hoperations] at ho
    rcases List.mem_append.mp ho with hold | hnew
    · exact List.mem_append_left _ (h.began o hold)
    · cases List.mem_singleton.mp hnew
      exact List.mem_append_right _ List.mem_cons_self
  · intro id other outcome hmem
    have hold := hended id other outcome hmem
    rw [Site.operation?_start request hlt, if_neg]
    · exact h.gone id other outcome hold
    · exact Nat.ne_of_lt (h.numbered _ hold)
  · intro id p hmem
    rcases List.mem_append.mp hmem with hold | hnew
    · obtain ⟨frame, hbegan, hraw⟩ := h.left id p hold
      exact ⟨frame, List.mem_append_left _ hbegan, hraw⟩
    · cases List.mem_singleton.mp hnew
  · intro o ho frame hrequest
    rw [hparcels, hcounts]
    rw [hoperations] at ho
    rcases List.mem_append.mp ho with hold | hnew
    · exact h.courses o hold frame hrequest
    · cases List.mem_singleton.mp hnew
      have hnever : ∀ entry ∈ log, entry.id ≠ w.site.bus.next :=
        fun entry hentry => Nat.ne_of_lt (h.numbered entry hentry)
      obtain ⟨hparcels, hcounts⟩ := eq_nil_of_ne hnever
      rw [hparcels, hcounts]
      exact .asking (by rw [show request = _ from hrequest]; rfl) rfl rfl
  · intro id frame outcome hmem
    rw [hparcels, hcounts]
    exact h.concluded id frame outcome (hended id _ outcome hmem)
  · have hnone : successes [Entry.began w.site.bus.next request] = 0 := rfl
    rw [pending_start, successes_append, hnone, Nat.add_zero]
    exact h.sent_eq

/-- Notes of one operation leave those of another as they are. -/
theorem notes_of_other (log : List Entry) {other : OperationId} (hid : ∀ entry ∈ log', entry.id = id)
    (hne : other ≠ id) :
    parcels other (log ++ log') = parcels other log ∧ counts other (log ++ log') = counts other log := by
  have hnever : ∀ entry ∈ log', entry.id ≠ other :=
    fun entry hentry heq => hne (heq.symm.trans (hid entry hentry))
  obtain ⟨hparcels, hcounts⟩ := eq_nil_of_ne hnever
  rw [parcels_append, counts_append, hparcels, hcounts, List.append_nil, List.append_nil]
  exact ⟨rfl, rfl⟩

theorem successes_eq_zero (hopen : ∀ other request outcome, .ended other request outcome ∉ log) :
    successes log = 0 := by
  rw [successes, List.countP_eq_zero]
  intro entry hentry hsuccess
  cases entry with
  | ended other request outcome => exact hopen _ _ _ hentry
  | began | left | changed => cases hsuccess

/-- An operation has acted and goes on. -/
theorem Kept.acted (h : Kept log w) (hw : w.Sound) (hfind : w.site.operation? id = some o)
    (htodo : o.todo = action :: rest)
    (hperform : { o with todo := rest }.perform w.site action = some (s', o'))
    (hsite : w'.site = (s'.setBus (s'.bus.setOperation o')).collect)
    (hid : ∀ entry ∈ log', entry.id = id)
    (hopen : ∀ other request outcome, .ended other request outcome ∉ log')
    (hleft : ∀ other p, .left other p ∈ log' → ∃ frame, o.request = .send frame ∧
      p.raw = frame.encode)
    (hcourse : ∀ frame, o'.request = .send frame → o'.Course w.site.bus.transport frame
      (parcels id (log ++ log')) (counts id (log ++ log')))
    (hsent : s'.bus.reception.stats.sent =
      w.site.bus.reception.stats.sent + UInt64.ofNat (if o'.isCounted then 1 else 0)) :
    Kept (log ++ log') w' := by
  have hframed := Operation.framed_perform hperform
  obtain ⟨hmem, hnumber⟩ := Site.operation?_mem hfind
  have hid' : o'.id = id := hframed.id_eq.trans hnumber
  have hbus : w'.site.bus = { s'.bus.setOperation o' with
      resources := w'.site.bus.resources } := by
    rw [hsite, Site.collect_bus]
    rfl
  have hoperations : w'.site.bus.operations = (w.site.bus.setOperation o').operations := by
    rw [hbus]
    show (s'.bus.setOperation o').operations = _
    rw [Bus.setOperation, hframed.operations_eq]
    rfl
  have hended : ∀ other request outcome, .ended other request outcome ∈ log ++ log' →
      .ended other request outcome ∈ log := by
    intro other request outcome hin
    rcases List.mem_append.mp hin with hold | hnew
    · exact hold
    · exact absurd hnew (hopen _ _ _)
  have hother : ∀ other request outcome, .ended other request outcome ∈ log → other ≠ id := by
    rintro other request outcome hin rfl
    rw [h.gone _ _ _ hin] at hfind
    cases hfind
  have htransport : w'.site.bus.transport = w.site.bus.transport := by
    rw [hbus]
    exact hframed.transport_eq
  refine ⟨?_, ?_, ?_, ?_, ?_, ?_, ?_, ?_⟩
  · obtain ⟨before, behind, hbefore, hafter, -⟩ :=
      Bus.operations_split h.ids hmem (show o'.id = o.id from hframed.id_eq)
    have hids := h.ids
    rw [hoperations, hafter, List.map_append, List.map_cons,
      show o'.id = o.id from hframed.id_eq, ← List.map_cons, ← List.map_append, ← hbefore]
    exact hids
  · have hnext : w.site.bus.next ≤ w'.site.bus.next := by
      rw [hbus]
      exact (Operation.keeps_perform hperform).next_le
    intro entry hentry
    rcases List.mem_append.mp hentry with hold | hnew
    · exact Nat.lt_of_lt_of_le (h.numbered entry hold) hnext
    · rw [hid entry hnew, ← hnumber]
      exact Nat.lt_of_lt_of_le (hw.numbered o hmem).1 hnext
  · intro found hfound
    rw [hoperations] at hfound
    rcases Bus.mem_setOperation hfound with rfl | ⟨hold, -⟩
    · rw [hframed.id_eq, hframed.request_eq]
      exact List.mem_append_left _ (h.began o hmem)
    · exact List.mem_append_left _ (h.began found hold)
  · intro other request outcome hin
    have hold := hended other request outcome hin
    rw [hsite, Site.operation?_acted_ne hfind hperform (hother _ _ _ hold)]
    exact h.gone other request outcome hold
  · intro other p hin
    rcases List.mem_append.mp hin with hold | hnew
    · obtain ⟨frame, hbegan, hraw⟩ := h.left other p hold
      exact ⟨frame, List.mem_append_left _ hbegan, hraw⟩
    · obtain ⟨frame, hrequest, hraw⟩ := hleft other p hnew
      refine ⟨frame, List.mem_append_left _ ?_, hraw⟩
      have hbegan := h.began o hmem
      rw [hrequest, hnumber, ← hid _ hnew] at hbegan
      exact hbegan
  · intro found hfound frame hrequest
    rw [htransport]
    rw [hoperations] at hfound
    rcases Bus.mem_setOperation hfound with rfl | ⟨hold, hne⟩
    · rw [hid']
      exact hcourse frame hrequest
    · rw [hid'] at hne
      obtain ⟨hparcels, hcounts⟩ := notes_of_other log hid hne
      rw [hparcels, hcounts]
      exact h.courses found hold frame hrequest
  · intro other frame outcome hin
    have hold := hended other _ outcome hin
    obtain ⟨hparcels, hcounts⟩ := notes_of_other log hid (hother _ _ _ hold)
    rw [htransport, hparcels, hcounts]
    exact h.concluded other frame outcome hold
  · have hstats : w'.site.bus.reception.stats.sent = s'.bus.reception.stats.sent := by
      rw [hbus]
      rfl
    rw [hstats, hsent, hsite, pending_acted h.ids hfind htodo hperform, successes_append,
      successes_eq_zero hopen, h.sent_eq, ← UInt64.ofNat_add]
    congr 1
    omega

/-- An operation returns. -/
theorem Kept.finished (h : Kept log w) (hfind : w.site.operation? id = some o) (htodo : o.todo = [])
    (hnext : id < w.site.bus.next) (hsite : w'.site = w.site.finish o) :
    Kept (log ++ [.ended id o.request o.outcome]) w' := by
  obtain ⟨hmem, hnumber⟩ := Site.operation?_mem hfind
  have hid : ∀ entry ∈ [Entry.ended id o.request o.outcome], entry.id = id := by
    intro entry hentry
    cases List.mem_singleton.mp hentry
    rfl
  have hparcels : ∀ other, parcels other (log ++ [.ended id o.request o.outcome]) =
      parcels other log := fun other => (parcels_append other _ _).trans (List.append_nil _)
  have hcounts : ∀ other, counts other (log ++ [.ended id o.request o.outcome]) =
      counts other log := fun other => (counts_append other _ _).trans (List.append_nil _)
  have hbus : w'.site.bus = { w.site.bus with
      operations := w.site.bus.operations.filter (·.id != o.id)
      resources := w'.site.bus.resources } := by
    rw [hsite, Site.finish_bus]
  have hoperations : w'.site.bus.operations = w.site.bus.operations.filter (·.id != o.id) := by
    rw [hbus]
  refine ⟨?_, ?_, ?_, ?_, ?_, ?_, ?_, ?_⟩
  · rw [hoperations]
    exact (List.filter_sublist.map Operation.id).nodup h.ids
  · intro entry hentry
    rw [hbus]
    rcases List.mem_append.mp hentry with hold | hnew
    · exact h.numbered entry hold
    · rw [hid entry hnew]
      exact hnext
  · intro found hfound
    rw [hoperations] at hfound
    exact List.mem_append_left _ (h.began found (List.mem_filter.mp hfound).1)
  · intro other request outcome hin
    rw [hsite, Site.operation?_finish]
    split
    · rfl
    · rename_i hne
      rcases List.mem_append.mp hin with hold | hnew
      · exact h.gone other request outcome hold
      · cases List.mem_singleton.mp hnew
        exact absurd hnumber.symm hne
  · intro other p hin
    rcases List.mem_append.mp hin with hold | hnew
    · obtain ⟨frame, hbegan, hraw⟩ := h.left other p hold
      exact ⟨frame, List.mem_append_left _ hbegan, hraw⟩
    · cases List.mem_singleton.mp hnew
  · intro found hfound frame hrequest
    rw [hparcels, hcounts]
    rw [hoperations] at hfound
    rw [show w'.site.bus.transport = w.site.bus.transport by rw [hbus]]
    exact h.courses found (List.mem_filter.mp hfound).1 frame hrequest
  · intro other frame outcome hin
    rw [hparcels, hcounts, show w'.site.bus.transport = w.site.bus.transport by rw [hbus]]
    rcases List.mem_append.mp hin with hold | hnew
    · exact h.concluded other frame outcome hold
    · obtain ⟨rfl, hrequest, rfl⟩ : other = id ∧ .send frame = o.request ∧ outcome = o.outcome := by
        simpa using hnew
      rw [← hnumber]
      exact (h.courses o hmem frame hrequest.symm).concluded htodo
  · have hsuccess : successes [Entry.ended id o.request o.outcome] = if o.isCounted then 1 else 0 := by
      cases hrequest : o.request with
      | connect | disconnect =>
        simp [successes, Entry.isSuccess, Operation.isCounted, hrequest, Request.wire?]
      | send frame =>
        cases hfailure : o.failure with
        | none =>
          simp [successes, Entry.isSuccess, Operation.isCounted, hrequest, Request.wire?, htodo,
            hfailure, Operation.outcome]
        | some e =>
          simp [successes, Entry.isSuccess, Operation.isCounted, hfailure, Operation.outcome]
    have hpending := pending_finish h.ids hfind
    rw [show w'.site.bus.reception.stats.sent = w.site.bus.reception.stats.sent by rw [hbus],
      h.sent_eq, hsite, successes_append, hsuccess, hpending]
    congr 1
    omega

theorem countSent_ne (stats : Stats) : stats ≠ stats.countSent := by
  intro heq
  have hsent : stats.sent = stats.sent + 1 := congrArg Stats.sent heq
  simp at hsent

/-- What is noted of the counters when a send acts. -/
theorem counts_changes (id : OperationId) (s : Site) (action : Action) (reception : Reception)
    (h : reception = if action = .countSent then s.bus.reception.count Stats.countSent
      else s.bus.reception) :
    counts id (changes id s.bus.reception.stats reception.stats) = Operation.counts s action := by
  by_cases haction : action = .countSent
  · rw [if_pos haction] at h
    have hne : s.bus.reception.stats ≠ reception.stats := by
      rw [h]
      exact countSent_ne _
    rw [changes, if_neg hne, Operation.counts, if_pos haction, h]
    simp [counts, Entry.change?, Reception.count]
  · rw [if_neg haction] at h
    rw [changes, h, if_pos rfl, Operation.counts, if_neg haction]
    rfl

/-- The notes of an action of a send. -/
theorem notes_act (hfind : w.site.operation? id = some o) (htodo : o.todo = action :: rest) :
    notes (.act id) w w' = (o.parcel? w.site action).toList.map (.left id) ++
      changes id w.site.bus.reception.stats w'.site.bus.reception.stats := by
  have hnone : endings w.site id = [] := by
    rw [endings, hfind]
    simp [htodo]
  rw [notes, Site.parcel?_of_cons hfind htodo, hnone, List.append_nil]

theorem id_of_mem_notes {parcel : Option Parcel} {before after : Stats} :
    ∀ entry ∈ parcel.toList.map (Entry.left id) ++ changes id before after, entry.id = id := by
  intro entry hentry
  rcases List.mem_append.mp hentry with hleft | hchanged
  · obtain ⟨p, -, rfl⟩ := List.mem_map.mp hleft
    rfl
  · unfold changes at hchanged
    split at hchanged
    · cases hchanged
    · cases List.mem_singleton.mp hchanged
      rfl

theorem left_mem_notes {parcel : Option Parcel} {before after : Stats} {other : OperationId}
    {p : Parcel} (h : .left other p ∈ parcel.toList.map (Entry.left id) ++ changes id before after) :
    p ∈ parcel.toList := by
  rcases List.mem_append.mp h with hleft | hchanged
  · obtain ⟨_, hp, heq⟩ := List.mem_map.mp hleft
    cases heq
    exact hp
  · unfold changes at hchanged
    split at hchanged
    · cases hchanged
    · cases List.mem_singleton.mp hchanged

theorem open_of_mem_notes {parcel : Option Parcel} {before after : Stats} :
    ∀ other request outcome, .ended other request outcome ∉
      parcel.toList.map (Entry.left id) ++ changes id before after := by
  intro other request outcome hentry
  rcases List.mem_append.mp hentry with hleft | hchanged
  · obtain ⟨p, -, heq⟩ := List.mem_map.mp hleft
    cases heq
  · unfold changes at hchanged
    split at hchanged
    · cases hchanged
    · cases List.mem_singleton.mp hchanged

/-- A send acts. -/
theorem Kept.sent {frame : Frame} (h : Kept log w) (hw : w.Sound)
    (hfind : w.site.operation? id = some o) (htodo : o.todo = action :: rest)
    (hrequest : o.request = .send frame) : Kept (log ++ notes (.act id) w (w.act id)) (w.act id) := by
  obtain ⟨hmem, hnumber⟩ := Site.operation?_mem hfind
  have hcourse := h.courses o hmem frame hrequest
  obtain ⟨s', o', hperform, hproceeding⟩ := hcourse.exists_proceeding hrequest htodo
  have hsite : (w.act id).site = (s'.setBus (s'.bus.setOperation o')).collect := by
    rw [Life.site_act, Site.advance_goesOn hfind htodo hperform]
  have hreception : (w.act id).site.bus.reception = s'.bus.reception := by
    rw [hsite, Site.collect_bus]
    rfl
  have hparcels : parcels id (notes (.act id) w (w.act id)) =
      (o.parcel? w.site action).toList := by
    rw [notes_act hfind htodo, parcels_append, parcels, List.filterMap_map]
    cases o.parcel? w.site action <;> simp [parcels, changes, Entry.parcel?]
  have hcounts : counts id (notes (.act id) w (w.act id)) = Operation.counts w.site action := by
    rw [notes_act hfind htodo, counts_append, hreception,
      counts_changes id w.site action _ hproceeding.reception_eq]
    cases o.parcel? w.site action <;> simp [counts, Entry.change?]
  have hbefore : counts o.id log = [] := by
    have hnot : o.isCounted = false := by simp [Operation.isCounted, htodo]
    simpa [hnot] using hcourse.isCounted_eq hrequest
  have hrequest' : o'.request = .send frame := hproceeding.request_eq.trans hrequest
  have hcounted : o'.isCounted = !(Operation.counts w.site action).isEmpty := by
    rw [hproceeding.course.isCounted_eq hrequest', hbefore, List.nil_append]
  have hsent : s'.bus.reception.stats.sent =
      w.site.bus.reception.stats.sent + UInt64.ofNat (if o'.isCounted then 1 else 0) := by
    rw [hproceeding.reception_eq, hcounted, Operation.counts]
    by_cases haction : action = .countSent
    · simp only [if_pos haction]
      rfl
    · simp [if_neg haction]
  have hthen := hproceeding.course
  have hraw : ∀ p ∈ (o.parcel? w.site action).toList, p.raw = frame.encode :=
    fun p hp => hthen.raw_eq.2 p (List.mem_append_right _ hp)
  rw [hnumber, ← hparcels, ← hcounts, ← parcels_append, ← counts_append] at hthen
  rw [notes_act hfind htodo] at hthen ⊢
  refine h.acted hw hfind htodo hperform hsite id_of_mem_notes open_of_mem_notes
    (fun other p hp => ⟨frame, hrequest, hraw p (left_mem_notes hp)⟩) ?_ hsent
  intro frame' hsame
  cases hrequest'.symm.trans hsame
  exact hthen

/-- An operation that is no send has acted, and nothing has left or been counted. -/
theorem Kept.performed (h : Kept log w) (hw : w.Sound) (hfind : w.site.operation? id = some o)
    (htodo : o.todo = action :: rest) (hrequest : o.request.wire? = none)
    (hperform : { o with todo := rest }.perform w.site action = some (s', o')) :
    Kept (log ++ notes (.act id) w (w.act id)) (w.act id) := by
  have hsite : (w.act id).site = (s'.setBus (s'.bus.setOperation o')).collect := by
    rw [Life.site_act, Site.advance_goesOn hfind htodo hperform]
  have hstats : s'.bus.reception.stats = w.site.bus.reception.stats :=
    Operation.stats_perform (ne_countSent hw hfind hrequest htodo) hperform
  have hstats' : (w.act id).site.bus.reception.stats = w.site.bus.reception.stats := by
    rw [hsite, Site.collect_bus]
    exact hstats
  have hrequest' : o'.request = o.request := (Operation.framed_perform hperform).request_eq
  have hcounted : o'.isCounted = false := by simp [Operation.isCounted, hrequest', hrequest]
  have hnotes : notes (.act id) w (w.act id) = [] := by
    rw [notes_act hfind htodo, parcel?_eq_none hrequest, hstats', changes, if_pos rfl]
    rfl
  rw [hnotes]
  refine h.acted hw hfind htodo hperform hsite (fun _ hentry => absurd hentry List.not_mem_nil)
    (fun _ _ _ => List.not_mem_nil) (fun _ _ hentry => absurd hentry List.not_mem_nil) ?_ ?_
  · intro frame hsend
    rw [← hrequest', hsend] at hrequest
    cases hrequest
  · rw [hstats, hcounted]
    simp

theorem Kept.act (h : Kept log w) (hw : w.Sound) (id : OperationId) :
    Kept (log ++ notes (.act id) w (w.act id)) (w.act id) := by
  have hidle : w.act id = w → w.site.parcel? id = none → endings w.site id = [] →
      Kept (log ++ notes (.act id) w (w.act id)) (w.act id) := by
    intro hsame hparcel hendings
    rw [hsame, notes, hparcel, hendings, changes, if_pos rfl]
    simpa using h
  cases hfind : w.site.operation? id with
  | none =>
    refine hidle (Life.act_of_none hfind) (Site.parcel?_of_none hfind) ?_
    rw [endings, hfind]
  | some o =>
    obtain ⟨hmem, hnumber⟩ := Site.operation?_mem hfind
    cases htodo : o.todo with
    | nil =>
      have hsite : (w.act id).site = w.site.finish o := by
        rw [Life.site_act, Site.advance_ends hfind htodo]
      have hnotes : notes (.act id) w (w.act id) = [.ended id o.request o.outcome] := by
        rw [notes, Site.parcel?_of_nil hfind htodo, endings, hfind, hsite, Site.finish_bus]
        simp [htodo, changes]
      rw [hnotes]
      exact h.finished hfind htodo (hnumber ▸ (hw.numbered o hmem).1) hsite
    | cons action rest =>
      cases hwire : o.request.wire? with
      | some raw =>
        cases hrequest : o.request with
        | connect | disconnect => rw [hrequest] at hwire; cases hwire
        | send frame => exact h.sent hw hfind htodo hrequest
      | none =>
        cases hperform : { o with todo := rest }.perform w.site action with
        | some result => exact h.performed hw hfind htodo hwire hperform
        | none =>
          refine hidle (Life.act_of_waiting hfind htodo hperform) ?_ ?_
          · rw [Site.parcel?_of_cons hfind htodo]
            exact parcel?_eq_none hwire _ _
          · rw [endings, hfind]
            simp [htodo]

theorem Kept.step (h : Kept log w) (hw : w.Sound) (hstep : Life.Step event w w') :
    Kept (log ++ notes event w w') w' := by
  cases hstep with
  | start request => exact h.start hw request
  | act id => exact h.act hw id
  | run id =>
    obtain ⟨haside, hoperations, hnext⟩ := Site.aside_run hw.stocked hw.held id
    rw [notes, List.append_nil]
    refine h.elsewhere hoperations hnext haside.transport_eq ?_
    show (w.site.run id).bus.reception.stats.sent = _
    rcases Site.run_eq w.site id with ⟨-, heq⟩ | ⟨r, -, heq⟩
    · rw [heq]
    · rw [heq, Site.collect_bus]
      exact (Receiver.leaves_step w.site r).sent_eq
  | subscribe listener | outside =>
    rw [notes, List.append_nil]
    exact h.elsewhere rfl rfl rfl rfl

theorem kept_of_noted {s : Site} (hmade : s.Made) (hrun : Life.Noted notes { site := s } log w) :
    Kept log w := by
  induction hrun with
  | refl => exact kept_of_made hmade
  | step hrun hstep ih => exact ih.step (hrun.sound (Life.sound_of_made hmade)) hstep

end Outbox

end CanTransport
