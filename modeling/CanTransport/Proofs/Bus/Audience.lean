import CanTransport.Proofs.Bus.Outbox
import CanTransport.Proofs.Bus.Takings
/-!
# Who was handed what

Notes that are taken along a run: who is installed as the listener, which calls begin, hold the lock
and return, which frames are sent, and what tasks take in. From them follow, at every moment of the
life of a bus, its four counters and whom each frame was handed to.
-/

namespace CanTransport

namespace Audience

inductive Entry where
  /-- A listener was installed. -/
  | subscribed (listener : Listener)
  /-- A call began. -/
  | began (id : OperationId) (request : Request)
  /-- A connect or a disconnect took the lock. -/
  | entered (id : OperationId) (request : Request)
  /-- It gave the lock back. -/
  | left (id : OperationId) (request : Request)
  /-- A call returned. -/
  | returned (id : OperationId) (request : Request) (outcome : Except Error Unit)
  /-- A frame was sent. -/
  | sent (id : OperationId)
  /-- A task acted, and took something in or nothing. -/
  | took (task : ReceiverId) (taking : Taking)

namespace Entry

def id? : Entry → Option OperationId
  | began id _ | entered id _ | left id _ | returned id _ _ | sent id => some id
  | subscribed _ | took _ _ => none

def listener? : Entry → Option Listener
  | subscribed listener => some listener
  | _ => none

def frame? : Entry → Option Frame
  | took _ (.frame frame) => some frame
  | _ => none

def lost? : Entry → Option Nat
  | took _ (.lost count) => some count
  | _ => none

def isSent : Entry → Bool
  | sent _ => true
  | _ => false

def isFailure : Entry → Bool
  | took _ .failure => true
  | _ => false

/-- What it does to counters. -/
def count (s : Stats) : Entry → Stats
  | sent _ => s.countSent
  | took _ (.frame _) => s.countReceived
  | took _ (.lost count) => s.countDropped count
  | took _ .failure => s.countError
  | _ => s

end Entry

/-- What is noted when an operation acts. -/
def acted (s : Site) (o : Operation) : List Entry :=
  match o.todo with
  | [] => [.returned o.id o.request o.outcome]
  | .enter :: _ => if s.bus.lock = none then [.entered o.id o.request] else []
  | .leave :: _ => [.left o.id o.request]
  | .countSent :: _ => [.sent o.id]
  | _ => []

/-- What is noted of a step. -/
def notes : Life.Event → Life → Life → List Entry
  | .subscribe listener, _, _ => [.subscribed listener]
  | .start request, w, _ => [.began w.site.bus.next request]
  | .act id, w, _ => ((w.site.operation? id).map (acted w.site)).getD []
  | .run id, w, _ => (w.site.bus.receiver? id).toList.map fun r => .took id (r.taking w.site)
  | .outside, _, _ => []

/-- The listeners that were installed, in order. -/
def listeners (log : List Entry) : List Listener := log.filterMap Entry.listener?

/-- The listener that was installed last; one that ignores every frame if there was none. -/
def latest (log : List Entry) : Listener := (listeners log).getLastD {}

/-- The frames that were taken in, in order. -/
def frames (log : List Entry) : List Frame := log.filterMap Entry.frame?

/-- How many frames were sent. -/
def sends (log : List Entry) : Nat := log.countP Entry.isSent

/-- How many frames were lost. -/
def losses (log : List Entry) : Nat := (log.filterMap Entry.lost?).sum

/-- How many receive calls failed. -/
def failures (log : List Entry) : Nat := log.countP Entry.isFailure

/-- The counters of a bus with such notes. -/
def tally (log : List Entry) : Stats where
  sent := .ofNat (sends log)
  received := .ofNat (frames log).length
  dropped := .ofNat (losses log)
  errors := .ofNat (failures log)

/-- What the notes say of what a bus shares with its tasks: its counters, its listener, and that
each frame was handed once, to the listener that was installed last before it. -/
structure Heard (log : List Entry) (r : Reception) : Prop where
  stats_eq : r.stats = tally log
  subscription_eq : r.subscription = (listeners log).length
  log_eq : r.listener.log = (latest log).log
  failsAt_eq : r.listener.failsAt = (latest log).failsAt
  length_eq : r.deliveries.length = (frames log).length
  handed : ∀ before task frame after, log = before ++ .took task (.frame frame) :: after →
    ∃ d, r.deliveries[(frames before).length]? = some d ∧ d.frame = frame ∧
      d.subscription = (listeners before).length ∧ d.log = (latest before).log

variable {log log' : List Entry} {entry : Entry} {w w' : Life} {event : Life.Event}
  {id : OperationId} {o o' : Operation} {action : Action} {rest : List Action} {r r' : Reception}

/-! ## Notes -/

theorem frames_concat (log : List Entry) (entry : Entry) :
    frames (log ++ [entry]) = frames log ++ entry.frame?.toList := List.filterMap_append

theorem listeners_concat (log : List Entry) (entry : Entry) :
    listeners (log ++ [entry]) = listeners log ++ entry.listener?.toList := List.filterMap_append

theorem losses_concat (log : List Entry) (entry : Entry) :
    losses (log ++ [entry]) = losses log + entry.lost?.toList.sum := by
  rw [losses, List.filterMap_append, List.sum_append]
  rfl

theorem latest_concat (h : entry.listener? = none) : latest (log ++ [entry]) = latest log := by
  rw [latest, latest, listeners_concat, h, Option.toList_none, List.append_nil]

theorem latest_subscribed (listener : Listener) :
    latest (log ++ [.subscribed listener]) = listener := by
  rw [latest, listeners_concat]
  exact List.getLastD_concat

/-- The counters go on with every note. -/
theorem tally_concat (log : List Entry) (entry : Entry) :
    tally (log ++ [entry]) = entry.count (tally log) := by
  rw [tally, tally, frames_concat, losses_concat, sends, failures, List.countP_append,
    List.countP_append, List.length_append]
  cases entry with
  | subscribed | began | entered | left | returned => rfl
  | sent id => simp [sends, failures, losses, Entry.count, Entry.isSent, Entry.isFailure,
      Entry.frame?, Entry.lost?, Stats.countSent]
  | took task taking =>
    cases taking with
    | nothing => rfl
    | frame frame => simp [sends, failures, losses, Entry.count, Entry.isSent, Entry.isFailure,
        Entry.frame?, Entry.lost?, Stats.countReceived]
    | lost count => simp [sends, failures, losses, Entry.count, Entry.isSent, Entry.isFailure,
        Entry.frame?, Entry.lost?, Stats.countDropped]
    | failure => simp [sends, failures, losses, Entry.count, Entry.isSent, Entry.isFailure,
        Entry.frame?, Entry.lost?, Stats.countError]

/-- What an operation notes when it acts. -/
theorem mem_acted {s : Site} (h : entry ∈ acted s o) :
    (o.todo = [] ∧ entry = .returned o.id o.request o.outcome) ∨
    (∃ rest, o.todo = .enter :: rest ∧ s.bus.lock = none ∧ entry = .entered o.id o.request) ∨
    (∃ rest, o.todo = .leave :: rest ∧ entry = .left o.id o.request) ∨
    ∃ rest, o.todo = .countSent :: rest ∧ entry = .sent o.id := by
  unfold acted at h
  split at h
  · rename_i htodo
    exact Or.inl ⟨htodo, List.mem_singleton.mp h⟩
  · rename_i rest htodo
    split at h
    · rename_i hlock
      exact Or.inr (Or.inl ⟨rest, htodo, hlock, List.mem_singleton.mp h⟩)
    · cases h
  · rename_i rest htodo
    exact Or.inr (Or.inr (Or.inl ⟨rest, htodo, List.mem_singleton.mp h⟩))
  · rename_i rest htodo
    exact Or.inr (Or.inr (Or.inr ⟨rest, htodo, List.mem_singleton.mp h⟩))
  · cases h

theorem length_acted_le (s : Site) (o : Operation) : (acted s o).length ≤ 1 := by
  unfold acted
  split
  · exact Nat.le_refl 1
  · split
    · exact Nat.le_refl 1
    · exact Nat.zero_le 1
  · exact Nat.le_refl 1
  · exact Nat.le_refl 1
  · exact Nat.zero_le 1

theorem length_notes_le (event : Life.Event) (w w' : Life) : (notes event w w').length ≤ 1 := by
  cases event with
  | subscribe listener | start request => exact Nat.le_refl 1
  | outside => exact Nat.zero_le 1
  | act id =>
    cases hfind : w.site.operation? id with
    | none => simp [notes, hfind]
    | some o =>
      simp only [notes, hfind, Option.map_some, Option.getD_some]
      exact length_acted_le w.site o
  | run id =>
    rw [notes, List.length_map]
    cases w.site.bus.receiver? id with
    | none => exact Nat.zero_le 1
    | some r => exact Nat.le_refl 1

theorem notes_act (hfind : w.site.operation? id = some o) (w' : Life) :
    notes (.act id) w w' = acted w.site o := by
  rw [notes, hfind]
  rfl

/-- Who is named in a note has begun just now, or acts. -/
theorem exists_acted (h : entry ∈ notes event w w') (hid : entry.id? = some id) :
    (∃ request, event = .start request ∧ entry = .began id request ∧ id = w.site.bus.next) ∨
    event = .act id ∧ ∃ o, w.site.operation? id = some o ∧ entry ∈ acted w.site o := by
  cases event with
  | subscribe listener =>
    cases List.mem_singleton.mp h
    cases hid
  | outside => cases h
  | start request =>
    cases List.mem_singleton.mp h
    cases hid
    exact Or.inl ⟨request, rfl, rfl, rfl⟩
  | run task =>
    obtain ⟨t, -, rfl⟩ := List.mem_map.mp h
    cases hid
  | act other =>
    cases hfind : w.site.operation? other with
    | none =>
      rw [notes, hfind] at h
      cases h
    | some o =>
      rw [notes_act hfind] at h
      have hsame : other = id := by
        have hnumber := (Site.operation?_mem hfind).2
        rcases mem_acted h with ⟨-, rfl⟩ | ⟨_, -, -, rfl⟩ | ⟨_, -, rfl⟩ | ⟨_, -, rfl⟩
        all_goals
          cases hid
          exact hnumber.symm
      subst hsame
      exact Or.inr ⟨rfl, o, hfind, h⟩

/-! ## Listeners and counters -/

theorem heard_made {s : Site} (hmade : s.Made) : Heard [] s.bus.reception := by
  rw [hmade.reception_eq]
  exact ⟨rfl, rfl, rfl, rfl, rfl, fun before _ _ after hlog => absurd hlog (by simp)⟩

theorem Heard.publish (h : Heard log r) (state : ReceptionState) : Heard log (r.publish state) :=
  ⟨h.stats_eq, h.subscription_eq, h.log_eq, h.failsAt_eq, h.length_eq, h.handed⟩

/-- What a step does to what a bus shares with its tasks, read from its note. -/
def Entry.share (r : Reception) : Entry → Reception
  | .subscribed listener => r.subscribe listener
  | .sent _ => r.count Stats.countSent
  | .took _ taking => r.take taking
  | _ => r

/-- Frames that were handed before stay so. -/
theorem Heard.handed_append (h : Heard log r) (entry : Entry)
    (hsame : r.deliveries <+: r'.deliveries)
    (hlast : ∀ task frame, entry = .took task (.frame frame) →
      ∃ d, r'.deliveries[(frames log).length]? = some d ∧ d.frame = frame ∧
        d.subscription = (listeners log).length ∧ d.log = (latest log).log) :
    ∀ before task frame after, log ++ [entry] = before ++ .took task (.frame frame) :: after →
      ∃ d, r'.deliveries[(frames before).length]? = some d ∧ d.frame = frame ∧
        d.subscription = (listeners before).length ∧ d.log = (latest before).log := by
  intro before task frame after hlog
  rcases List.eq_nil_or_concat after with rfl | ⟨after', last, rfl⟩
  · obtain ⟨rfl, hentry⟩ := List.append_inj' hlog rfl
    cases hentry
    exact hlast task frame rfl
  · rw [List.concat_eq_append, ← List.cons_append, ← List.append_assoc] at hlog
    obtain ⟨hearlier, -⟩ := List.append_inj' hlog rfl
    obtain ⟨d, hd, htold⟩ := h.handed before task frame after' hearlier
    obtain ⟨more, hmore⟩ := hsame
    obtain ⟨hlt, -⟩ := List.getElem?_eq_some_iff.mp hd
    refine ⟨d, ?_, htold⟩
    rw [← hmore, List.getElem?_append_left hlt, hd]

theorem stats_share (r : Reception) (entry : Entry) :
    (entry.share r).stats = entry.count r.stats := by
  cases entry with
  | took task taking => cases taking <;> rfl
  | _ => rfl

theorem deliveries_share (r : Reception) (entry : Entry) :
    r.deliveries <+: (entry.share r).deliveries ∧
      (entry.share r).deliveries.length = r.deliveries.length + entry.frame?.toList.length := by
  cases entry with
  | took task taking =>
    cases taking with
    | frame frame => exact ⟨List.prefix_append _ _, List.length_append⟩
    | nothing | lost | failure => exact ⟨List.prefix_rfl, rfl⟩
  | _ => exact ⟨List.prefix_rfl, rfl⟩

/-- Only a listener that is installed takes the place of another. -/
theorem listener_share (h : entry.listener? = none) (r : Reception) :
    (entry.share r).subscription = r.subscription ∧
      (entry.share r).listener.log = r.listener.log ∧
      (entry.share r).listener.failsAt = r.listener.failsAt := by
  cases entry with
  | subscribed listener => cases h
  | took task taking => cases taking <;> exact ⟨rfl, rfl, rfl⟩
  | _ => exact ⟨rfl, rfl, rfl⟩

theorem Heard.share (h : Heard log r) (entry : Entry) : Heard (log ++ [entry]) (entry.share r) := by
  have hdeliveries := deliveries_share r entry
  have hhanded := h.handed_append entry hdeliveries.1 (by
    rintro task frame rfl
    refine ⟨{ subscription := r.subscription, log := r.listener.log, frame := frame,
              returned := r.listener.failsAt != some (r.listener.calls + 1) },
      ?_, rfl, h.subscription_eq, h.log_eq⟩
    rw [← h.length_eq]
    exact List.getElem?_concat_length)
  have hlength : (entry.share r).deliveries.length = (frames (log ++ [entry])).length := by
    rw [hdeliveries.2, h.length_eq, frames_concat, List.length_append]
  have hstats : (entry.share r).stats = tally (log ++ [entry]) := by
    rw [stats_share, h.stats_eq, tally_concat]
  by_cases hinstalls : entry.listener? = none
  · obtain ⟨hsubscription, hlog, hfailsAt⟩ := listener_share hinstalls r
    refine ⟨hstats, ?_, ?_, ?_, hlength, hhanded⟩
    · rw [hsubscription, h.subscription_eq, listeners_concat, hinstalls, Option.toList_none,
        List.append_nil]
    · rw [hlog, h.log_eq, latest_concat hinstalls]
    · rw [hfailsAt, h.failsAt_eq, latest_concat hinstalls]
  · cases entry with
    | subscribed listener =>
      refine ⟨hstats, ?_, ?_, ?_, hlength, hhanded⟩
      · rw [listeners_concat, List.length_append, ← h.subscription_eq]
        rfl
      · rw [latest_subscribed]
        rfl
      · rw [latest_subscribed]
        rfl
    | _ => exact absurd rfl hinstalls

/-- An operation that performs its next action. -/
theorem Heard.acted (h : Heard log r) (s : Site) (htodo : o.todo = action :: rest) :
    Heard (log ++ acted s o) (r.performed action) := by
  unfold Audience.acted
  rw [htodo]
  cases action with
  | enter =>
    simp only
    split
    · exact h.share (.entered o.id o.request)
    · rw [List.append_nil]
      exact h
  | leave => exact h.share (.left o.id o.request)
  | countSent => exact h.share (.sent o.id)
  | spawn =>
    rw [List.append_nil]
    exact h.publish .running
  | _ =>
    rw [List.append_nil]
    exact h

theorem Heard.act (h : Heard log w.site.bus.reception) (id : OperationId) :
    Heard (log ++ notes (.act id) w (w.act id)) (w.act id).site.bus.reception := by
  cases hfind : w.site.operation? id with
  | none =>
    rw [notes, hfind, Life.site_act, Site.advance_of_none hfind]
    rw [Option.map_none, Option.getD_none, List.append_nil]
    exact h
  | some o =>
    rw [notes_act hfind, Life.site_act]
    cases htodo : o.todo with
    | nil =>
      rw [Site.advance_ends hfind htodo, Site.finish_bus, Audience.acted, htodo]
      exact h.share (.returned o.id o.request o.outcome)
    | cons action rest =>
      have hacted := h.acted w.site htodo
      cases hperform : { o with todo := rest }.perform w.site action with
      | none =>
        -- Neither a spawn nor a count ever waits.
        have hsame : w.site.bus.reception.performed action = w.site.bus.reception := by
          cases action with
          | spawn | countSent => cases hperform
          | _ => rfl
        rw [Site.advance_waits_of_none hfind htodo hperform, ← hsame]
        exact hacted
      | some result =>
        obtain ⟨s', o'⟩ := result
        rw [Site.advance_goesOn hfind htodo hperform, Site.collect_bus]
        show Heard _ s'.bus.reception
        rw [Operation.reception_perform hperform]
        exact hacted

theorem Heard.run (h : Heard log w.site.bus.reception) (task : ReceiverId) :
    Heard (log ++ notes (.run task) w (w.run task)) (w.run task).site.bus.reception := by
  show Heard _ (w.site.run task).bus.reception
  rcases Site.run_eq w.site task with ⟨hnone, heq⟩ | ⟨t, hfind, heq⟩
  · rw [heq, notes, hnone, Option.toList_none, List.map_nil, List.append_nil]
    exact h
  · rw [heq, Site.collect_bus, notes, hfind, Option.toList_some, List.map_singleton]
    show Heard _ (t.step w.site).1.bus.reception
    have hshare := h.share (.took task (t.taking w.site))
    have hstep := Receiver.reception_step w.site t
    cases hstage : t.stage with
    | returned outcome =>
      simp only [hstage] at hstep
      have hnothing : t.taking w.site = .nothing := by simp only [Receiver.taking, hstage]
      rw [hnothing] at hshare ⊢
      rw [hstep]
      cases outcome with
      | ok done => exact hshare.publish .stopped
      | error e => exact hshare.publish (.failed e.text)
    | _ =>
      simp only [hstage] at hstep
      rw [hstep]
      exact hshare

theorem Heard.step (h : Heard log w.site.bus.reception) (hstep : Life.Step event w w') :
    Heard (log ++ notes event w w') w'.site.bus.reception := by
  cases hstep with
  | start request => exact h.share (.began w.site.bus.next request)
  | subscribe listener => exact h.share (.subscribed listener)
  | act id => exact h.act id
  | run task => exact h.run task
  | outside =>
    rw [notes, List.append_nil]
    exact h

theorem heard_of_noted {s : Site} (hmade : s.Made) (hrun : Life.Noted notes { site := s } log w) :
    Heard log w.site.bus.reception := by
  induction hrun with
  | refl => exact heard_made hmade
  | step _ hstep ih => exact ih.step hstep

end Audience

end CanTransport
