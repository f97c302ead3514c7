import CanTransport.Bus.Receiver
/-!
# Receptions by their events

What a sequence of events at a socket does to a reception, whoever reads them and in whatever
portions. A reader handles events until one of them ends it.
-/

namespace CanTransport

/-- How far events lead. -/
inductive Ending where
  /-- All were handled. -/
  | reading
  /-- One of them ended the reader. -/
  | failed (e : Error)
  /-- The listener did not survive one of them. -/
  | died
deriving DecidableEq, Repr

namespace Ending

/-- The outcome of a reader that has returned. -/
def outcome? : Ending → Option (Except Error Unit)
  | reading => some (.ok ())
  | failed e => some (.error e)
  | died => none

end Ending

namespace Reception

/-- What one event does. Whole records are handed on; interrupted calls are counted and timeouts
pass unnoticed; whatever else happens is counted and ends the reader. -/
def absorb (r : Reception) : Arrival → Reception × Ending
  | .record bytes =>
    let bytes := Kernel.truncated bytes
    if h : bytes.toArray.size = 16 then
      let (returned, r) := r.deliverWire ⟨bytes.toArray, h⟩
      (r, if returned then .reading else .died)
    else (r.count Stats.countError, .failed (.shortRead bytes.length wireSize))
  | .failure number =>
    if number = .interrupted then (r.count Stats.countError, .reading)
    else if number = .tryAgain ∨ number = .timedOut ∨ number = .inProgress then (r, .reading)
    else (r.count Stats.countError, .failed (.io (.os number)))
  | .endOfStream => (r.count Stats.countError, .failed (.shortRead 0 wireSize))

def through (r : Reception) : List Arrival → Reception × Ending
  | [] => (r, .reading)
  | event :: rest =>
    match r.absorb event with
    | (r, .reading) => through r rest
    | ended => ended

/-- What is published in the end, after a reader that has handled everything was told to stop. -/
def settle : Reception × Ending → Reception
  | (r, .reading) => r.publish .stopped
  | (r, .failed e) => r.publish (.failed e.text)
  | (r, .died) => r

variable {r r' : Reception} {event : Arrival} {events more : List Arrival}

theorem through_cons_of_reading (h : r.absorb event = (r', .reading)) :
    r.through (event :: events) = r'.through events := by
  simp only [through, h]

theorem through_cons_of_ended {ending : Ending} (h : r.absorb event = (r', ending))
    (hended : ending ≠ .reading) : r.through (event :: events) = (r', ending) := by
  cases ending with
  | reading => exact absurd rfl hended
  | failed e => simp only [through, h]
  | died => simp only [through, h]

theorem through_append_of_reading (h : r.through events = (r', .reading)) :
    r.through (events ++ more) = r'.through more := by
  induction events generalizing r with
  | nil =>
    cases h
    rfl
  | cons event events ih =>
    rcases habsorb : r.absorb event with ⟨r₁, ending⟩
    cases ending with
    | reading =>
      rw [through_cons_of_reading habsorb] at h
      rw [List.cons_append, through_cons_of_reading habsorb]
      exact ih h
    | failed e =>
      rw [through_cons_of_ended habsorb (by simp)] at h
      cases h
    | died =>
      rw [through_cons_of_ended habsorb (by simp)] at h
      cases h

/-- Nothing matters behind the event that ended a reader. -/
theorem through_append_of_ended (h : (r.through events).2 ≠ .reading) :
    r.through (events ++ more) = r.through events := by
  induction events generalizing r with
  | nil => exact absurd rfl h
  | cons event events ih =>
    rcases habsorb : r.absorb event with ⟨r₁, ending⟩
    cases ending with
    | reading =>
      rw [through_cons_of_reading habsorb] at h
      rw [List.cons_append, through_cons_of_reading habsorb, through_cons_of_reading habsorb]
      exact ih h
    | failed e =>
      rw [List.cons_append, through_cons_of_ended habsorb (by simp),
        through_cons_of_ended habsorb (by simp)]
    | died =>
      rw [List.cons_append, through_cons_of_ended habsorb (by simp),
        through_cons_of_ended habsorb (by simp)]

/-- Equal receptions stay equal, whatever happens next. -/
theorem through_append_congr {past pending : List Arrival}
    (h : r.through past = r'.through pending) (more : List Arrival) :
    r.through (past ++ more) = r'.through (pending ++ more) := by
  rcases hpast : r.through past with ⟨r₁, ending⟩
  by_cases hreading : ending = .reading
  · subst hreading
    rw [through_append_of_reading hpast, through_append_of_reading (h ▸ hpast)]
  · rw [through_append_of_ended (by rw [hpast]; exact hreading),
      through_append_of_ended (by rw [← h, hpast]; exact hreading), h]

theorem absorb_truncated (bytes : List UInt8) :
    r.absorb (.record (Kernel.truncated bytes)) = r.absorb (.record bytes) := by
  have htwice : Kernel.truncated (Kernel.truncated bytes) = Kernel.truncated bytes := by
    rw [Kernel.truncated, Kernel.truncated, List.take_take, Nat.min_self]
  simp only [absorb, htwice]

/-- Records that were cut to the size of a buffer are handled like the whole ones. -/
theorem through_truncated (records : List (List UInt8)) :
    r.through (records.map (fun bytes => .record (Kernel.truncated bytes)) ++ more) =
      r.through (records.map .record ++ more) := by
  induction records generalizing r with
  | nil => rfl
  | cons bytes records ih =>
    simp only [List.map_cons, List.cons_append, through, absorb_truncated]
    split
    · exact ih
    · rfl

end Reception

/-- A failed receive call leads a task where its event leads a reader. -/
theorem Receiver.afterFailure_os (number : Errno) :
    afterFailure (.os number) =
      if number = .interrupted then (true, .top)
      else if number = .tryAgain ∨ number = .timedOut ∨ number = .inProgress then (false, .top)
      else (true, .returned (.error (.io (.os number)))) := by
  by_cases hinterrupted : number = .interrupted
  · subst hinterrupted
    rfl
  rw [if_neg hinterrupted]
  by_cases hagain : number = .tryAgain
  · subst hagain
    rfl
  by_cases htimed : number = .timedOut
  · subst htimed
    rfl
  by_cases hprogress : number = .inProgress
  · subst hprogress
    rfl
  rw [if_neg (by simp [hagain, htimed, hprogress])]
  simp [afterFailure, Failure.isTransient, Failure.kind, hinterrupted, hagain, htimed, hprogress]

end CanTransport
