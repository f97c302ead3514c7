import CanTransport.Proofs.Kernel.Regions
/-!
# Queues of raw sockets

What a receive call takes from a queue. One call for several records takes a run of records that
starts at the front.
-/

namespace CanTransport.Kernel

theorem arrivals_changeRaw (fd x : Descriptor) (change : RawSocket → RawSocket) (k : Kernel) :
    ((changeRaw fd change).run k).2.arrivals x =
      if x = fd then (((k.raws.lookup fd).map change).map RawSocket.arrivals).getD []
      else k.arrivals x := by
  show ((List.lookup x (update fd change k.raws)).map RawSocket.arrivals).getD [] = _
  rw [lookup_update]
  split <;> rfl

/-- What is left of a queue after something was taken from its front. -/
theorem arrivals_take (fd : Descriptor) (rest : List Arrival) (k : Kernel)
    (h : k.arrivals fd ≠ []) :
    ((changeRaw fd fun s => { s with arrivals := rest }).run k).2.arrivals fd = rest := by
  rw [arrivals_changeRaw, if_pos rfl]
  unfold arrivals at h
  cases hraw : k.raws.lookup fd with
  | none => simp [hraw] at h
  | some raw => rfl

theorem arrivals_closeRaw {fd x : Descriptor} (k : Kernel) (h : x ≠ fd) :
    ((closeRaw fd).run k).2.arrivals x = k.arrivals x := by
  show ((List.lookup x (k.raws.filter (·.1 != fd))).map RawSocket.arrivals).getD [] = _
  rw [lookup_filter_ne, if_neg h]
  rfl

/-- What one receive call reports of an event. -/
def read : Arrival → Except Errno (List UInt8)
  | .record bytes => .ok (truncated bytes)
  | .failure number => .error number
  | .endOfStream => .ok []

variable {fd : Descriptor} {limit : Nat} {k : Kernel} {event : Arrival} {rest : List Arrival}

theorem run_receive (fd : Descriptor) (k : Kernel) :
    ((receive fd).run k : Except Errno (List UInt8) × Kernel) =
      match k.arrivals fd with
      | [] => (.error .tryAgain, k)
      | event :: rest =>
        (read event, ((changeRaw fd fun s => { s with arrivals := rest }).run k).2) := by
  show ((match k.arrivals fd with
    | [] => (throw Errno.tryAgain : Kernel.Op Errno (List UInt8))
    | arrival :: rest => do
      changeRaw fd fun s => { s with arrivals := rest }
      match arrival with
      | .record bytes => return truncated bytes
      | .failure number => throw number
      | .endOfStream => return []).run k : Except Errno (List UInt8) × Kernel) = _
  rcases k.arrivals fd with _ | ⟨_ | _ | _, rest⟩ <;> rfl

theorem run_receiveMany (fd : Descriptor) (limit : Nat) (k : Kernel) :
    ((receiveMany fd limit).run k : Except Errno (List (List UInt8)) × Kernel) =
      match k.arrivals fd with
      | [] => (.error .tryAgain, k)
      | .failure number :: rest =>
        (.error number, ((changeRaw fd fun s => { s with arrivals := rest }).run k).2)
      | .endOfStream :: rest =>
        (.ok [], ((changeRaw fd fun s => { s with arrivals := rest }).run k).2)
      | queue => (.ok (frontRecords limit queue).1,
        ((changeRaw fd fun s => { s with arrivals := (frontRecords limit queue).2 }).run k).2) := by
  show ((match k.arrivals fd with
    | [] => (throw Errno.tryAgain : Kernel.Op Errno (List (List UInt8)))
    | .failure number :: rest => do
      changeRaw fd fun s => { s with arrivals := rest }
      throw number
    | .endOfStream :: rest => do
      changeRaw fd fun s => { s with arrivals := rest }
      return []
    | arrivals => do
      changeRaw fd fun s => { s with arrivals := (frontRecords limit arrivals).2 }
      return (frontRecords limit arrivals).1).run k : Except Errno (List (List UInt8)) × Kernel) = _
  rcases k.arrivals fd with _ | ⟨_ | _ | _, rest⟩ <;> rfl

theorem receive_nil (h : k.arrivals fd = []) : (receive fd).run k = (.error .tryAgain, k) := by
  rw [run_receive, h]

theorem receive_cons (h : k.arrivals fd = event :: rest) :
    ∃ k', (receive fd).run k = (read event, k') ∧ k'.arrivals fd = rest := by
  refine ⟨_, ?_, arrivals_take fd rest k (by simp [h])⟩
  rw [run_receive, h]

/-- A call for several records takes a run of them from the front, and with room for one at least
one if there is one. -/
theorem frontRecords_eq (limit : Nat) (queue : List Arrival) :
    ∃ taken : List (List UInt8), queue = taken.map .record ++ (frontRecords limit queue).2 ∧
      (frontRecords limit queue).1 = taken.map truncated ∧ taken.length ≤ limit := by
  induction limit generalizing queue with
  | zero => exact ⟨[], by simp [frontRecords], by simp [frontRecords], Nat.le_refl _⟩
  | succ limit ih =>
    match queue with
    | [] => exact ⟨[], by simp [frontRecords], by simp [frontRecords], Nat.zero_le _⟩
    | .failure number :: rest =>
      exact ⟨[], by simp [frontRecords], by simp [frontRecords], Nat.zero_le _⟩
    | .endOfStream :: rest =>
      exact ⟨[], by simp [frontRecords], by simp [frontRecords], Nat.zero_le _⟩
    | .record bytes :: rest =>
      obtain ⟨taken, hqueue, hrecords, hlength⟩ := ih rest
      refine ⟨bytes :: taken, ?_, ?_, Nat.succ_le_succ hlength⟩
      · rw [frontRecords, List.map_cons, List.cons_append, ← hqueue]
      · rw [frontRecords, List.map_cons, ← hrecords]

theorem receiveMany_nil (h : k.arrivals fd = []) :
    (receiveMany fd limit).run k = (.error .tryAgain, k) := by
  rw [run_receiveMany, h]

theorem receiveMany_failure {number : Errno} (h : k.arrivals fd = .failure number :: rest) :
    ∃ k', (receiveMany fd limit).run k = (.error number, k') ∧ k'.arrivals fd = rest := by
  refine ⟨_, ?_, arrivals_take fd rest k (by simp [h])⟩
  rw [run_receiveMany, h]

theorem receiveMany_record {bytes : List UInt8} (hlimit : 0 < limit)
    (h : k.arrivals fd = .record bytes :: rest) :
    ∃ k' first others behind, (receiveMany fd limit).run k =
        (.ok ((first :: others).map truncated), k') ∧
      k.arrivals fd = (first :: others).map .record ++ behind ∧ k'.arrivals fd = behind := by
  obtain ⟨limit, rfl⟩ := Nat.exists_eq_succ_of_ne_zero (Nat.pos_iff_ne_zero.mp hlimit)
  obtain ⟨others, hrest, hrecords, -⟩ := frontRecords_eq limit rest
  refine ⟨_, bytes, others, (frontRecords limit rest).2, ?_, ?_,
    arrivals_take fd _ k (by simp [h])⟩
  · rw [run_receiveMany, h]
    simp only [frontRecords, hrecords, List.map_cons]
  · rw [h, List.map_cons, List.cons_append, ← hrest]

theorem length_receiveMany {records : List (List UInt8)}
    (h : ((receiveMany fd limit).run k).1 = .ok records) : records.length ≤ limit := by
  rw [run_receiveMany] at h
  split at h
  · cases h
  · cases h
  · cases h
    exact Nat.zero_le _
  · obtain ⟨taken, -, hrecords, hlength⟩ := frontRecords_eq limit (k.arrivals fd)
    cases h
    rw [hrecords, List.length_map]
    exact hlength

end CanTransport.Kernel
