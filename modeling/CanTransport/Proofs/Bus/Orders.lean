import CanTransport.Proofs.Bus.Exchange
/-!
# Runs that follow orders

Steps as a function of what shall happen next, which tells whether that is possible. A list of
orders that can be followed to its end is a run.
-/

namespace CanTransport

namespace Exchange

/-- What shall happen next. -/
inductive Order where
  | send (frame : Frame)
  | act (id : OperationId)
  /-- A task comes to an echo, before which so many others were lost. -/
  | echo (id : ReceiverId) (lost : Nat)
  /-- A task comes to the record of a peer. -/
  | hear (id : ReceiverId)
  /-- A task goes on that comes to neither. -/
  | run (id : ReceiverId)
  | outside (change : Medium → Medium)

/-- The other side puts records into the first slots of a ring. -/
def Order.fill (fd : Descriptor) (g : Geometry) (records : List Wire) : Order :=
  .outside fun medium =>
    let memory := records.zipIdx.foldl (fun m (raw, i) =>
      Slot.fill m g.slotSize (g.offset i) { data := raw.toList }) (medium.kernel.memory fd)
    { medium with kernel := ((Kernel.setMemory fd memory).run medium.kernel).2 }

/-- The record that the next action of a task hands on, unless it is the copy of one on its way
out. -/
def arriving? (w : Exchange) (id : ReceiverId) : Option Wire :=
  match w.site.handing? id with
  | some (_, some (.record raw kind)) => if kind = Slot.outgoing then none else some raw
  | _ => none

/-- The step that follows an order. -/
def obey (w : Exchange) : Order → Option (Event × Exchange)
  | .send frame => some (.send, { w with site := (w.site.start (.send frame)).2 })
  | .act id => some (.act id, w.act id)
  | .echo id lost =>
    (w.arriving? id).bind fun raw =>
      if w.awaited[lost]? = some raw then
        some (.echo (w.awaited.take lost), { w with
          site := w.site.run id, echoed := w.echoed ++ [raw]
          awaited := w.awaited.drop (lost + 1) })
      else none
  | .hear id =>
    (w.arriving? id).bind fun raw =>
      if raw ∈ w.pending then none
      else some (.hear, { w with site := w.site.run id, peers := w.peers ++ [raw] })
  | .run id =>
    if (w.arriving? id).isSome then none else some (.other, { w with site := w.site.run id })
  | .outside change =>
    some (.other, { w with site := { w.site with medium := change w.site.medium } })

/-- Where a list of orders leads, if each can be followed and is allowed. -/
def follow (allowed : Exchange → Event → Prop) [∀ w event, Decidable (allowed w event)]
    (w : Exchange) : List Order → Option Exchange
  | [] => some w
  | order :: orders =>
    match w.obey order with
    | some (event, w') => if allowed w event then follow allowed w' orders else none
    | none => none

variable {w w' w'' : Exchange} {event : Event} {allowed : Exchange → Event → Prop}

theorem handing?_of_arriving? {id : ReceiverId} {raw : Wire} (h : w.arriving? id = some raw) :
    ∃ fd kind, w.site.handing? id = some (fd, some (.record raw kind)) ∧
      kind ≠ Slot.outgoing := by
  unfold arriving? at h
  split at h
  · rename_i fd found kind hhanding
    split at h
    · cases h
    · rename_i hkind
      cases h
      exact ⟨fd, kind, hhanding, hkind⟩
  · cases h

theorem outgoing_of_arriving? {id : ReceiverId} (h : w.arriving? id = none) {fd : Descriptor}
    {raw : Wire} {kind : UInt8} (hhanding : w.site.handing? id = some (fd, some (.record raw kind))) :
    kind = Slot.outgoing := by
  by_contra hkind
  rw [arriving?, hhanding] at h
  simp [hkind] at h

theorem step_of_obey {order : Order} (h : w.obey order = some (event, w')) : Step w event w' := by
  cases order with
  | send frame =>
    cases h
    exact .send frame
  | act id =>
    cases h
    exact .act id
  | echo id lost =>
    obtain ⟨raw, harriving, h⟩ := Option.bind_eq_some_iff.mp h
    obtain ⟨fd, kind, hhanding, hkind⟩ := handing?_of_arriving? harriving
    split at h
    · rename_i hfound
      cases h
      refine .echo hhanding hkind ?_
      obtain ⟨hlt, hget⟩ := List.getElem?_eq_some_iff.mp hfound
      rw [← hget, List.getElem_cons_drop, List.take_append_drop]
    · cases h
  | hear id =>
    obtain ⟨raw, harriving, h⟩ := Option.bind_eq_some_iff.mp h
    obtain ⟨fd, kind, hhanding, hkind⟩ := handing?_of_arriving? harriving
    split at h
    · cases h
    · rename_i hnew
      cases h
      exact .hear hhanding hkind hnew
  | run id =>
    simp only [obey] at h
    split at h
    · cases h
    · rename_i hnone
      cases h
      refine .run fun fd raw kind hhanding => ?_
      exact outgoing_of_arriving? (Option.not_isSome_iff_eq_none.mp hnone) hhanding
  | outside change =>
    cases h
    exact .outside _

theorem Run.trans (h : Run allowed w w') (h' : Run allowed w' w'') : Run allowed w w'' := by
  induction h' with
  | refl => exact h
  | step _ hallowed hstep ih => exact .step ih hallowed hstep

theorem Run.mono {allowed' : Exchange → Event → Prop} (h : Run allowed w w')
    (hallowed : ∀ w event, allowed w event → allowed' w event) : Run allowed' w w' := by
  induction h with
  | refl => exact .refl
  | step _ hnow hstep ih => exact .step ih (hallowed _ _ hnow) hstep

theorem run_of_follow [∀ w event, Decidable (allowed w event)] {orders : List Order}
    (h : follow allowed w orders = some w') : Run allowed w w' := by
  induction orders generalizing w with
  | nil =>
    cases h
    exact .refl
  | cons order orders ih =>
    unfold follow at h
    split at h
    · rename_i event next hobey
      split at h
      · rename_i hallowed
        exact Run.trans (.step .refl hallowed (step_of_obey hobey)) (ih h)
      · cases h
    · cases h

/-- A run with a property that can be computed. -/
theorem exists_run_of_follow [∀ w event, Decidable (allowed w event)] {orders : List Order}
    {property : Exchange → Bool} (h : (follow allowed w orders).any property = true) :
    ∃ w', Run allowed w w' ∧ property w' = true := by
  obtain ⟨w', hfollow, hproperty⟩ := (Option.any_eq_true property _).mp h
  exact ⟨w', run_of_follow hfollow, hproperty⟩

end Exchange

end CanTransport
