import CanTransport.Bus.Lifetime
import CanTransport.Bus.Run
import CanTransport.Proofs.Bus.Orders
/-!
# The echoes of one send at a time

With sends that do not overlap, the queue of echoes ends with the record of the send under way, and
all awaited echoes are remembered before it. Looking for an echo from the front then never goes past
the place where it was remembered.
-/

namespace CanTransport

namespace Exchange

variable {s : Site} {w w' : Exchange} {event : Event}

/-- A caller begins to send only after the last send has ended. -/
def Serial (w : Exchange) : Event → Prop
  | .send => w.site.bus.operations = []
  | _ => True

instance (w : Exchange) (event : Event) : Decidable (Serial w event) :=
  match event with
  | .send => inferInstanceAs (Decidable (w.site.bus.operations = []))
  | .act _ | .echo _ | .hear | .other => .isTrue trivial

/-- All awaited echoes are remembered in their order, before the record of an open send. -/
structure Lined (w : Exchange) : Prop where
  single : w.site.bus.operations.length ≤ 1
  kept : w.awaited.Sublist w.pending
  last : ∀ o ∈ w.site.bus.operations, ∀ raw, o.request.wire? = some raw → o.Open →
    ∃ earlier, w.pending = earlier ++ [raw] ∧ w.awaited.Sublist earlier

theorem Replaced.single {o o' : Operation} {site : Site} (h : Replaced w o o' site)
    (hsingle : w.site.bus.operations.length ≤ 1) :
    site.bus.operations = [o'] := by
  have hone : w.site.bus.operations = [o] := by
    have hmem := h.mem
    match hoperations : w.site.bus.operations with
    | [] =>
      rw [hoperations] at hmem
      cases hmem
    | [other] =>
      rw [hoperations, List.mem_singleton] at hmem
      rw [hmem]
    | first :: second :: others =>
      rw [hoperations] at hsingle
      simp at hsingle
  rw [h.operations_eq, hone, List.map_singleton, if_pos h.id_eq.symm]

theorem lined_of_single {o : Operation} {queue : List Wire}
    (hone : w.site.bus.operations = [o]) (hpending : w.pending = queue)
    (hkept : w.awaited.Sublist queue)
    (hlast : ∀ raw, o.request.wire? = some raw → o.Open →
      ∃ earlier, queue = earlier ++ [raw] ∧ w.awaited.Sublist earlier) : Lined w := by
  subst hpending
  refine ⟨by rw [hone]; exact Nat.le_refl 1, hkept, ?_⟩
  intro other hmem raw hwire hopen
  rw [hone, List.mem_singleton] at hmem
  subst hmem
  exact hlast raw hwire hopen

/-- An action of the one send keeps its place at the end of the queue. -/
theorem Lined.acted (h : Lined w) (hsteady : Steady w) (hacted : Acted w w')
    (hcrowded : w'.crowded = false) : Lined w' := by
  cases hacted with
  | idle => exact h
  | @finish o hmem htodo =>
    have hpending : (w.site.finish o).bus.echoes.pending = w.pending := by
      rw [Site.finish_bus]
      rfl
    refine ⟨?_, ?_, ?_⟩
    · show (w.site.finish o).bus.operations.length ≤ 1
      rw [Site.finish_operations]
      exact Nat.le_trans (List.length_filter_le _ _) h.single
    · show w.awaited.Sublist (w.site.finish o).bus.echoes.pending
      rw [hpending]
      exact h.kept
    · intro other hother raw hwire hopen
      have hold : other ∈ w.site.bus.operations := by
        rw [Site.finish_operations] at hother
        exact (List.mem_filter.mp hother).1
      obtain ⟨earlier, hlast, hkept⟩ := h.last other hold raw hwire hopen
      exact ⟨earlier, hpending.trans hlast, hkept⟩
  | @quiet o o' site hreplaced hechoes hthen =>
    have hpending : site.bus.echoes.pending = w.pending := by rw [hechoes]; rfl
    refine lined_of_single (hreplaced.single h.single) hpending h.kept ?_
    exact fun _ _ hopen => (hopen.elim hthen.1 hthen.2).elim
  | @remember o o' site raw hreplaced hechoes hwire hthen =>
    have hroom : w.pending.length ≠ Echoes.capacity :=
      ne_of_beq_false (Bool.or_eq_false_iff.mp hcrowded).2
    have hpending : site.bus.echoes.pending = w.pending ++ [raw] := by
      rw [hechoes, Echoes.record_pending hsteady.enabled,
        if_neg (show w.site.bus.echoes.pending.length ≠ Echoes.capacity from hroom)]
      rfl
    refine lined_of_single (hreplaced.single h.single) hpending ?_ ?_
    · exact h.kept.trans (List.sublist_append_left _ _)
    · intro raw' hwire' _
      rw [hwire] at hwire'
      cases hwire'
      exact ⟨w.pending, rfl, h.kept⟩
  | @accept o o' site raw hreplaced hechoes hwire hnow hthen =>
    obtain ⟨earlier, hlast, hkept⟩ := h.last o hreplaced.mem raw hwire (Or.inl hnow)
    have hpending : site.bus.echoes.pending = earlier ++ [raw] := by
      rw [hechoes]
      exact hlast
    refine lined_of_single (hreplaced.single h.single) hpending (hkept.append_right [raw]) ?_
    exact fun _ _ hopen => absurd hopen (Operation.not_open_of_accepted hthen)
  | @refuse o o' site hreplaced hechoes hwire hnow hthen =>
    have hpending : site.bus.echoes.pending = w.pending := by rw [hechoes]; rfl
    refine lined_of_single (hreplaced.single h.single) hpending h.kept ?_
    intro raw hwire' _
    rw [hwire] at hwire'
    exact h.last o hreplaced.mem raw hwire' (Or.inl hnow)
  | @forget o o' site raw hreplaced hechoes hwire hnow hthen =>
    obtain ⟨earlier, hlast, hkept⟩ := h.last o hreplaced.mem raw hwire (Or.inr hnow)
    have hpending : site.bus.echoes.pending = earlier := by
      rw [hechoes, Echoes.forget_pending hsteady.enabled,
        show w.site.bus.echoes.pending = earlier ++ [raw] from hlast, Echoes.eraseLast_append_self]
    refine lined_of_single (hreplaced.single h.single) hpending hkept ?_
    exact fun _ _ hopen => absurd hopen (Operation.not_open_of_ended hthen)

/-- An echo that waits in front of the last record is found in front of it. -/
theorem sublist_before {raw last : Wire} {lost rest before behind earlier : List Wire}
    (hsame : before ++ raw :: behind = earlier ++ [last]) (hbefore : raw ∉ before)
    (h : (lost ++ raw :: rest).Sublist earlier) :
    ∃ earlier', behind = earlier' ++ [last] ∧ rest.Sublist earlier' := by
  have htail : (raw :: rest).Sublist earlier := (List.sublist_append_right lost _).trans h
  rcases List.eq_nil_or_concat behind with hnil | ⟨behind', last', hconcat⟩
  · rw [hnil] at hsame
    obtain ⟨rfl, -⟩ := List.append_inj' hsame rfl
    exact absurd (htail.subset List.mem_cons_self) hbefore
  · rw [List.concat_eq_append] at hconcat
    have hsplit : (before ++ raw :: behind') ++ [last'] = earlier ++ [last] := by
      rw [← hsame, hconcat, List.append_assoc, List.cons_append]
    obtain ⟨hearlier, hlast⟩ := List.append_inj' hsplit rfl
    rw [List.cons.injEq] at hlast
    refine ⟨behind', by rw [hconcat, hlast.1], ?_⟩
    rw [← hearlier] at htail
    exact Echoes.sublist_behind htail hbefore

/-- What is no action of a send leaves the sends where they are. -/
theorem Lined.passed {site : Site} (h : Lined w) (hkept : Kept w site)
    (hpending : site.bus.echoes.pending = w.pending) :
    site.bus.operations.length ≤ 1 ∧ w.awaited.Sublist site.bus.echoes.pending ∧
      ∀ o ∈ site.bus.operations, ∀ raw, o.request.wire? = some raw → o.Open →
        ∃ earlier, site.bus.echoes.pending = earlier ++ [raw] ∧ w.awaited.Sublist earlier := by
  rw [hkept.operations_eq, hpending]
  exact ⟨h.single, h.kept, h.last⟩

theorem Lined.effect (h : Lined w) (hsteady : Steady w) (heffect : Effect w event w')
    (hserial : Serial w event) (hcrowded : w'.crowded = false) : Lined w' := by
  cases heffect with
  | send frame =>
    have hone : (w.site.start (.send frame)).2.bus.operations =
        [{ id := w.site.bus.next, request := .send frame
           todo := w.site.bus.transport.transmission }] := by
      show w.site.bus.operations ++ _ = _
      rw [show w.site.bus.operations = [] from hserial]
      rfl
    refine lined_of_single hone rfl h.kept ?_
    rintro raw - (hopen | hopen)
    · rw [hsteady.transport_eq] at hopen
      cases hopen
    · rw [hsteady.transport_eq] at hopen
      cases hopen
  | act hacted => exact h.acted hsteady hacted hcrowded
  | @heldBack site raw lost rest before behind hkept hawaited hpending hbefore hbehind hframes =>
    refine ⟨?_, ?_, ?_⟩
    · show site.bus.operations.length ≤ 1
      rw [hkept.operations_eq]
      exact h.single
    · show rest.Sublist site.bus.echoes.pending
      have hwaiting := h.kept
      rw [hawaited, hpending] at hwaiting
      rw [hbehind]
      exact Echoes.sublist_behind ((List.sublist_append_right lost _).trans hwaiting) hbefore
    · -- The record of the open send lies behind all that are awaited, so no echo takes it along.
      intro o ho last hwire hopen
      have hold : o ∈ w.site.bus.operations := hkept.operations_eq ▸ ho
      obtain ⟨earlier, hlast, hwaiting⟩ := h.last o hold last hwire hopen
      rw [hawaited] at hwaiting
      rw [hpending] at hlast
      obtain ⟨earlier', hfound, hrest⟩ := sublist_before hlast hbefore hwaiting
      exact ⟨earlier', hbehind.trans hfound, hrest⟩
  | leak _ hawaited hnew => exact absurd (h.kept.subset (mem_awaited hawaited)) hnew
  | hear hkept hpending | other hkept hpending =>
    obtain ⟨hsingle, hwaiting, hlast⟩ := h.passed hkept hpending
    exact ⟨hsingle, hwaiting, hlast⟩

/-! ## Whole runs -/

theorem lined_start (h : s.Quiet) : Lined { site := s } := by
  refine ⟨?_, List.nil_sublist _, ?_⟩
  · show s.bus.operations.length ≤ 1
    rw [h.operations_eq]
    exact Nat.zero_le 1
  · intro o ho
    have hnone : o ∈ s.bus.operations := ho
    rw [h.operations_eq] at hnone
    cases hnone

theorem Run.lined (hrun : Run Serial w w') (hsteady : Steady w) (h : Lined w)
    (hroom : w'.crowded = false) : Lined w' := by
  induction hrun with
  | refl => exact h
  | step hrun hserial hstep ih =>
    have hsteady' := hrun.steady hsteady
    have heffect := hstep.effect hsteady'
    exact (ih (heffect.room hroom)).effect hsteady' heffect hserial hroom

/-- With sends that do not overlap and room for every record, listeners get what peers sent, in
order, and nothing else, whichever echoes are lost. -/
theorem exact_of_serial (hquiet : s.Quiet) (hrun : Run Serial { site := s } w)
    (hroom : w.crowded = false) : w.frames = s.bus.reception.frames ++ readable w.peers := by
  have hsteady := steady_start hquiet
  have hexact : Exact s { site := s } := (List.append_nil _).symm
  induction hrun with
  | refl => exact hexact
  | step hrun hserial hstep ih =>
    have heffect := hstep.effect (hrun.steady hsteady)
    have hlined := hrun.lined hsteady (lined_start hquiet) (heffect.room hroom)
    exact heffect.exact hlined.kept (ih (heffect.room hroom))

/-- A ring bus is made and connected, and sends the same frame twice. The first echo is lost; behind
the second one comes the frame of a peer. -/
theorem exact_of_serial_equal_sends : ∃ b m s w, ∃ own other : Frame,
    (Bus.make .ring "can0" {}).run {} = (.ok b, m) ∧
    (Site.advanceFar 0 Site.actions (Site.start ⟨b, m⟩ .connect).2).2 = s ∧
    s.Quiet ∧ Run Serial { site := s } w ∧ w.crowded = false ∧
    w.accepted = [own.encode, own.encode] ∧ w.echoed = [own.encode] ∧ w.awaited = [] ∧
    w.frames = [other] := by
  obtain ⟨own, hown⟩ : ∃ own : Frame, own =
    ⟨0x101, 0, 1, #v[1, 0, 0, 0, 0, 0, 0, 0], by decide⟩ := ⟨_, rfl⟩
  obtain ⟨other, hother⟩ : ∃ other : Frame, other =
    ⟨0x201, 0, 1, #v[2, 0, 0, 0, 0, 0, 0, 0], by decide⟩ := ⟨_, rfl⟩
  have hfollow : ∃ b m s, (Bus.make .ring "can0" {}).run {} = (.ok b, m) ∧
      (Site.advanceFar 0 Site.actions (Site.start ⟨b, m⟩ .connect).2).2 = s ∧ s.Quiet ∧
      s.bus.reception.frames = [] ∧
      (follow Serial { site := s } [.send own, .act 2, .act 2, .act 2, .act 2, .act 2,
        .send own, .act 3, .act 3, .act 3, .act 3, .act 3,
        .fill 0 ⟨4096, 128, 32, 2048⟩ [own.encode, other.encode],
        .run 1, .echo 1 1, .run 1, .run 1, .hear 1]).any (fun w => w.crowded == false &&
          w.accepted == [own.encode, own.encode] && w.echoed == [own.encode] &&
          w.awaited == [] && w.peers == [other.encode]) = true := by
    subst hown hother
    refine ⟨_, _, _, rfl, rfl, ⟨rfl, rfl, rfl, rfl, rfl, ?_⟩, rfl, ?_⟩
    · exact List.forall_mem_singleton.mpr trivial
    · decide +kernel
  obtain ⟨b, m, s, hmake, hconnect, hquiet, hnone, hfollow⟩ := hfollow
  obtain ⟨w, hrun, hproperty⟩ := exists_run_of_follow hfollow
  simp only [Bool.and_eq_true, beq_iff_eq] at hproperty
  obtain ⟨⟨⟨⟨hroom, haccepted⟩, hechoed⟩, hawaited⟩, hpeers⟩ := hproperty
  refine ⟨b, m, s, w, own, other, hmake, hconnect, hquiet, hrun, hroom, haccepted, hechoed,
    hawaited, ?_⟩
  rw [exact_of_serial hquiet hrun hroom, hnone, hpeers, hother]
  decide +kernel

end Exchange

end CanTransport
