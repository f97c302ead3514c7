import CanTransport.Proofs.Bus.Connectedness
import CanTransport.Proofs.Bus.Courses
import CanTransport.Proofs.Ring.Echoes
/-!
# Sends without echoes

On a connected ring that nobody reads, a send whose record is taken leaves it in the memory of
echoes and nothing else behind. So sends that come one after the other fill the memory, as far as
there is room. A send that is refused comes as far as any other, and then takes its record back.
-/

namespace CanTransport

theorem Echoes.record_eq_append {e : Echoes} {raw : Wire} (henabled : e.enabled = true)
    (hroom : e.pending.length ≠ capacity) :
    e.record raw = { e with pending := e.pending ++ [raw] } := by
  unfold record
  rw [henabled, if_neg hroom]
  rfl

/-- A connected ring with one resource, the replies that its writes will get, the operations under
way, and the echoes. -/
structure Site.Serves (s : Site) (resource : Resource) (replies : List Reply)
    (operations : List Operation) (e : Echoes) : Prop where
  transport_eq : s.bus.transport = .ring
  resources_eq : s.bus.resources = [resource]
  published_eq : s.bus.published = some resource.key
  opened : resource.socket.closed = false
  replies_eq : s.medium.kernel.replies = replies
  operations_eq : s.bus.operations = operations
  echoes_eq : s.bus.echoes = e

namespace Kernel

variable {k : Kernel} {replies : List Reply}

/-- Without a reply a record is taken as a whole. -/
theorem run_send_of_nil (h : k.replies = []) (fd : Descriptor) (raw : Wire) :
    ∃ k', (Kernel.send fd raw).run k = (.ok wireSize, k') ∧ k'.replies = [] := by
  obtain ⟨_, _, _, _, _, _, _, _, _, _, _, _⟩ := k
  cases h
  exact ⟨_, rfl, rfl⟩

theorem run_send_of_refused {number : Errno} (h : k.replies = .refused number :: replies)
    (fd : Descriptor) (raw : Wire) :
    ∃ k', (Kernel.send fd raw).run k = (.error number, k') ∧ k'.replies = replies := by
  obtain ⟨_, _, _, _, _, _, _, _, _, _, _, _⟩ := k
  cases h
  exact ⟨_, rfl, rfl⟩

end Kernel

namespace Site.Serves

variable {s s' : Site} {resource : Resource} {replies replies' : List Reply}
  {operations : List Operation} {o o' : Operation} {e e' : Echoes} {action : Action}
  {rest : List Action} {frame : Frame}

theorem operation? (h : s.Serves resource replies [o] e) : s.operation? o.id = some o := by
  simp [Site.operation?, h.operations_eq]

/-- Nothing is given back while it is published. -/
theorem collect (h : s.Serves resource replies operations e) : s.collect = s := by
  apply Site.collect_eq_self
  intro r hr
  rw [h.resources_eq, List.mem_singleton] at hr
  exact Bus.holds_of_published (hr ▸ h.published_eq)

theorem act (h : s.Serves resource replies [o] e) (htodo : o.todo = action :: rest)
    (hperform : { o with todo := rest }.perform s action = some (s', o'))
    (h' : s'.Serves resource replies' [o] e') :
    (s.advance o.id).2.Serves resource replies' [o'] e' := by
  have hid := (Operation.framed_perform hperform).id_eq
  have hserves : (s'.setBus (s'.bus.setOperation o')).Serves resource replies' [o'] e' := by
    refine ⟨h'.transport_eq, h'.resources_eq, h'.published_eq, h'.opened, h'.replies_eq, ?_,
      h'.echoes_eq⟩
    simp [Site.setBus, Bus.setOperation, h'.operations_eq, hid]
  rw [Site.advance_goesOn h.operation? htodo hperform, hserves.collect]
  exact hserves

theorem finish (h : s.Serves resource replies [o] e) (htodo : o.todo = []) :
    (s.advance o.id).2.Serves resource replies [] e := by
  have hserves : (s.setBus { s.bus with
      operations := s.bus.operations.filter (·.id != o.id) }).Serves resource replies [] e := by
    refine ⟨h.transport_eq, h.resources_eq, h.published_eq, h.opened, h.replies_eq, ?_, h.echoes_eq⟩
    simp [Site.setBus, h.operations_eq]
  rw [Site.advance_of_nil h.operation? htodo, Site.finish, hserves.collect]
  exact hserves

/-- A send that has remembered its record. -/
def writing (s : Site) (resource : Resource) (frame : Frame) : Operation where
  id := s.bus.next
  request := .send frame
  todo := [.write, .countSent]
  handle := some resource.key

/-- A send up to its write. -/
theorem remembered (h : s.Serves resource replies [] e) (frame : Frame) :
    (((s.start (.send frame)).2.advance s.bus.next).2.advance s.bus.next).2.Serves resource replies
      [writing s resource frame] (e.record frame.encode) := by
  have hstart : (s.start (.send frame)).2.Serves resource replies
      [{ id := s.bus.next, request := .send frame, todo := Transport.ring.transmission }] e := by
    refine ⟨h.transport_eq, h.resources_eq, h.published_eq, h.opened, h.replies_eq, ?_, h.echoes_eq⟩
    simp [Site.start, Site.setBus, h.operations_eq, h.transport_eq, Request.start]
  have hborrow : ((s.start (.send frame)).2.advance s.bus.next).2.Serves resource replies
      [{ writing s resource frame with todo := [.remember, .write, .countSent] }] e :=
    hstart.act rfl (by simp only [Operation.perform, hstart.published_eq]; rfl) hstart
  refine hborrow.act rfl rfl ?_
  exact ⟨hborrow.transport_eq, hborrow.resources_eq, hborrow.published_eq, hborrow.opened,
    hborrow.replies_eq, hborrow.operations_eq,
    congrArg (Echoes.record · frame.encode) hborrow.echoes_eq⟩

theorem resource? (h : s.Serves resource replies operations e) :
    s.bus.resource? resource.key = some resource := by
  simp [Bus.resource?, h.resources_eq]

/-- What a write comes to. -/
theorem perform_write (h : s.Serves resource replies operations e) (o : Operation)
    (hhandle : o.handle = some resource.key) (hrequest : o.request = .send frame)
    {answer : Except Errno Nat} {k : Kernel}
    (hsend : (Kernel.send resource.key frame.encode).run s.medium.kernel = (answer, k)) :
    o.perform s .write = some ({ s with medium := { s.medium with kernel := k } },
      match (Parcel.toKernel resource.key frame.encode answer).verdict with
      | .ok () => o
      | .error e => o.giveUp e [.forget]) := by
  have hrun : s.onKernel (resource.socket.writeWire frame.encode).run =
      ((Parcel.toKernel resource.key frame.encode answer).verdict,
        { s with medium := { s.medium with kernel := k } }) := by
    rw [Site.onKernel_writeWire h.opened rfl, Medium.after, hsend]
  have hwire : o.request.wire? = some frame.encode := by rw [hrequest]; rfl
  have hcleanup : o.request.cleanup s.bus.transport = [.forget] := by
    rw [hrequest, h.transport_eq]
    rfl
  simp only [Operation.perform, Operation.write, hhandle, Option.bind_some, h.resource?, hwire,
    hrun]
  cases (Parcel.toKernel resource.key frame.encode answer).verdict with
  | ok => rfl
  | error e =>
    simp only [hcleanup]

theorem written (h : s.Serves resource replies operations e) {k : Kernel}
    (hreplies : k.replies = replies') :
    { s with medium := { s.medium with kernel := k } }.Serves resource replies' operations e :=
  ⟨h.transport_eq, h.resources_eq, h.published_eq, h.opened, hreplies, h.operations_eq, h.echoes_eq⟩

/-- A write that is taken, up to the end of its send. -/
theorem accepted (h : s.Serves resource [] [o] e) (hhandle : o.handle = some resource.key)
    (hrequest : o.request = .send frame) (htodo : o.todo = [.write, .countSent]) :
    (((s.advance o.id).2.advance o.id).2.advance o.id).2.Serves resource [] [] e := by
  obtain ⟨k, hsend, hreplies⟩ := Kernel.run_send_of_nil h.replies_eq resource.key frame.encode
  have hwritten : (s.advance o.id).2.Serves resource [] [{ o with todo := [.countSent] }] e :=
    h.act htodo (h.perform_write { o with todo := [.countSent] } hhandle hrequest hsend)
      (h.written hreplies)
  have hcounted : ((s.advance o.id).2.advance o.id).2.Serves resource []
      [{ o with todo := [] }] e := by
    refine hwritten.act rfl rfl ?_
    exact ⟨hwritten.transport_eq, hwritten.resources_eq, hwritten.published_eq, hwritten.opened,
      hwritten.replies_eq, hwritten.operations_eq, hwritten.echoes_eq⟩
  exact hcounted.finish rfl

/-- A write that is refused, up to the return of its send. -/
theorem refused {number : Errno} (h : s.Serves resource (.refused number :: replies) [o] e)
    (hhandle : o.handle = some resource.key) (hrequest : o.request = .send frame)
    (htodo : o.todo = [.write, .countSent]) :
    ((s.advance o.id).2.advance o.id).2.Serves resource replies
      [{ o with todo := [], failure := some (.io (.os number)) }] (e.forget frame.encode) := by
  obtain ⟨k, hsend, hreplies⟩ := Kernel.run_send_of_refused h.replies_eq resource.key frame.encode
  have hfailed : (s.advance o.id).2.Serves resource replies
      [{ o with todo := [.forget], failure := some (.io (.os number)) }] e :=
    h.act htodo (h.perform_write { o with todo := [.countSent] } hhandle hrequest hsend)
      (h.written hreplies)
  refine hfailed.act rfl (by simp only [Operation.perform, hrequest, Request.wire?]; rfl) ?_
  exact ⟨hfailed.transport_eq, hfailed.resources_eq, hfailed.published_eq, hfailed.opened,
    hfailed.replies_eq, hfailed.operations_eq,
    congrArg (Echoes.forget · frame.encode) hfailed.echoes_eq⟩

end Site.Serves

namespace Life

variable {u w w' : Life} {resource : Resource}

/-- A send that is taken adds its record. -/
theorem exists_sent {e : Echoes} (h : w.site.Serves resource [] [] e) (frame : Frame) :
    ∃ w', Run (fun _ => True) w w' ∧ w'.site.Serves resource [] [] (e.record frame.encode) := by
  have hsent := (h.remembered frame).accepted rfl rfl rfl
  refine ⟨(((((w.after (.start (.send frame))).act w.site.bus.next).act w.site.bus.next).act
    w.site.bus.next).act w.site.bus.next).act w.site.bus.next, ?_, hsent⟩
  have hstart : Run (fun _ => True) w (w.after (.start (.send frame))) :=
    .step .refl trivial (step_after w _)
  have hact : ∀ {v : Life}, Run (fun _ => True) w v →
      Run (fun _ => True) w (v.act w.site.bus.next) := fun h => .step h trivial (.act _)
  exact hact (hact (hact (hact (hact hstart))))

/-- Sends whose echoes do not come fill the memory. -/
theorem exists_filled (h : w.site.Serves resource [] [] { enabled := true }) (frame : Frame)
    {n : Nat} (hn : n ≤ Echoes.capacity) : ∃ w', Run (fun _ => True) w w' ∧
      w'.site.Serves resource [] []
        { enabled := true, pending := List.replicate n frame.encode } := by
  induction n with
  | zero => exact ⟨w, .refl, h⟩
  | succ n ih =>
    obtain ⟨v, hrun, hv⟩ := ih (Nat.le_of_succ_le hn)
    obtain ⟨v', hrun', hv'⟩ := exists_sent hv frame
    refine ⟨v', hrun.trans hrun', ?_⟩
    have hroom : (List.replicate n frame.encode).length ≠ Echoes.capacity := by
      rw [List.length_replicate]
      omega
    rw [Echoes.record_eq_append rfl hroom, ← List.replicate_succ'] at hv'
    exact hv'

end Life

end CanTransport
