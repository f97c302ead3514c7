import CanTransport.Proofs.Bus.History
import CanTransport.Proofs.Bus.Strides
/-!
# Tasks that are told to stop

From wherever a task is told to stop it completes at most one receive operation more, hands on what
one such operation can bring, and returns after so many actions, whatever the kernel or the other
side supplies, and whatever callers do meanwhile. It fails only on what that operation brought.
Between two of its ends a sweep consumes no more slots than the ring has, even if every slot is
filled again at once.
-/

namespace CanTransport

theorem Bus.receiver?_of_stages {b : Bus} {id : ReceiverId} {stage : Stage}
    (h : b.stages = [(id, stage)]) : ∃ r, b.receiver? id = some r ∧ r.stage = stage := by
  obtain ⟨r, hreceivers, hr⟩ := List.map_eq_singleton_iff.mp h
  cases hr
  exact ⟨r, by simp [receiver?, hreceivers], rfl⟩

namespace Receiver

variable {s s' : Site} {r r' : Receiver}

theorem isSignalled_congr (htransport : s'.bus.transport = s.bus.transport)
    (hcancelled : r'.cancelled = r.cancelled) (hresource : r'.resource? s' = r.resource? s) :
    r'.isSignalled s' = r.isSignalled s := by
  rw [isSignalled, isSignalled, htransport, hcancelled, hresource]

theorem portion_congr (hkeeps : s.bus.Keeps s'.bus)
    (hring : s.bus.transport = .ring → r'.ring? s' = r.ring? s) :
    r'.portion s' = r.portion s := by
  by_cases htransport : s.bus.transport = .ring
  · rw [portion, portion, hkeeps.transport_eq, htransport, hring htransport]
  · have hbatch : s'.bus.batch = s.bus.batch := by
      rw [Bus.batch, Bus.batch, hkeeps.transport_eq, hkeeps.config_eq]
    rw [portion_eq_batch htransport,
      portion_eq_batch (by rw [hkeeps.transport_eq]; exact htransport), hbatch]

/-- Nobody takes back that a task was told to stop. -/
theorem Stands.isSignalled (h : Stands s r s' r') (hsignalled : r.isSignalled s = true) :
    r'.isSignalled s' = true := by
  by_cases htransport : s.bus.transport = .blocking
  · rw [Receiver.isSignalled, htransport] at hsignalled
    rw [Receiver.isSignalled, h.keeps.transport_eq, htransport]
    obtain ⟨resource, hresource, hclosed⟩ := (Option.any_eq_true _ _).mp hsignalled
    obtain ⟨resource', hresource', -, hstays⟩ := h.resource resource hresource
    exact (Option.any_eq_true _ _).mpr ⟨resource', hresource', hstays hclosed⟩
  · rw [isSignalled_eq_cancelled htransport] at hsignalled
    rw [isSignalled_eq_cancelled (by rw [h.keeps.transport_eq]; exact htransport)]
    exact h.cancelled hsignalled

/-- Nobody comes back into a loop that was left. -/
theorem loops_of_step (h : (r.step s).2.stage.loops = true) : r.stage.loops = true := by
  unfold step at h
  cases hstage : r.stage with
  | returned _ | published | exited _ => simp [hstage, goTo, Stage.loops] at h
  | _ => rfl

theorem Stands.ring?_eq {ring : Descriptor × Geometry} (h : Stands s r s' r')
    (hring : r.ring? s = some ring) : r'.ring? s' = some ring := by
  obtain ⟨resource, hresource, hkind⟩ := Option.bind_eq_some_iff.mp hring
  obtain ⟨resource', hresource', hsame, -⟩ := h.resource resource hresource
  rw [ring?, hresource', Option.bind_some, hsame, hkind]

end Receiver

namespace Site

variable {s : Site} {id : ReceiverId} {r : Receiver}

theorem run_of_receiver? (hfind : s.bus.receiver? id = some r) : s.run id =
    ((r.step s).1.setBus ((r.step s).1.bus.setReceiver (r.step s).2)).collect := by
  rw [run, hfind]

theorem receiver?_stepped (hfind : s.bus.receiver? id = some r) :
    ((r.step s).1.bus.setReceiver (r.step s).2).receiver? id = some (r.step s).2 := by
  have hacts := Receiver.acts_step s r
  have hold : (r.step s).1.bus.receiver? id = some r := by
    rw [hacts.bus_eq]
    exact hfind
  rw [Bus.receiver?_setReceiver, hold, Option.map_some, if_pos hacts.id_eq.symm]

theorem receiver?_run (hfind : s.bus.receiver? id = some r) :
    (s.run id).bus.receiver? id = some (r.step s).2 := by
  rw [run_of_receiver? hfind, collect_bus]
  exact receiver?_stepped hfind

/-- A task that remains in its loop keeps its resource. -/
theorem resource?_run (hfind : s.bus.receiver? id = some r)
    (hhandle : (r.step s).2.handle = r.handle) :
    (r.step s).2.resource? (s.run id) = r.resource? s := by
  rw [Receiver.resource?, Receiver.resource?, hhandle]
  cases hkey : r.handle with
  | none => rfl
  | some key =>
    have hmem := (Bus.receiver?_mem (receiver?_stepped hfind)).1
    rw [run_of_receiver? hfind, Option.bind_some, Option.bind_some,
      resource?_collect (Bus.holds_of_receiver hmem (hhandle.trans hkey))]
    show (r.step s).1.bus.resource? key = s.bus.resource? key
    rw [(Receiver.acts_step s r).bus_eq]
    rfl

theorem reception_run (hfind : s.bus.receiver? id = some r) :
    (s.run id).bus.reception = (r.step s).1.bus.reception := by
  rw [run_of_receiver? hfind, collect_bus]
  rfl

end Site

namespace Life

variable {w w' : Life} {event : Event} {id : ReceiverId} {r : Receiver}

theorem Step.keeps (hstep : Step event w w') : w.site.bus.Keeps w'.site.bus := by
  cases hstep with
  | start | subscribe | outside => exact ⟨rfl, rfl, rfl, rfl⟩
  | act id => exact keeps_after w (.act id)
  | run id => exact keeps_after w (.run id)

theorem Run.keeps {allowed : Event → Prop} (hrun : Run allowed w w') :
    w.site.bus.Keeps w'.site.bus := by
  induction hrun with
  | refl => exact .refl _
  | step _ _ hstep ih => exact ih.trans hstep.keeps

/-! ## Where tasks can be -/

/-- What holds of a bus and of the places of its tasks. -/
structure Steady (w : Life) : Prop where
  sound : w.Sound
  admitted : ∀ t ∈ w.site.bus.stages, w.site.bus.Admits t.2
  lt : ∀ t ∈ w.site.bus.stages, t.1 < w.site.bus.next
  supplied : w.site.bus.transport = .ring → w.site.Supplied

theorem Steady.fits (h : Steady w) (hr : r ∈ w.site.bus.receivers)
    (hloops : r.stage.loops = true) : r.Fits (r.portion w.site) w.site where
  admitted := h.admitted (r.id, r.stage) (List.mem_map_of_mem hr)
  portion_eq := rfl
  ring htransport := (h.supplied htransport).exists_ring? hr hloops

theorem Step.supplied (hstep : Step event w w') (h : w.site.Supplied) : w'.site.Supplied := by
  cases hstep with
  | start request => exact h.started request
  | act id => exact h.advanced id
  | run id => exact h.run id
  | subscribe =>
    exact h.fewer rfl rfl h.fresh (fun _ hkey => hkey) (fun _ ho => Or.inl ho) rfl (Nat.le_refl _)
  | outside hspares =>
    exact h.fewer rfl rfl (hspares.fresh h.fresh) (fun _ hkey => hkey) (fun _ ho => Or.inl ho) rfl
      (Nat.le_refl _)

theorem Step.admitted (hstep : Step event w w') (h : Steady w) :
    ∀ t ∈ w'.site.bus.stages, w'.site.bus.Admits t.2 := by
  have hwatch := hstep.watch h.sound
  have hkeeps := hstep.keeps
  generalize notes event w w' = log at hwatch
  cases hwatch with
  | quiet _ hstages =>
    rw [hstages]
    exact fun t ht => (h.admitted t ht).congr hkeeps
  | joined _ _ hstages' =>
    rw [hstages']
    exact nofun
  | spawned _ _ hstages' | finished _ _ hstages' | exited _ _ hstages' =>
    rw [hstages']
    intro t ht
    cases List.mem_singleton.mp ht
    trivial
  | @turned id stage stage' _ hstages hloops hstages' =>
    cases hstep with
    | run =>
      obtain ⟨r, hfind, rfl⟩ := Bus.receiver?_of_stages hstages
      have hstride := Receiver.stride_step (h.fits (Bus.receiver?_mem hfind).1 hloops) hloops
      have hmem := Bus.receiver?_mem (Site.receiver?_run hfind)
      have hturned : (id, (r.step w.site).2.stage) ∈ (w.run id).site.bus.stages :=
        List.mem_map.mpr ⟨_, hmem.1, by rw [hmem.2]⟩
      intro t ht
      rw [hstages', List.mem_singleton] at hturned ht
      rw [ht, ← hturned]
      refine hstride.admitted.congr ?_
      rw [show (w.run id).site = _ from Site.run_of_receiver? hfind, Site.collect_bus]
      exact ⟨rfl, rfl, rfl, rfl⟩

theorem Step.stages_lt (hstep : Step event w w') (hw : w.Sound)
    (h : ∀ t ∈ w.site.bus.stages, t.1 < w.site.bus.next) :
    ∀ t ∈ w'.site.bus.stages, t.1 < w'.site.bus.next := by
  have hwatch := hstep.watch hw
  have hle := hstep.next_le hw
  generalize notes event w w' = log at hwatch
  cases hwatch with
  | quiet _ hstages =>
    rw [hstages]
    exact fun t ht => Nat.lt_of_lt_of_le (h t ht) hle
  | joined _ _ hstages' =>
    rw [hstages']
    exact nofun
  | spawned _ _ hstages' hnext =>
    rw [hstages']
    intro t ht
    cases List.mem_singleton.mp ht
    exact hnext
  | turned _ hstages _ hstages' | finished _ hstages hstages' | exited _ hstages hstages' =>
    rw [hstages] at h
    rw [hstages']
    have hlt := h _ (List.mem_singleton_self _)
    intro t ht
    cases List.mem_singleton.mp ht
    exact Nat.lt_of_lt_of_le hlt hle

theorem Steady.step (h : Steady w) (hstep : Step event w w') : Steady w' where
  sound := hstep.sound h.sound
  admitted := hstep.admitted h
  lt := hstep.stages_lt h.sound h.lt
  supplied htransport := hstep.supplied (h.supplied (hstep.keeps.transport_eq ▸ htransport))

theorem Run.steady {allowed : Event → Prop} (hrun : Run allowed w w') (h : Steady w) :
    Steady w' := by
  induction hrun with
  | refl => exact h
  | step _ _ hstep ih => exact ih.step hstep

theorem steady_of_make {transport : Transport} {channel : String} {c : BusConfig}
    {m m' : Medium} {b : Bus} (hfresh : m.kernel.Fresh)
    (hmake : (Bus.make transport channel c).run m = (.ok b, m')) :
    Steady { site := ⟨b, m'⟩ } := by
  obtain ⟨htransport, hmade⟩ := Bus.made_of_make hfresh hmake
  have hnone : b.stages = [] := by rw [Bus.stages, hmade.receivers_eq, List.map_nil]
  refine ⟨sound_of_made hmade, ?_, ?_, ?_⟩
  · exact fun t ht => absurd (hnone ▸ ht) List.not_mem_nil
  · exact fun t ht => absurd (hnone ▸ ht) List.not_mem_nil
  · intro hring
    cases htransport.symm.trans hring
    exact Bus.supplied_of_make hfresh hmake

/-- While others act, one receive operation of a task in its loop can bring as much as before. -/
theorem Steady.portion_stands {r' : Receiver} (h : Steady w)
    (hfind : w.site.bus.receiver? id = some r) (hloops : r.stage.loops = true)
    (hstands : r.Stands w.site w'.site r') : r'.portion w'.site = r.portion w.site := by
  refine Receiver.portion_congr hstands.keeps fun htransport => ?_
  obtain ⟨fd, g, hring⟩ :=
    (h.supplied htransport).exists_ring? (Bus.receiver?_mem hfind).1 hloops
  rw [hring]
  exact hstands.ring?_eq hring

theorem Steady.portion_run (h : Steady w) (hfind : w.site.bus.receiver? id = some r)
    (hloops : (r.step w.site).2.stage.loops = true) :
    (r.step w.site).2.portion (w.run id).site = r.portion w.site := by
  have hbefore := Receiver.loops_of_step hloops
  obtain ⟨hhandle, -⟩ := (Receiver.stride_step
    (h.fits (Bus.receiver?_mem hfind).1 hbefore) hbefore).going hloops
  have hresource : (r.step w.site).2.resource? (w.run id).site = r.resource? w.site :=
    Site.resource?_run hfind hhandle
  have hkeeps : w.site.bus.Keeps (w.run id).site.bus := keeps_after w (.run id)
  exact Receiver.portion_congr hkeeps fun _ => by rw [Receiver.ring?, hresource, Receiver.ring?]

/-! ## What is spent along a run -/

/-- What a task spends in its loop. -/
def efforts (id : ReceiverId) (event : Event) (w w' : Life) : List Effort :=
  match w.site.bus.receiver? id with
  | some r => if event = .run id ∧ r.stage.loops = true then [r.effort w.site w'.site] else []
  | none => []

/-- The loop of the task with a number is over, or the task is gone; its number is not used again. -/
structure Past (id : ReceiverId) (w : Life) : Prop where
  lt : id < w.site.bus.next
  ended : ∀ stage, (id, stage) ∈ w.site.bus.stages → stage.loops = false

theorem Past.efforts_eq (h : Past id w) (event : Event) (w' : Life) : efforts id event w w' = [] := by
  unfold efforts
  split
  · rename_i r hfind
    obtain ⟨hr, rfl⟩ := Bus.receiver?_mem hfind
    have hended := h.ended r.stage (List.mem_map_of_mem hr)
    refine if_neg fun hloops => ?_
    rw [hended] at hloops
    cases hloops.2
  · rfl

theorem Past.step (h : Past id w) (hw : w.Sound) (hstep : Step event w w') : Past id w' := by
  refine ⟨Nat.lt_of_lt_of_le h.lt (hstep.next_le hw), fun stage hmem => ?_⟩
  have hwatch := hstep.watch hw
  generalize notes event w w' = log at hwatch
  cases hwatch with
  | quiet _ hstages => exact h.ended stage (hstages ▸ hmem)
  | joined _ _ hstages' =>
    rw [hstages'] at hmem
    cases hmem
  | spawned _ _ hstages' =>
    rw [hstages', List.mem_singleton] at hmem
    exact absurd (congrArg Prod.fst hmem) (Nat.ne_of_lt h.lt)
  | @turned task before after _ hstages hloops hstages' =>
    rw [hstages', List.mem_singleton] at hmem
    cases hmem
    have hended := h.ended before (hstages ▸ List.mem_singleton_self _)
    rw [hloops] at hended
    cases hended
  | finished _ _ hstages' | exited _ _ hstages' =>
    rw [hstages', List.mem_singleton] at hmem
    cases hmem
    rfl

/-- What has become of a task that was in its loop, and what it has spent. -/
inductive Stint (id : ReceiverId) (w : Life) (r : Receiver) (log : List Effort) (w' : Life) : Prop
  | inside {r' : Receiver} (hfind : w'.site.bus.receiver? id = some r')
      (hloops : r'.stage.loops = true) (hportion : r'.portion w'.site = r.portion w.site)
      (htold : r.isSignalled w.site = true → r'.isSignalled w'.site = true ∧
        Effort.total log + r'.stage.budget (r.portion w.site) ≤ r.stage.budget (r.portion w.site))
      (hroom : (Effort.total log).slots + r'.stage.room (r.portion w.site) ≤
        r.stage.room (r.portion w.site) + (Effort.total log).receives * r.portion w.site)
  | outside (hpast : Past id w')
      (htold : r.isSignalled w.site = true →
        Effort.total log ≤ r.stage.budget (r.portion w.site))
      (hroom : (Effort.total log).slots ≤
        r.stage.room (r.portion w.site) + (Effort.total log).receives * r.portion w.site)

variable {log : List Effort} {w'' : Life} {r' : Receiver}

/-- A task in its loop, while others act. -/
theorem Stint.stands (h : Stint id w r log w') (hw' : w'.Steady) (hstep : Step event w' w'')
    (hne : event ≠ .run id) : Stint id w r (log ++ efforts id event w' w'') w'' := by
  have hnone : efforts id event w' w'' = [] := by
    unfold efforts
    split
    · exact if_neg fun h => hne h.1
    · rfl
  rw [hnone, List.append_nil]
  cases h with
  | outside hpast htold hroom => exact .outside (hpast.step hw'.sound hstep) htold hroom
  | @inside r' hfind hloops hportion htold hroom =>
    have hexited : r'.hasExited = false := by
      unfold Receiver.hasExited
      cases hstage : r'.stage with
      | exited died => rw [hstage] at hloops; cases hloops
      | _ => rfl
    obtain ⟨r'', hfind', hstands⟩ := hstep.stands hne hfind hexited
    refine .inside hfind' (by rw [hstands.stage_eq]; exact hloops)
      ((hw'.portion_stands hfind hloops hstands).trans hportion) (fun htold' => ?_) ?_
    · obtain ⟨hsignalled, hbudget⟩ := htold htold'
      rw [hstands.stage_eq]
      exact ⟨hstands.isSignalled hsignalled, hbudget⟩
    · rw [hstands.stage_eq]
      exact hroom

/-- An action of a task in its loop. -/
theorem Stint.runs (h : Stint id w r log w') (hw' : w'.Steady) :
    Stint id w r (log ++ efforts id (.run id) w' (w'.run id)) (w'.run id) := by
  cases h with
  | outside hpast htold hroom =>
    rw [hpast.efforts_eq, List.append_nil]
    exact .outside (hpast.step hw'.sound (.run id)) htold hroom
  | @inside r' hfind hloops hportion htold hroom =>
    have hfits := hw'.fits (Bus.receiver?_mem hfind).1 hloops
    rw [hportion] at hfits
    have hstride := Receiver.stride_step hfits hloops
    have heffort : efforts id (.run id) w' (w'.run id) =
        [r'.effort w'.site (r'.step w'.site).1] := by
      have hreception : (w'.run id).site.bus.reception = (r'.step w'.site).1.bus.reception :=
        Site.reception_run hfind
      unfold efforts
      rw [hfind]
      simp only [hloops, and_self, if_true, Receiver.effort, hreception]
    have hspends : r.isSignalled w.site = true →
        Effort.total (log ++ [r'.effort w'.site (r'.step w'.site).1]) +
          (r'.step w'.site).2.stage.budget (r.portion w.site) ≤
            r.stage.budget (r.portion w.site) := by
      intro hsignalled
      obtain ⟨hsignalled', hbudget⟩ := htold hsignalled
      rw [Effort.total_concat]
      exact Effort.spend hbudget (hstride.told hsignalled').1
    have hrooms : (Effort.total (log ++ [r'.effort w'.site (r'.step w'.site).1])).slots +
        (r'.step w'.site).2.stage.room (r.portion w.site) ≤ r.stage.room (r.portion w.site) +
          (Effort.total (log ++ [r'.effort w'.site (r'.step w'.site).1])).receives *
            r.portion w.site := by
      have hroom' := hstride.room
      rw [Effort.total_concat]
      simp only [Effort.add_eq, Receiver.effort, Nat.add_mul]
      omega
    have hfind' : (w'.run id).site.bus.receiver? id = some (r'.step w'.site).2 :=
      Site.receiver?_run hfind
    rw [heffort]
    cases hloops' : (r'.step w'.site).2.stage.loops with
    | true =>
      obtain ⟨hhandle, hcancelled⟩ := hstride.going hloops'
      have hkeeps : w'.site.bus.Keeps (w'.run id).site.bus := keeps_after w' (.run id)
      have hresource : (r'.step w'.site).2.resource? (w'.run id).site = r'.resource? w'.site :=
        Site.resource?_run hfind hhandle
      refine .inside hfind' hloops' ((hw'.portion_run hfind hloops').trans hportion)
        (fun hsignalled => ?_) hrooms
      refine ⟨?_, hspends hsignalled⟩
      rw [Receiver.isSignalled_congr hkeeps.transport_eq hcancelled hresource]
      exact (htold hsignalled).1
    | false =>
      have hsteady := hw'.step (.run id)
      have hmem := Bus.receiver?_mem hfind'
      refine .outside ⟨?_, fun stage hstage => ?_⟩
        (fun hsignalled => Effort.le_of_add_le (hspends hsignalled)) (Nat.le_of_add_right_le hrooms)
      · have hlt : (r'.step w'.site).2.id < (w'.run id).site.bus.next :=
          hsteady.lt _ (List.mem_map_of_mem hmem.1)
        rwa [hmem.2] at hlt
      · have hone := hsteady.sound.stages_eq _ (List.mem_map_of_mem hmem.1)
        rw [hone, List.mem_singleton] at hstage
        have hsame : stage = (r'.step w'.site).2.stage := congrArg Prod.snd hstage
        rw [hsame]
        exact hloops'

theorem Noted.stint (hrun : Noted (efforts id) w log w') (hw : w.Steady)
    (hfind : w.site.bus.receiver? id = some r) (hloops : r.stage.loops = true) :
    Stint id w r log w' := by
  induction hrun with
  | refl =>
    refine .inside hfind hloops rfl (fun htold => ⟨htold, ?_⟩) ?_
    · simp [Effort.le_iff, Effort.add_eq]
    · simp
  | @step log w' w'' event hrun hstep ih =>
    have hw' := hrun.run.steady hw
    by_cases hevent : event = .run id
    · subst hevent
      cases hstep
      exact ih.runs hw'
    · exact ih.stands hw' hstep hevent

/-! ## Returning -/

/-- What a task can still spend is what one receive operation can bring, and the way around it. -/
theorem budget_le {b : Bus} {p : Nat} {stage : Stage} (h : b.Admits stage)
    (hportion : b.transport ≠ .ring → b.batch = p) :
    stage.budget p ≤ ⟨1, p, 3 * p + 5, p⟩ := by
  cases stage with
  | holding records =>
    have hlength : records.length ≤ p := hportion h.1 ▸ h.2
    simp only [Stage.budget, Effort.le_iff]
    omega
  | _ =>
    simp only [Stage.budget, Effort.le_iff]
    omega

/-- Whoever is told to stop waits for nothing. -/
theorem isReady_of_isSignalled {s : Site} (hadmitted : s.bus.Admits r.stage)
    (hloops : r.stage.loops = true) (h : r.isSignalled s = true) : r.isReady s = true := by
  have hcancelled : s.bus.transport ≠ .blocking → r.cancelled = true := fun htransport =>
    (Receiver.isSignalled_eq_cancelled htransport).symm.trans h
  have hclosed : s.bus.transport = .blocking → r.isClosed s = true := by
    intro htransport
    by_contra hopen
    rw [Receiver.isSignalled_of_isClosed htransport (by simpa using hopen)] at h
    cases h
  unfold Receiver.isReady
  cases hstage : r.stage with
  | exited died => rw [hstage] at hloops; cases hloops
  | sleeping deadline order =>
    rw [hstage] at hadmitted
    have hring : s.bus.transport = .ring := hadmitted
    simp [hcancelled (by rw [hring]; decide)]
  | top | receiving =>
    cases htransport : s.bus.transport <;> simp_all
  | _ => rfl

/-- Whatever the transport and whatever happens meanwhile, a task that has been told to stop
completes at most one receive operation more, calls its listener at most as often as one operation
can bring frames, and leaves its loop after so many actions, of which it waits for none. It returns
without an error unless that operation brought one that it does not survive, or its listener did not
return. Between two of its ends a sweep consumes no more slots than the ring has. -/
theorem returns_when_told {transport : Transport} {channel : String} {c : BusConfig}
    {m m' : Medium} {b : Bus} (hfresh : m.kernel.Fresh)
    (hmake : (Bus.make transport channel c).run m = (.ok b, m'))
    (hreach : Reachable ⟨b, m'⟩ w) (hfind : w.site.bus.receiver? id = some r)
    (hloops : r.stage.loops = true) (hrun : Noted (efforts id) w log w') :
    ∃ portion,
      (match transport with
        | .batched => portion = c.batch.size.toNat
        | .ring => ∃ fd g, r.ring? w.site = some (fd, g) ∧ portion = g.slotCount
        | _ => portion = 1) ∧
      (r.isSignalled w.site = true → Effort.total log ≤ ⟨1, portion, 3 * portion + 5, portion⟩ ∧
        ∀ r', w'.site.bus.receiver? id = some r' → r'.stage.loops = true →
          (Effort.total log).actions < 3 * portion + 5 ∧ r'.isReady w'.site = true ∧
            r'.Heeds w'.site (r'.step w'.site).1 (r'.step w'.site).2) ∧
      (transport = .ring → (Effort.total log).receives = 0 →
        (Effort.total log).slots ≤ portion) := by
  obtain ⟨htransport, -⟩ := Bus.made_of_make hfresh hmake
  have hmade := steady_of_make hfresh hmake
  have hw := hreach.steady hmade
  have hkeeps : b.Keeps w.site.bus := hreach.keeps
  have hportion : w.site.bus.transport ≠ .ring → w.site.bus.batch = r.portion w.site :=
    fun hring => (Receiver.portion_eq_batch hring).symm
  have hstint := hrun.stint hw hfind hloops
  have hr := (Bus.receiver?_mem hfind).1
  have hbudget : r.stage.budget (r.portion w.site) ≤ ⟨1, r.portion w.site,
      3 * r.portion w.site + 5, r.portion w.site⟩ :=
    budget_le (hw.admitted _ (List.mem_map_of_mem hr)) hportion
  have hroom := Stage.room_le (r.portion w.site) r.stage
  refine ⟨r.portion w.site, ?_, fun htold => ?_, fun _ hnone => ?_⟩
  · have hconfig : w.site.bus.config = c := hkeeps.config_eq.trans (Bus.config_of_make hmake)
    have htransport' : w.site.bus.transport = transport := hkeeps.transport_eq.trans htransport
    cases transport with
    | ring =>
      obtain ⟨fd, g, hring⟩ := (hw.supplied htransport').exists_ring? hr hloops
      exact ⟨fd, g, hring, Receiver.portion_eq_slotCount htransport' hring⟩
    | batched => rw [Receiver.portion, Bus.batch, htransport', hconfig]
    | blocking | cancellable | virtual => rw [Receiver.portion, Bus.batch, htransport']
  · cases hstint with
    | @inside r' hfind' hloops' _ htold' _ =>
      obtain ⟨hsignalled, hspent⟩ := htold' htold
      have hw' := hrun.run.steady hw
      have hr' := (Bus.receiver?_mem hfind').1
      have hfits := hw'.fits hr' hloops'
      have hactions := Stage.one_le_actions (r.portion w.site) hloops'
      simp only [Effort.le_iff, Effort.add_eq] at hspent hbudget ⊢
      refine ⟨by omega, fun other hother _ => ?_⟩
      cases hfind'.symm.trans hother
      exact ⟨by omega, isReady_of_isSignalled hfits.admitted hloops' hsignalled,
        ((Receiver.stride_step hfits hloops').told hsignalled).2⟩
    | outside hpast htold' _ =>
      have hspent := htold' htold
      simp only [Effort.le_iff] at hspent hbudget ⊢
      refine ⟨by omega, fun other hother hloops' => ?_⟩
      obtain ⟨hmem, rfl⟩ := Bus.receiver?_mem hother
      have hended := hpast.ended other.stage (List.mem_map_of_mem hmem)
      rw [hloops'] at hended
      cases hended
  · cases hstint with
    | inside _ _ _ _ hslots => rw [hnone] at hslots; omega
    | outside _ _ hslots => rw [hnone] at hslots; omega

/-- A task that is about to receive when somebody disconnects. -/
def toldToStop : List Event :=
  calling 0 .connect ++ [.run 1, .start .disconnect, .act 2, .act 2]

/-- Five records wait for a task that takes two at a time; it hands on two of them and returns. -/
theorem returns_between_batches : ∃ b m',
    (Bus.make .batched "can0" { batch := { size := 2 } }).run
      { kernel := { greeting := List.replicate 5 (.record (List.replicate 16 0)) } } =
        (.ok b, m') ∧
    (let w := replay ⟨b, m'⟩ toldToStop
     let events := List.replicate 4 (Event.run 1)
     let w' := events.foldl after w
     let log := taken (efforts 1) w events
     Effort.total log = ⟨1, 2, 4, 0⟩ ∧ Effort.total log ≤ ⟨1, 2, 11, 2⟩ ∧
      w'.site.bus.receivers.map (fun r => r.stage.outcome?.map Except.isOk) = [some true] ∧
      (w'.site.medium.kernel.arrivals 0).length = 3) := by
  obtain ⟨m, b, m', hm, hfresh, hmake, htold, htotal, houtcome, hleft⟩ :
      ∃ (m : Medium) (b : Bus) (m' : Medium),
        m = { kernel := { greeting := List.replicate 5 (.record (List.replicate 16 0)) } } ∧
        m.kernel.Fresh ∧
        (Bus.make .batched "can0" { batch := { size := 2 } }).run m = (.ok b, m') ∧
        (let w := replay ⟨b, m'⟩ toldToStop
         let events := List.replicate 4 (Event.run 1)
         let w' := events.foldl after w
         (w.site.bus.receiver? 1).any (fun r => r.stage.loops && r.isSignalled w.site) = true ∧
          Effort.total (taken (efforts 1) w events) = ⟨1, 2, 4, 0⟩ ∧
          w'.site.bus.receivers.map (fun r => r.stage.outcome?.map Except.isOk) = [some true] ∧
          (w'.site.medium.kernel.arrivals 0).length = 3) :=
    ⟨_, _, _, rfl, fun _ _ => rfl, rfl, by decide +kernel, by decide +kernel, by decide +kernel,
      by decide +kernel⟩
  obtain ⟨r, hfind, hr⟩ := (Option.any_eq_true _ _).mp htold
  rw [Bool.and_eq_true] at hr
  obtain ⟨portion, hportion, hstops, -⟩ := returns_when_told hfresh hmake (reachable_replay _ _)
    hfind hr.1 (noted_taken (efforts 1) _ (List.replicate 4 (Event.run 1)))
  rw [show portion = 2 from hportion] at hstops
  exact ⟨b, m', hm ▸ hmake, htotal, (hstops hr.2).1, houtcome, hleft⟩

end Life

end CanTransport
