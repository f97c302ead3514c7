import CanTransport.Proofs.Bus.Supervision
/-!
# The flag of a virtual bus

A virtual bus answers whether it is connected from a flag beside the stored connection. A connect
that joins a dead task has taken its connection and leaves the flag raised, and no later disconnect
finds anything to take down. So flag and connection agree exactly as long as the connect that ended
last has not failed.
-/

namespace CanTransport

namespace Life

variable {s : Site} {w : Life} {id : OperationId} {o : Operation}

/-- What holds of a virtual bus at a moment of its life. -/
structure Flagged (s : Site) (w : Life) : Prop where
  agree_iff : w.site.bus.lock = none → ((w.site.bus.isConnected = true ↔
    ∃ c r, w.site.bus.connection = some c ∧ w.site.bus.receiver? c.receiver = some r) ↔
      w.refused = false)
  /-- A connect, when it reports. -/
  connect_report : ∀ id o outcome, w.site.operation? id = some o → o.request = .connect →
    (w.site.advance id).1 = .ends outcome →
    ∃ u, Reachable s u ∧ Run (others (fun _ => True) id) u w ∧ u.site.bus.lock = none ∧
      u.site.bus.isConnected = true ∧ (outcome = .ok () ↔ u.site.bus.connection.isSome = true) ∧
      (outcome = .ok () ↔ u.refused = false)
  /-- A disconnect, when it reports. -/
  disconnect_report : ∀ id o outcome, w.site.operation? id = some o → o.request = .disconnect →
    (w.site.advance id).1 = .ends outcome →
    ∃ u, Reachable s u ∧ Run (others (fun _ => True) id) u w ∧ u.site.bus.lock = none ∧
      u.site.bus.connection = none ∧ (u.site.bus.isConnected = false ↔ u.refused = false)
  /-- A send while there are only sends. -/
  send : w.SendsOnly → ∀ frame,
    Returns Event.sendsOnly (w.site.start (.send frame)).1
      (fun t t' => w.site.bus.isConnected = false → t'.bus.reception = t.bus.reception)
      (fun outcome => outcome = .error .notConnected ↔ w.site.bus.isConnected = false)
      { w with site := (w.site.start (.send frame)).2 }

/-- The flag and the connection of a virtual bus whose lock is free. -/
theorem Sound.flag_eq (hw : w.Sound) (hvirtual : w.site.bus.transport = .virtual)
    (hlock : w.site.bus.lock = none) :
    w.site.bus.isConnected = (w.site.bus.connection.isSome || w.refused) ∧
      (w.refused = true → w.site.bus.connection = none) := by
  have hflag : w.site.bus.isConnected = w.site.bus.flag := by rw [Bus.isConnected, hvirtual]
  cases hw.free hlock with
  | connected hconnection _ _ hraised hrefused =>
    rw [hflag, hraised, hvirtual, hconnection, hrefused]
    exact ⟨rfl, fun hset => absurd hset Bool.false_ne_true⟩
  | bare hconnection _ _ hraised =>
    rw [hflag, hraised, hvirtual, hconnection]
    exact ⟨rfl, fun _ => rfl⟩

/-- On a virtual bus flag and connection agree between connects and disconnects exactly as long as
the connect that ended last has not failed. -/
theorem flagged_of_reachable {channel : String} {c : BusConfig} {m m' : Medium} {b : Bus}
    (hfresh : m.kernel.Fresh) (hmake : (Bus.make .virtual channel c).run m = (.ok b, m')) {w : Life}
    (hreach : Reachable ⟨b, m'⟩ w) : Flagged ⟨b, m'⟩ w := by
  obtain ⟨htransport, hmade⟩ := Bus.made_of_make hfresh hmake
  have hsound : ∀ {u : Life}, Reachable ⟨b, m'⟩ u → u.Sound ∧ u.site.bus.transport = .virtual := by
    intro u hu
    have hmade := sound_of_made hmade
    exact ⟨Run.sound hu hmade, (Run.transport_eq hu hmade).trans htransport⟩
  obtain ⟨hw, hvirtual⟩ := hsound hreach
  refine ⟨fun hlock => ?_, ?_, ?_, fun hsends frame => returns_send hw hsends frame⟩
  · obtain ⟨hflag, hnone⟩ := hw.flag_eq hvirtual hlock
    rw [← hw.connection_iff hlock, hflag]
    cases hrefused : w.refused with
    | true => simp [hnone hrefused]
    | false => simp
  · intro id o outcome hfind hrequest hends
    obtain ⟨rfl, u, hleft⟩ := hreach.left_of_ends hmade hfind (by rw [hrequest]; rfl) hends
    obtain ⟨hu, hvirtual⟩ := hsound hleft.reachable
    obtain ⟨hflag, -⟩ := hu.flag_eq hvirtual hleft.lock_eq
    have hrefused := hleft.refused_eq (by rw [hrequest]; rfl)
    refine ⟨u, hleft.reachable, hleft.since, hleft.lock_eq, ?_⟩
    rw [hflag, hrefused, Operation.outcome_eq_ok_iff]
    cases hfailure : o.failure with
    | none =>
      rw [hleft.stored (by rw [hrequest]; rfl) hfailure]
      simp
    | some e =>
      have hbare := hleft.bare (Or.inr (by rw [hfailure]; exact nofun))
      rw [hbare.1]
      simp
  · intro id o outcome hfind hrequest hends
    obtain ⟨-, u, hleft⟩ := hreach.left_of_ends hmade hfind (by rw [hrequest]; rfl) hends
    obtain ⟨hu, hvirtual⟩ := hsound hleft.reachable
    obtain ⟨hflag, -⟩ := hu.flag_eq hvirtual hleft.lock_eq
    obtain ⟨hnone, -, -⟩ := hleft.bare (Or.inl (by rw [hrequest]; rfl))
    refine ⟨u, hleft.reachable, hleft.since, hleft.lock_eq, hnone, ?_⟩
    rw [hflag, hnone, Option.isSome_none, Bool.false_or]

theorem flagged_after_connect : ∃ b m, (Bus.make .virtual "v" {}).run {} = (.ok b, m) ∧
    (let w := replay ⟨b, m⟩ (calling 0 .connect)
     w.site.bus.lock = none ∧ w.refused = false ∧ w.site.bus.isConnected = true ∧
      Flagged ⟨b, m⟩ w) := by
  obtain ⟨b, m, hmake, hlock, hrefused, hconnected⟩ : ∃ b m,
      (Bus.make .virtual "v" {}).run {} = (.ok b, m) ∧
      (let w := replay ⟨b, m⟩ (calling 0 .connect)
       w.site.bus.lock = none ∧ w.refused = false ∧ w.site.bus.isConnected = true) :=
    ⟨_, _, rfl, by decide +kernel⟩
  exact ⟨b, m, hmake, hlock, hrefused, hconnected,
    flagged_of_reachable (fun _ _ => rfl) hmake (reachable_replay _ _)⟩

/-- A connect joins the task that its listener ended, and fails. Then there is neither a connection
nor a task, but the bus answers that it is connected, takes a frame to send and counts it, and does
so after a disconnect too. -/
theorem connected_of_failed_connect : ∃ b m frame,
    (Bus.make .virtual "v" { receiveOwnMessages := true }).run {} = (.ok b, m) ∧
    (let w := replay ⟨b, m⟩ (bereaving frame ++ .start .connect :: List.replicate 5 (.act 3))
     Reachable ⟨b, m⟩ w ∧
      (w.site.operation? 3).map (fun o => (o.request, o.todo, o.failure)) =
        some (.connect, [], some (.taskJoin "the listener died")) ∧
      w.site.bus.lock = none ∧ w.site.bus.connection = none ∧
      w.site.bus.receivers.isEmpty = true ∧ w.site.bus.isConnected = true) ∧
    (let w := replay ⟨b, m⟩ (bereaving frame ++ calling 3 .connect ++ calling 4 .disconnect ++
      calling 5 (.send frame))
     Reachable ⟨b, m⟩ w ∧ w.site.bus.operations.isEmpty = true ∧ w.site.bus.lock = none ∧
      w.site.bus.connection = none ∧ w.site.bus.isConnected = true ∧
      w.site.bus.reception.stats.sent = 2) := by
  refine ⟨_, _, ⟨0x101, 0, 1, #v[1, 0, 0, 0, 0, 0, 0, 0], by decide⟩, rfl, ?_, ?_⟩
  · exact ⟨reachable_replay _ _, by decide +kernel⟩
  · exact ⟨reachable_replay _ _, by decide +kernel⟩

end Life

end CanTransport
