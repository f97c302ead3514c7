import CanTransport.Probe.Run
import CanTransport.Proofs.Config.Layers
import CanTransport.Proofs.Yaml.Printing
/-!
# Configurations that are printed

The probe prints the configuration that it has loaded, from whatever layers. What it prints holds
every setting, so that a file with this text loads as the same configuration, the defaults below it
notwithstanding.
-/

namespace CanTransport

open Value (Distinct)

namespace BusConfig

variable {c : BusConfig} {environment : List (String × String)} {path : String}

/-- Whether a variable is named as one that holds settings, in either case. -/
def Concerns (entry : String × String) : Prop :=
  variablePrefix.toList.map Env.lower <+: entry.1.toList.map Env.lower

instance (entry : String × String) : Decidable (Concerns entry) :=
  inferInstanceAs (Decidable (_ <+: _))

theorem named?_eq_none {entry : String × String} (h : ¬ Concerns entry) : named? entry = none := by
  unfold named? Env.path?
  simp only [String.toList_ofList]
  apply if_neg
  rw [List.isPrefixOf_iff_prefix]
  exact h

theorem plain_of_unconcerned (h : ∀ entry ∈ environment, ¬ Concerns entry) : Plain environment := by
  have hnone : environment.filterMap named? = [] :=
    List.filterMap_eq_nil_iff.mpr fun entry hentry => named?_eq_none (h entry hentry)
  refine ⟨fun entry hentry path hpath => ?_, by rw [hnone]; exact List.nodup_nil⟩
  rw [named?_eq_none (h entry hentry)] at hpath
  cases hpath

theorem given?_of_unconcerned (h : ∀ entry ∈ environment, ¬ Concerns entry) (s : Setting) :
    given? environment s = none := by
  have hfind : environment.find? (fun entry => named? entry = some s.path) = none := by
    refine List.find?_eq_none.mpr fun entry hentry => ?_
    rw [named?_eq_none (h entry hentry)]
    simp
  rw [given?, hfind]
  rfl

/-! ## What is printed -/

theorem legible_toValue (c : BusConfig) : Yaml.Legible c.toValue := by
  have hword : ∀ n : UInt64, Yaml.Legible (.ofNat n.toNat) :=
    fun n => Yaml.legible_ofNat n.toNat_lt
  have hbatch : Yaml.Legible c.batch.toValue := by
    refine .map (List.cons_ne_nil _ _) ?_ ?_ ?_
    · show ["size", "timeout_ms"].Nodup
      decide
    · show ∀ key ∈ ["size", "timeout_ms"], Yaml.Word key.toList
      decide
    · exact List.forall_mem_cons.mpr ⟨hword _, List.forall_mem_singleton.mpr (hword _)⟩
  have hring : Yaml.Legible c.ring.toValue := by
    refine .map (List.cons_ne_nil _ _) ?_ ?_ ?_
    · show ["block_size", "block_count", "frame_size", "poll_interval_ms"].Nodup
      decide
    · show ∀ key ∈ ["block_size", "block_count", "frame_size", "poll_interval_ms"],
        Yaml.Word key.toList
      decide
    · simp only [List.forall_mem_cons]
      exact ⟨hword _, hword _, hword _, hword _, nofun⟩
  refine .map (List.cons_ne_nil _ _) ?_ ?_ ?_
  · show ["read_timeout_ms", "receive_own_messages", "loopback", "batch", "ring",
      "listener_capacity"].Nodup
    decide
  · show ∀ key ∈ ["read_timeout_ms", "receive_own_messages", "loopback", "batch", "ring",
      "listener_capacity"], Yaml.Word key.toList
    decide
  · simp only [fields, List.forall_mem_cons]
    exact ⟨hword _, Yaml.legible_bool _, Yaml.legible_bool _, hbatch, hring, hword _, nofun⟩

/-- What is printed of a configuration is read as all of its settings. -/
theorem read?_print (c : BusConfig) : Yaml.read? (Yaml.print c.fields) = some c.toValue :=
  Yaml.read?_print (legible_toValue c)

theorem sectioned_toValue (c : BusConfig) : c.toValue.Sectioned := by
  intro key hkey v hv
  simp only [List.mem_cons, List.not_mem_nil, or_false] at hkey
  rcases hkey with rfl | rfl
  · cases hv
    exact ⟨_, rfl⟩
  · cases hv
    exact ⟨_, rfl⟩

/-- A file with what is printed of a valid configuration loads as that configuration, if no variable
gives a setting; and what is printed is what the probe prints, whatever layers it has loaded the
configuration from. -/
theorem load_print (hvalid : c.validate = .ok ())
    (hpath : FileFormat.ofPath? path = some .yaml)
    (hnone : ∀ entry ∈ environment, ¬ Concerns entry) :
    load (some { path := path, content := some (Yaml.print c.fields) }) environment = .ok c ∧
    ∀ (i : Probe.Invocation) (environment' : List (String × String)) (content : Option String)
      (s : Session), i.command = .config →
      load (i.configPath.map fun path => { path := path, content := content }) environment' =
        .ok c →
      i.run environment' content s = { stdout := Yaml.print c.fields } := by
  constructor
  · have hread : Readable (some { path := path, content := some (Yaml.print c.fields) })
        c.toValue := ⟨_, .yaml, rfl, hpath, read?_print c, _, rfl⟩
    have hplain := plain_of_unconcerned hnone
    refine load_eq_ok_iff.mpr ⟨_, layers_eq_ok_iff.mpr ⟨_, hread, rfl⟩, ?_, hvalid⟩
    refine (ofValue?_merged_iff hread (sectioned_toValue c) hplain).mpr fun s => ?_
    rw [source, given?_of_unconcerned hnone, at?_toValue]
    rfl
  · intro i environment' content s hcommand hload
    unfold Probe.Invocation.run
    simp only [hload, hcommand]

/-- The largest capacity comes through, and so does a switch that is not at its default. -/
theorem load_print_largest :
    let c : BusConfig := { receiveOwnMessages := true, listenerCapacity := 18446744073709551615 }
    let text := "read_timeout_ms: 100\nreceive_own_messages: true\nloopback: true\n"
      ++ "batch:\n  size: 64\n  timeout_ms: 10\n"
      ++ "ring:\n  block_size: 4096\n  block_count: 64\n  frame_size: 128\n  poll_interval_ms: 10\n"
      ++ "listener_capacity: 18446744073709551615\n"
    load (some { path := "etc/bus.yaml", content := some text }) [("HOME", "/root")] = .ok c := by
  intro c text
  have hprint : Yaml.print c.fields = text := by decide +kernel
  rw [← hprint]
  exact (load_print (by decide) (by decide +kernel) (by decide +kernel)).1

end BusConfig

end CanTransport
