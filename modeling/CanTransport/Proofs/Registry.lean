import CanTransport.Proofs.Bus.Making
import CanTransport.Proofs.Text.Order
import CanTransport.Registry
import Mathlib.Data.List.Induction
import Mathlib.Data.List.Sort
/-!
# What a registry has been told

A registry against the history of its calls. A history gives constructors to names, one after the
other, and the registry makes a bus with the one that its name was given last. What it is asked
leaves no trace in it: neither the calls that make buses, whatever the constructors do, nor the
questions for names.
-/

namespace CanTransport.Registry

open Text (bytes)

/-! ## Entries -/

section Entries

variable {α : Type} {name name' : String} {value : α} {entries : List (String × α)}

/-- An entry that is put in is found, and all others as before. -/
theorem lookup_insert : (insert name value entries).lookup name' =
    if name' = name then some value else entries.lookup name' := by
  have hfound : ∀ (n : String) (v : α) (rest : List (String × α)),
      ((n, v) :: rest).lookup name' = if name' = n then some v else rest.lookup name' := by
    intro n v rest
    by_cases hn : name' = n
    · rw [if_pos hn, List.lookup_cons, beq_iff_eq.mpr hn]
    · rw [if_neg hn, List.lookup_cons, beq_eq_false_iff_ne.mpr hn]
  induction entries with
  | nil => exact hfound _ _ _
  | cons entry rest ih =>
    obtain ⟨n, v⟩ := entry
    rw [insert]
    split
    · rename_i hsame
      rw [hfound, hfound, hsame]
      split <;> rfl
    · split
      · exact hfound _ _ _
      · rename_i hne _
        rw [hfound, hfound, ih]
        by_cases hn : name' = n
        · rw [if_pos hn, if_pos hn, if_neg fun heq => hne (heq.symm.trans hn)]
        · rw [if_neg hn, if_neg hn]

theorem mem_names_insert : name' ∈ (insert name value entries).map (·.1) ↔
    name' = name ∨ name' ∈ entries.map (·.1) := by
  induction entries with
  | nil => simp [insert]
  | cons entry rest ih =>
    obtain ⟨n, v⟩ := entry
    rw [insert]
    split
    · rename_i hsame
      simp [hsame]
    · split
      · simp
      · rw [List.map_cons, List.mem_cons, ih, List.map_cons, List.mem_cons, or_left_comm]

/-- Entries in order stay so. -/
theorem ordered_insert (h : (entries.map (·.1)).Pairwise (· < ·)) :
    ((insert name value entries).map (·.1)).Pairwise (· < ·) := by
  induction entries with
  | nil => exact List.pairwise_singleton _ _
  | cons entry rest ih =>
    obtain ⟨n, v⟩ := entry
    rw [List.map_cons, List.pairwise_cons] at h
    obtain ⟨hleast, hrest⟩ := h
    rw [insert]
    split
    · rename_i hsame
      rw [List.map_cons, List.pairwise_cons, hsame]
      exact ⟨hleast, hrest⟩
    · split
      · rename_i hlt
        rw [List.map_cons, List.map_cons, List.pairwise_cons, List.pairwise_cons]
        refine ⟨List.forall_mem_cons.mpr ⟨hlt, fun n' hn' => ?_⟩, hleast, hrest⟩
        exact lt_trans hlt (hleast n' hn')
      · rename_i hne hlt
        have hbehind : n < name := lt_of_le_of_ne (not_lt.mp hlt) (Ne.symm hne)
        rw [List.map_cons, List.pairwise_cons]
        refine ⟨fun n' hn' => ?_, ih hrest⟩
        rcases mem_names_insert.mp hn' with rfl | hn'
        · exact hbehind
        · exact hleast n' hn'

/-- A name was given a value, and no other since then. -/
def Last (entries : List (String × α)) (name : String) (value : α) : Prop :=
  ∃ before behind, entries = before ++ (name, value) :: behind ∧ ∀ e ∈ behind, e.1 ≠ name

def Unknown (entries : List (String × α)) (name : String) : Prop := ∀ e ∈ entries, e.1 ≠ name

theorem last_append_singleton {entry : String × α} : Last (entries ++ [entry]) name value ↔
    if name = entry.1 then value = entry.2 else Last entries name value := by
  constructor
  · rintro ⟨before, behind, hentries, hbehind⟩
    rcases List.eq_nil_or_concat behind with rfl | ⟨behind', last, rfl⟩
    · obtain ⟨-, hsame⟩ := List.append_inj' hentries rfl
      cases hsame
      rw [if_pos rfl]
    · rw [List.concat_eq_append] at hentries hbehind
      rw [← List.cons_append, ← List.append_assoc] at hentries
      obtain ⟨hfront, hsame⟩ := List.append_inj' hentries rfl
      cases hsame
      rw [if_neg (Ne.symm (hbehind entry (List.mem_append_right _ (List.mem_singleton.mpr rfl))))]
      exact ⟨before, behind', hfront, fun e he => hbehind e (List.mem_append_left _ he)⟩
  · intro h
    split at h
    · rename_i hname
      refine ⟨entries, [], ?_, List.forall_mem_nil _⟩
      rw [hname, h]
    · rename_i hname
      obtain ⟨before, behind, rfl, hbehind⟩ := h
      refine ⟨before, behind ++ [entry], by simp, fun e he => ?_⟩
      rcases List.mem_append.mp he with he | he
      · exact hbehind e he
      · rw [List.mem_singleton.mp he]
        exact Ne.symm hname

end Entries

/-! ## Registering -/

/-- Registers entries one after the other. -/
def giving (r : Registry) (entries : List (String × Constructor)) : Registry :=
  entries.foldl (fun r entry => r.register entry.1 entry.2) r

/-- The transports under their names. -/
def builtins : List (String × Constructor) := Transport.all.map fun t => (t.name, Bus.make t)

variable {r : Registry} {name name' channel : String} {constructor : Constructor}
  {entries : List (String × Constructor)} {c : BusConfig} {m m' : Medium}

theorem find?_register : (r.register name constructor).find? name' =
    if name' = name then some constructor else r.find? name' := lookup_insert

theorem registerDefaults_eq : r.registerDefaults = r.giving builtins := by
  rw [registerDefaults, giving, builtins, List.foldl_map]

theorem giving_append_singleton {entry : String × Constructor} :
    r.giving (entries ++ [entry]) = (r.giving entries).register entry.1 entry.2 := by
  rw [giving, List.foldl_append]
  rfl

/-- The constructor that is found is the last that was given. -/
theorem find?_giving_iff :
    (giving {} entries).find? name = some constructor ↔ Last entries name constructor := by
  induction entries using List.reverseRecOn with
  | nil =>
    refine iff_of_false (fun h => nomatch h) ?_
    rintro ⟨before, behind, hentries, -⟩
    exact List.append_ne_nil_of_right_ne_nil before (List.cons_ne_nil _ behind) hentries.symm
  | append_singleton entries entry ih =>
    rw [giving_append_singleton, find?_register, last_append_singleton]
    split
    · rw [Option.some_inj, eq_comm]
    · exact ih

theorem mem_names_giving :
    name ∈ (r.giving entries).names ↔ name ∈ r.names ∨ ∃ entry ∈ entries, entry.1 = name := by
  induction entries using List.reverseRecOn with
  | nil => simp [giving]
  | append_singleton entries entry ih =>
    have hinsert : name ∈ ((r.giving entries).register entry.1 entry.2).names ↔
        name = entry.1 ∨ name ∈ (r.giving entries).names := mem_names_insert
    simp only [giving_append_singleton, hinsert, ih, List.mem_append, List.mem_singleton,
      or_and_right, exists_or, exists_eq_left, eq_comm (a := entry.1)]
    exact or_comm.trans or_assoc

theorem ordered_giving (h : r.names.Pairwise (· < ·)) :
    (r.giving entries).names.Pairwise (· < ·) := by
  induction entries using List.reverseRecOn with
  | nil => exact h
  | append_singleton entries entry ih =>
    rw [giving_append_singleton]
    exact ordered_insert ih

theorem contains_iff : r.contains name = true ↔ name ∈ r.names := by
  rw [contains, find?, List.lookup_isSome_iff, names, List.mem_map]
  simp only [beq_iff_eq, eq_comm (a := name)]

/-- A name without a constructor was never given one. -/
theorem find?_giving_eq_none_iff :
    (giving {} entries).find? name = none ↔ Unknown entries name := by
  rw [← Option.not_isSome_iff_eq_none, ← contains, contains_iff, mem_names_giving]
  simp only [names, List.map_nil, List.not_mem_nil, false_or, not_exists, not_and, Unknown]

theorem find?_registerDefaults (t : Transport) :
    r.registerDefaults.find? t.name = some (Bus.make t) := by
  cases t <;> simp [registerDefaults, Transport.all, find?_register, Transport.name]

theorem find?_registerDefaults_of_ne (h : ∀ t : Transport, name ≠ t.name) :
    r.registerDefaults.find? name = r.find? name := by
  simp only [registerDefaults, Transport.all, List.foldl_cons, List.foldl_nil, find?_register,
    if_neg (h _)]

/-- Registering the transports again names nothing new. -/
theorem names_registerDefaults (hordered : r.names.Pairwise (· < ·))
    (h : ∀ t : Transport, t.name ∈ r.names) : r.registerDefaults.names = r.names := by
  rw [registerDefaults_eq]
  refine (ordered_giving hordered).eq_of_mem_iff hordered fun name => ?_
  rw [mem_names_giving, or_iff_left_iff_imp]
  rintro ⟨entry, hentry, rfl⟩
  obtain ⟨t, -, rfl⟩ := List.mem_map.mp hentry
  exact h t

/-! ## Making -/

theorem run_createWith_of_error {e : Error} (h : c.check = .error e) :
    (r.createWith name channel c).run m = (.error e, m) := by
  rw [createWith, h]
  rfl

theorem run_createWith (h : c.check = .ok ()) : (r.createWith name channel c).run m =
    match r.find? name with
    | none => (.error (.unknownTransport name), m)
    | some constructor => (constructor channel c).run m := by
  rw [createWith, h]
  cases r.find? name <;> rfl

/-- A transport makes its own buses, whatever was registered under its name before. -/
theorem createWith_registerDefaults (t : Transport) :
    r.registerDefaults.createWith t.name channel c = Bus.make t channel c := by
  funext m
  cases hcheck : c.check with
  | error e => exact (run_createWith_of_error hcheck).trans (Bus.run_make_of_error hcheck).symm
  | ok =>
    refine (run_createWith hcheck).trans ?_
    rw [find?_registerDefaults]
    rfl

theorem createWith_congr {r' : Registry} (h : r.find? name = r'.find? name) :
    r.createWith name channel c = r'.createWith name channel c := by
  rw [createWith, createWith, h]

/-! ## Calls -/

/-- What a registry is asked. -/
inductive Call where
  | register (name : String) (constructor : Constructor)
  | registerDefaults
  | create (name channel : String)
  | createWith (name channel : String) (c : BusConfig)
  | contains (name : String)
  | names

/-- What it answers. -/
inductive Answer where
  | done
  | made (result : Except Error Bus)
  | held (answer : Bool)
  | listed (names : List String)

/-- One call: the answer, the registry and the medium, which only constructors touch. -/
def perform (s : Registry × Medium) : Call → Answer × Registry × Medium
  | .register name constructor => (.done, s.1.register name constructor, s.2)
  | .registerDefaults => (.done, s.1.registerDefaults, s.2)
  | .create name channel =>
    let (result, m) := (s.1.create name channel).run s.2
    (.made result, s.1, m)
  | .createWith name channel c =>
    let (result, m) := (s.1.createWith name channel c).run s.2
    (.made result, s.1, m)
  | .contains name => (.held (s.1.contains name), s)
  | .names => (.listed s.1.names, s)

/-- A new registry and the medium after calls. -/
def after (m : Medium) (calls : List Call) : Registry × Medium :=
  calls.foldl (fun s call => (perform s call).2) ({}, m)

/-- What a call gives to names. -/
def Call.given : Call → List (String × Constructor)
  | .register name constructor => [(name, constructor)]
  | .registerDefaults => builtins
  | .create .. | .createWith .. | .contains _ | .names => []

/-- All that a history gave to names, in order. -/
def given (history : List Call) : List (String × Constructor) := history.flatMap Call.given

/-- What a call is told after a history, from the history alone, and the medium behind it. -/
inductive Told (history : List Call) (m : Medium) : Call → Answer → Medium → Prop where
  | register {name : String} {constructor : Constructor} :
      Told history m (.register name constructor) .done m
  | registerDefaults : Told history m .registerDefaults .done m
  | refused {name channel : String} {c : BusConfig} {fault : ConfigFault}
      (hfault : c.validate = .error fault) :
      Told history m (.createWith name channel c) (.made (.error (.config fault.text))) m
  | unknown {name channel : String} {c : BusConfig} (hvalid : c.validate = .ok ())
      (hname : Unknown (given history) name) :
      Told history m (.createWith name channel c) (.made (.error (.unknownTransport name))) m
  | made {name channel : String} {c : BusConfig} {constructor : Constructor}
      {result : Except Error Bus} {m' : Medium} (hvalid : c.validate = .ok ())
      (hlast : Last (given history) name constructor)
      (hrun : (constructor channel c).run m = (result, m')) :
      Told history m (.createWith name channel c) (.made result) m'
  | create {name channel : String} {answer : Answer} {m' : Medium}
      (h : Told history m (.createWith name channel {}) answer m') :
      Told history m (.create name channel) answer m'
  | contains {name : String} {answer : Bool}
      (hanswer : answer = true ↔ ¬ Unknown (given history) name) :
      Told history m (.contains name) (.held answer) m
  | names {names : List String} (hordered : names.Pairwise fun n n' => bytes n < bytes n')
      (hnames : ∀ name, name ∈ names ↔ ¬ Unknown (given history) name) :
      Told history m .names (.listed names) m

variable {call : Call} {calls : List Call} {answer : Answer}

/-- The registry after a call is the one before with what the call gives. -/
theorem perform_registry (s : Registry × Medium) (call : Call) :
    (perform s call).2.1 = s.1.giving call.given := by
  cases call with
  | registerDefaults => exact registerDefaults_eq
  | register | create | createWith | contains | names => rfl

theorem after_registry (m : Medium) (calls : List Call) :
    (after m calls).1 = giving {} (given calls) := by
  induction calls using List.reverseRecOn with
  | nil => rfl
  | append_singleton calls call ih =>
    rw [after, List.foldl_append, ← after, given, List.flatMap_append, giving, List.foldl_append]
    refine (perform_registry _ call).trans ?_
    rw [ih, List.flatMap_singleton]
    rfl

theorem ordered_after (m : Medium) (calls : List Call) :
    (after m calls).1.names.Pairwise (· < ·) := by
  rw [after_registry]
  exact ordered_giving List.Pairwise.nil

theorem mem_names_after :
    name ∈ (after m calls).1.names ↔ ¬ Unknown (given calls) name := by
  rw [after_registry, ← contains_iff, ← find?_giving_eq_none_iff, contains]
  cases find? _ name <;> simp

/-- Every call is told what the history tells. -/
theorem told_createWith : Told calls m' (.createWith name channel c)
    (.made (((after m calls).1.createWith name channel c).run m').1)
    (((after m calls).1.createWith name channel c).run m').2 := by
  rw [after_registry]
  cases hvalid : c.validate with
  | error fault =>
    have hcheck : c.check = .error (.config fault.text) := by
      rw [BusConfig.check, hvalid]
      rfl
    rw [run_createWith_of_error hcheck]
    exact .refused hvalid
  | ok =>
    have hcheck : c.check = .ok () := by
      rw [BusConfig.check, hvalid]
      rfl
    rw [run_createWith hcheck]
    cases hfind : find? (giving {} (given calls)) name with
    | none => exact .unknown hvalid (find?_giving_eq_none_iff.mp hfind)
    | some constructor => exact .made hvalid (find?_giving_iff.mp hfind) rfl

theorem told_perform (m : Medium) (calls : List Call) (call : Call) :
    Told calls (after m calls).2 call (perform (after m calls) call).1
      (perform (after m calls) call).2.2 := by
  cases call with
  | register => exact .register
  | registerDefaults => exact .registerDefaults
  | create => exact .create told_createWith
  | createWith => exact told_createWith
  | contains => exact .contains (contains_iff.trans mem_names_after)
  | names => exact .names ((ordered_after m calls).imp Text.bytes_lt) fun _ => mem_names_after

theorem Last.not_unknown {α : Type} {value : α} {entries : List (String × α)}
    (h : Last entries name value) : ¬ Unknown entries name := by
  obtain ⟨before, behind, rfl, -⟩ := h
  exact fun hnone => hnone _ (List.mem_append_right _ List.mem_cons_self) rfl

/-- A history tells a call one thing. -/
theorem Told.unique {history : List Call} {answer' : Answer} {m₁ m₂ : Medium}
    (h : Told history m call answer m₁) (h' : Told history m call answer' m₂) :
    answer = answer' ∧ m₁ = m₂ := by
  induction h with
  | register | registerDefaults =>
    cases h'
    exact ⟨rfl, rfl⟩
  | refused hfault =>
    cases h' with
    | refused hfault' =>
      cases hfault.symm.trans hfault'
      exact ⟨rfl, rfl⟩
    | unknown hvalid | made hvalid => cases hfault.symm.trans hvalid
  | unknown hvalid hname =>
    cases h' with
    | refused hfault => cases hfault.symm.trans hvalid
    | unknown => exact ⟨rfl, rfl⟩
    | made _ hlast => exact absurd hname hlast.not_unknown
  | made hvalid hlast hrun =>
    cases h' with
    | refused hfault => cases hfault.symm.trans hvalid
    | unknown _ hname => exact absurd hname hlast.not_unknown
    | made _ hlast' hrun' =>
      cases (find?_giving_iff.mpr hlast).symm.trans (find?_giving_iff.mpr hlast')
      cases hrun.symm.trans hrun'
      exact ⟨rfl, rfl⟩
  | create _ ih =>
    cases h' with
    | create h' => exact ih h'
  | contains hanswer =>
    cases h' with
    | contains hanswer' =>
      rw [Bool.eq_iff_iff.mpr (hanswer.trans hanswer'.symm)]
      exact ⟨rfl, rfl⟩
  | names hordered hnames =>
    cases h' with
    | names hordered' hnames' =>
      have : Std.Irrefl fun n n' => bytes n < bytes n' := ⟨fun n => List.lt_irrefl (bytes n)⟩
      have : Std.Antisymm fun n n' => bytes n < bytes n' :=
        ⟨fun n n' hlt hgt => absurd hgt (List.lt_asymm hlt)⟩
      rw [hordered.eq_of_mem_iff hordered' fun name => (hnames name).trans (hnames' name).symm]
      exact ⟨rfl, rfl⟩

def Call.isRegistration : Call → Bool
  | .register .. | .registerDefaults => true
  | .create .. | .createWith .. | .contains _ | .names => false

/-- Only registrations give something. -/
theorem given_filter : given (calls.filter Call.isRegistration) = given calls := by
  induction calls with
  | nil => rfl
  | cons call calls ih =>
    have hcons : ∀ calls, given (call :: calls) = call.given ++ given calls :=
      fun _ => List.flatMap_cons
    rw [hcons, ← ih]
    cases call <;> rfl

theorem after_again (m : Medium) (calls : List Call) :
    (after m (calls ++ [.registerDefaults])).1 = (after m calls).1.registerDefaults := by
  rw [after, List.foldl_append]
  rfl

/-- Once the transports are registered their names are there. -/
theorem name_mem_after (h : .registerDefaults ∈ calls) (t : Transport) :
    t.name ∈ (after m calls).1.names := by
  rw [mem_names_after]
  intro hnone
  have hbuiltin : (t.name, Bus.make t) ∈ builtins :=
    List.mem_map_of_mem (by cases t <;> decide)
  exact hnone _ (List.mem_flatMap.mpr ⟨_, h, hbuiltin⟩) rfl

/-- A registry tells every call what its history tells, and nothing else. Of the history only the
registrations count: not the calls that make buses, nor what their constructors did. Asked whether it
contains a name it answers as its names do. And registering the transports once more names nothing
new, gives the transports their own constructors again, and leaves all other names as they are. -/
theorem told_iff :
    (∀ m calls call answer m', (perform (after m calls) call).1 = answer ∧
      (perform (after m calls) call).2.2 = m' ↔ Told calls (after m calls).2 call answer m') ∧
    (∀ m m' calls, (after m calls).1 = (after m' (calls.filter Call.isRegistration)).1) ∧
    (∀ m calls name, (after m calls).1.contains name = true ↔ name ∈ (after m calls).1.names) ∧
    ∀ m calls, .registerDefaults ∈ calls →
      (after m (calls ++ [.registerDefaults])).1.names = (after m calls).1.names ∧
      (∀ (t : Transport) channel c,
        (after m (calls ++ [.registerDefaults])).1.createWith t.name channel c =
          Bus.make t channel c) ∧
      ∀ name, (∀ t : Transport, name = t.name → Last (given calls) name (Bus.make t)) →
        ∀ channel c, (after m (calls ++ [.registerDefaults])).1.createWith name channel c =
          (after m calls).1.createWith name channel c := by
  refine ⟨fun m calls call answer m' => ?_, fun m m' calls => ?_,
    fun m calls name => contains_iff, fun m calls hagain => ?_⟩
  · have htold := told_perform m calls call
    constructor
    · rintro ⟨rfl, rfl⟩
      exact htold
    · exact htold.unique
  · rw [after_registry, after_registry, given_filter]
  · rw [after_again]
    refine ⟨names_registerDefaults (ordered_after m calls) (name_mem_after hagain),
      fun t channel c => createWith_registerDefaults t, fun name hlast channel c => ?_⟩
    apply createWith_congr
    by_cases hname : ∃ t : Transport, name = t.name
    · obtain ⟨t, rfl⟩ := hname
      rw [find?_registerDefaults, after_registry, find?_giving_iff.mpr (hlast t rfl)]
    · exact find?_registerDefaults_of_ne fun t ht => hname ⟨t, ht⟩

/-- A constructor of one's own takes the place of a transport until the transports are registered
again. -/
theorem told_iff_overwritten :
    let own : Constructor := fun _ _ => throw .notConnected
    let history : List Call := [.registerDefaults, .register "virtual" own, .names]
    .registerDefaults ∈ history ∧ Last (given history) "virtual" own ∧
    (∀ m channel, Told history m (.createWith "virtual" channel {})
      (.made (.error .notConnected)) m) ∧
    (∀ m channel c, (after m (history ++ [.registerDefaults])).1.createWith "virtual" channel c =
      Bus.make .virtual channel c) ∧
    Last (given history) "socketcan-ring" (Bus.make .ring) ∧
    ∀ m channel c, (after m (history ++ [.registerDefaults])).1.createWith "socketcan-ring" channel c
      = (after m history).1.createWith "socketcan-ring" channel c := by
  intro own history
  have hagain : .registerDefaults ∈ history := List.mem_cons_self
  have hown : Last (given history) "virtual" own := ⟨builtins, [], rfl, List.forall_mem_nil _⟩
  have hring : Last (given history) "socketcan-ring" (Bus.make .ring) :=
    ⟨builtins.take 4, [("virtual", own)], rfl, by simp⟩
  refine ⟨hagain, hown, fun m channel => .made rfl hown rfl, fun m channel c => ?_, hring,
    fun m channel c => ?_⟩
  · exact (told_iff.2.2.2 m history hagain).2.1 .virtual channel c
  · refine (told_iff.2.2.2 m history hagain).2.2 _ (fun t ht => ?_) channel c
    cases t with
    | ring => exact hring
    | virtual | blocking | cancellable | batched => exact absurd ht (by decide)

end CanTransport.Registry
