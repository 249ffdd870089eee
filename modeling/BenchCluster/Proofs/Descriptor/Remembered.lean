import BenchCluster.Proofs.Journal.Barriers
import BenchCluster.Proofs.Journal.Restraint

/-! # The machines that a start remembers

A start brings up instances before it starts their roles. The machines that the cloud has answered
are stored if an instance has failed, and if all of the start has succeeded, but not if the start
fails in between: then the cluster still has the machines from before.
-/

namespace BenchCluster

variable {ω : Type} {d : ClusterDescriptor}

/-- The machine that a call has started under a name. -/
def OutsideCall.started? (name : String) : OutsideCall → Option Machine
  | .startMachine _ m (.ok up) => if m.name = name then some up else none
  | _ => none

theorem OutsideCall.started?_of_isRole {c : OutsideCall} (h : c.isRole = true) (name : String) :
    c.started? name = none := by
  cases c with
  | role context step => rfl
  | _ => cases h

def startedIn? (calls : List JournalEntry) (name : String) : Option Machine :=
  calls.findSome? fun x => x.call.started? name

/-- Every member whose instance has been started has the machine that the cloud has answered, and
the others are as before. -/
def ClusterDescriptor.Remembers (d : ClusterDescriptor) (calls : List JournalEntry)
    (stored : ClusterDescriptor) : Prop :=
  ∀ name m, d.members.find? name = some m →
    stored.members.find? name = some ((startedIn? calls name).getD m)

theorem ClusterDescriptor.Keyed.map_name_values (h : d.Keyed) :
    d.members.values.map Machine.name = d.members.keys := by
  rw [Dict.values, Dict.keys, List.map_map]
  exact List.map_congr_left fun e he => h e.1 e.2 (Dict.find?_eq_some_iff.2 he)

theorem ClusterDescriptor.Keyed.nodup_stoppableMachines (h : d.Keyed) :
    (d.stoppableMachines.map Machine.name).Nodup := by
  refine List.Nodup.sublist (List.filter_sublist.map _) ?_
  rw [h.map_name_values]
  exact d.members.nodup_keys

namespace Starting

variable (x : Starting d)

theorem nodup_names (h : d.Keyed) : (x.attempts.map fun a => a.request.name).Nodup := by
  have hnames : x.attempts.map (fun a => a.request.name) =
      d.stoppableMachines.map Machine.name := by
    rw [← x.served.requests_eq, List.map_map]
    rfl
  rw [hnames]
  exact h.nodup_stoppableMachines

variable {steps : List JournalEntry} {name : String}

theorem startedIn?_eq_some_iff (h : d.Keyed)
    (hsteps : ∀ y ∈ steps, ∀ name, y.call.started? name = none) {up : Machine} :
    startedIn? (x.entries ++ steps) name = some up ↔
      ∃ a ∈ x.attempts, a.request.name = name ∧ a.value? = some up := by
  have hforward : ∀ up, startedIn? (x.entries ++ steps) name = some up →
      ∃ a ∈ x.attempts, a.request.name = name ∧ a.value? = some up := by
    intro up hup
    obtain ⟨y, hy, hstarted⟩ := List.exists_of_findSome?_eq_some hup
    rcases List.mem_append.1 hy with hy | hy
    · obtain ⟨a, ha, answer, hanswer, rfl⟩ := Errand.mem_flatMap_entries hy
      cases answer with
      | error e => cases hstarted
      | ok up' =>
        obtain ⟨hname, hsame⟩ := Option.ite_none_right_eq_some.1 hstarted
        exact ⟨a, ha, hname, by rw [Attempt.value?_eq_some, hanswer, Option.some.inj hsame]⟩
    · rw [hsteps y hy name] at hstarted
      cases hstarted
  refine ⟨hforward up, ?_⟩
  rintro ⟨a, ha, rfl, hvalue⟩
  have hanswer := Attempt.value?_eq_some.1 hvalue
  have hentry : (⟨false, .startMachine a.environment a.request (.ok up)⟩ : JournalEntry) ∈
      x.entries ++ steps :=
    List.mem_append_left _ (Errand.entry_mem (e := Errand.starting) ha hanswer)
  cases hstarted : startedIn? (x.entries ++ steps) a.request.name with
  | none =>
    have hnone := List.findSome?_eq_none_iff.1 hstarted _ hentry
    simp [OutsideCall.started?] at hnone
  | some up' =>
    obtain ⟨a', ha', hname, hvalue'⟩ := hforward up' hstarted
    rw [List.inj_on_of_nodup_map (x.nodup_names h) ha' ha hname, hvalue] at hvalue'
    rw [hvalue']

/-- The members that a start leaves are those that have been started, and otherwise those from
before. -/
theorem find?_members_eq (h : d.Keyed)
    (hsteps : ∀ y ∈ steps, ∀ name, y.call.started? name = none) :
    x.descriptor.members.find? name =
      (startedIn? (x.entries ++ steps) name <|> d.members.find? name) := by
  have hnodup : ((x.results.filterMap startedMachine?).map Prod.fst).Nodup := by
    rw [(x.started_perm.map Prod.fst).nodup_iff]
    refine List.Nodup.sublist ?_ (x.nodup_names h)
    rw [List.map_filterMap]
    refine Errand.filterMap_sublist_map fun a key hkey => ?_
    obtain ⟨m, hm, rfl⟩ := Option.map_eq_some_iff.1 hkey
    obtain ⟨up, -, rfl⟩ := Option.map_eq_some_iff.1 hm
    rfl
  have hmem : ∀ up, (name, up) ∈ x.results.filterMap startedMachine? ↔
      startedIn? (x.entries ++ steps) name = some up := by
    intro up
    rw [x.started_perm.mem_iff, x.startedIn?_eq_some_iff h hsteps, List.mem_filterMap]
    simp only [Option.map_eq_some_iff, Prod.mk.injEq]
    constructor
    · rintro ⟨a, ha, up', hvalue, hname, rfl⟩
      exact ⟨a, ha, hname, hvalue⟩
    · rintro ⟨a, ha, hname, hvalue⟩
      exact ⟨a, ha, up, hvalue, hname, rfl⟩
  rw [descriptor, d.members_withStarted]
  cases hstarted : startedIn? (x.entries ++ steps) name with
  | some up =>
    exact Dict.find?_foldl_insert_of_mem (f := Prod.fst) (g := Prod.snd) hnodup
      ((hmem up).2 hstarted)
  | none =>
    refine Dict.find?_foldl_insert_of_not_mem (f := Prod.fst) (g := Prod.snd) fun hname => ?_
    obtain ⟨⟨_, up⟩, hup, rfl⟩ := List.mem_map.1 hname
    rw [(hmem up).1 hup] at hstarted
    cases hstarted

theorem failuresOf_eq_nil_iff (h : d.Keyed)
    (hsteps : ∀ y ∈ steps, ∀ name, y.call.started? name = none) : failuresOf x.results = [] ↔
      ∀ m ∈ d.stoppableMachines, ∃ up, startedIn? (x.entries ++ steps) m.name = some up := by
  rw [x.served.failuresOf_eq_nil_iff]
  constructor
  · intro hall m hm
    rw [← x.served.requests_eq] at hm
    obtain ⟨a, ha, rfl⟩ := List.mem_map.1 hm
    obtain ⟨up, hup⟩ := hall a ha
    exact ⟨up, (x.startedIn?_eq_some_iff h hsteps).2 ⟨a, ha, rfl, hup⟩⟩
  · intro hall a ha
    obtain ⟨up, hup⟩ := hall a.request (x.served.request_mem ha)
    obtain ⟨a', ha', hname, hvalue⟩ := (x.startedIn?_eq_some_iff h hsteps).1 hup
    rw [List.inj_on_of_nodup_map (x.nodup_names h) ha' ha hname] at hvalue
    exact ⟨up, hvalue⟩

theorem remembers (h : d.Keyed) (hsteps : ∀ y ∈ steps, ∀ name, y.call.started? name = none)
    {stored : ClusterDescriptor} (hstored : stored.members = x.descriptor.members) :
    d.Remembers (x.entries ++ steps) stored := by
  intro name m hm
  rw [hstored, x.find?_members_eq h hsteps, hm]
  cases startedIn? (x.entries ++ steps) name <;> rfl

end Starting

/-! ## Every start -/

/-- A start does nothing, or it attempts to start all instances; then it leaves the stored machines
as they were if all instances have come up and it fails nevertheless, and stores those that have come
up otherwise. -/
theorem play_start_cases (s : Surroundings ω) (start : Invocation ω) {cluster : String} {b : Books}
    (hnamed : b.Named) (hd : b.find? cluster = some d) :
    let answer := ((s.turn start cluster .start).play b).1
    let after := ((s.turn start cluster .start).play b).2
    answer.isOk = false ∧ after = b ∨
      ∃ (x : Starting d) (steps : List JournalEntry) (stored : ClusterDescriptor),
        (∀ y ∈ steps, ∀ name, y.call.started? name = none) ∧
        after.journal = b.journal ++ (x.entries ++ steps) ∧ after.find? cluster = some stored ∧
        (failuresOf x.results = [] ∧ answer.isOk = false ∧ stored = d ∨
          (failuresOf x.results ≠ [] ∨ answer.isOk = true) ∧
            stored.members = x.descriptor.members) := by
  intro answer after
  have hplayed : (s.turn start cluster .start).play b =
      (((s.booked.start cluster).outcome (start.withBooks b)).1.map some,
        ((s.booked.start cluster).outcome (start.withBooks b)).2.books) := by
    change (((s.booked.serve cluster .start).outcome (start.withBooks b)).1,
      ((s.booked.serve cluster .start).outcome (start.withBooks b)).2.books) = _
    rw [Surroundings.serve, Work.outcome_some]
  have hanswer : answer = ((s.booked.start cluster).outcome (start.withBooks b)).1.map some :=
    congrArg Prod.fst hplayed
  have hafter : after = ((s.booked.start cluster).outcome (start.withBooks b)).2.books :=
    congrArg Prod.snd hplayed
  rw [hanswer, hafter]
  rcases @Surroundings.start_rises _ s cluster (start.withBooks b) hnamed with
    ⟨e, he⟩ | ⟨d', x, last, steps, hd', -, hsteps, hcases⟩
  · rw [he]
    exact .inl ⟨rfl, rfl⟩
  obtain rfl : d = d' := Option.some.inj (hd.symm.trans hd')
  have hname : d.clusterName = cluster := (hnamed cluster d hd).1
  have hquiet : ∀ y ∈ steps, ∀ name, y.call.started? name = none := fun y hy =>
    OutsideCall.started?_of_isRole (hsteps y hy)
  -- Storing a descriptor enters one more call, which starts nothing.
  have hput : ∀ (late : Bool) (stored : ClusterDescriptor), stored.clusterName = cluster →
      last.books = (b.enter (x.entries ++ steps)).put late stored →
      (∀ y ∈ steps ++ [⟨late, .saved stored⟩], ∀ name, y.call.started? name = none) ∧
        last.books.journal = b.journal ++ (x.entries ++ (steps ++ [⟨late, .saved stored⟩])) ∧
          last.books.find? cluster = some stored := by
    intro late stored hstored hbooks
    refine ⟨List.forall_mem_append.2 ⟨hquiet, by simp [OutsideCall.started?]⟩, ?_, ?_⟩
    · rw [hbooks]
      simp
    · rw [hbooks, Books.find?_put, if_pos hstored]
  rcases hcases with ⟨hfailures, e, houtcome, hbooks⟩ | ⟨hfailures, houtcome, late, hbooks⟩ |
    ⟨hfailures, houtcome, late, hbooks⟩
  · rw [houtcome]
    refine .inr ⟨x, steps, d, hquiet, ?_, ?_, .inl ⟨hfailures, rfl, rfl⟩⟩
    · exact congrArg Books.journal hbooks
    · exact (congrArg (Books.find? · cluster) hbooks).trans hd
  · rw [houtcome]
    obtain ⟨hmore, hjournal, hfind⟩ := hput late x.descriptor hname hbooks
    exact .inr ⟨x, _, _, hmore, hjournal, hfind, .inr ⟨.inl hfailures, rfl⟩⟩
  · rw [houtcome]
    obtain ⟨hmore, hjournal, hfind⟩ := hput late { x.descriptor with state := .ready } hname hbooks
    exact .inr ⟨x, _, _, hmore, hjournal, hfind, .inr ⟨.inr rfl, rfl⟩⟩

/-- After a start, on a store that does not fail, the cluster has the machines that the cloud has
answered, and otherwise those from before, exactly if the start has succeeded, or some instance has
not come up, or all machines are as before. For a start that fails once all instances have come up
leaves the descriptor as it was. -/
theorem start_remembers_iff (s : Surroundings ω) (start : Invocation ω) {cluster : String}
    {b : Books} {d : ClusterDescriptor} (hnamed : b.Named) (hd : b.find? cluster = some d)
    (hkeyed : d.Keyed) :
    let answer := ((s.turn start cluster .start).play b).1
    let after := ((s.turn start cluster .start).play b).2
    ∃ calls stored, after.journal = b.journal ++ calls ∧ after.find? cluster = some stored ∧
      (d.Remembers calls stored ↔ answer.isOk = true ∨
        (∃ m ∈ d.stoppableMachines, startedIn? calls m.name = none) ∨
        ∀ name m, d.members.find? name = some m → (startedIn? calls name).getD m = m) ∧
      (answer.isOk = false →
        (∀ m ∈ d.stoppableMachines, ∃ up, startedIn? calls m.name = some up) → stored = d) := by
  intro answer after
  rcases play_start_cases s start hnamed hd with
    ⟨-, hafter⟩ | ⟨x, steps, stored, hquiet, hjournal, hstored, hcases⟩
  · change after = b at hafter
    refine ⟨[], d, by rw [hafter, List.append_nil], by rw [hafter, hd], ?_, fun _ _ => rfl⟩
    exact iff_of_true (fun name m hm => hm) (.inr (.inr fun name m hm => rfl))
  refine ⟨x.entries ++ steps, stored, hjournal, hstored, ?_⟩
  rcases hcases with ⟨hfailures, hanswer, rfl⟩ | ⟨hkept, hmembers⟩
  · -- All instances have come up, but nothing is stored.
    change answer.isOk = false at hanswer
    have hall := (x.failuresOf_eq_nil_iff hkeyed hquiet).1 hfailures
    refine ⟨⟨fun h => .inr (.inr fun name m hm => ?_), ?_⟩, fun _ _ => rfl⟩
    · exact (Option.some.inj (hm.symm.trans (h name m hm))).symm
    · rintro (hok | ⟨m, hm, hnone⟩ | hsame)
      · rw [hanswer] at hok
        cases hok
      · obtain ⟨up, hup⟩ := hall m hm
        rw [hup] at hnone
        cases hnone
      · exact fun name m hm => by rw [hm, hsame name m hm]
  · have hremembers := x.remembers hkeyed hquiet hmembers
    rcases hkept with hfailures | hok
    · have hnot := mt (x.failuresOf_eq_nil_iff hkeyed hquiet).2 hfailures
      refine ⟨iff_of_true hremembers (.inr (.inl ?_)), fun _ hall => absurd hall hnot⟩
      simpa [Option.eq_none_iff_forall_ne_some] using hnot
    · change answer.isOk = true at hok
      refine ⟨iff_of_true hremembers (.inl hok), fun hfailed => ?_⟩
      rw [hok] at hfailed
      cases hfailed

namespace Sample

def backendDocuments : Documents :=
  { topologies := Dict.ofList [("single", template)]
    implementations := Dict.ofList [("standard",
      { topology := "single"
        roles := Dict.ofList [("db",
          { cloud := some "fake", region := some "r1", implementation := some "backend" })] })]
    clouds := Dict.ofList [("fake", { client := "fake" })] }

/-- Surroundings with a cloud whose machines have another address once they have been started. The
user asks to stop when the counter is at five. -/
def restless : Surroundings Nat :=
  let moving : Cloud Nat :=
    { cloud with
      launchInstance := fun r =>
        return .ok (some { r.machine "i-1" with publicAddress := some "b" })
      startInstance := fun m inv =>
        (.ok { m with publicAddress := some "n" }, { inv with outside := inv.outside + 1 }) }
  { steady with
    clouds := Dict.ofList [("fake", fun _ _ _ => .ok moving)]
    roles := RoleRegistry.builtin steady.executor
    interrupted := fun number => number = 5 }

def downTurns : List Turn :=
  [.configure backendDocuments "standard" false, .allocate false, .install, .stop].map
    fun request => restless.turn { outside := 0 } "c" request

end Sample

/-- The user asks to stop once the instance has come up: its new address is lost. -/
theorem sample_address_lost : ∃ d calls stored, (Books.after Sample.downTurns).find? "c" = some d ∧
    d.state = .down ∧
    ((Sample.restless.turn { outside := 4 } "c" .start).play
      (Books.after Sample.downTurns)).2.journal = (Books.after Sample.downTurns).journal ++ calls ∧
    ((Sample.restless.turn { outside := 4 } "c" .start).play
      (Books.after Sample.downTurns)).2.find? "c" = some stored ∧
    ¬ d.Remembers calls stored := by
  have hplayed : (((Books.after Sample.downTurns).find? "c").map fun d =>
        (d.state, d.stoppableMachines.map Machine.name,
          d.members.entries.map fun e => (e.1, e.2.name, e.2.publicAddress)),
      ((Sample.restless.turn { outside := 4 } "c" .start).play
        (Books.after Sample.downTurns)).1.isOk,
      (startedIn? (((Sample.restless.turn { outside := 4 } "c" .start).play
        (Books.after Sample.downTurns)).2.journal.drop
          (Books.after Sample.downTurns).journal.length) "db_0").map Machine.publicAddress) =
      (some (.down, ["db_0"], [("db_0", "db_0", some "b")]), false, some (some "n")) := by
    cbv
  simp only [Prod.mk.injEq, Option.map_eq_some_iff] at hplayed
  obtain ⟨⟨d, hd, hdown, hstoppable, hmembers⟩, hfailed, up, hup, haddress⟩ := hplayed
  obtain ⟨⟨key, m⟩, rest, hentries, hentry, hrest⟩ := List.map_eq_cons_iff.1 hmembers
  simp only [Prod.mk.injEq] at hentry
  obtain ⟨rfl, hname, hbefore⟩ := hentry
  rw [List.map_eq_nil_iff.1 hrest] at hentries
  have hkeyed : d.Keyed := by
    intro key m' hm'
    rw [Dict.find?_eq_some_iff, hentries, List.mem_singleton] at hm'
    cases hm'
    exact hname
  obtain ⟨calls, stored, hjournal, hstored, hiff, -⟩ := start_remembers_iff Sample.restless
    { outside := 4 } (Books.named_after Sample.downTurns) hd hkeyed
  rw [hjournal, List.drop_left] at hup
  refine ⟨d, calls, stored, hd, hdown, hjournal, hstored, fun h => ?_⟩
  rcases hiff.1 h with hok | ⟨m', hm', hnone⟩ | hsame
  · rw [hok] at hfailed
    cases hfailed
  · have hdb : m'.name ∈ d.stoppableMachines.map Machine.name := List.mem_map_of_mem hm'
    rw [hstoppable, List.mem_singleton] at hdb
    rw [hdb, hup] at hnone
    cases hnone
  · have hm : d.members.find? "db_0" = some m := by
      rw [Dict.find?_eq_some_iff, hentries]
      exact List.mem_cons_self
    have hkept := hsame "db_0" m hm
    rw [hup, Option.getD_some] at hkept
    rw [← hkept, haddress] at hbefore
    exact absurd hbefore (by decide)

end BenchCluster
