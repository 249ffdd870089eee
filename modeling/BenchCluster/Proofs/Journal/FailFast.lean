import BenchCluster.Proofs.Journal.Misconfigured

/-! # What is done before configuration errors are found

Allocations look for all that may be wrong first. Other operations have made steps of roles or started
instances when they find out that a cloud or a role is not configured as it should be.
-/

namespace BenchCluster

variable {ω : Type} {s : Surroundings ω} {cluster : String} {d : ClusterDescriptor}

/-- Whether an operation on a cluster with a descriptor acts before it has found all configuration
errors: it makes a step of a role, or has a cloud do something. -/
def Surroundings.actsFirst (s : Surroundings ω) (d : ClusterDescriptor) : Request → Bool
  | .install => (s.rolesOf d).isOk
  | .stop => (s.rolesOf d).isOk && !d.topology.rolesInOrder.isEmpty
  | .start => (s.cloudsFor d.environments).isOk && !d.stoppableMachines.isEmpty
  | .clean => d.mayHaveRoles && (s.rolesOf d).isOk && !d.topology.rolesInOrder.isEmpty
  | _ => false

theorem Starting.exists_call_iff (x : Starting d) (hup : failuresOf x.results = []) :
    (∃ y ∈ x.entries, y.call.isInquiry = false) ↔ d.stoppableMachines.isEmpty = false := by
  constructor
  · rintro ⟨y, hy, -⟩
    obtain ⟨a, ha, -⟩ := Errand.mem_flatMap_entries hy
    rw [List.isEmpty_eq_false_iff_exists_mem]
    exact ⟨a.request, x.served.request_mem ha⟩
  · intro hsome
    obtain ⟨m, hm⟩ := List.isEmpty_eq_false_iff_exists_mem.1 hsome
    rw [← x.served.requests_eq] at hm
    obtain ⟨a, ha, rfl⟩ := List.mem_map.1 hm
    obtain ⟨up, hvalue⟩ := x.served.failuresOf_eq_nil_iff.1 hup a ha
    exact ⟨_, Errand.entry_mem ha (Attempt.value?_eq_some.1 hvalue), rfl⟩

theorem Chore.exists_call_iff {α : Type} (c : Chore α) {reports : List (RoleReport ω α)}
    {names : List String} (hnames : reports.map (fun r => r.done.name) = names) :
    (∃ y ∈ reports.map c.entry, y.call.isInquiry = false) ↔ names.isEmpty = false := by
  rw [← hnames]
  cases reports with
  | nil => simp
  | cons r rest => exact iff_of_true ⟨c.entry r, by simp, rfl⟩ rfl

/-- An operation that finds a configuration error has acted before exactly if it acts first. -/
theorem Misconfigured.exists_call_iff {request : Request} {e : OrchestratorError}
    {calls : List JournalEntry} (h : Misconfigured s cluster d request e calls) :
    (∃ x ∈ calls, x.call.isInquiry = false) ↔ s.actsFirst d request = true := by
  cases h with
  | allocateClouds clouds => simp [Surroundings.actsFirst]
  | allocateRoles provisions => simp [Surroundings.actsFirst]
  | installRoles roles => simp [Surroundings.actsFirst, roles, Except.isOk, Except.toBool]
  | installProxy roles builds misled =>
    obtain ⟨earlier, -, -, -⟩ := misled
    exact iff_of_true ⟨_, List.mem_append_right _ List.mem_cons_self, rfl⟩ roles
  | stopRoles roles => simp [Surroundings.actsFirst, roles, Except.isOk, Except.toBool]
  | stopClouds roles names clouds =>
    rw [Chore.exists_call_iff _ names, Surroundings.actsFirst, roles]
    simp
  | startClouds clouds => simp [Surroundings.actsFirst, clouds, Except.isOk, Except.toBool]
  | startRoles clouds x up roles =>
    rw [x.exists_call_iff up, Surroundings.actsFirst, clouds]
    simp
  | cleanClouds names clouds =>
    rw [Chore.exists_call_iff _ names, Surroundings.actsFirst]
    cases d.mayHaveRoles && (s.rolesOf d).isOk <;> simp

/-- Wherever a run has come to: an operation that answers with a configuration error has changed
nothing that is stored, and it has made a step of a role or a call of a cloud, other than to ask if
it runs something, exactly if it acts first. -/
theorem misconfiguration_found_late_iff (turns : List Turn) (t : Turn)
    (hsingle : t.request.stages = [t.request]) {e : OrchestratorError}
    (he : e.isMisconfiguration = true)
    (hanswer : (t.venture (Books.afterVentures turns)).1 = .error e) :
    let before := Books.afterVentures turns
    ∃ calls, (t.venture before).2 = before.enter calls ∧
      ((∃ x ∈ calls, x.call.isInquiry = false) ↔
        ∃ d, before.find? t.cluster = some d ∧ t.surroundings.actsFirst d t.request = true) := by
  intro before
  rcases t.misconfigured hsingle (Books.numbered_afterVentures turns) he hanswer with
    ⟨hplanning, calls, hcalls, hafter⟩ | ⟨d, hd, calls, hfound, hafter⟩
  · refine ⟨calls, hafter, iff_of_false ?_ ?_⟩
    · rintro ⟨x, hx, hother⟩
      rw [hcalls x hx] at hother
      cases hother
    · rintro ⟨d, -, hfirst⟩
      cases hrequest : t.request <;>
        simp_all [Request.isPlanning, Surroundings.actsFirst]
  · refine ⟨calls, hafter, hfound.exists_call_iff.trans ⟨fun h => ⟨d, hd, h⟩, ?_⟩⟩
    rintro ⟨d', hd', hfirst⟩
    rw [hd, Option.some.injEq] at hd'
    rwa [hd']

namespace Sample

def scriptedDocuments : Documents :=
  { topologies := Dict.ofList [("single", template)]
    implementations := Dict.ofList [("standard",
      { topology := "single"
        roles := Dict.ofList [("db",
          { cloud := some "fake", region := some "r1", implementation := some "driver"
            parameters := Dict.ofList [("stop", "halt")] })] })]
    clouds := Dict.ofList [("fake", { client := "fake" })] }

def obedient : Surroundings Nat :=
  let executor : RemoteExecutor Nat :=
    { transport :=
        { exec := fun _ _ _ _ => return .ended .zero (.ok { exitStatus := some 0 })
          copy := fun _ _ _ _ => return .hanging } }
  let addressed : Cloud Nat :=
    { cloud with
      launchInstance := fun r => return .ok (some { r.machine "i" with publicAddress := some "b" }) }
  { steady with
    clouds := Dict.ofList [("fake", fun _ _ _ => .ok addressed)]
    roles := RoleRegistry.builtin executor
    executor := executor }

def scriptedTurns : List Turn :=
  [.configure scriptedDocuments "standard" false, .allocate false, .install].map fun request =>
    obedient.turn { outside := 0 } "c" request

/-- The cluster is to be stopped by somebody who has no table of clouds. -/
def cloudlessStop : Turn :=
  { obedient with cloudConfigs := ∅ }.turn { outside := 0 } "c" .stop

end Sample

/-- A stop that finds that the cloud is not known has run a command on a host before. -/
theorem sample_misconfiguration_found_late :
    let before := Books.afterVentures Sample.scriptedTurns
    (Sample.cloudlessStop.venture before).1 = .error (.unknownCloud "fake-r1" "fake") ∧
      (∃ calls, (Sample.cloudlessStop.venture before).2 = before.enter calls ∧
        ∃ x ∈ calls, x.call.isInquiry = false) ∧
      ((Sample.cloudlessStop.surroundings.frail.serve "c" .stop).outcome
        (Sample.cloudlessStop.start.withBooks before)).2.metrics.remoteCommands = 1 := by
  have hplayed : ((Sample.cloudlessStop.venture (Books.afterVentures Sample.scriptedTurns)).1,
      ((Sample.cloudlessStop.surroundings.frail.serve "c" .stop).outcome
        (Sample.cloudlessStop.start.withBooks
          (Books.afterVentures Sample.scriptedTurns))).2.metrics.remoteCommands,
      ((Books.afterVentures Sample.scriptedTurns).find? "c").isSome,
      Sample.cloudlessStop.surroundings.actsFirst
        (((Books.afterVentures Sample.scriptedTurns).find? "c").getD default) .stop) =
      (.error (.unknownCloud "fake-r1" "fake"), 1, true, true) := by
    cbv
  simp only [Prod.mk.injEq] at hplayed
  obtain ⟨hanswer, hcount, hstored, hfirst⟩ := hplayed
  obtain ⟨d, hd⟩ := Option.isSome_iff_exists.1 hstored
  rw [hd, Option.getD_some] at hfirst
  obtain ⟨calls, hafter, hiff⟩ := misconfiguration_found_late_iff Sample.scriptedTurns
    Sample.cloudlessStop rfl rfl hanswer
  exact ⟨hanswer, ⟨calls, hafter, hiff.2 ⟨d, hd, hfirst⟩⟩, hcount⟩

end BenchCluster
