import BenchCluster.Orchestrator.Install
import BenchCluster.Proofs.Descriptor.Fixed
import BenchCluster.Proofs.Journal.Access

/-! # What the roles of a cluster enter in the journal

The roles of a descriptor are built once each, in the order of their first places. A step that is
run on all of them enters one call for each, with its answer.
-/

namespace BenchCluster

variable {ω α : Type}

/-- A role with what it has been built from. -/
structure BuiltRole (ω : Type) where
  context : RoleContext
  role : Role ω

namespace BuiltRole

def name (x : BuiltRole ω) : String := x.context.params.role

def livesIn (x : BuiltRole ω) (environment : String) : Bool :=
  x.context.environment.name = environment

end BuiltRole

namespace Surroundings

variable {s : Surroundings ω} {d : ClusterDescriptor}

def bookEntry (s : Surroundings ω) (x : BuiltRole ω) : RoleEntry (Booked ω) :=
  { role := x.name, environment := x.context.environment.name
    implementation := s.bookRole x.context x.role }

/-- The role has been built for a descriptor: from its parameters and the hosts of the members among
its instances. -/
structure Builds (s : Surroundings ω) (d : ClusterDescriptor) (x : BuiltRole ω) : Prop where
  component : d.component? x.name = some (x.context.environment, x.context.params)
  hosts : hostsOf s.defaultPort ((d.instancesOf x.name).filterMap d.members.find?) =
    .ok x.context.group.hosts
  build : s.roles.build x.context = .ok x.role

theorem buildRole_booked (hd : d.Numbered) {role : String} {entry : RoleEntry (Booked ω)}
    (h : s.booked.buildRole d role (d.instancesOf role) = .ok entry) :
    ∃ x, s.bookEntry x = entry ∧ x.name = role ∧ s.Builds d x := by
  rw [buildRole] at h
  cases hcomponent : d.component? role with
  | none =>
    rw [hcomponent] at h
    cases h
  | some c =>
    obtain ⟨env, params⟩ := c
    simp only [hcomponent] at h
    obtain ⟨hosts, hhosts, h⟩ := Fallible.bind_eq_ok.1 h
    obtain ⟨implementation, hbuild, hpure⟩ := Fallible.bind_eq_ok.1 h
    cases hpure
    rw [Fallible.mapError_eq_ok, roles_booked, Fallible.map_eq_ok] at hbuild
    obtain ⟨r, hr, rfl⟩ := hbuild
    have hname := hd.role role env params hcomponent
    refine ⟨⟨_, r⟩, ?_, ?_, ?_, ?_, hr⟩
    · simp only [bookEntry, BuiltRole.name, hname]
    · exact hname
    · rw [BuiltRole.name, hname]
      exact hcomponent
    · rw [BuiltRole.name, hname]
      exact hhosts

/-- The roles of a descriptor are built in the order of their first places in its topology, each
once. -/
theorem rolesOf_booked (hd : d.Numbered) {tree : TopologyTree} {roles : List (RoleEntry (Booked ω))}
    (h : s.booked.rolesOf d = .ok (tree, roles)) :
    TopologyTree.restore d.topology d.topologyMap = .ok tree ∧
      ∃ built : List (BuiltRole ω), roles = built.map s.bookEntry ∧
        built.map BuiltRole.name = d.topology.rolesInOrder ∧ ∀ x ∈ built, s.Builds d x := by
  obtain ⟨tree, htree, hrest⟩ := Fallible.bind_eq_ok.1 h
  obtain ⟨entries, hentries, hpure⟩ := Fallible.bind_eq_ok.1 hrest
  cases hpure
  rw [Fallible.mapError_eq_ok] at htree
  refine ⟨htree, ?_⟩
  clear h hrest
  rw [buildRoles, ClusterDescriptor.groups_restore hd.expanded htree, Fallible.mapM_eq_ok,
    List.forall₂_map_left_iff] at hentries
  generalize d.topology.rolesInOrder = names at hentries ⊢
  induction hentries with
  | nil => exact ⟨[], rfl, rfl, by simp⟩
  | cons hentry _ ih =>
    obtain ⟨built, rfl, hnames, hbuilt⟩ := ih
    obtain ⟨x, rfl, rfl, hx⟩ := buildRole_booked hd hentry
    refine ⟨x :: built, rfl, by rw [List.map_cons, hnames], fun y hy => ?_⟩
    rcases List.mem_cons.1 hy with rfl | hy
    · exact hx
    · exact hbuilt y hy

end Surroundings

/-! ## Steps that are run on all roles -/

/-- A step that roles are made to do: how it is run, and how it is entered in a journal. -/
structure Chore (α : Type) where
  step : {ω : Type} → Role ω → Action ω (Except RoleError α)
  call : Except RoleError α → RoleStep
  step_bookRole : ∀ {ω : Type} (s : Surroundings ω) (context : RoleContext) (r : Role ω),
    step (s.bookRole context r) = s.journaled (fun a => .role context (call a)) (step r)

/-- A role that has done a step, with its answer. -/
structure RoleReport (ω α : Type) where
  done : BuiltRole ω
  late : Bool
  answer : Except RoleError α

namespace Chore

def configuring : Chore Unit := ⟨Role.configure, .configure, fun _ _ _ => rfl⟩

def installing : Chore (Option ConnectionTarget) := ⟨Role.install, .install, fun _ _ _ => rfl⟩

variable {s : Surroundings ω} {c : Chore α} {built : List (BuiltRole ω)}
  {reports : List (RoleReport ω α)}

def entry (c : Chore α) (x : RoleReport ω α) : JournalEntry :=
  ⟨x.late, .role x.done.context (c.call x.answer)⟩

/-- The roles have done the step one after the other, each with an answer of its own. -/
structure Served (c : Chore α) (built : List (BuiltRole ω)) (reports : List (RoleReport ω α)) :
    Prop where
  done_eq : reports.map RoleReport.done = built
  answered : ∀ x ∈ reports, ∃ inv, x.answer = (c.step x.done.role inv).1

def Succeeded (reports : List (RoleReport ω α)) : Prop := ∀ x ∈ reports, x.answer.isOk = true

/-- A step that is run on every role enters its calls. -/
theorem onEveryRole_served (s : Surroundings ω) (c : Chore α) (built : List (BuiltRole ω))
    (inv : Invocation (Booked ω)) : ∃ reports : List (RoleReport ω α), c.Served built reports ∧
      (onEveryRole c.step (built.map s.bookEntry) inv).1 =
        reports.map (fun x => (x.done.name, x.answer)) ∧
      (onEveryRole c.step (built.map s.bookEntry) inv).2.books =
        inv.books.enter (reports.map c.entry) := by
  induction built generalizing inv with
  | nil => exact ⟨[], ⟨rfl, by simp⟩, rfl, (Books.enter_nil _).symm⟩
  | cons x rest ih =>
    let act : Action (Booked ω) (Except RoleError α) :=
      s.journaled (fun a => .role x.context (c.call a)) (c.step x.role)
    let first : RoleReport ω α := ⟨x, s.interrupted inv.outside.world, (act inv).1⟩
    obtain ⟨reports, hserved, hresults, hbooks⟩ := ih (act inv).2
    have hrun : onEveryRole c.step ((x :: rest).map s.bookEntry) inv =
        ((x.name, (act inv).1) :: (onEveryRole c.step (rest.map s.bookEntry) (act inv).2).1,
          (onEveryRole c.step (rest.map s.bookEntry) (act inv).2).2) := by
      have hstep : c.step (s.bookEntry x).implementation = act := c.step_bookRole s x.context x.role
      rw [onEveryRole, List.map_cons, List.mapM_cons, hstep]
      rfl
    refine ⟨first :: reports, ⟨by rw [List.map_cons, hserved.done_eq], fun y hy => ?_⟩, ?_, ?_⟩
    · rcases List.mem_cons.1 hy with rfl | hy
      · exact ⟨{ metrics := inv.metrics, outside := inv.outside.world }, rfl⟩
      · exact hserved.answered y hy
    · rw [hrun, hresults]
      rfl
    · rw [hrun, hbooks, List.map_cons, ← List.singleton_append, ← Books.enter_enter]
      rfl

theorem checkPhase_cases (phase : Phase) (reports : List (RoleReport ω α)) :
    (∃ e, checkPhase phase (reports.map fun x => (x.done.name, x.answer)) = .error e) ∨
      checkPhase phase (reports.map fun x => (x.done.name, x.answer)) = .ok () ∧
        Succeeded reports := by
  simp only [checkPhase]
  by_cases hempty : (roleFailures (reports.map fun x => (x.done.name, x.answer))).isEmpty
  · rw [if_pos hempty]
    refine .inr ⟨rfl, fun x hx => ?_⟩
    rw [List.isEmpty_iff, roleFailures, List.filterMap_eq_nil_iff] at hempty
    have hnone := hempty _ (List.mem_map_of_mem hx)
    cases hanswer : x.answer with
    | ok a => rfl
    | error e =>
      rw [hanswer] at hnone
      cases hnone
  · rw [if_neg hempty]
    exact .inl ⟨_, rfl⟩

/-- A phase enters the calls of its roles, and is passed if all of them have succeeded. -/
theorem runPhase_cases (s : Surroundings ω) (c : Chore Unit) (phase : Phase)
    (built : List (BuiltRole ω)) (inv : Invocation (Booked ω)) :
    ∃ reports after, c.Served built reports ∧ after.books = inv.books.enter (reports.map c.entry) ∧
      ((∃ e, (runPhase phase c.step (built.map s.bookEntry)).outcome inv = (.error e, after)) ∨
        (runPhase phase c.step (built.map s.bookEntry)).outcome inv = (.ok (), after) ∧
          Succeeded reports) := by
  obtain ⟨reports, hserved, hresults, hbooks⟩ := onEveryRole_served s c built inv
  refine ⟨reports, _, hserved, hbooks, ?_⟩
  rw [runPhase, Work.bind_ofAction, hresults, Work.outcome_ofExcept]
  rcases checkPhase_cases phase reports with ⟨e, he⟩ | ⟨hok, hsucceeded⟩
  · rw [he]
    exact .inl ⟨e, rfl⟩
  · rw [hok]
    exact .inr ⟨rfl, hsucceeded⟩

end Chore

end BenchCluster
