import BenchCluster.Orchestrator.Install
import BenchCluster.Proofs.Journal.Access

/-! # What preparing and installing enter in the books

Preparation only calls hosts. An installation makes calls of roles, and stores the descriptor with
its connection target if none of them has failed.
-/

namespace BenchCluster.Surroundings

variable {ω : Type} {s : Surroundings ω} {cluster : String} {inv : Invocation (Booked ω)}

def prepare (s : Surroundings ω) (d : ClusterDescriptor) : Work ω Unit := do
  let hosts ← Work.ofExcept id
    (hostsOf s.defaultPort (d.members.values.filter Machine.managed))
  if hosts.isEmpty then return ()
  let reply ← Work.ofAction (s.executor.run (s.execOptions true) hosts s.makeCommand)
  let _ ← Work.ofExcept .remote reply.result
  return ()

theorem make_eq (s : Surroundings ω) (cluster : String) :
    s.make cluster = (do
      let d ← s.loadFor cluster .make
      s.prepare d
      return d) := by
  rw [make]
  congr 1
  funext d
  rw [prepare, bind_assoc]
  congr 1
  funext hosts
  by_cases hempty : hosts.isEmpty
  · simp only [if_pos hempty, pure_bind]
  · simp only [if_neg hempty, bind_assoc, pure_bind]

theorem carries_prepare {R : Invocation (Booked ω) → Invocation (Booked ω) → Prop}
    [IsPreorder (Invocation (Booked ω)) R] (hcount : ∀ change, Carries R (Action.count change))
    (hexec : ∀ host script elevated limit, Carries R
      (Action.outside (s.booked.executor.transport.exec host script elevated limit)))
    (d : ClusterDescriptor) : Carries R (s.booked.prepare d).outcome := by
  refine Carries.work_bind (Carries.ofExcept _ _) fun hosts => ?_
  split
  · exact Carries.pure _
  · have hrun := Carries.run hcount hexec (s.booked.execOptions true) hosts s.booked.makeCommand
    exact Carries.work_bind (Carries.ofAction hrun) fun _ =>
      Carries.work_bind (Carries.ofExcept _ _) fun _ => Carries.pure _

theorem enters_prepare (s : Surroundings ω) (d : ClusterDescriptor) :
    Enters (fun c => c.isInert = true) (s.booked.prepare d).outcome := by
  refine carries_prepare (R := Entered fun c => c.isInert = true) (fun change => ?_)
    (fun host script elevated limit => ?_) d
  · exact Enters.count (P := fun c => c.isInert = true) change
  · exact Enters.outside_journaled (P := fun c => c.isInert = true) fun _ => rfl

theorem enters_make (s : Surroundings ω) (cluster : String) :
    Enters (fun c => c.isInert = true) (s.booked.make cluster).outcome := by
  rw [make_eq]
  exact Enters.work_bind (Enters.loadFor s cluster .make) fun d =>
    Enters.work_bind (enters_prepare s d) fun _ => Enters.work_pure _

/-- The part of an installation before the descriptor is stored. -/
def bringUp (s : Surroundings ω) (d : ClusterDescriptor) : Work ω (Option ConnectionTarget) := do
  let (tree, roles) ← Work.ofExcept id (s.rolesOf d)
  d.environments.forM (s.configureEnvironment roles)
  s.checkInterrupted
  let results ← Work.ofAction (onEveryRole Role.install roles)
  Work.ofExcept id (checkPhase .install results)
  s.checkInterrupted
  chainTargets tree roles (installedTargets results) none

theorem install_eq (s : Surroundings ω) (cluster : String) :
    s.install cluster = (do
      let d ← s.loadFor cluster .install
      let target ← s.bringUp d
      let after := { d with connectionTarget := some (target.getD .placeholder), state := .ready }
      s.save after
      return after) := by
  rw [install]
  congr 1
  funext d
  rw [bringUp, bind_assoc]
  congr 1
  funext built
  obtain ⟨tree, roles⟩ := built
  simp only [bind_assoc]

theorem enters_chainTargets {tree : TopologyTree} {roles : List (RoleEntry (Booked ω))}
    (hroles : ∀ entry ∈ roles, ∃ context r, entry.implementation = s.bookRole context r)
    (targets : List (String × Option ConnectionTarget)) (candidate : Option ConnectionTarget) :
    Enters (fun c => c.isRole = true) (chainTargets tree roles targets candidate).outcome := by
  refine Carries.chainTargets (R := Entered fun c => c.isRole = true) ?_ tree targets candidate
  intro entry hentry postInstall hproxy target
  obtain ⟨context, r, hr⟩ := hroles entry hentry
  rw [hr] at hproxy
  obtain ⟨lead, -, rfl⟩ := Option.map_eq_some_iff.1 hproxy
  exact Enters.journaled (P := fun c => c.isRole = true) fun _ => rfl

def setUp (s : Surroundings ω) (environments : List Environment) (roles : List (RoleEntry ω)) :
    Work ω (List (String × Option ConnectionTarget)) := do
  environments.forM (s.configureEnvironment roles)
  s.checkInterrupted
  let results ← Work.ofAction (onEveryRole Role.install roles)
  Work.ofExcept id (checkPhase .install results)
  s.checkInterrupted
  return installedTargets results

theorem bringUp_eq (s : Surroundings ω) (d : ClusterDescriptor) :
    s.bringUp d = (do
      let (tree, roles) ← Work.ofExcept id (s.rolesOf d)
      let targets ← s.setUp d.environments roles
      chainTargets tree roles targets none) := by
  rw [bringUp]
  refine bind_congr fun built => ?_
  obtain ⟨tree, roles⟩ := built
  simp only [setUp, bind_assoc, pure_bind]

theorem enters_setUp {roles : List (RoleEntry (Booked ω))}
    (hroles : ∀ entry ∈ roles, ∃ context r, entry.implementation = s.bookRole context r)
    (environments : List Environment) :
    Enters (fun c => c.isRole = true) (s.booked.setUp environments roles).outcome := by
  have hconfigure : ∀ env, Enters (fun c => c.isRole = true)
      (s.booked.configureEnvironment roles env).outcome := by
    intro env
    refine Enters.work_bind (Enters.checkInterrupted _) fun _ => ?_
    refine enters_runPhase (s := s) .configure Role.configure
      (fun entry he => hroles entry (List.mem_filter.1 he).1) fun context r => ?_
    change Enters _ (s.journaled (fun a => .role context (.configure a)) r.configure)
    exact Enters.journaled fun _ => rfl
  have hinstall := enters_onEveryRole (P := fun c => c.isRole = true) Role.install hroles
    fun context r => by
      change Enters _ (s.journaled (fun a => .role context (.install a)) r.install)
      exact Enters.journaled fun _ => rfl
  refine Enters.work_bind (Enters.work_forM hconfigure) fun _ => ?_
  refine Enters.work_bind (Enters.checkInterrupted _) fun _ => ?_
  refine Enters.work_bind (Enters.ofAction hinstall) fun results => ?_
  refine Enters.work_bind (Enters.ofExcept _ _) fun _ => ?_
  exact Enters.work_bind (Enters.checkInterrupted _) fun _ => Enters.work_pure _

theorem enters_bringUp (s : Surroundings ω) (d : ClusterDescriptor) :
    Enters (fun c => c.isRole = true) (s.booked.bringUp d).outcome := by
  rw [bringUp_eq]
  refine Enters.bind_ofExcept fun built hbuilt => ?_
  obtain ⟨tree, roles⟩ := built
  have hroles := implementation_of_rolesOf hbuilt
  exact Enters.work_bind (enters_setUp hroles _) fun targets => enters_chainTargets hroles _ _

/-- An installation fails after calls of roles, or it stores a descriptor that differs in its state
and its connection target only. -/
theorem install_cases (hnamed : inv.books.Named) :
    Failed (fun c => c.isInert = true) inv ((s.booked.install cluster).outcome inv) ∨
      ∃ d target late after entries, inv.books.find? cluster = some d ∧
        d.state.allows .install = true ∧ (∀ x ∈ entries, x.call.isInert = true) ∧
        let installed := { d with connectionTarget := some target, state := .ready }
        (s.booked.install cluster).outcome inv = (.ok installed, after) ∧
          after.books = (inv.books.enter entries).put late installed := by
  rw [install_eq]
  rcases loadFor_cases (s := s) cluster .install inv with ⟨e, he⟩ | ⟨d, hd, hallows, hload⟩
  · exact .inl (.at_once (Work.bind_of_error he))
  rw [Work.bind_of_ok hload]
  have hinert := (enters_bringUp s d).imp fun _ => OutsideCall.isInert_of_isRole
  rcases Enters.bind_cases hinert _ inv with
    ⟨e, after, entries, hentries, houtcome, hafter⟩ |
    ⟨target, mid, entries, hentries, -, hmid, houtcome⟩
  · exact .inl ⟨e, after, entries, hentries, houtcome, hafter⟩
  · right
    obtain ⟨hname, hvalid⟩ := hnamed cluster d hd
    let installed : ClusterDescriptor :=
      { d with connectionTarget := some (target.getD .placeholder), state := .ready }
    obtain ⟨late, after, hsave, hafter⟩ := save_outcome (s := s) (d := installed)
      (hname ▸ hvalid) mid
    refine ⟨d, target.getD .placeholder, late, after, entries, hd, hallows, hentries, ?_, ?_⟩
    · rw [houtcome]
      exact (Work.bind_of_ok hsave).trans rfl
    · rw [hafter, hmid]

end BenchCluster.Surroundings
