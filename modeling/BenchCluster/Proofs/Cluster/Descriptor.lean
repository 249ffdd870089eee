import BenchCluster.Cluster.Descriptor
import BenchCluster.Proofs.Dict

/-! # Questions about descriptors

What the answers to questions about a descriptor say about its fields.
-/

namespace BenchCluster

namespace ClusterState

variable {state : ClusterState}

theorem allows_install_iff : state.allows .install = true ↔ state = .allocated := by
  cases state <;> decide

theorem allows_stop_iff : state.allows .stop = true ↔ state = .ready := by
  cases state <;> decide

theorem allows_start_iff : state.allows .start = true ↔ state = .down := by
  cases state <;> decide

end ClusterState

namespace ClusterDescriptor

variable {d : ClusterDescriptor}

theorem environment?_eq_some {name : String} {env : Environment}
    (h : d.environment? name = some env) : env ∈ d.environments ∧ env.name = name := by
  have hname := List.find?_some h
  exact ⟨List.mem_of_find?_eq_some h, by simpa using hname⟩

theorem exists_environment? {env : Environment} (h : env ∈ d.environments) :
    ∃ e, d.environment? env.name = some e := by
  have hsome : (d.environments.find? fun e => e.name = env.name).isSome = true :=
    List.find?_isSome.2 ⟨env, h, by simp⟩
  exact Option.isSome_iff_exists.1 hsome

/-- The component of a role comes from a table, and from the first environment of its name. -/
theorem exists_table_of_component? {role : String} {env : Environment} {params : ComponentParams}
    (h : d.component? role = some (env, params)) : ∃ name roles,
      d.components.find? name = some roles ∧ roles.find? role = some params ∧
        d.environment? name = some env := by
  obtain ⟨⟨name, roles⟩, htable, hentry⟩ := List.exists_of_findSome?_eq_some h
  simp only [Option.bind_eq_bind, Option.bind_eq_some_iff] at hentry
  obtain ⟨p, hp, e, he, hpair⟩ := hentry
  cases hpair
  exact ⟨name, roles, Dict.find?_eq_some_iff.2 htable, hp, he⟩

theorem component?_eq_some {role : String} {env : Environment} {params : ComponentParams}
    (h : d.component? role = some (env, params)) : env ∈ d.environments := by
  obtain ⟨name, roles, -, -, henv⟩ := exists_table_of_component? h
  exact (environment?_eq_some henv).1

/-- A role has a component as soon as one of the tables has it under the name of a listed
environment. -/
theorem exists_component? {role name : String} {roles : Dict ComponentParams}
    {params : ComponentParams} {env : Environment} (hroles : d.components.find? name = some roles)
    (hparams : roles.find? role = some params) (henv : d.environment? name = some env) :
    ∃ e p, d.component? role = some (e, p) := by
  rw [Dict.find?_eq_some_iff] at hroles
  cases h : d.component? role with
  | some c => exact ⟨c.1, c.2, rfl⟩
  | none =>
    have hentry := List.findSome?_eq_none_iff.1 h _ hroles
    simp [hparams, henv] at hentry

theorem mem_instances_iff {name role : String} :
    (name, role) ∈ d.instances ↔ name ∈ d.instancesOf role := by
  simp only [instances, instancesOf, List.mem_flatMap, List.mem_map, Prod.mk.injEq]
  constructor
  · rintro ⟨⟨r, names⟩, hentry, n, hn, rfl, rfl⟩
    rw [Dict.find?_eq_some_iff.2 hentry]
    exact hn
  · intro h
    cases hfind : d.topologyMap.find? role with
    | none => simp [hfind] at h
    | some names =>
      rw [hfind] at h
      exact ⟨(role, names), Dict.find?_eq_some_iff.1 hfind, name, h, rfl, rfl⟩

theorem mem_missingInstances_iff {name role : String} :
    (name, role) ∈ d.missingInstances ↔
      (name, role) ∈ d.instances ∧ d.members.find? name = none := by
  simp [missingInstances, Dict.contains]

end ClusterDescriptor

end BenchCluster
