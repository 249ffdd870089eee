import BenchCluster.Config.Plan
import BenchCluster.Proofs.Dict

/-! # Where a plan places its roles

Every table of components stands under the name of an environment of the plan.
-/

namespace BenchCluster

/-- Every table of components stands under the name of a listed environment. -/
def Listed (environments : List Environment) (components : Dict (Dict ComponentParams)) : Prop :=
  ∀ name roles, components.find? name = some roles → ∃ env ∈ environments, env.name = name

namespace Documents

theorem Listed.place {environments : List Environment} {components : Dict (Dict ComponentParams)}
    (h : Listed environments components) (role : String) (env : Environment)
    (params : ComponentParams) :
    Listed (place environments components role env params).1
      (place environments components role env params).2 := by
  have hmem : env ∈ (Documents.place environments components role env params).1 := by
    simp only [Documents.place]
    split_ifs with hc
    · exact List.contains_iff_mem.1 hc
    · simp
  have hsub : environments ⊆ (Documents.place environments components role env params).1 := by
    simp only [Documents.place]
    split_ifs
    · exact fun _ he => he
    · exact fun _ he => List.mem_append_left _ he
  intro name roles hfind
  simp only [Documents.place, Dict.find?_insert] at hfind
  by_cases hname : env.name = name
  · exact ⟨env, hmem, hname⟩
  · rw [if_neg hname] at hfind
    obtain ⟨e, he, hn⟩ := h name roles hfind
    exact ⟨e, hsub he, hn⟩

theorem Listed.planRoles {clouds : Dict CloudConfig} {defaults : RoleOverrides}
    {roles : List (String × RoleOverrides)} {environments after : List Environment}
    {components placed : Dict (Dict ComponentParams)} (h : Listed environments components)
    (hplan : planRoles clouds defaults roles environments components = .ok (after, placed)) :
    Listed after placed := by
  induction roles generalizing environments components with
  | nil =>
    simp only [Documents.planRoles, Except.ok.injEq, Prod.mk.injEq] at hplan
    obtain ⟨rfl, rfl⟩ := hplan
    exact h
  | cons r rest ih =>
    obtain ⟨role, overrides⟩ := r
    rw [Documents.planRoles] at hplan
    cases hrole : planRole clouds defaults role overrides with
    | error e =>
      rw [hrole] at hplan
      cases hplan
    | ok p =>
      rw [hrole] at hplan
      exact ih (Listed.place h role p.1 p.2) hplan

theorem listed_of_plan {d : Documents} {implementation : String} {p : Plan}
    (h : d.plan implementation = .ok p) : Listed p.environments p.components := by
  rw [plan] at h
  cases hconfig : d.implementations.find? implementation with
  | none => simp [hconfig] at h
  | some config =>
    cases htopology : d.topologies.find? config.topology with
    | none => simp [hconfig, htopology] at h
    | some topology =>
      simp only [hconfig, htopology] at h
      cases hroles : Documents.planRoles d.clouds config.defaults
          (config.roles.entries.filter fun e => topology.roles.contains e.1) [] ∅ with
      | error e =>
        rw [hroles] at h
        cases h
      | ok placed =>
        rw [hroles] at h
        cases h
        refine Listed.planRoles (fun name roles hfind => ?_) hroles
        cases hfind

end Documents

theorem Plan.exists_of_countOf {p : Plan} {role : String} {n : UInt32}
    (h : p.countOf role = some n) :
    ∃ name roles params, p.components.find? name = some roles ∧
      roles.find? role = some params ∧ params.count = n := by
  rw [countOf, Option.map_eq_some_iff] at h
  obtain ⟨params, hfind, rfl⟩ := h
  obtain ⟨roles, hroles, hparams⟩ := List.exists_of_findSome?_eq_some hfind
  obtain ⟨name, hname⟩ := Dict.mem_values_iff.1 hroles
  exact ⟨name, roles, params, hname, hparams, rfl⟩

end BenchCluster
