import Mathlib
import BenchCluster.Orchestrator.Configure
import BenchCluster.Proofs.Cluster.Descriptor
import BenchCluster.Proofs.Config.Placement
import BenchCluster.Proofs.Journal.Access

/-! # The regions that roles are placed in

Every role has its merged parameters, but its environment and the client of this environment are
looked up by a name that is glued together from a cloud and a region. They are those that the
configuration asks for exactly if no two environments of the plan share a name.
-/

namespace BenchCluster

/-! ## What the documents ask for -/

namespace Documents

variable {documents : Documents} {implementation : String}

/-- The configuration of a role asks for parameters: those of the role's layers, with the defaults
of the cloud at the bottom. They belong into an environment of this cloud. -/
def Asks (documents : Documents) (implementation role : String) (env : Environment)
    (params : ComponentParams) : Prop :=
  ∃ config topology overrides cloud,
    documents.implementations.find? implementation = some config ∧
    documents.topologies.find? config.topology = some topology ∧ role ∈ topology.roles ∧
    config.roles.find? role = some overrides ∧
    (config.defaults.merge overrides).cloud = some params.cloud ∧
    documents.clouds.find? params.cloud = some cloud ∧
    componentParams role params.cloud cloud
      ((cloud.defaults.merge config.defaults).merge overrides) = .ok params ∧
    env = Environment.ofRegion params.cloud cloud.client params.region

theorem Asks.unique {role : String} {env env' : Environment} {params params' : ComponentParams}
    (h : documents.Asks implementation role env params)
    (h' : documents.Asks implementation role env' params') : env = env' ∧ params = params' := by
  obtain ⟨config, topology, overrides, cloud, hconfig, -, -, hoverrides, hname, hcloud, hparams,
    rfl⟩ := h
  obtain ⟨config', topology', overrides', cloud', hconfig', -, -, hoverrides', hname', hcloud',
    hparams', rfl⟩ := h'
  obtain rfl := Option.some.inj (hconfig.symm.trans hconfig')
  obtain rfl := Option.some.inj (hoverrides.symm.trans hoverrides')
  have hsame := Option.some.inj (hname.symm.trans hname')
  rw [← hsame] at hcloud' hparams' ⊢
  obtain rfl := Option.some.inj (hcloud.symm.trans hcloud')
  obtain rfl := Except.ok.inj (hparams.symm.trans hparams')
  exact ⟨rfl, rfl⟩

theorem names_of_componentParams {role cloudName : String} {cloud : CloudConfig}
    {merged : RoleOverrides} {params : ComponentParams}
    (h : componentParams role cloudName cloud merged = .ok params) :
    params.role = role ∧ params.cloud = cloudName := by
  rw [componentParams] at h
  split at h
  · cases h
  · dsimp only at h
    split at h
    · cases h
    · cases h
      exact ⟨rfl, rfl⟩

theorem planRole_eq_ok {clouds : Dict CloudConfig} {defaults overrides : RoleOverrides}
    {role : String} {env : Environment} {params : ComponentParams} :
    planRole clouds defaults role overrides = .ok (env, params) ↔
      (defaults.merge overrides).cloud = some params.cloud ∧
      ∃ cloud, clouds.find? params.cloud = some cloud ∧
        componentParams role params.cloud cloud ((cloud.defaults.merge defaults).merge overrides) =
          .ok params ∧
        env = Environment.ofRegion params.cloud cloud.client params.region := by
  rw [planRole]
  cases hname : (defaults.merge overrides).cloud with
  | none => simp
  | some cloudName =>
    cases hcloud : clouds.find? cloudName with
    | none =>
      simp only [hcloud, reduceCtorEq, Option.some.injEq, false_iff, not_and, not_exists]
      rintro rfl cloud hfound
      rw [hcloud] at hfound
      cases hfound
    | some cloud =>
      simp only [hcloud, Fallible.bind_eq_ok, Option.some.injEq]
      constructor
      · rintro ⟨p, hp, hpure⟩
        cases hpure
        obtain rfl := (names_of_componentParams hp).2
        exact ⟨rfl, cloud, hcloud, hp, rfl⟩
      · rintro ⟨rfl, found, hfound, hp, rfl⟩
        obtain rfl := Option.some.inj (hcloud.symm.trans hfound)
        exact ⟨params, hp, rfl⟩

/-! ## Placing roles -/

section Place

variable {environments : List Environment} {components : Dict (Dict ComponentParams)}
  {role : String} {env : Environment} {params : ComponentParams}

theorem mem_environments_place {e : Environment} :
    e ∈ (place environments components role env params).1 ↔ e ∈ environments ∨ e = env := by
  simp only [place]
  split_ifs with hc
  · rw [List.contains_iff_mem] at hc
    rw [iff_self_or]
    rintro rfl
    exact hc
  · simp

theorem nodup_environments_place (h : environments.Nodup) :
    (place environments components role env params).1.Nodup := by
  simp only [place]
  split_ifs with hc
  · exact h
  · rw [List.contains_iff_mem] at hc
    rw [← List.concat_eq_append]
    exact h.concat hc

theorem find?_components_place {name r : String} :
    ((place environments components role env params).2.find? name).bind
        (fun roles => roles.find? r) =
      if env.name = name ∧ role = r then some params
      else (components.find? name).bind fun roles => roles.find? r := by
  simp only [place, Dict.find?_insert]
  by_cases hname : env.name = name
  · subst hname
    by_cases hrole : role = r
    · simp [hrole]
    · have hempty : (∅ : Dict ComponentParams).find? r = none := rfl
      cases components.find? env.name with
      | none => simp [Dict.find?_insert, hrole, hempty]
      | some roles => simp [Dict.find?_insert, hrole]
  · simp [hname]

end Place

/-- The environments are those of the roles, each listed once, and the tables of components hold
the parameters of the roles under the names of their environments. -/
structure Placed (asked : String → Environment → ComponentParams → Prop)
    (environments : List Environment) (components : Dict (Dict ComponentParams)) : Prop where
  mem_environments : ∀ env, env ∈ environments ↔ ∃ role params, asked role env params
  nodup : environments.Nodup
  find?_components : ∀ name role params,
    ((components.find? name).bind fun roles => roles.find? role) = some params ↔
      ∃ env, env.name = name ∧ asked role env params

namespace Placed

variable {asked : String → Environment → ComponentParams → Prop}
  {environments : List Environment} {components : Dict (Dict ComponentParams)}

theorem nothing : Placed (fun _ _ _ => False) [] ∅ where
  mem_environments := by simp
  nodup := List.nodup_nil
  find?_components := by
    simp only [and_false, exists_false, iff_false]
    rintro name role params ⟨⟩

theorem place (h : Placed asked environments components) {role : String}
    (hnew : ∀ env params, ¬ asked role env params) (env : Environment) (params : ComponentParams) :
    Placed (fun r e p => asked r e p ∨ (r = role ∧ e = env ∧ p = params))
      (Documents.place environments components role env params).1
      (Documents.place environments components role env params).2 where
  mem_environments := by
    intro e
    rw [mem_environments_place, h.mem_environments]
    constructor
    · rintro (⟨r, p, hr⟩ | rfl)
      · exact ⟨r, p, .inl hr⟩
      · exact ⟨role, params, .inr ⟨rfl, rfl, rfl⟩⟩
    · rintro ⟨r, p, hr | ⟨-, rfl, -⟩⟩
      · exact .inl ⟨r, p, hr⟩
      · exact .inr rfl
  nodup := nodup_environments_place h.nodup
  find?_components := by
    intro name r p
    rw [find?_components_place]
    by_cases hsame : env.name = name ∧ role = r
    · obtain ⟨rfl, rfl⟩ := hsame
      simp [hnew, eq_comm]
    · rw [if_neg hsame, h.find?_components]
      refine exists_congr fun e => and_congr_right fun hname => ?_
      rw [iff_self_or]
      rintro ⟨rfl, rfl, -⟩
      exact absurd ⟨hname, rfl⟩ hsame

theorem congr {other : String → Environment → ComponentParams → Prop}
    (h : Placed asked environments components) (heq : ∀ r e p, asked r e p ↔ other r e p) :
    Placed other environments components := by
  have hsame : asked = other := by
    funext r e p
    exact propext (heq r e p)
  rwa [← hsame]

/-- Roles with distinct names are placed one after the other. -/
theorem planRoles {clouds : Dict CloudConfig} {defaults : RoleOverrides}
    {roles : List (String × RoleOverrides)} {after : List Environment}
    {placed : Dict (Dict ComponentParams)} (h : Placed asked environments components)
    (hdistinct : (roles.map Prod.fst).Nodup)
    (hnew : ∀ r ∈ roles, ∀ env params, ¬ asked r.1 env params)
    (hplan : planRoles clouds defaults roles environments components = .ok (after, placed)) :
    Placed (fun r e p => asked r e p ∨
        ∃ overrides, (r, overrides) ∈ roles ∧ planRole clouds defaults r overrides = .ok (e, p))
      after placed ∧
      ∀ r ∈ roles, ∃ env params, planRole clouds defaults r.1 r.2 = .ok (env, params) := by
  induction roles generalizing asked environments components with
  | nil =>
    simp only [Documents.planRoles, Except.ok.injEq, Prod.mk.injEq] at hplan
    obtain ⟨rfl, rfl⟩ := hplan
    exact ⟨h.congr (by simp), by simp⟩
  | cons first rest ih =>
    obtain ⟨role, overrides⟩ := first
    rw [List.map_cons, List.nodup_cons] at hdistinct
    rw [Documents.planRoles] at hplan
    cases hrole : planRole clouds defaults role overrides with
    | error e =>
      rw [hrole] at hplan
      cases hplan
    | ok pair =>
      obtain ⟨env, params⟩ := pair
      rw [hrole] at hplan
      have hplaced := h.place (hnew _ List.mem_cons_self) env params
      -- The later roles have other names than this one, so nothing is asked for them yet.
      have hrest : ∀ r ∈ rest, ∀ e p,
          ¬ (asked r.1 e p ∨ (r.1 = role ∧ e = env ∧ p = params)) := by
        rintro r hr e p (hasked | ⟨hsame, -⟩)
        · exact hnew r (List.mem_cons_of_mem _ hr) e p hasked
        · have hmem : r.1 ∈ rest.map Prod.fst := List.mem_map_of_mem hr
          rw [hsame] at hmem
          exact hdistinct.1 hmem
      obtain ⟨hafter, hplanned⟩ := ih hplaced hdistinct.2 hrest hplan
      refine ⟨hafter.congr fun r e p => ?_, fun r hr => ?_⟩
      · rw [or_assoc]
        refine or_congr_right ⟨?_, ?_⟩
        · rintro (⟨rfl, rfl, rfl⟩ | ⟨o, ho, hp⟩)
          · exact ⟨overrides, List.mem_cons_self, hrole⟩
          · exact ⟨o, List.mem_cons_of_mem _ ho, hp⟩
        · rintro ⟨o, ho, hp⟩
          rcases List.mem_cons.1 ho with heq | ho
          · cases heq
            rw [hrole, Except.ok.injEq, Prod.mk.injEq] at hp
            exact .inl ⟨rfl, hp.1.symm, hp.2.symm⟩
          · exact .inr ⟨o, ho, hp⟩
      · rcases List.mem_cons.1 hr with rfl | hr
        · exact ⟨env, params, hrole⟩
        · exact hplanned r hr

end Placed

/-- An implementation asks for the configured roles of its topology, as they are planned. -/
theorem asks_iff {config : ImplementationConfig} {topology : Template}
    (hconfig : documents.implementations.find? implementation = some config)
    (htopology : documents.topologies.find? config.topology = some topology) {role : String}
    {env : Environment} {params : ComponentParams} :
    documents.Asks implementation role env params ↔ ∃ overrides,
      (role, overrides) ∈ config.roles.entries.filter (fun e => topology.roles.contains e.1) ∧
        planRole documents.clouds config.defaults role overrides = .ok (env, params) := by
  simp only [List.mem_filter, List.contains_iff_mem, ← Dict.find?_eq_some_iff, planRole_eq_ok]
  constructor
  · rintro ⟨config', topology', overrides, cloud, hconfig', htopology', hrole, hoverrides, hname,
      hcloud, hparams, henv⟩
    obtain rfl := Option.some.inj (hconfig.symm.trans hconfig')
    obtain rfl := Option.some.inj (htopology.symm.trans htopology')
    exact ⟨overrides, ⟨hoverrides, hrole⟩, hname, cloud, hcloud, hparams, henv⟩
  · rintro ⟨overrides, ⟨hoverrides, hrole⟩, hname, cloud, hcloud, hparams, henv⟩
    exact ⟨config, topology, overrides, cloud, hconfig, htopology, hrole, hoverrides, hname, hcloud,
      hparams, henv⟩

/-- The roles of a plan are placed as the documents ask, and the documents ask for every configured
role of the topology. -/
theorem placed_of_plan {p : Plan} (h : documents.plan implementation = .ok p) :
    Placed (documents.Asks implementation) p.environments p.components ∧
      ∃ config, documents.implementations.find? implementation = some config ∧
        ∀ role ∈ p.topology.roles, config.roles.contains role = true →
          ∃ env params, documents.Asks implementation role env params := by
  rw [plan] at h
  cases hconfig : documents.implementations.find? implementation with
  | none => simp [hconfig] at h
  | some config =>
    cases htopology : documents.topologies.find? config.topology with
    | none => simp [hconfig, htopology] at h
    | some topology =>
      simp only [hconfig, htopology] at h
      obtain ⟨⟨environments, components⟩, hroles, hpure⟩ := Fallible.bind_eq_ok.1 h
      cases hpure
      have hdistinct : ((config.roles.entries.filter fun e =>
          topology.roles.contains e.1).map Prod.fst).Nodup :=
        config.roles.nodup_keys.sublist (List.filter_sublist.map _)
      obtain ⟨hplaced, hplanned⟩ := Placed.nothing.planRoles hdistinct (by simp) hroles
      refine ⟨hplaced.congr fun role env params => ?_, config, rfl, fun role hrole hcontains => ?_⟩
      · rw [false_or, asks_iff hconfig htopology]
      · obtain ⟨overrides, hoverrides⟩ := Dict.contains_iff.1 hcontains
        have hmem : (role, overrides) ∈
            config.roles.entries.filter (fun e => topology.roles.contains e.1) :=
          List.mem_filter.2 ⟨Dict.find?_eq_some_iff.1 hoverrides, List.contains_iff_mem.2 hrole⟩
        obtain ⟨env, params, hplan⟩ := hplanned _ hmem
        exact ⟨env, params, (asks_iff hconfig htopology).2 ⟨overrides, hmem, hplan⟩⟩

end Documents

/-! ## Clients under the names of environments -/

/-- The client under a name is that of the last listed environment of this name. -/
theorem Surroundings.find?_cloudsFor_eq_some_iff {ω : Type} {s : Surroundings ω}
    {environments : List Environment} {clouds : Dict (Cloud ω)}
    (h : s.cloudsFor environments = .ok clouds) {name : String} {cloud : Cloud ω} :
    clouds.find? name = some cloud ↔
      ∃ last, (environments.reverse.find? fun env => env.name = name) = some last ∧
        s.buildCloud s.cloudConfigs last = .ok cloud := by
  obtain ⟨entries, hentries, hpure⟩ := Fallible.bind_eq_ok.1 h
  cases hpure
  rw [Dict.find?_ofList, Option.map_eq_some_iff]
  have hclients := List.forall₂_reverse_iff.2 (Fallible.mapM_eq_ok.1 hentries)
  generalize environments.reverse = reversed at hclients ⊢
  generalize entries.reverse = found at hclients ⊢
  induction hclients with
  | nil => simp
  | @cons env entry rest built hclient _ ih =>
    obtain ⟨client, hbuild, hpure⟩ := Fallible.bind_eq_ok.1 hclient
    cases hpure
    by_cases hname : env.name = name
    · simp [hname, hbuild]
    · simpa [hname] using ih

/-! ## The descriptor of a plan -/

/-- What the descriptor of a plan makes of a role: its parameters, with the first environment of the
name of its own. -/
theorem Documents.Placed.component? {asked : String → Environment → ComponentParams → Prop}
    {p : Plan} (h : Placed asked p.environments p.components)
    (hunique : ∀ role env env' params params', asked role env params → asked role env' params' →
      env = env' ∧ params = params')
    (cluster : String) (names : Dict String) (now : Timestamp) {role : String} {env : Environment}
    {params : ComponentParams} (hasked : asked role env params) :
    ∃ first, (p.descriptor cluster names now).environment? env.name = some first ∧
      (p.descriptor cluster names now).component? role = some (first, params) := by
  have hlisted : env ∈ p.environments := (h.mem_environments env).2 ⟨role, params, hasked⟩
  obtain ⟨first, hfirst⟩ :=
    ClusterDescriptor.exists_environment? (d := p.descriptor cluster names now) hlisted
  have htable := (h.find?_components env.name role params).2 ⟨env, rfl, hasked⟩
  obtain ⟨roles, hroles, hparams⟩ := Option.bind_eq_some_iff.1 htable
  obtain ⟨e, found, hcomponent⟩ := ClusterDescriptor.exists_component?
    (d := p.descriptor cluster names now) hroles hparams hfirst
  obtain ⟨name, others, hothers, hfound, henv⟩ :=
    ClusterDescriptor.exists_table_of_component? hcomponent
  obtain ⟨env', hname, hasked'⟩ :=
    (h.find?_components name role found).1 (Option.bind_eq_some_iff.2 ⟨others, hothers, hfound⟩)
  obtain ⟨rfl, rfl⟩ := hunique _ _ _ _ _ hasked hasked'
  rw [hname, henv, Option.some.injEq] at hfirst
  exact ⟨e, by rw [hname, henv], hcomponent⟩

theorem ClusterDescriptor.environment?_of_nodup {d : ClusterDescriptor}
    (h : (d.environments.map Environment.name).Nodup) {env : Environment}
    (henv : env ∈ d.environments) : d.environment? env.name = some env := by
  obtain ⟨first, hfirst⟩ := exists_environment? henv
  obtain ⟨hlisted, hname⟩ := environment?_eq_some hfirst
  rw [hfirst, List.inj_on_of_nodup_map h hlisted henv hname]

/-- Every configured role of the topology has its merged parameters, with the first environment of
the name that its own has; the client under a name is that of the last environment of this name.
Every role gets the environment that was asked for, and every environment its own client, exactly if
no two environments of the plan share a name. -/
theorem roles_placed_by_name {documents : Documents} {implementation : String} {p : Plan}
    (h : documents.plan implementation = .ok p) (cluster : String) (names : Dict String)
    (now : Timestamp) :
    let d := p.descriptor cluster names now
    (∃ config, documents.implementations.find? implementation = some config ∧
      ∀ role ∈ d.topology.roles, config.roles.contains role = true →
        ∃ env params, documents.Asks implementation role env params) ∧
    (∀ role env params, documents.Asks implementation role env params →
      env ∈ d.environments ∧ ∃ first, d.environment? env.name = some first ∧
        d.component? role = some (first, params)) ∧
    (∀ {ω : Type} (s : Surroundings ω) (clouds : Dict (Cloud ω)),
      s.cloudsFor d.environments = .ok clouds → ∀ name cloud, clouds.find? name = some cloud ↔
        ∃ last, (d.environments.reverse.find? fun env => env.name = name) = some last ∧
          s.buildCloud s.cloudConfigs last = .ok cloud) ∧
    ((d.environments.map Environment.name).Nodup ↔
      ∀ role env params, documents.Asks implementation role env params →
        d.component? role = some (env, params)) ∧
    ((d.environments.map Environment.name).Nodup → ∀ {ω : Type} (s : Surroundings ω)
      (clouds : Dict (Cloud ω)), s.cloudsFor d.environments = .ok clouds →
        ∀ role env params, documents.Asks implementation role env params →
          ∃ cloud, clouds.find? env.name = some cloud ∧
            s.buildCloud s.cloudConfigs env = .ok cloud) := by
  intro d
  obtain ⟨hplaced, hconfigured⟩ := Documents.placed_of_plan h
  have hcomponent : ∀ role env params, documents.Asks implementation role env params →
      ∃ first, d.environment? env.name = some first ∧ d.component? role = some (first, params) :=
    fun role env params hasked => hplaced.component?
      (fun _ _ _ _ _ hasks hasks' => hasks.unique hasks') cluster names now hasked
  have hlisted : ∀ role env params, documents.Asks implementation role env params →
      env ∈ d.environments :=
    fun role env params hasked => (hplaced.mem_environments env).2 ⟨role, params, hasked⟩
  refine ⟨hconfigured,
    fun role env params hasked => ⟨hlisted _ _ _ hasked, hcomponent _ _ _ hasked⟩,
    fun s clouds hclouds name cloud => Surroundings.find?_cloudsFor_eq_some_iff hclouds,
    ⟨fun hnodup role env params hasked => ?_, fun hall => ?_⟩,
    fun hnodup _ s clouds hclouds role env params hasked => ?_⟩
  · obtain ⟨first, hfirst, hrole⟩ := hcomponent role env params hasked
    rw [ClusterDescriptor.environment?_of_nodup hnodup (hlisted _ _ _ hasked),
      Option.some.injEq] at hfirst
    rw [hrole, hfirst]
  · -- Two listed environments of one name are asked for by roles that both get the first of them.
    refine List.Nodup.map_on (fun env henv env' henv' hname => ?_) hplaced.nodup
    obtain ⟨role, params, hasked⟩ := (hplaced.mem_environments env).1 henv
    obtain ⟨role', params', hasked'⟩ := (hplaced.mem_environments env').1 henv'
    obtain ⟨first, hfirst, hrole⟩ := hcomponent role env params hasked
    obtain ⟨first', hfirst', hrole'⟩ := hcomponent role' env' params' hasked'
    rw [hall _ _ _ hasked, Option.some.injEq, Prod.mk.injEq] at hrole
    rw [hall _ _ _ hasked', Option.some.injEq, Prod.mk.injEq] at hrole'
    rw [hname, hfirst', Option.some.injEq] at hfirst
    rw [hrole.1, hrole'.1, hfirst]
  · have hmem := hlisted role env params hasked
    obtain ⟨cloud, hcloud⟩ := Surroundings.contains_cloudsFor hclouds hmem
    obtain ⟨last, hlast, hbuild⟩ := (Surroundings.find?_cloudsFor_eq_some_iff hclouds).1 hcloud
    have hlastMem := List.mem_reverse.1 (List.mem_of_find?_eq_some hlast)
    have hname : last.name = env.name := by simpa using List.find?_some hlast
    rw [List.inj_on_of_nodup_map hnodup hlastMem hmem hname] at hbuild
    exact ⟨cloud, hcloud, hbuild⟩

namespace Sample

def sides : Template :=
  ⟨.of [("left", .of []), ("right", .of [])], by
    simp only [RoleForest.Sorted, RoleForest.SortedBelow]
    decide⟩

/-- Documents for roles in the region `c` of a cloud `a-b`, and in the region `b-c` of a cloud
`a`. -/
def ambiguous : Documents :=
  { topologies := Dict.ofList [("sides", sides)]
    implementations := Dict.ofList [("standard",
      { topology := "sides"
        roles := Dict.ofList [("left", { cloud := some "a-b", region := some "c" }),
          ("right", { cloud := some "a", region := some "b-c" })] })]
    clouds := Dict.ofList [("a-b", { client := "fake" }), ("a", { client := "other" })] }

end Sample

/-- A role gets the environment of another one, which is in a cloud of another client. -/
theorem ambiguous_roles_placed_by_name : ∃ p env params,
    Sample.ambiguous.plan "standard" = .ok p ∧
    Sample.ambiguous.Asks "standard" "right" env params ∧ env.client = "other" ∧
    ∃ first, first.client = "fake" ∧
      (p.descriptor "c" ∅ default).component? "right" = some (first, params) := by
  have hplan : (Sample.ambiguous.plan "standard").map (fun p =>
      ((p.descriptor "c" ∅ default).environment? "a-b-c").map Environment.client) =
        .ok (some "fake") := by cbv
  obtain ⟨p, hp, hclient⟩ := Fallible.map_eq_ok.1 hplan
  obtain ⟨first, hfirst, hfake⟩ := Option.map_eq_some_iff.1 hclient
  let params : ComponentParams :=
    { role := "right", implementation := "right", count := 1, cloud := "a", region := "b-c"
      managed := true, ephemeral := false }
  have hasked : Sample.ambiguous.Asks "standard" "right" (.ofRegion "a" "other" "b-c") params := by
    refine ⟨_, _, _, _, rfl, rfl, ?_, rfl, rfl, rfl, rfl, rfl⟩
    decide
  obtain ⟨-, hroles, -⟩ := roles_placed_by_name hp "c" ∅ default
  obtain ⟨-, first', hfirst', hcomponent⟩ := hroles _ _ _ hasked
  have hname : (Environment.ofRegion "a" "other" "b-c").name = "a-b-c" := by decide
  rw [hname, hfirst, Option.some.injEq] at hfirst'
  exact ⟨p, _, params, hp, hasked, rfl, first, hfake, hfirst' ▸ hcomponent⟩

theorem append_cons_inj_of_first {α : Type} {x x' z z' : List α} {a : α} (hx : a ∉ x)
    (hx' : a ∉ x') (h : x ++ a :: z = x' ++ a :: z') : x = x' ∧ z = z' := by
  rcases List.append_eq_append_iff.1 h with ⟨l, rfl, hl⟩ | ⟨l, rfl, hl⟩
  · cases l with
    | nil => simpa using hl
    | cons b l =>
      rw [List.cons_append, List.cons.injEq] at hl
      simp [hl.1] at hx'
  · cases l with
    | nil => simpa [eq_comm] using hl
    | cons b l =>
      rw [List.cons_append, List.cons.injEq] at hl
      simp [hl.1] at hx

/-- If no cloud has a dash in its name, every environment of a plan has a name of its own. -/
theorem distinct_environments_of_plain_clouds {documents : Documents} {implementation : String}
    {p : Plan} (h : documents.plan implementation = .ok p)
    (hplain : ∀ name ∈ documents.clouds.keys, '-' ∉ name.toList) :
    (p.environments.map Environment.name).Nodup := by
  obtain ⟨hplaced, -⟩ := Documents.placed_of_plan h
  refine List.Nodup.map_on (fun env henv env' henv' hname => ?_) hplaced.nodup
  obtain ⟨role, params, hasked⟩ := (hplaced.mem_environments env).1 henv
  obtain ⟨role', params', hasked'⟩ := (hplaced.mem_environments env').1 henv'
  obtain ⟨-, -, -, cloud, -, -, -, -, -, hcloud, -, rfl⟩ := hasked
  obtain ⟨-, -, -, cloud', -, -, -, -, -, hcloud', -, rfl⟩ := hasked'
  have htexts := congrArg String.toList hname
  simp only [Environment.ofRegion, String.toList_append] at htexts
  change _ ++ ['-'] ++ _ = _ ++ ['-'] ++ _ at htexts
  rw [List.append_assoc, List.append_assoc] at htexts
  have hkeys : params.cloud ∈ documents.clouds.keys ∧ params'.cloud ∈ documents.clouds.keys := by
    rw [Dict.mem_keys_iff, Dict.mem_keys_iff, Dict.contains_iff, Dict.contains_iff]
    exact ⟨⟨_, hcloud⟩, _, hcloud'⟩
  obtain ⟨hclouds, hregions⟩ :=
    append_cons_inj_of_first (hplain _ hkeys.1) (hplain _ hkeys.2) htexts
  have hsame := String.toList_injective hclouds
  rw [← hsame, hcloud, Option.some.injEq] at hcloud'
  rw [hsame, hcloud', String.toList_injective hregions]

end BenchCluster
