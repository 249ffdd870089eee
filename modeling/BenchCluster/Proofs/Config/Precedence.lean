import BenchCluster.Proofs.Config.Layered

/-! # Plans follow the layers of their roles

A plan looks only at the roles of its topology. It fails at the first of them with which something is
wrong; otherwise every one of them stands in the table of its own environment, with parameters that
follow its layers, and the environments are listed in the order in which the roles use them first.
-/

namespace BenchCluster

section EraseDups

variable {α β : Type} [BEq α] [LawfulBEq α] [BEq β] [LawfulBEq β]

theorem eraseDups_concat [DecidableEq α] (l : List α) (a : α) :
    (l ++ [a]).eraseDups = if a ∈ l then l.eraseDups else l.eraseDups ++ [a] := by
  rw [List.eraseDups_append]
  split_ifs with hmem
  · have hnone : [a].removeAll l = [] := by simp [List.removeAll, hmem]
    rw [hnone, List.eraseDups_nil, List.append_nil]
  · have hnew : [a].removeAll l = [a] := by simp [List.removeAll, hmem]
    rw [hnew, List.eraseDups_cons, List.filter_nil, List.eraseDups_nil]

theorem map_eraseDups [DecidableEq α] [DecidableEq β] {f : α → β} {l : List α}
    (hf : ∀ a ∈ l, ∀ b ∈ l, f a = f b → a = b) : l.eraseDups.map f = (l.map f).eraseDups := by
  induction l using List.reverseRecOn with
  | nil => rfl
  | append_singleton l a ih =>
    have hmem : f a ∈ l.map f ↔ a ∈ l := by
      refine ⟨fun h => ?_, List.mem_map_of_mem⟩
      obtain ⟨b, hb, hsame⟩ := List.mem_map.1 h
      rwa [← hf b (by simp [hb]) a (by simp) hsame]
    have hbefore := ih fun b hb c hc => hf b (by simp [hb]) c (by simp [hc])
    rw [eraseDups_concat, List.map_append, List.map_singleton, eraseDups_concat, ← hbefore]
    by_cases ha : a ∈ l
    · rw [if_pos ha, if_pos (hmem.2 ha)]
    · rw [if_neg ha, if_neg (ha ∘ hmem.1), List.map_append, List.map_singleton]

end EraseDups

/-- The roles of an implementation that a topology has, with their tables, in the order of their
names. -/
def ImplementationConfig.rolesIn (config : ImplementationConfig) (topology : Template) :
    List (String × RoleOverrides) :=
  config.roles.entries.filter fun e => topology.roles.contains e.1

namespace ImplementationConfig

variable {config : ImplementationConfig} {topology : Template}

theorem mem_rolesIn {role : String} {table : RoleOverrides} :
    (role, table) ∈ config.rolesIn topology ↔
      role ∈ topology.roles ∧ config.roles.find? role = some table := by
  rw [rolesIn, List.mem_filter, List.contains_iff_mem, Dict.find?_eq_some_iff, and_comm]

theorem sorted_rolesIn (config : ImplementationConfig) (topology : Template) :
    ((config.rolesIn topology).map Prod.fst).Pairwise (· < ·) :=
  List.pairwise_map.2 (config.roles.sorted.filter _)

theorem table_unique {role : String} {table other : RoleOverrides}
    (h : (role, table) ∈ config.rolesIn topology) (h' : (role, other) ∈ config.rolesIn topology) :
    table = other :=
  Option.some.inj ((mem_rolesIn.1 h).2.symm.trans (mem_rolesIn.1 h').2)

theorem rolesIn_congr {others : Dict RoleOverrides}
    (h : ∀ role ∈ topology.roles, others.find? role = config.roles.find? role) :
    { config with roles := others }.rolesIn topology = config.rolesIn topology := by
  let kept (roles : Dict RoleOverrides) : Dict RoleOverrides :=
    roles.filter fun role _ => topology.roles.contains role
  have hkept : kept others = kept config.roles := by
    refine Dict.ext_find? fun role => ?_
    rw [Dict.find?_filter, Dict.find?_filter]
    by_cases hrole : role ∈ topology.roles
    · rw [h role hrole]
    · rw [← List.contains_iff_mem, Bool.not_eq_true] at hrole
      rw [hrole]
      cases others.find? role <;> cases config.roles.find? role <;> rfl
  exact congrArg Dict.entries hkept

end ImplementationConfig

namespace Documents

open RoleOverrides

def withRoles (d : Documents) (implementation : String) (config : ImplementationConfig)
    (roles : Dict RoleOverrides) : Documents :=
  let changed := { config with roles := roles }
  { d with implementations := d.implementations.insert implementation changed }

variable {d : Documents} {implementation : String} {config : ImplementationConfig}
  {topology : Template} {clouds : Dict CloudConfig} {defaults : RoleOverrides}

theorem plan_eq (hconfig : d.implementations.find? implementation = some config)
    (htopology : d.topologies.find? config.topology = some topology) :
    d.plan implementation =
      (planRoles d.clouds config.defaults (config.rolesIn topology) [] ∅).map fun placed =>
        { implementation := implementation, topologyName := config.topology, topology := topology
          environments := placed.1, components := placed.2
          sharedStorage := config.sharedStorage } := by
  rw [plan, hconfig]
  simp only [htopology]
  rfl

/-- Roles are placed if each of them is planned, and otherwise fail as the first one does. -/
theorem planRoles_alike (roles : List (String × RoleOverrides)) (environments : List Environment)
    (components : Dict (Dict ComponentParams)) :
    Fallible.Alike (planRoles clouds defaults roles environments components)
      (roles.mapM fun r => planRole clouds defaults r.1 r.2) := by
  induction roles generalizing environments components with
  | nil => exact .ok _ _
  | cons r rest ih =>
    rw [planRoles, List.mapM_cons]
    refine .bind (.refl _) fun x y hx hy => ?_
    obtain rfl := Except.ok.inj (hx.symm.trans hy)
    intro e
    rw [ih _ _ e, Fallible.bind_eq_error]
    refine ⟨.inl, fun h => ?_⟩
    rcases h with hfirst | ⟨_, _, hpure⟩
    · exact hfirst
    · cases hpure

/-- The environments of roles are listed in the order in which the roles use them first. -/
theorem environments_of_planRoles {roles : List (String × RoleOverrides)}
    {earlier environments after : List Environment} {components placed : Dict (Dict ComponentParams)}
    (hearlier : environments = earlier.eraseDups)
    (h : planRoles clouds defaults roles environments components = .ok (after, placed)) :
    ∃ planned, List.Forall₂ (fun r x => planRole clouds defaults r.1 r.2 = .ok x) roles planned ∧
      after = (earlier ++ planned.map Prod.fst).eraseDups := by
  induction roles generalizing earlier environments components with
  | nil =>
    rw [planRoles, Except.ok.injEq, Prod.mk.injEq] at h
    exact ⟨[], .nil, by rw [← h.1, hearlier, List.map_nil, List.append_nil]⟩
  | cons r rest ih =>
    rw [planRoles] at h
    obtain ⟨⟨env, params⟩, hrole, hrest⟩ := Fallible.bind_eq_ok.1 h
    have hplace : (place environments components r.1 env params).1 =
        (earlier ++ [env]).eraseDups := by
      rw [eraseDups_concat, place, hearlier]
      by_cases henv : env ∈ earlier
      · rw [if_pos henv, if_pos (by simpa using henv)]
      · rw [if_neg henv, if_neg (by simpa using henv)]
    obtain ⟨planned, hplanned, hafter⟩ := ih hplace hrest
    exact ⟨(env, params) :: planned, .cons hrole hplanned, by rw [hafter]; simp⟩

theorem environments_of_plan (hconfig : d.implementations.find? implementation = some config)
    (htopology : d.topologies.find? config.topology = some topology) {p : Plan}
    (h : d.plan implementation = .ok p) :
    ∃ planned, List.Forall₂ (fun r x => planRole d.clouds config.defaults r.1 r.2 = .ok x)
        (config.rolesIn topology) planned ∧ p.environments = (planned.map Prod.fst).eraseDups := by
  rw [plan_eq hconfig htopology] at h
  obtain ⟨⟨environments, components⟩, hplaced, rfl⟩ := Fallible.map_eq_ok.1 h
  have hnone : ([] : List Environment) = List.eraseDups [] := rfl
  exact environments_of_planRoles hnone hplaced

theorem exists_plan_eq_error_iff (hconfig : d.implementations.find? implementation = some config)
    (htopology : d.topologies.find? config.topology = some topology) :
    (∃ e, d.plan implementation = .error e) ↔
      ∃ r ∈ config.rolesIn topology, ∃ e, Fault d.clouds r.1 r.2 config.defaults e := by
  simp only [plan_eq hconfig htopology, Fallible.Alike.map _ _ _, planRoles_alike _ _ _ _,
    ← planRole_eq_error_iff]
  constructor
  · rintro ⟨e, he⟩
    obtain ⟨r, hr, hfailed⟩ := Fallible.exists_of_mapM_eq_error he
    exact ⟨r, hr, e, hfailed⟩
  · rintro ⟨r, hr, e, he⟩
    by_contra hnone
    cases hall : (config.rolesIn topology).mapM fun r =>
        planRole d.clouds config.defaults r.1 r.2 with
    | error e => exact hnone ⟨e, hall⟩
    | ok planned =>
      obtain ⟨x, -, hx⟩ := Fallible.exists_of_mapM_eq_ok hall r hr
      rw [he] at hx
      cases hx

theorem find?_components_of_plan (hconfig : d.implementations.find? implementation = some config)
    (htopology : d.topologies.find? config.topology = some topology) {p : Plan}
    (h : d.plan implementation = .ok p) {name role : String} {params : ComponentParams} :
    ((p.components.find? name).bind fun roles => roles.find? role) = some params ↔
      ∃ env, env.name = name ∧ ∃ table, (role, table) ∈ config.rolesIn topology ∧
        planRole d.clouds config.defaults role table = .ok (env, params) := by
  rw [(placed_of_plan h).1.find?_components]
  exact exists_congr fun env => and_congr_right fun _ => asks_iff hconfig htopology

/-- The environments of planned roles are told apart by their clouds and regions, which are those of
the roles. -/
theorem pairs_of_planned {roles : List (String × RoleOverrides)}
    {planned : List (Environment × ComponentParams)}
    (h : List.Forall₂ (fun r x => planRole clouds defaults r.1 r.2 = .ok x) roles planned) :
    (∀ env ∈ planned.map Prod.fst, ∀ other ∈ planned.map Prod.fst,
      (env.cloud, env.region) = (other.cloud, other.region) → env = other) ∧
    (planned.map Prod.fst).map (fun env => (env.cloud, env.region)) =
      planned.map fun x => (x.2.cloud, x.2.region) := by
  have hmade : ∀ x ∈ planned, ∃ config, clouds.find? x.2.cloud = some config ∧
      x.1 = .ofRegion x.2.cloud config.client x.2.region := by
    intro x hx
    obtain ⟨r, -, hr⟩ := Fallible.exists_of_mem_mapM (Fallible.mapM_eq_ok.2 h) x hx
    obtain ⟨config, hyields⟩ := planRole_eq_ok_iff.1 hr
    exact ⟨config, hyields.known, hyields.env⟩
  constructor
  · rintro env henv other hother hsame
    obtain ⟨x, hx, rfl⟩ := List.mem_map.1 henv
    obtain ⟨y, hy, rfl⟩ := List.mem_map.1 hother
    obtain ⟨config, hconfig, hxenv⟩ := hmade x hx
    obtain ⟨config', hconfig', hyenv⟩ := hmade y hy
    rw [hxenv, hyenv] at hsame ⊢
    obtain ⟨hcloud, hregion⟩ := Prod.mk.inj hsame
    change x.2.cloud = y.2.cloud at hcloud
    change x.2.region = y.2.region at hregion
    rw [hcloud, hconfig', Option.some.injEq] at hconfig
    rw [hcloud, hregion, hconfig]
  · rw [List.map_map]
    refine List.map_congr_left fun x hx => ?_
    obtain ⟨config, -, henv⟩ := hmade x hx
    rw [Function.comp_apply, henv]
    rfl

theorem find?_component_iff (hconfig : d.implementations.find? implementation = some config)
    (htopology : d.topologies.find? config.topology = some topology) {p : Plan}
    (h : d.plan implementation = .ok p) {role : String} {table : RoleOverrides}
    (hused : (role, table) ∈ config.rolesIn topology) {x : Environment × ComponentParams}
    (hx : planRole d.clouds config.defaults role table = .ok x) {name : String}
    {params : ComponentParams} :
    ((p.components.find? name).bind fun roles => roles.find? role) = some params ↔
      name = x.1.name ∧ params = x.2 := by
  rw [find?_components_of_plan hconfig htopology h]
  constructor
  · rintro ⟨env, rfl, table', htable, hplan⟩
    obtain rfl := ImplementationConfig.table_unique htable hused
    obtain rfl := Except.ok.inj (hplan.symm.trans hx)
    exact ⟨rfl, rfl⟩
  · rintro ⟨rfl, rfl⟩
    exact ⟨x.1, rfl, table, hused, hx⟩

/-- A plan fails as the first of its roles does that cannot be planned. -/
theorem plan_eq_error_iff (hconfig : d.implementations.find? implementation = some config)
    (htopology : d.topologies.find? config.topology = some topology) {e : ConfigError} :
    d.plan implementation = .error e ↔ ∃ before role table later,
      config.rolesIn topology = before ++ (role, table) :: later ∧
        (∀ r ∈ before, ∀ e, ¬ Fault d.clouds r.1 r.2 config.defaults e) ∧
        Fault d.clouds role table config.defaults e := by
  rw [plan_eq hconfig htopology, Fallible.Alike.map, planRoles_alike, Fallible.mapM_eq_error]
  have hplanned : ∀ r : String × RoleOverrides,
      (∃ x, planRole d.clouds config.defaults r.1 r.2 = .ok x) ↔
        ∀ e, ¬ Fault d.clouds r.1 r.2 config.defaults e := by
    intro r
    simp only [← planRole_eq_error_iff]
    cases planRole d.clouds config.defaults r.1 r.2 <;> simp
  simp only [hplanned, planRole_eq_error_iff, Prod.exists]

end Documents

open RoleOverrides

/-- A plan of an implementation whose topology exists looks only at the roles of the topology. It
fails as the first of them, in the order of their names, with which something is wrong. Otherwise
each of them stands in exactly one table, that of its environment, with parameters that the first of
its layers to set them decides, and there are no others; the environments are those of the roles, and
each pair of a cloud and a region is listed once, in the order of its first use. -/
theorem plan_follows_layers {d : Documents} {implementation : String}
    {config : ImplementationConfig} {topology : Template}
    (hconfig : d.implementations.find? implementation = some config)
    (htopology : d.topologies.find? config.topology = some topology) :
    (∀ others : Dict RoleOverrides,
      (∀ role ∈ topology.roles, others.find? role = config.roles.find? role) →
        (d.withRoles implementation config others).plan implementation = d.plan implementation) ∧
    (((config.rolesIn topology).map Prod.fst).Pairwise (· < ·) ∧
      ∀ role table, (role, table) ∈ config.rolesIn topology ↔
        role ∈ topology.roles ∧ config.roles.find? role = some table) ∧
    ((∃ e, d.plan implementation = .error e) ↔
      ∃ r ∈ config.rolesIn topology, ∃ e, Fault d.clouds r.1 r.2 config.defaults e) ∧
    (∀ e, d.plan implementation = .error e ↔ ∃ before role table later,
      config.rolesIn topology = before ++ (role, table) :: later ∧
        (∀ r ∈ before, ∀ e, ¬ Fault d.clouds r.1 r.2 config.defaults e) ∧
        Fault d.clouds role table config.defaults e) ∧
    ∀ p, d.plan implementation = .ok p → ∃ planned : List (Environment × ComponentParams),
      List.Forall₂ (fun r x =>
        (∃ cloud, Yields d.clouds r.1 r.2 config.defaults cloud x.1 x.2) ∧
          ∀ name params, ((p.components.find? name).bind fun roles => roles.find? r.1) =
            some params ↔ name = x.1.name ∧ params = x.2) (config.rolesIn topology) planned ∧
      (∀ name roles role, p.components.find? name = some roles → roles.contains role = true →
        ∃ table, (role, table) ∈ config.rolesIn topology) ∧
      p.environments = (planned.map Prod.fst).eraseDups ∧
      p.environments.map (fun env => (env.cloud, env.region)) =
        (planned.map fun x => (x.2.cloud, x.2.region)).eraseDups := by
  refine ⟨fun others h => ?_, ⟨config.sorted_rolesIn topology, fun role table =>
    ImplementationConfig.mem_rolesIn⟩, ?_, fun e => Documents.plan_eq_error_iff hconfig htopology,
    fun p h => ?_⟩
  -- A plan reads the roles of the topology only, and these have the same tables.
  · let changed := { config with roles := others }
    have hchanged : (d.withRoles implementation config others).implementations.find?
        implementation = some changed :=
      Dict.find?_insert_self d.implementations implementation changed
    have hroles : changed.rolesIn topology = config.rolesIn topology :=
      ImplementationConfig.rolesIn_congr h
    rw [Documents.plan_eq hchanged htopology, hroles, Documents.plan_eq hconfig htopology]
    rfl
  · rw [Documents.exists_plan_eq_error_iff hconfig htopology]
  · obtain ⟨planned, hplanned, henvironments⟩ :=
      Documents.environments_of_plan hconfig htopology h
    obtain ⟨hlength, hall⟩ := List.forall₂_iff_zip.1 hplanned
    refine ⟨planned, List.forall₂_iff_zip.2 ⟨hlength, fun {r x} hmem =>
      ⟨Documents.planRole_eq_ok_iff.1 (hall hmem), fun name params => ?_⟩⟩,
      fun name roles role hroles hrole => ?_, henvironments, ?_⟩
    · exact Documents.find?_component_iff hconfig htopology h (List.of_mem_zip hmem).1 (hall hmem)
    · obtain ⟨params, hparams⟩ := Dict.contains_iff.1 hrole
      obtain ⟨-, -, table, hmem, -⟩ := (Documents.find?_components_of_plan hconfig htopology h).1
        (Option.bind_eq_some_iff.2 ⟨roles, hroles, hparams⟩)
      exact ⟨table, hmem⟩
    · obtain ⟨hinjective, hpairs⟩ := Documents.pairs_of_planned hplanned
      rw [henvironments, map_eraseDups hinjective, hpairs]

namespace Sample

def leftTable : RoleOverrides :=
  { region := some "r2", parameters := Dict.ofList [("k", "table")] }

/-- An implementation with a role that its topology does not have, whose cloud is not defined. -/
def layeredConfig : ImplementationConfig :=
  { topology := "sides"
    defaults :=
      { cloud := some "a", region := some "r1"
        parameters := Dict.ofList [("k", "defaults"), ("m", "defaults")] }
    roles := Dict.ofList [("left", leftTable), ("right", {}), ("spare", { cloud := some "b" })] }

def layeredCloud : CloudConfig :=
  { client := "fake", user := some "u"
    defaults :=
      { region := some "r0", count := some 3
        parameters := Dict.ofList [("k", "cloud"), ("n", "cloud")] } }

def layered : Documents :=
  { topologies := Dict.ofList [("sides", sides)]
    implementations := Dict.ofList [("standard", layeredConfig)]
    clouds := Dict.ofList [("a", layeredCloud)] }

end Sample

/-- A role whose parameters come from four places, in the first of two environments. -/
theorem layered_plan_follows :
    ∃ (p : Plan) (planned : List (Environment × ComponentParams)) (params : ComponentParams),
      Sample.layered.implementations.find? "standard" = some Sample.layeredConfig ∧
    Sample.layered.topologies.find? Sample.layeredConfig.topology = some Sample.sides ∧
    Sample.layered.plan "standard" = .ok p ∧ p.environments.length = 2 ∧
    p.environments.map (fun env => (env.cloud, env.region)) =
      (planned.map fun x => (x.2.cloud, x.2.region)).eraseDups ∧
    ((p.components.find? "a-r2").bind fun roles => roles.find? "left") = some params ∧
    params.count = 3 ∧ params.user = some "u" ∧ params.parameter "k" = some "table" ∧
    params.parameter "m" = some "defaults" ∧ params.parameter "n" = some "cloud" := by
  have hplayed : (Sample.layered.plan "standard").map (fun p =>
      (p.environments.length, ((p.components.find? "a-r2").bind fun roles =>
        roles.find? "left").isSome)) = .ok (2, true) := by cbv
  obtain ⟨p, hp, hshape⟩ := Fallible.map_eq_ok.1 hplayed
  obtain ⟨hlength, hfound⟩ := Prod.mk.inj hshape
  obtain ⟨params, hparams⟩ := Option.isSome_iff_exists.1 hfound
  have hconfig : Sample.layered.implementations.find? "standard" = some Sample.layeredConfig := by
    cbv
  have htopology :
      Sample.layered.topologies.find? Sample.layeredConfig.topology = some Sample.sides := by cbv
  obtain ⟨-, -, -, -, hplans⟩ := plan_follows_layers hconfig htopology
  obtain ⟨planned, hplanned, -, -, hpairs⟩ := hplans p hp
  have hroles : Sample.layeredConfig.rolesIn Sample.sides =
      [("left", Sample.leftTable), ("right", {})] := by cbv
  rw [hroles] at hplanned
  cases hplanned with
  | cons hleft _ =>
    obtain ⟨⟨cloud, hyields⟩, htable⟩ := hleft
    obtain ⟨-, rfl⟩ := (htable _ _).1 hparams
    have hcloud : cloud = Sample.layeredCloud := by
      have hknown := hyields.known
      rw [← Option.some.inj hyields.chosen] at hknown
      exact (Option.some.inj hknown).symm
    subst hcloud
    have hfollows := hyields.follows
    refine ⟨p, _, _, hconfig, htopology, hp, hlength, hpairs, hparams, ?_⟩
    rw [hfollows.count, hfollows.user, hfollows.parameters, hfollows.parameters,
      hfollows.parameters]
    refine ⟨?_, ?_, ?_, ?_, ?_⟩ <;> cbv

end BenchCluster
