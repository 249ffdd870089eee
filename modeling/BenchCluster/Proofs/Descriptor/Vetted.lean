import BenchCluster.Proofs.Journal.Misconfigured
import BenchCluster.Proofs.Journal.Scripts

/-! # What a configuration vets

A configuration has made a client for every environment of its plan, and the plan has parameters for
every role of the topology. Later operations on the cluster fail neither for want of a cloud nor of a
component, as long as they know the same clouds. Whether roles can be built from their parameters is
found out by the operations that build them.
-/

namespace BenchCluster

variable {ω : Type} {documents : Documents} {implementation : String} {d after : ClusterDescriptor}

/-! ## Clients -/

def CloudRegistry.builtinClients : List String := [CommandCloud.client, External.client]

theorem CloudRegistry.exists_build_builtin_iff {programs : Programs ω} {draws : Draws}
    {env : Environment} {config : CloudConfig} {settings : Settings} :
    (∃ cloud, (CloudRegistry.builtin programs draws).build env config settings = .ok cloud) ↔
      env.client ∈ builtinClients := by
  have hfind : Dict.find? (CloudRegistry.builtin programs draws) env.client =
      if External.client = env.client then some fun _ _ _ => .ok External.cloud
      else if CommandCloud.client = env.client then some fun env config settings =>
        .ok ((CommandCloud.ofConfig env config settings).toCloud programs draws)
      else none := by
    rw [builtin, Dict.find?_ofList]
    by_cases hexternal : External.client = env.client
    · simp [hexternal]
    · by_cases hcommand : CommandCloud.client = env.client
      · simp [hexternal, hcommand]
      · simp [hexternal, hcommand]
  rw [build, hfind, builtinClients, List.mem_pair]
  by_cases hexternal : External.client = env.client
  · rw [if_pos hexternal]
    exact iff_of_true ⟨_, rfl⟩ (.inr hexternal.symm)
  rw [if_neg hexternal]
  by_cases hcommand : CommandCloud.client = env.client
  · rw [if_pos hcommand]
    exact iff_of_true ⟨_, rfl⟩ (.inl hcommand.symm)
  · rw [if_neg hcommand]
    refine iff_of_false (by simp) ?_
    rintro (h | h)
    · exact hcommand h.symm
    · exact hexternal h.symm

/-! ## Roles -/

/-- What keeps a built-in role from being built, as the error says that comes of it: there is no such
role, or a port is not a number. -/
inductive ComponentParams.Flaw (params : ComponentParams) : RoleError → Prop
  | implementation (unknown : ∀ kind : ScriptKind, params.implementation ≠ kind.key) :
      Flaw params (.unknownImplementation params.implementation)
  | port {key text : String} (read : key ∈ ["port", "listen_port"])
      (named : params.parameter key = some text) (unreadable : params.port? key = none) :
      Flaw params (.invalidParameter params.role key text)

namespace ScriptRole

variable {kind : ScriptKind} {context : RoleContext} {r : ScriptRole} {e : RoleError}

theorem port_eq_error {key : String} (h : r.port key = .error e) :
    ∃ text, r.context.params.parameter key = some text ∧ r.context.params.port? key = none ∧
      e = .invalidParameter r.context.params.role key text := by
  rw [ScriptRole.port, parameter] at h
  cases htext : r.context.params.parameter key with
  | none =>
    rw [htext] at h
    cases h
  | some text =>
    simp only [htext] at h
    cases hread : Text.readNat UInt16.size text with
    | error cause =>
      rw [hread] at h
      refine ⟨text, rfl, ?_, (Except.error.inj h).symm⟩
      rw [ComponentParams.port?, htext, Option.bind_some, hread]
      rfl
    | ok n =>
      rw [hread] at h
      cases h

theorem make_eq_error (h : make kind context = .error e) :
    (context.group.hosts = [] ∧ e = .noMembers context.params.role) ∨ context.params.Flaw e := by
  rw [make] at h
  by_cases hempty : context.group.hosts.isEmpty
  · rw [if_pos hempty] at h
    cases h
    exact .inl ⟨List.isEmpty_iff.1 hempty, rfl⟩
  · rw [if_neg hempty] at h
    right
    rcases Fallible.bind_eq_error.1 h with hport | ⟨_, -, h⟩
    · obtain ⟨text, hnamed, hunreadable, rfl⟩ := port_eq_error hport
      exact .port (by simp) hnamed hunreadable
    rcases Fallible.bind_eq_error.1 h with hport | ⟨_, -, h⟩
    · obtain ⟨text, hnamed, hunreadable, rfl⟩ := port_eq_error hport
      exact .port (by simp) hnamed hunreadable
    · cases h

/-- The port that a proxy listens on has been read when the role was made. -/
theorem exists_listenPort_of_make (h : make kind context = .ok r) :
    ∃ port, r.port "listen_port" = .ok port := by
  rw [make] at h
  by_cases hempty : context.group.hosts.isEmpty
  · rw [if_pos hempty] at h
    cases h
  · rw [if_neg hempty] at h
    obtain ⟨_, -, h⟩ := Fallible.bind_eq_ok.1 h
    obtain ⟨port, hport, h⟩ := Fallible.bind_eq_ok.1 h
    cases h
    exact ⟨port, hport⟩

theorem runStep_eq_error {ex : RemoteExecutor ω} {step : Step} {script : Option String}
    {inv : Invocation ω} (h : (r.runStep ex step script inv).1 = .error e) :
    ∃ cause, e = .remote r.name step.name cause := by
  cases script with
  | none => cases h
  | some text =>
    simp only [runStep, bind, StateT.bind] at h
    generalize ex.run _ _ _ inv = ran at h
    obtain ⟨reply, after⟩ := ran
    cases hresult : reply.result with
    | error cause =>
      simp only [hresult] at h
      cases h
      exact ⟨cause, rfl⟩
    | ok outputs =>
      simp only [hresult] at h
      cases h

end ScriptRole

theorem RoleRegistry.build_builtin_of_kind (ex : RemoteExecutor ω) {context : RoleContext}
    {kind : ScriptKind} (hkind : context.params.implementation = kind.key) :
    (RoleRegistry.builtin ex).build context =
      (ScriptRole.make kind context).map fun r => r.toRole ex := by
  rw [RoleRegistry.build, hkind, RoleRegistry.find?_builtin]
  rfl

/-- A built-in role cannot be built because it has no members or because of its parameters. -/
theorem RoleRegistry.build_builtin_eq_error {ex : RemoteExecutor ω} {context : RoleContext}
    {e : RoleError} (h : (RoleRegistry.builtin ex).build context = .error e) :
    (context.group.hosts = [] ∧ e = .noMembers context.params.role) ∨ context.params.Flaw e := by
  by_cases hkind : ∃ kind : ScriptKind, context.params.implementation = kind.key
  · obtain ⟨kind, hkind⟩ := hkind
    rw [build_builtin_of_kind ex hkind] at h
    exact ScriptRole.make_eq_error ((Fallible.Alike.map _ _ e).1 h)
  · rw [RoleRegistry.build] at h
    split at h
    · rename_i make hmake
      exact absurd (RoleRegistry.exists_kind hmake) hkind
    · cases h
      exact .inr (.implementation (not_exists.1 hkind))

/-- A built-in proxy that is led to a target fails because of its hosts only. -/
theorem Surroundings.Builds.lead_eq_error {s : Surroundings ω} {ex : RemoteExecutor ω}
    {x : BuiltRole ω} (hx : s.Builds d x) (hroles : s.roles = RoleRegistry.builtin ex)
    {lead : ConnectionTarget → Action ω (Except RoleError ConnectionTarget)}
    {target : ConnectionTarget} {inv : Invocation ω} {e : RoleError}
    (hlead : x.role.proxy = some lead) (h : (lead target inv).1 = .error e) :
    ∃ role step cause, e = .remote role step cause := by
  have hbuild := hx.build
  rw [hroles] at hbuild
  have hregistered := hbuild
  rw [RoleRegistry.build] at hregistered
  split at hregistered
  · rename_i make hmake
    obtain ⟨kind, hkind⟩ := RoleRegistry.exists_kind hmake
    rw [RoleRegistry.build_builtin_of_kind ex hkind] at hbuild
    obtain ⟨r, hr, hrole⟩ := Fallible.map_eq_ok.1 hbuild
    rw [← hrole] at hlead
    simp only [ScriptRole.toRole] at hlead
    split at hlead
    · cases hlead
      rw [ScriptRole.postInstall_answer] at h
      rcases Fallible.bind_eq_error.1 h with hstep | ⟨_, -, h⟩
      · obtain ⟨cause, rfl⟩ := ScriptRole.runStep_eq_error hstep
        exact ⟨_, _, cause, rfl⟩
      · obtain ⟨port, hport⟩ := ScriptRole.exists_listenPort_of_make hr
        rw [ScriptRole.proxyTarget, hport] at h
        cases h
    · cases hlead
  · cases hregistered

/-! ## What a configuration leaves to be found out -/

/-- The components are those that the documents ask for, the documents configure the clouds of all
environments, and these have clients that are built in. -/
structure ClusterDescriptor.Vetted (documents : Documents) (implementation : String)
    (d : ClusterDescriptor) : Prop where
  asked : ∀ role env params, d.component? role = some (env, params) →
    ∃ env, documents.Asks implementation role env params
  clients : ∀ env ∈ d.environments, (∃ config, documents.clouds.find? env.cloud = some config) ∧
    env.client ∈ CloudRegistry.builtinClients

theorem ClusterDescriptor.SamePlan.vetted (h : d.SamePlan after)
    (hd : d.Vetted documents implementation) : after.Vetted documents implementation := by
  rw [SamePlan] at h
  rw [h]
  exact ⟨hd.asked, hd.clients⟩

/-- The surroundings have the clouds of the documents, and the built-in clients and roles. -/
structure Surroundings.Matches (s : Surroundings ω) (documents : Documents) : Prop where
  configs : s.cloudConfigs = documents.clouds
  clouds : ∃ programs draws, s.clouds = CloudRegistry.builtin programs draws
  roles : ∃ ex, s.roles = RoleRegistry.builtin ex

namespace Surroundings

variable {s : Surroundings ω} {cluster : String} {e : OrchestratorError}

theorem buildCloud_eq_ok_iff {configs : Dict CloudConfig} {env : Environment}
    (hclouds : ∃ programs draws, s.clouds = CloudRegistry.builtin programs draws) :
    (∃ cloud, s.buildCloud configs env = .ok cloud) ↔
      (∃ config, configs.find? env.cloud = some config) ∧
        env.client ∈ CloudRegistry.builtinClients := by
  obtain ⟨programs, draws, hclouds⟩ := hclouds
  rw [buildCloud]
  cases hconfig : configs.find? env.cloud with
  | none => simp
  | some config =>
    simp only [hclouds, Fallible.mapError_eq_ok, Option.some.injEq, exists_eq', true_and]
    exact CloudRegistry.exists_build_builtin_iff

theorem Matches.exists_clouds (hs : s.Matches documents)
    (hd : d.Vetted documents implementation) :
    ∃ clouds, s.cloudsFor d.environments = .ok clouds := by
  obtain ⟨built, hbuilt⟩ := Fallible.exists_mapM_eq_ok (l := d.environments)
      (f := fun env => do
        let cloud ← s.buildCloud s.cloudConfigs env
        return (env.name, cloud)) fun env henv => by
    obtain ⟨cloud, hcloud⟩ := (buildCloud_eq_ok_iff hs.clouds).2 (hs.configs ▸ hd.clients env henv)
    exact ⟨(env.name, cloud), Fallible.bind_eq_ok.2 ⟨cloud, hcloud, rfl⟩⟩
  exact ⟨_, Fallible.bind_eq_ok.2 ⟨built, hbuilt, rfl⟩⟩

/-- The roles of a descriptor with components for all of them cannot be built only if a member has no
address or the registry does not build one of them. -/
theorem rolesOf_eq_error (hd : d.Numbered) (h : s.rolesOf d = .error e) :
    (∃ member, e = .noAddress member) ∨ ∃ role env params,
      d.component? role = some (env, params) ∧ ∃ context reason, context.params = params ∧
        s.roles.build context = .error reason ∧ e = .role reason := by
  have htree := hd.restore_eq
  rw [rolesOf, htree] at h
  rcases Fallible.bind_eq_error.1 h with hfailed | ⟨_, htree', h⟩
  · cases hfailed
  obtain rfl := Except.ok.inj htree'
  rcases Fallible.bind_eq_error.1 h with hfailed | ⟨_, -, hpure⟩
  · obtain ⟨group, hgroup, hrole⟩ := Fallible.exists_of_mapM_eq_error hfailed
    rw [ClusterDescriptor.groups_restore hd.expanded htree] at hgroup
    obtain ⟨role, hmem, rfl⟩ := List.mem_map.1 hgroup
    obtain ⟨env, params, hcomponent, -⟩ :=
      hd.components role (d.topology.mem_rolesInOrder.1 hmem)
    simp only [buildRole, hcomponent] at hrole
    rcases Fallible.bind_eq_error.1 hrole with hhosts | ⟨hosts, -, hrole⟩
    · left
      obtain ⟨m, -, hm⟩ := Fallible.exists_of_mapM_eq_error hhosts
      split at hm
      · cases hm
      · cases hm
        exact ⟨m.name, rfl⟩
    · rcases Fallible.bind_eq_error.1 hrole with hbuild | ⟨_, -, hpure⟩
      · obtain ⟨reason, hreason, rfl⟩ := Fallible.mapError_eq_error.1 hbuild
        exact .inr ⟨role, env, params, hcomponent, _, reason, rfl, hreason, rfl⟩
      · cases hpure
  · cases hpure

/-- A configuration error that comes of building the roles of a vetted descriptor is a flaw of the
parameters that the documents ask for. -/
theorem Matches.flaw_of_rolesOf (hs : s.Matches documents) (hnumbered : d.Numbered)
    (hd : d.Vetted documents implementation) (he : e.isMisconfiguration = true)
    (h : s.rolesOf d = .error e) :
    ∃ role env params reason, documents.Asks implementation role env params ∧
      params.Flaw reason ∧ e = .role reason := by
  obtain ⟨ex, hroles⟩ := hs.roles
  rcases rolesOf_eq_error hnumbered h with
    ⟨member, rfl⟩ | ⟨role, env, params, hcomponent, context, reason, rfl, hbuild, rfl⟩
  · cases he
  · rw [hroles] at hbuild
    obtain ⟨env, hasks⟩ := hd.asked role env context.params hcomponent
    rcases RoleRegistry.build_builtin_eq_error hbuild with ⟨-, rfl⟩ | hflaw
    · cases he
    · exact ⟨role, env, context.params, reason, hasks, hflaw, rfl⟩

end Surroundings

/-- In matching surroundings an operation on a vetted descriptor finds no configuration errors but
flaws of parameters, which show when roles are built. -/
theorem Misconfigured.flaw {s : Surroundings ω} {cluster : String} {request : Request}
    {e : OrchestratorError} {calls : List JournalEntry}
    (h : Misconfigured s cluster d request e calls) (hs : s.Matches documents)
    (hnumbered : d.Numbered) (hd : d.Vetted documents implementation)
    (he : e.isMisconfiguration = true) :
    (request = .install ∨ request = .stop ∨ request = .start) ∧
      ∃ role env params reason, documents.Asks implementation role env params ∧
        params.Flaw reason ∧ e = .role reason := by
  have hmade : ∀ {e}, s.cloudsFor d.environments ≠ .error e := by
    intro e hclouds
    obtain ⟨clouds, hok⟩ := hs.exists_clouds hd
    rw [hok] at hclouds
    cases hclouds
  cases h with
  | allocateClouds clouds => exact absurd clouds hmade
  | allocateRoles provisions =>
    obtain ⟨all, hall⟩ := hnumbered.exists_provisions cluster
    rw [hall] at provisions
    cases provisions
  | installRoles roles => exact ⟨.inl rfl, hs.flaw_of_rolesOf hnumbered hd he roles⟩
  | installProxy roles builds misled =>
    obtain ⟨-, mem, proxy, inv, answered⟩ := misled
    obtain ⟨ex, hroles⟩ := hs.roles
    obtain ⟨role, step, cause, rfl⟩ := (builds _ mem).lead_eq_error hroles proxy answered
    cases he
  | stopRoles roles => exact ⟨.inr (.inl rfl), hs.flaw_of_rolesOf hnumbered hd he roles⟩
  | stopClouds roles names clouds => exact absurd clouds hmade
  | startClouds clouds => exact absurd clouds hmade
  | startRoles clouds x up roles =>
    have hsame : d.SamePlan x.descriptor := rfl
    exact ⟨.inr (.inr rfl),
      hs.flaw_of_rolesOf (hsame.numbered hnumbered) (hsame.vetted hd) he roles⟩
  | cleanClouds names clouds => exact absurd clouds hmade

/-! ## Every run -/

namespace Surroundings

variable {s : Surroundings ω} {cluster : String} {force : Bool} {inv last : Invocation (Booked ω)}

/-- A configuration that succeeds with the built-in clients stores a vetted descriptor. -/
theorem configure_vets (hclouds : ∃ programs draws, s.clouds = CloudRegistry.builtin programs draws)
    (h : (s.frail.configure cluster documents implementation force).outcome inv = (.ok d, last)) :
    d.Vetted documents implementation ∧ last.books.find? cluster = some d := by
  obtain ⟨plan, names, now, before, hplan, -, hclients, rfl, hsaved⟩ := configure_eq_ok h
  constructor
  · refine ⟨fun role env params hcomponent => Plan.asks_of_component? hplan cluster _ hcomponent,
      fun env henv => ?_⟩
    obtain ⟨cloud, hcloud⟩ := hclients env henv
    have hcloud : s.booked.buildCloud documents.clouds env = .ok cloud := hcloud
    rw [buildCloud_booked, Fallible.map_eq_ok] at hcloud
    obtain ⟨c, hc, -⟩ := hcloud
    exact (buildCloud_eq_ok_iff hclouds).1 ⟨c, hc⟩
  · exact find?_of_save_frail hsaved

end Surroundings

theorem Turn.vets {t : Turn} {force : Bool}
    (hrequest : t.request = .configure documents implementation force)
    (hclouds : ∃ programs draws, t.surroundings.clouds = CloudRegistry.builtin programs draws)
    {b : Books} (hok : (t.venture b).1.isOk = true) {d : ClusterDescriptor}
    (hd : (t.venture b).2.find? t.cluster = some d) : d.Vetted documents implementation := by
  obtain ⟨answer, hanswer⟩ := Fallible.isOk_iff.1 hok
  have hserve : (t.surroundings.frail.serve t.cluster t.request).outcome (t.start.withBooks b) =
      (.ok answer, ((t.surroundings.frail.serve t.cluster t.request).outcome
        (t.start.withBooks b)).2) := Prod.ext hanswer rfl
  change ((t.surroundings.frail.serve t.cluster t.request).outcome
    (t.start.withBooks b)).2.books.find? t.cluster = some d at hd
  rw [hrequest, Surroundings.serve] at hserve hd
  obtain ⟨stored, last, hconfigure, hpure⟩ := Work.exists_of_bind_ok hserve
  obtain ⟨hvetted, hfind⟩ := Surroundings.configure_vets hclouds hconfigure
  rw [← congrArg Prod.snd hpure] at hd
  obtain rfl := Option.some.inj (hfind.symm.trans hd)
  exact hvetted

/-- As long as a cluster is not planned again, what is stored for it remains vetted. -/
theorem Books.vetted_afterVentures {before after : List Turn} {t : Turn} {force : Bool}
    (hrequest : t.request = .configure documents implementation force)
    (hclouds : ∃ programs draws, t.surroundings.clouds = CloudRegistry.builtin programs draws)
    (hok : (t.venture (afterVentures before)).1.isOk = true)
    (hkept : ∀ done u, done ++ [u] <+: after →
      ¬ u.Replans t.cluster (afterVentures (before ++ t :: done))) :
    ∀ d, (afterVentures (before ++ t :: after)).find? t.cluster = some d →
      d.Vetted documents implementation := by
  induction after using List.reverseRecOn with
  | nil =>
    intro d hd
    rw [afterVentures_concat] at hd
    exact Turn.vets hrequest hclouds hok hd
  | append_singleton done u ih =>
    intro d hd
    rw [← List.cons_append, ← List.append_assoc, afterVentures_concat] at hd
    obtain ⟨earlier, hearlier, hsame⟩ := Turn.samePlan_of_not_replans
      (named_afterVentures _) (hkept done u (List.prefix_refl _)) hd
    exact hsame.vetted (ih (fun l v h => hkept l v (h.trans (List.prefix_append _ _))) earlier
      hearlier)

/-- After a configuration has succeeded, and as long as the cluster is not planned again, its other
operations in matching surroundings find no configuration errors, except that an installation, a stop
or a start finds that a role cannot be built from the parameters that the documents ask for: its
implementation is not built in, or a port is not a number. -/
theorem misconfiguration_after_configure {before after : List Turn} {t u : Turn} {force : Bool}
    (hrequest : t.request = .configure documents implementation force)
    (hclouds : ∃ programs draws, t.surroundings.clouds = CloudRegistry.builtin programs draws)
    (hok : (t.venture (Books.afterVentures before)).1.isOk = true)
    (hkept : ∀ done u, done ++ [u] <+: after →
      ¬ u.Replans t.cluster (Books.afterVentures (before ++ t :: done)))
    (hcluster : u.cluster = t.cluster) (hplanning : u.request.isPlanning = false)
    (hmatches : u.surroundings.Matches documents) {e : OrchestratorError}
    (hanswer : (u.venture (Books.afterVentures (before ++ t :: after))).1 = .error e)
    (he : e.isMisconfiguration = true) :
    (u.request = .install ∨ u.request = .stop ∨ u.request = .start) ∧
      ∃ role env params reason, documents.Asks implementation role env params ∧
        params.Flaw reason ∧ e = .role reason := by
  have hsingle : u.request.stages = [u.request] := by
    cases h : u.request <;> simp_all [Request.stages, Request.isPlanning]
  have hnumbered := Books.numbered_afterVentures (before ++ t :: after)
  rcases u.misconfigured hsingle hnumbered he hanswer with ⟨hplans, -⟩ | ⟨d, hd, calls, hfound, -⟩
  · rw [hplanning] at hplans
    cases hplans
  · rw [hcluster] at hd
    have hvetted := Books.vetted_afterVentures hrequest hclouds hok hkept d hd
    exact hfound.flaw hmatches (hnumbered t.cluster d hd) hvetted he

namespace Sample

def ownDocuments (role : String) (parameters : Dict String) : Documents :=
  { topologies := Dict.ofList [("single", template)]
    implementations := Dict.ofList [("standard",
      { topology := "single"
        roles := Dict.ofList [("db",
          { cloud := some "own", region := some "r1", implementation := some role
            managed := some false, hosts := some ["h"], parameters := parameters })] })]
    clouds := Dict.ofList [("own", { client := "external" })] }

def own : Surroundings Nat :=
  { steady with
    cloudConfigs := Dict.ofList [("own", { client := "external" })]
    clouds := CloudRegistry.builtin ⟨fun _ _ => return .hanging⟩ .zero
    roles := RoleRegistry.builtin steady.executor }

def unreadable : Documents := ownDocuments "backend" (Dict.ofList [("port", "fifty")])

def unknown : Documents := ownDocuments "mystery" ∅

def ownTurns (documents : Documents) : List Turn :=
  [.configure documents "standard" false, .allocate false].map fun request =>
    own.turn { outside := 0 } "c" request

def ownInstall : Turn := own.turn { outside := 0 } "c" .install

theorem matches_own (role : String) (parameters : Dict String) :
    own.Matches (ownDocuments role parameters) :=
  ⟨rfl, ⟨_, _, rfl⟩, ⟨_, rfl⟩⟩

end Sample

/-- A configuration succeeds although a port is not a number, which only the installation finds, once
the cluster has been allocated. -/
theorem sample_port_not_vetted : Sample.own.Matches Sample.unreadable ∧
    ((Sample.own.turn { outside := 0 } "c" (.configure Sample.unreadable "standard" false)).venture
      .blank).1.isOk = true ∧
    ((Books.afterVentures (Sample.ownTurns Sample.unreadable)).find? "c").map
      ClusterDescriptor.state = some .allocated ∧
    (Sample.ownInstall.venture (Books.afterVentures (Sample.ownTurns Sample.unreadable))).1 =
      .error (.role (.invalidParameter "db" "port" "fifty")) := by
  have hplayed : (((Sample.own.turn { outside := 0 } "c"
        (.configure Sample.unreadable "standard" false)).venture .blank).1.isOk,
      ((Books.afterVentures (Sample.ownTurns Sample.unreadable)).find? "c").map
        ClusterDescriptor.state,
      (Sample.ownInstall.venture (Books.afterVentures (Sample.ownTurns Sample.unreadable))).1) =
      (true, some .allocated, .error (.role (.invalidParameter "db" "port" "fifty"))) := by
    cbv
  simp only [Prod.mk.injEq] at hplayed
  exact ⟨Sample.matches_own _ _, hplayed⟩

/-- An implementation that is not known is found by the installation as well, and what it answers is
a flaw of the parameters. -/
theorem sample_implementation_not_vetted :
    (Sample.ownInstall.venture (Books.afterVentures (Sample.ownTurns Sample.unknown))).1 =
        .error (.role (.unknownImplementation "mystery")) ∧
      ∃ role env params, Sample.unknown.Asks "standard" role env params ∧
        params.Flaw (.unknownImplementation "mystery") := by
  let t := Sample.own.turn { outside := 0 } "c" (.configure Sample.unknown "standard" false)
  let allocation := Sample.own.turn { outside := 0 } "c" (.allocate false)
  have hplayed : (((Sample.own.turn { outside := 0 } "c"
        (.configure Sample.unknown "standard" false)).venture .blank).1.isOk,
      (Sample.ownInstall.venture (Books.afterVentures (Sample.ownTurns Sample.unknown))).1) =
      (true, .error (.role (.unknownImplementation "mystery"))) := by
    cbv
  simp only [Prod.mk.injEq] at hplayed
  obtain ⟨hok, hanswer⟩ := hplayed
  have hfirst : (t.venture (Books.afterVentures [])).1.isOk = true := hok
  have hkept : ∀ done u, done ++ [u] <+: [allocation] →
      ¬ u.Replans t.cluster (Books.afterVentures ([] ++ t :: done)) := by
    rintro done u hbegins ⟨-, hplanning, -⟩
    have hu : u = allocation := List.mem_singleton.1 (hbegins.subset (by simp))
    rw [hu] at hplanning
    cases hplanning
  obtain ⟨-, role, env, params, reason, hasks, hflaw, hreason⟩ :=
    misconfiguration_after_configure (t := t) (u := Sample.ownInstall) rfl
      ⟨_, _, rfl⟩ hfirst hkept rfl rfl (Sample.matches_own _ _) hanswer rfl
  cases hreason
  exact ⟨hanswer, role, env, params, hasks, hflaw⟩

end BenchCluster
