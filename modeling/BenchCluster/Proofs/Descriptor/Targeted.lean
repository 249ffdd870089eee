import BenchCluster.Proofs.Journal.Barriers
import BenchCluster.Proofs.Journal.Scripts

/-! # The target that an installation stores

With built-in roles an installation leads the proxy above each backend to the backend's own target,
and stores the target of the last backend in level order, seen through its proxy.
-/

namespace BenchCluster

variable {ω : Type} {s : Surroundings ω} {d : ClusterDescriptor} {ex : RemoteExecutor ω}

open Chore

namespace ClusterDescriptor

def Scripted (d : ClusterDescriptor) : Prop :=
  ∀ role ∈ d.topology.roles, ∃ kind, d.runsAs kind role = true

def Staffed (d : ClusterDescriptor) : Prop :=
  ∀ role, ∀ name ∈ d.instancesOf role, ∃ m, d.members.find? name = some m

def ownTarget? (d : ClusterDescriptor) (role : String) : Option ConnectionTarget :=
  if d.runsAs .backend role then d.backendTarget? role else none

theorem ownTarget?_eq_some {role : String} {own : ConnectionTarget}
    (h : d.ownTarget? role = some own) :
    d.runsAs .backend role = true ∧ d.backendTarget? role = some own := by
  rw [ownTarget?] at h
  split at h
  · rename_i hbackend
    exact ⟨hbackend, h⟩
  · cases h

end ClusterDescriptor

/-- The proxy of a call that leads one, and the target it is led to. -/
def OutsideCall.lead? : OutsideCall → Option (String × ConnectionTarget)
  | .role context (.postInstall target _) => some (context.params.role, target)
  | _ => none

namespace Upbringing

variable {u : Upbringing s d} {role : String} {x : BuiltRole ω}

/-! ## What stands above a role -/

theorem roleAbove?_eq_some (h : roleAbove? d.topology u.built role = some x) :
    x ∈ u.built ∧ d.topology.roleAbove? role = some x.name := by
  obtain ⟨parent, hparent, hfind⟩ := Option.bind_eq_some_iff.1 h
  have hname : x.name = parent := by simpa using List.find?_some hfind
  exact ⟨List.mem_of_find?_eq_some hfind, hname ▸ hparent⟩

theorem roleAbove?_eq_none (h : roleAbove? d.topology u.built role = none) :
    d.topology.roleAbove? role = none := by
  cases hparent : d.topology.roleAbove? role with
  | none => rfl
  | some parent =>
    obtain ⟨x, hx, rfl, -⟩ := u.exists_built (d.topology.mem_roles_of_roleAbove? hparent)
    rw [roleAbove?, hparent, Option.bind_some] at h
    exact absurd (List.find?_eq_none.1 h x hx) (by simp)

theorem exists_kind (hscripted : d.Scripted) (hx : x ∈ u.built) :
    ∃ kind, d.runsAs kind x.name = true :=
  hscripted x.name (u.runs hx).1

theorem proxyAbove?_eq_none (hbuiltin : s.HasBuiltin ex)
    (h : ∀ x ∈ roleAbove? d.topology u.built role, x.role.proxy = none) :
    d.proxyAbove? role = none := by
  rw [ClusterDescriptor.proxyAbove?]
  cases habove : roleAbove? d.topology u.built role with
  | none =>
    rw [u.roleAbove?_eq_none habove]
    rfl
  | some x =>
    obtain ⟨hx, hparent⟩ := u.roleAbove?_eq_some habove
    rw [hparent, Option.filter_some, if_neg]
    intro hkind
    have hproxy := ((u.builds x hx).proxy_isSome_iff hbuiltin hkind).2 rfl
    rw [h x habove] at hproxy
    cases hproxy

theorem proxyAbove?_eq_some (hbuiltin : s.HasBuiltin ex) (hscripted : d.Scripted)
    (habove : roleAbove? d.topology u.built role = some x) (hproxy : x.role.proxy.isSome = true) :
    d.runsAs .proxy x.name = true ∧ d.proxyAbove? role = some x.name := by
  obtain ⟨hx, hparent⟩ := u.roleAbove?_eq_some habove
  obtain ⟨kind, hkind⟩ := u.exists_kind hscripted hx
  obtain rfl := ((u.builds x hx).proxy_isSome_iff hbuiltin hkind).1 hproxy
  refine ⟨hkind, ?_⟩
  rw [ClusterDescriptor.proxyAbove?, hparent, Option.filter_some, if_pos hkind]

/-! ## The targets of backends -/

theorem target?_eq (hbuiltin : s.HasBuiltin ex) (hscripted : d.Scripted) (hstaffed : d.Staffed)
    (hinstalled : installing.Served u.built u.installs) (hok : Succeeded u.installs)
    {r : RoleReport ω (Option ConnectionTarget)} (hr : r ∈ u.installs) :
    r.target? = d.ownTarget? r.done.name ∧
      (d.runsAs .backend r.done.name = true → (d.ownTarget? r.done.name).isSome = true) := by
  have hx : r.done ∈ u.built := by
    rw [← hinstalled.done_eq]
    exact List.mem_map_of_mem hr
  obtain ⟨kind, hkind⟩ := u.exists_kind hscripted hx
  obtain ⟨inv, hanswer⟩ := hinstalled.answered r hr
  obtain ⟨target, htarget⟩ := Fallible.isOk_iff.1 (hok r hr)
  have hanswered := (u.builds _ hx).install_answer hbuiltin (hstaffed r.done.name) hkind
    (hanswer.symm.trans htarget)
  rw [RoleReport.target?, htarget, ClusterDescriptor.ownTarget?]
  by_cases hbackend : kind = .backend
  · rw [if_pos hbackend] at hanswered
    obtain ⟨own, hown, rfl⟩ := hanswered
    rw [hbackend] at hkind
    rw [if_pos hkind, hown]
    exact ⟨rfl, fun _ => rfl⟩
  · rw [if_neg hbackend] at hanswered
    have hnot : ¬ d.runsAs .backend r.done.name = true := fun h =>
      hbackend (ClusterDescriptor.kind_unique hkind h)
    rw [if_neg hnot]
    exact ⟨hanswered, fun h => absurd h hnot⟩

end Upbringing

/-! ## Leading them through proxies -/

/-- A chain over roles ends with the front of the last backend among them, and leads every proxy
above a backend to that backend's own target. -/
structure ClusterDescriptor.Ends (d : ClusterDescriptor) (roles : List String)
    (candidate result : Option ConnectionTarget) (leads : List (String × Option ConnectionTarget)) :
    Prop where
  fronts : ∀ role ∈ roles.filter (d.runsAs .backend), (d.front? role).isSome = true
  result_eq : result = ((roles.filter (d.runsAs .backend)).getLast?.map d.front?).getD candidate
  leads_eq : leads = (roles.filter (d.runsAs .backend)).filterMap d.lead?

/-- A backend in front of a chain hands its front on. -/
theorem ClusterDescriptor.Ends.cons {role : String} {rest : List String} {front : ConnectionTarget}
    {result : Option ConnectionTarget} {leads : List (String × Option ConnectionTarget)}
    (h : d.Ends rest (some front) result leads) (candidate : Option ConnectionTarget)
    (hbackend : d.runsAs .backend role = true) (hfront : d.front? role = some front) :
    d.Ends (role :: rest) candidate result ((d.lead? role).toList ++ leads) := by
  have hfilter : (role :: rest).filter (d.runsAs .backend) =
      role :: rest.filter (d.runsAs .backend) := List.filter_cons_of_pos hbackend
  refine ⟨?_, ?_, ?_⟩
  · rw [hfilter]
    exact List.forall_mem_cons.2 ⟨by rw [hfront]; rfl, h.fronts⟩
  · rw [hfilter, h.result_eq, List.getLast?_cons]
    cases (rest.filter (d.runsAs .backend)).getLast? <;> simp [hfront]
  · rw [hfilter, h.leads_eq, List.filterMap_cons]
    cases d.lead? role <;> rfl

theorem Chained.ends {u : Upbringing s d} (hbuiltin : s.HasBuiltin ex) (hscripted : d.Scripted)
    (hstaffed : d.Staffed) {roles : List String} {candidate result : Option ConnectionTarget}
    {calls : List JournalEntry}
    (h : Chained d.topology u.built (roles.map fun role => (role, d.ownTarget? role)) candidate
      result calls)
    (hown : ∀ role ∈ roles, d.runsAs .backend role = true → (d.ownTarget? role).isSome = true) :
    d.Ends roles candidate result
      ((calls.filterMap fun x => x.call.lead?).map (Prod.map id some)) := by
  generalize htargets : roles.map (fun role => (role, d.ownTarget? role)) = targets at h
  induction h generalizing roles with
  | nil =>
    rw [List.map_eq_nil_iff.1 htargets]
    exact ⟨by simp, rfl, rfl⟩
  | passed others ih =>
    obtain ⟨role, rest, rfl, hrole, hrest⟩ := List.map_eq_cons_iff.1 htargets
    obtain ⟨rfl, hnone⟩ := Prod.mk.inj hrole
    -- Backends have targets, so a role without one is none and does not count.
    have hnot : ¬ d.runsAs .backend role = true := by
      intro hbackend
      have hsome := hown role List.mem_cons_self hbackend
      rw [hnone] at hsome
      cases hsome
    have hfilter : (role :: rest).filter (d.runsAs .backend) = rest.filter (d.runsAs .backend) :=
      List.filter_cons_of_neg hnot
    obtain ⟨hfronts, hresult, hleads⟩ := ih (fun role hrole => hown role (by simp [hrole])) hrest
    exact ⟨hfilter ▸ hfronts, hfilter ▸ hresult, hfilter ▸ hleads⟩
  | @kept _ own _ candidate _ _ unproxied others ih =>
    obtain ⟨role, rest, rfl, hrole, hrest⟩ := List.map_eq_cons_iff.1 htargets
    obtain ⟨rfl, htarget⟩ := Prod.mk.inj hrole
    obtain ⟨hbackend, hown'⟩ := ClusterDescriptor.ownTarget?_eq_some htarget
    have hproxy := u.proxyAbove?_eq_none hbuiltin unproxied
    have hfront : d.front? role = some own := by
      rw [ClusterDescriptor.front?, hown', Option.bind_some, hproxy]
    have hends := (ih (fun role hrole => hown role (by simp [hrole])) hrest).cons candidate
      hbackend hfront
    rwa [ClusterDescriptor.lead?, hproxy] at hends
  | @led _ own chained x _ _ _ candidate _ _ above proxy answered others ih =>
    obtain ⟨role, rest, rfl, hrole, hrest⟩ := List.map_eq_cons_iff.1 htargets
    obtain ⟨rfl, htarget⟩ := Prod.mk.inj hrole
    obtain ⟨hbackend, hown'⟩ := ClusterDescriptor.ownTarget?_eq_some htarget
    obtain ⟨hkind, hproxy⟩ := u.proxyAbove?_eq_some hbuiltin hscripted above (by rw [proxy]; rfl)
    obtain ⟨inv, hanswer⟩ := answered
    have hx := u.builds x (u.roleAbove?_eq_some above).1
    have hfront : d.front? role = some chained := by
      rw [ClusterDescriptor.front?, hown', Option.bind_some, hproxy]
      exact hx.lead_answer hbuiltin (hstaffed x.name) hkind proxy hanswer
    have hends := (ih (fun role hrole => hown role (by simp [hrole])) hrest).cons candidate
      hbackend hfront
    rwa [ClusterDescriptor.lead?, hproxy, hown'] at hends

namespace Upbringing

variable {u : Upbringing s d} {result : Option ConnectionTarget}

theorem filterMap_lead : u.calls.filterMap (fun x => x.call.lead?) =
    u.leads.filterMap fun x => x.call.lead? := by
  have hconfigures : u.configures.filterMap (fun r => (configuring.entry r).call.lead?) = [] :=
    List.filterMap_eq_nil_iff.2 fun r _ => rfl
  have hinstalls : u.installs.filterMap (fun r => (installing.entry r).call.lead?) = [] :=
    List.filterMap_eq_nil_iff.2 fun r _ => rfl
  rw [filterMap_calls, hconfigures, hinstalls, List.nil_append, List.nil_append]

/-- What has been worked out is where clients connect, and the proxies have been led to their
targets. -/
theorem Finished.target_eq (h : u.Finished result) (hbuiltin : s.HasBuiltin ex)
    (hscripted : d.Scripted) (hstaffed : d.Staffed) :
    d.chainedTarget? = some (result.getD .placeholder) ∧
      (u.calls.filterMap fun x => x.call.lead?).map (Prod.map id some) =
        d.backends.filterMap d.lead? := by
  have htarget := fun r hr => u.target?_eq hbuiltin hscripted hstaffed h.installed h.installed_ok
    (r := r) hr
  have hroles : u.installs.map (fun x => (x.done.name, x.target?)) =
      d.topology.rolesInOrder.map fun role => (role, d.ownTarget? role) := by
    rw [← u.names, ← h.installed.done_eq, List.map_map, List.map_map]
    refine List.map_congr_left fun r hr => ?_
    rw [(htarget r hr).1]
    rfl
  have hchained := h.chained
  rw [hroles] at hchained
  have hends := hchained.ends hbuiltin hscripted hstaffed fun role hrole hbackend => by
    rw [← u.names, ← h.installed.done_eq, List.map_map] at hrole
    obtain ⟨r, hr, rfl⟩ := List.mem_map.1 hrole
    exact (htarget r hr).2 hbackend
  refine ⟨?_, by rw [filterMap_lead, hends.leads_eq, ClusterDescriptor.backends]⟩
  have hfronts := hends.fronts
  rw [hends.result_eq, ClusterDescriptor.chainedTarget?]
  rw [← ClusterDescriptor.backends] at hfronts ⊢
  cases hlast : d.backends.getLast? with
  | none => rfl
  | some last =>
    obtain ⟨front, hfront⟩ :=
      Option.isSome_iff_exists.1 (hfronts last (List.mem_of_getLast? hlast))
    simp [hfront]

end Upbringing

/-! ## Every installation -/

theorem ClusterDescriptor.Complete.staffed (h : d.Complete)
    (hstate : d.state = .allocated ∨ d.state = .ready ∨ d.state = .down) : d.Staffed :=
  fun _ _ hname => h.exists_member hstate hname

/-- An installation of a cluster with built-in roles that succeeds stores where clients connect: the
target of the last backend in level order, through the proxy directly above its first place. It has
led each proxy above a backend to that backend's own target, in level order, and no other. Instances
are numbered from zero, unless the name of their role has a comma in it. -/
theorem stored_target_chained (turns : List Turn) (s : Surroundings ω) (start : Invocation ω)
    {ex : RemoteExecutor ω} (hbuiltin : s.HasBuiltin ex) {cluster : String} {d : ClusterDescriptor}
    (hd : (Books.afterVentures turns).find? cluster = some d) (hscripted : d.Scripted)
    {installed : Option ClusterDescriptor}
    (hok : ((s.turn start cluster .install).venture (Books.afterVentures turns)).1 =
      .ok installed) :
    let before := Books.afterVentures turns
    let after := ((s.turn start cluster .install).venture before).2
    ∃ target calls, d.chainedTarget? = some target ∧
      after.find? cluster = some { d with connectionTarget := some target, state := .ready } ∧
      after.journal = before.journal ++ calls ∧
      (calls.filterMap fun x => x.call.lead?).map (Prod.map id some) =
        d.backends.filterMap d.lead? ∧
      ∀ role ∈ d.topology.roles, ',' ∉ role.toList → ∃ env params,
        d.component? role = some (env, params) ∧
          d.instancesOf role = (List.range params.count.toNat).map (instanceName role) := by
  intro before after
  have hnumbered : before.Every fun _ d => d.Numbered := Books.numbered_afterVentures turns
  rcases venture_install_cases s start cluster hnumbered with
    ⟨e, he⟩ | ⟨d', hloaded, u, ⟨e, he⟩ | ⟨result, late, hfinished, hdone⟩⟩
  · rw [he] at hok
    cases hok
  · rw [he] at hok
    cases hok
  obtain rfl : d = d' := Option.some.inj (hd.symm.trans hloaded.stored)
  have hname : d.clusterName = cluster := (Books.named_afterVentures turns cluster d hd).1
  have hstaffed : d.Staffed := (Books.complete_afterVentures turns cluster d hd).staffed
    (.inl (ClusterState.allows_install_iff.1 hloaded.allowed))
  obtain ⟨htarget, hleads⟩ := hfinished.target_eq hbuiltin hscripted hstaffed
  let saved : ClusterDescriptor :=
    { d with connectionTarget := some (result.getD .placeholder), state := .ready }
  have hafter : after = (before.enter u.calls).put late saved := congrArg Prod.snd hdone
  refine ⟨_, u.calls ++ [⟨late, .saved saved⟩], htarget, ?_, ?_, ?_, ?_⟩
  · rw [hafter, Books.find?_put, if_pos hname]
  · rw [hafter]
    simp
  · rw [List.filterMap_append, ← hleads]
    simp [OutsideCall.lead?]
  · intro role hrole hcomma
    have hd' := hnumbered cluster d hd
    obtain ⟨env, params, hcomponent, -⟩ := hd'.components role hrole
    exact ⟨env, params, hcomponent, hd'.instancesOf_eq hrole hcomponent hcomma⟩

theorem Sample.hasBuiltin_tiered : Sample.tiered.HasBuiltin Sample.steady.executor :=
  RoleRegistry.find?_builtin _

theorem sample_target_chained : ∃ (installed : ClusterDescriptor) (calls : List JournalEntry),
    ((Sample.tiered.turn { outside := 0 } "c" .install).venture
      (Books.afterVentures Sample.tierTurns)).2.find? "c" = some installed ∧
    installed.connectionTarget =
      some { hosts := ["p", "q"], port := some 6432, dialect := "postgresql" } ∧
    calls.filterMap (fun x => x.call.lead?) =
      [("front", { hosts := ["b"], port := some 5432, dialect := "postgresql" })] := by
  have hplayed : (((Books.afterVentures Sample.tierTurns).find? "c").map fun d =>
        (d.topology.roles, d.runsAs .backend "db", d.runsAs .proxy "front", d.chainedTarget?,
          d.backends.filterMap d.lead?),
      ((Sample.tiered.turn { outside := 0 } "c" .install).venture
        (Books.afterVentures Sample.tierTurns)).1.isOk) =
      (some (["db", "front"], true, true,
        some { hosts := ["p", "q"], port := some 6432, dialect := "postgresql" },
        [("front", some { hosts := ["b"], port := some 5432, dialect := "postgresql" })]),
        true) := by
    cbv
  simp only [Prod.mk.injEq, Option.map_eq_some_iff] at hplayed
  obtain ⟨⟨d, hd, hroles, hbackend, hproxy, htarget, hleads⟩, hok⟩ := hplayed
  have hscripted : d.Scripted := by
    intro role hrole
    rw [hroles] at hrole
    rcases List.mem_pair.1 hrole with rfl | rfl
    · exact ⟨_, hbackend⟩
    · exact ⟨_, hproxy⟩
  obtain ⟨installed, hinstalled⟩ := Fallible.isOk_iff.1 hok
  obtain ⟨target, calls, hchained, hstored, -, hled, -⟩ := stored_target_chained Sample.tierTurns
    Sample.tiered { outside := 0 } Sample.hasBuiltin_tiered hd hscripted hinstalled
  rw [htarget, Option.some.injEq] at hchained
  refine ⟨_, calls, hstored, by rw [← hchained], ?_⟩
  rw [hleads] at hled
  exact List.map_injective_iff.2 (Function.injective_id.prodMap (Option.some_injective _)) hled

end BenchCluster
