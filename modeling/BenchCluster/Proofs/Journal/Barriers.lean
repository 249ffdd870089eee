import BenchCluster.Proofs.Journal.Upbringing

/-! # The barriers between the phases of an installation

No call of an installation is made before the calls that it has to wait for have succeeded: roles
wait for those of earlier environments to be configured, installations for all configurations, and
proxies for all installations.
-/

namespace BenchCluster

variable {ω : Type} {s : Surroundings ω} {d : ClusterDescriptor}

open Chore

/-! ## Laws about calls and what was done before them -/

/-- Each of the calls keeps a law about what was done before it. -/
def Orderly (law : List JournalEntry → OutsideCall → Prop) (before calls : List JournalEntry) :
    Prop :=
  ∀ first x rest, calls = first ++ x :: rest → law (before ++ first) x.call

namespace Orderly

variable {law : List JournalEntry → OutsideCall → Prop} {before calls more : List JournalEntry}

theorem nil : Orderly law before [] := by
  intro first x rest h
  cases first <;> cases h

theorem append (h : Orderly law before calls) (hmore : Orderly law (before ++ calls) more) :
    Orderly law before (calls ++ more) := by
  intro first x rest hsplit
  rcases eq_append_cons_cases hsplit with ⟨l, hl⟩ | ⟨l, rfl, hl⟩
  · exact h first x l hl
  · rw [← List.append_assoc]
    exact hmore l x rest hl

theorem singleton {x : JournalEntry} (h : law before x.call) : Orderly law before [x] := by
  intro first y rest hsplit
  rcases List.singleton_eq_append_iff.1 hsplit with ⟨rfl, hrest⟩ | ⟨-, hrest⟩
  · cases hrest
    rwa [List.append_nil]
  · cases hrest

end Orderly

def Configured (done : List JournalEntry) (role : String) : Prop :=
  ∃ x ∈ done, ∃ context, x.call = .role context (.configure (.ok ())) ∧ context.params.role = role

def Installed (done : List JournalEntry) (role : String) : Prop :=
  ∃ x ∈ done, ∃ context target, x.call = .role context (.install (.ok target)) ∧
    context.params.role = role

theorem Configured.append {done : List JournalEntry} {role : String} (h : Configured done role)
    (more : List JournalEntry) : Configured (done ++ more) role := by
  obtain ⟨x, hx, hcall⟩ := h
  exact ⟨x, List.mem_append_left _ hx, hcall⟩

namespace ClusterDescriptor

/-- A context is that of a role of the topology, with its environment and its parameters. -/
def Runs (d : ClusterDescriptor) (context : RoleContext) : Prop :=
  context.params.role ∈ d.topology.roles ∧
    d.component? context.params.role = some (context.environment, context.params)

/-- What has to be done before a call of an installation. No other calls are made. -/
def Barred (d : ClusterDescriptor) (done : List JournalEntry) : OutsideCall → Prop
  | .role context (.configure _) => d.Runs context ∧ ∀ earlier later,
    d.environments = earlier ++ context.environment :: later → ∀ env ∈ earlier,
      ∀ role ∈ d.topology.roles, ∀ params, d.component? role = some (env, params) →
        Configured done role
  | .role context (.install _) => d.Runs context ∧ ∀ role ∈ d.topology.roles, Configured done role
  | .role context (.postInstall ..) => d.Runs context ∧
    ∀ role ∈ d.topology.roles, Installed done role
  | .saved after => after.state = .ready →
    (∀ role ∈ d.topology.roles, Configured done role ∧ Installed done role) ∧
      ∀ x ∈ done, ∀ context target answer,
        x.call = .role context (.postInstall target answer) → answer.isOk = true
  | _ => False

end ClusterDescriptor

def OutsideCall.configured? : OutsideCall → Option String
  | .role context (.configure _) => some context.params.role
  | _ => none

def OutsideCall.installed? : OutsideCall → Option String
  | .role context (.install _) => some context.params.role
  | _ => none

/-! ## The calls that bring up a cluster -/

namespace Surroundings

theorem runs_of_builds {built : List (BuiltRole ω)}
    (hnames : built.map BuiltRole.name = d.topology.rolesInOrder)
    (hbuilds : ∀ x ∈ built, s.Builds d x) : ∀ x ∈ built, d.Runs x.context := by
  intro x hx
  refine ⟨?_, (hbuilds x hx).component⟩
  rw [← d.topology.mem_rolesInOrder, ← hnames]
  exact List.mem_map_of_mem (f := BuiltRole.name) hx

theorem mem_tenants {built : List (BuiltRole ω)} {environments : List Environment}
    {x : BuiltRole ω} : x ∈ tenants built environments ↔
      x ∈ built ∧ x.context.environment.name ∈ environments.map Environment.name := by
  simp only [tenants, List.mem_flatMap, List.mem_filter, BuiltRole.livesIn, decide_eq_true_eq,
    List.mem_map]
  constructor
  · rintro ⟨env, henv, hx, hname⟩
    exact ⟨hx, env, henv, hname.symm⟩
  · rintro ⟨hx, env, henv, hname⟩
    exact ⟨env, henv, hx, hname.symm⟩

theorem nodup_tenants {built : List (BuiltRole ω)} {environments : List Environment}
    (hbuilt : (built.map BuiltRole.name).Nodup)
    (hnames : (environments.map Environment.name).Nodup) :
    ((tenants built environments).map BuiltRole.name).Nodup := by
  rw [tenants, List.map_flatMap, List.nodup_flatMap]
  refine ⟨fun env _ => hbuilt.sublist (List.filter_sublist.map _), ?_⟩
  refine (List.pairwise_map.1 hnames).imp fun {env env'} hne => ?_
  intro name hname hname'
  obtain ⟨x, hx, rfl⟩ := List.mem_map.1 hname
  obtain ⟨y, hy, hsame⟩ := List.mem_map.1 hname'
  rw [List.mem_filter] at hx hy
  obtain rfl := List.inj_on_of_nodup_map hbuilt hx.1 hy.1 hsame.symm
  simp only [BuiltRole.livesIn, decide_eq_true_eq] at hx hy
  exact hne (hx.2.symm.trans hy.2)

end Surroundings

namespace Upbringing

variable (u : Upbringing s d)

theorem nodup_names : (u.built.map BuiltRole.name).Nodup := by
  rw [u.names]
  exact d.topology.nodup_rolesInOrder

theorem runs {x : BuiltRole ω} (h : x ∈ u.built) : d.Runs x.context :=
  Surroundings.runs_of_builds u.names u.builds x h

theorem exists_built {role : String} (h : role ∈ d.topology.roles) :
    ∃ x ∈ u.built, x.name = role ∧ x.context.environment ∈ d.environments := by
  rw [← d.topology.mem_rolesInOrder, ← u.names] at h
  obtain ⟨x, hx, rfl⟩ := List.mem_map.1 h
  exact ⟨x, hx, rfl, ClusterDescriptor.component?_eq_some (u.builds x hx).component⟩

theorem configured_of_report {reports : List (RoleReport ω Unit)} {r : RoleReport ω Unit}
    (hr : r ∈ reports) (hok : r.answer.isOk = true) :
    Configured (reports.map configuring.entry) r.done.name := by
  obtain ⟨_, hanswer⟩ := Fallible.isOk_iff.1 hok
  exact ⟨_, List.mem_map_of_mem hr, r.done.context,
    by simp only [entry, configuring, hanswer], rfl⟩

/-- Once all configurations have succeeded, every role has been configured. -/
theorem configured_all (hdone : u.configures.map RoleReport.done =
      Surroundings.tenants u.built d.environments) (hok : Succeeded u.configures) {role : String}
    (h : role ∈ d.topology.roles) : Configured (u.configures.map configuring.entry) role := by
  obtain ⟨x, hx, rfl, henv⟩ := u.exists_built h
  have hmem : x ∈ u.configures.map RoleReport.done := by
    rw [hdone, Surroundings.mem_tenants]
    exact ⟨hx, List.mem_map_of_mem henv⟩
  obtain ⟨r, hr, rfl⟩ := List.mem_map.1 hmem
  exact configured_of_report hr (hok r hr)

/-- Once all installations have succeeded, every role has been installed. -/
theorem installed_all (hdone : u.installs.map RoleReport.done = u.built)
    (hok : Succeeded u.installs) {role : String} (h : role ∈ d.topology.roles) :
    Installed (u.installs.map installing.entry) role := by
  obtain ⟨x, hx, rfl, -⟩ := u.exists_built h
  rw [← hdone] at hx
  obtain ⟨r, hr, rfl⟩ := List.mem_map.1 hx
  obtain ⟨target, hanswer⟩ := Fallible.isOk_iff.1 (hok r hr)
  exact ⟨_, List.mem_map_of_mem hr, r.done.context, target,
    by simp only [entry, installing, hanswer], rfl⟩

/-- Roles wait for those of earlier environments to be configured. -/
theorem orderly_configures (hnames : (d.environments.map Environment.name).Nodup) :
    Orderly d.Barred [] (u.configures.map configuring.entry) := by
  intro first x rest hsplit
  obtain ⟨before, others, hreports, rfl, hothers⟩ := List.map_eq_append_iff.1 hsplit
  obtain ⟨r, after, rfl, rfl, -⟩ := List.map_eq_cons_iff.1 hothers
  have hr : r.done ∈ u.built := by
    have hmem := u.configures_done.subset (List.mem_map_of_mem (f := RoleReport.done)
      (show r ∈ u.configures by rw [hreports]; simp))
    exact (Surroundings.mem_tenants.1 hmem).1
  refine ⟨u.runs hr, fun earlier later henvironments env henv role hrole params hcomponent => ?_⟩
  obtain ⟨y, hy, rfl, -⟩ := u.exists_built hrole
  rw [(u.builds y hy).component, Option.some.injEq, Prod.mk.injEq] at hcomponent
  have hyEarlier : y ∈ Surroundings.tenants u.built earlier :=
    Surroundings.mem_tenants.2 ⟨hy, List.mem_map_of_mem (hcomponent.1 ▸ henv)⟩
  obtain ⟨r', hr', rfl, hok⟩ := u.configures_turn hnames before r after hreports earlier _ later
    henvironments (by simp [BuiltRole.livesIn]) y hyEarlier
  exact configured_of_report hr' hok

/-- Installations wait for all configurations. -/
theorem orderly_installs :
    Orderly d.Barred (u.configures.map configuring.entry) (u.installs.map installing.entry) := by
  intro first x rest hsplit
  obtain ⟨before, others, hreports, rfl, hothers⟩ := List.map_eq_append_iff.1 hsplit
  obtain ⟨r, after, rfl, rfl, -⟩ := List.map_eq_cons_iff.1 hothers
  have hr : r ∈ u.installs := by
    rw [hreports]
    simp
  obtain ⟨hdone, hok⟩ := u.installs_after (List.ne_nil_of_mem hr)
  exact ⟨u.runs (u.installs_done.subset (List.mem_map_of_mem hr)),
    fun role hrole => (u.configured_all hdone hok hrole).append _⟩

/-- Proxies wait for all installations. -/
theorem orderly_leads :
    Orderly d.Barred (u.configures.map configuring.entry ++ u.installs.map installing.entry)
      u.leads := by
  intro first x rest hsplit
  have hx : x ∈ u.leads := by
    rw [hsplit]
    simp
  obtain ⟨y, hy, target, answer, hcall⟩ := u.leads_done x hx
  obtain ⟨hdone, hok⟩ := u.leads_after (List.ne_nil_of_mem hx)
  rw [hcall]
  refine ⟨u.runs hy, fun role hrole => ?_⟩
  obtain ⟨e, he, hinstalled⟩ := u.installed_all hdone hok hrole
  exact ⟨e, List.mem_append_left _ (List.mem_append_right _ he), hinstalled⟩

theorem orderly_calls (hnames : (d.environments.map Environment.name).Nodup) :
    Orderly d.Barred [] u.calls := by
  refine ((u.orderly_configures hnames).append ?_).append ?_
  · exact u.orderly_installs
  · exact u.orderly_leads

/-! ### How often roles are configured and installed -/

theorem filterMap_calls {β : Type} (f : OutsideCall → Option β) :
    u.calls.filterMap (fun x => f x.call) =
      u.configures.filterMap (fun r => f (configuring.entry r).call) ++
        u.installs.filterMap (fun r => f (installing.entry r).call) ++
          u.leads.filterMap fun x => f x.call := by
  rw [calls, List.filterMap_append, List.filterMap_append, List.filterMap_map, List.filterMap_map]
  rfl

theorem filterMap_leads {β : Type} {f : OutsideCall → Option β}
    (hf : ∀ context target answer, f (.role context (.postInstall target answer)) = none) :
    u.leads.filterMap (fun x => f x.call) = [] := by
  refine List.filterMap_eq_nil_iff.2 fun x hx => ?_
  obtain ⟨y, -, target, answer, hcall⟩ := u.leads_done x hx
  rw [hcall]
  exact hf y.context target answer

theorem filterMap_configured : u.calls.filterMap (fun x => x.call.configured?) =
    (u.configures.map RoleReport.done).map BuiltRole.name := by
  have hinstalls : u.installs.filterMap (fun r => (installing.entry r).call.configured?) = [] :=
    List.filterMap_eq_nil_iff.2 fun r _ => rfl
  rw [filterMap_calls, hinstalls, u.filterMap_leads fun _ _ _ => rfl, List.append_nil,
    List.append_nil, List.map_map, ← List.filterMap_eq_map]
  rfl

theorem filterMap_installed : u.calls.filterMap (fun x => x.call.installed?) =
    (u.installs.map RoleReport.done).map BuiltRole.name := by
  have hconfigures : u.configures.filterMap (fun r => (configuring.entry r).call.installed?) = [] :=
    List.filterMap_eq_nil_iff.2 fun r _ => rfl
  rw [filterMap_calls, hconfigures, u.filterMap_leads fun _ _ _ => rfl, List.append_nil,
    List.nil_append, List.map_map, ← List.filterMap_eq_map]
  rfl

theorem nodup_configured (hnames : (d.environments.map Environment.name).Nodup) :
    (u.calls.filterMap fun x => x.call.configured?).Nodup := by
  rw [u.filterMap_configured]
  exact (Surroundings.nodup_tenants u.nodup_names hnames).sublist (u.configures_done.sublist.map _)

theorem nodup_installed : (u.calls.filterMap fun x => x.call.installed?).Nodup := by
  rw [u.filterMap_installed]
  exact u.nodup_names.sublist (u.installs_done.sublist.map _)

end Upbringing

/-! ## Leading proxies -/

namespace Chained

variable {t : Template} {built : List (BuiltRole ω)}
  {targets : List (String × Option ConnectionTarget)} {candidate result : Option ConnectionTarget}
  {calls : List JournalEntry}

theorem isOk (h : Chained t built targets candidate result calls) :
    ∀ x ∈ calls, ∀ context target answer,
      x.call = .role context (.postInstall target answer) → answer.isOk = true := by
  induction h with
  | nil => simp
  | passed others ih => exact ih
  | kept unproxied others ih => exact ih
  | led above proxy answered others ih =>
    intro x hx context target answer hcall
    rcases List.mem_cons.1 hx with rfl | hx
    · cases hcall
      rfl
    · exact ih x hx context target answer hcall

/-- Every proxy has been led to the targets of the roles below it. -/
theorem exists_lead (h : Chained t built targets candidate result calls) {role : String}
    {target : ConnectionTarget} (htarget : (role, some target) ∈ targets) {x : BuiltRole ω}
    (habove : roleAbove? t built role = some x) (hproxy : x.role.proxy.isSome = true) :
    ∃ y ∈ calls, ∃ chained, y.call = .role x.context (.postInstall target (.ok chained)) := by
  induction h with
  | nil => cases htarget
  | passed others ih =>
    rcases List.mem_cons.1 htarget with heq | htarget
    · cases heq
    · exact ih htarget
  | kept unproxied others ih =>
    rcases List.mem_cons.1 htarget with heq | htarget
    · cases heq
      rw [unproxied x habove] at hproxy
      cases hproxy
    · exact ih htarget
  | led above proxy answered others ih =>
    rcases List.mem_cons.1 htarget with heq | htarget
    · cases heq
      obtain rfl := Option.some.inj (above.symm.trans habove)
      exact ⟨_, List.mem_cons_self, _, rfl⟩
    · obtain ⟨y, hy, hcall⟩ := ih htarget
      exact ⟨y, List.mem_cons_of_mem _ hy, hcall⟩

end Chained

/-- Every proxy that stands directly above a role with a target has been led to it, with success. -/
def Surroundings.LeadsAll (s : Surroundings ω) (d : ClusterDescriptor)
    (calls : List JournalEntry) : Prop :=
  ∀ x ∈ calls, ∀ y ∈ calls, ∀ below above target answer,
    x.call = .role below (.install (.ok (some target))) → y.call = .role above (.install answer) →
      d.topology.roleAbove? below.params.role = some above.params.role →
        ∀ r, s.roles.build above = .ok r → r.proxy.isSome = true →
          ∃ z ∈ calls, ∃ chained, z.call = .role above (.postInstall target (.ok chained))

theorem Surroundings.LeadsAll.append_saved {calls : List JournalEntry} (h : s.LeadsAll d calls)
    (late : Bool) (after : ClusterDescriptor) :
    s.LeadsAll d (calls ++ [⟨late, .saved after⟩]) := by
  intro x hx y hy below above target answer hbelow habove hplace role hrole hproxy
  have hmem : ∀ z ∈ calls ++ [⟨late, .saved after⟩], ∀ context step,
      z.call = .role context step → z ∈ calls := by
    intro z hz context step hcall
    rcases List.mem_append.1 hz with hz | hz
    · exact hz
    · rw [List.mem_singleton.1 hz] at hcall
      cases hcall
  obtain ⟨z, hz, hlead⟩ := h x (hmem x hx _ _ hbelow) y (hmem y hy _ _ habove) below above target
    answer hbelow habove hplace role hrole hproxy
  exact ⟨z, List.mem_append_left _ hz, hlead⟩

namespace Upbringing

variable {u : Upbringing s d} {result : Option ConnectionTarget}

theorem exists_install {x : JournalEntry} (hx : x ∈ u.calls) {context : RoleContext}
    {answer : Except RoleError (Option ConnectionTarget)}
    (hcall : x.call = .role context (.install answer)) :
    ∃ r ∈ u.installs, r.done.context = context ∧ r.answer = answer := by
  rw [calls, List.mem_append, List.mem_append] at hx
  rcases hx with (hx | hx) | hx
  · obtain ⟨r, -, rfl⟩ := List.mem_map.1 hx
    cases hcall
  · obtain ⟨r, hr, rfl⟩ := List.mem_map.1 hx
    cases hcall
    exact ⟨r, hr, rfl, rfl⟩
  · obtain ⟨y, -, target, answer', hlead⟩ := u.leads_done x hx
    rw [hlead] at hcall
    cases hcall

theorem Finished.leadsAll (h : u.Finished result) : s.LeadsAll d u.calls := by
  intro x hx y hy below above target answer hbelow habove hplace role hrole hproxy
  obtain ⟨r, hr, rfl, hanswer⟩ := u.exists_install hx hbelow
  obtain ⟨r', hr', rfl, -⟩ := u.exists_install hy habove
  have hbuilt : r'.done ∈ u.built := u.installs_done.subset (List.mem_map_of_mem hr')
  have hfind : roleAbove? d.topology u.built r.done.name = some r'.done := by
    have hplace' : d.topology.roleAbove? r.done.name = some r'.done.name := hplace
    rw [roleAbove?, hplace', Option.bind_some]
    cases hf : u.built.find? fun x => x.name = r'.done.name with
    | none => exact absurd (List.find?_eq_none.1 hf r'.done hbuilt) (by simp)
    | some z =>
      have hname : z.name = r'.done.name := by simpa using List.find?_some hf
      rw [List.inj_on_of_nodup_map u.nodup_names (List.mem_of_find?_eq_some hf) hbuilt hname]
  have hsame : r'.done.role = role :=
    Except.ok.inj ((u.builds r'.done hbuilt).build.symm.trans hrole)
  have htarget : (r.done.name, some target) ∈ u.installs.map fun x => (x.done.name, x.target?) := by
    refine List.mem_map.2 ⟨r, hr, ?_⟩
    simp only [RoleReport.target?, hanswer]
  obtain ⟨z, hz, chained, hcall⟩ := h.chained.exists_lead htarget hfind (hsame ▸ hproxy)
  exact ⟨z, List.mem_append_right _ hz, chained, hcall⟩

theorem Finished.count_eq_one (h : u.Finished result)
    (hnames : (d.environments.map Environment.name).Nodup) {role : String}
    (hrole : role ∈ d.topology.roles) :
    (u.calls.filterMap fun x => x.call.configured?).count role = 1 ∧
      (u.calls.filterMap fun x => x.call.installed?).count role = 1 := by
  obtain ⟨x, hx, rfl, henv⟩ := u.exists_built hrole
  constructor
  · refine List.count_eq_one_of_mem (u.nodup_configured hnames) ?_
    rw [u.filterMap_configured, h.configured]
    exact List.mem_map_of_mem (Surroundings.mem_tenants.2 ⟨hx, List.mem_map_of_mem henv⟩)
  · refine List.count_eq_one_of_mem u.nodup_installed ?_
    rw [u.filterMap_installed, h.installed.done_eq]
    exact List.mem_map_of_mem hx

/-- Once all has been done, the descriptor may be stored as ready. -/
theorem Finished.barred_saved (h : u.Finished result) (after : ClusterDescriptor) :
    d.Barred u.calls (.saved after) := by
  refine fun _ => ⟨fun role hrole => ⟨?_, ?_⟩, fun x hx context target answer hcall => ?_⟩
  · have hconfigured := u.configured_all h.configured h.configured_ok hrole
    exact (hconfigured.append _).append _
  · obtain ⟨e, he, hinstalled⟩ := u.installed_all h.installed.done_eq h.installed_ok hrole
    exact ⟨e, List.mem_append_left _ (List.mem_append_right _ he), hinstalled⟩
  · rw [calls, List.mem_append, List.mem_append] at hx
    rcases hx with (hx | hx) | hx
    · obtain ⟨r, -, rfl⟩ := List.mem_map.1 hx
      cases hcall
    · obtain ⟨r, -, rfl⟩ := List.mem_map.1 hx
      cases hcall
    · exact h.chained.isOk x hx context target answer hcall

end Upbringing

/-! ## Every installation -/

/-- Whatever has run before and whatever roles, the store and the user do, the calls of an
installation keep to its barriers, and no role is configured or installed twice. If the installation
succeeds, each role has been configured and installed once, and every proxy has been led to the
targets below it. What is stored was stored before or is one of the calls. This takes environments
with distinct names. -/
theorem install_phases_barred (turns : List Turn) (s : Surroundings ω) (start : Invocation ω)
    {cluster : String} {d : ClusterDescriptor}
    (hd : (Books.afterVentures turns).find? cluster = some d)
    (hnames : (d.environments.map Environment.name).Nodup) :
    let before := Books.afterVentures turns
    let answer := ((s.turn start cluster .install).venture before).1
    let after := ((s.turn start cluster .install).venture before).2
    ∃ calls, after.journal = before.journal ++ calls ∧ Orderly d.Barred [] calls ∧
      (∀ role, (calls.filterMap fun x => x.call.configured?).count role ≤ 1 ∧
        (calls.filterMap fun x => x.call.installed?).count role ≤ 1) ∧
      (∀ installed, answer = .ok installed → s.LeadsAll d calls ∧ ∀ role ∈ d.topology.roles,
        (calls.filterMap fun x => x.call.configured?).count role = 1 ∧
          (calls.filterMap fun x => x.call.installed?).count role = 1) ∧
      ∀ other stored, after.find? other = some stored → before.find? other = some stored ∨
        ∃ x ∈ calls, x.call = .saved stored := by
  intro before answer after
  have hnumbered : before.Every fun _ d => d.Numbered := Books.numbered_afterVentures turns
  rcases venture_install_cases s start cluster hnumbered with
    ⟨e, he⟩ | ⟨d', hloaded, u, hcases⟩
  · have hafter : after = before := congrArg Prod.snd he
    have hanswer : answer = .error e := congrArg Prod.fst he
    rw [hafter, hanswer]
    exact ⟨[], by simp, .nil, by simp, fun _ h => absurd h (by simp), fun _ _ h => .inl h⟩
  obtain rfl : d = d' := Option.some.inj (hd.symm.trans hloaded.stored)
  have honce : ∀ role, (u.calls.filterMap fun x => x.call.configured?).count role ≤ 1 ∧
      (u.calls.filterMap fun x => x.call.installed?).count role ≤ 1 := fun role =>
    ⟨List.nodup_iff_count_le_one.1 (u.nodup_configured hnames) role,
      List.nodup_iff_count_le_one.1 u.nodup_installed role⟩
  rcases hcases with ⟨e, he⟩ | ⟨result, late, hfinished, hok⟩
  · have hafter : after = before.enter u.calls := congrArg Prod.snd he
    have hanswer : answer = .error e := congrArg Prod.fst he
    rw [hafter, hanswer]
    exact ⟨u.calls, rfl, u.orderly_calls hnames, honce, fun _ h => absurd h (by simp),
      fun _ _ h => .inl h⟩
  · let saved : ClusterDescriptor :=
      { d with connectionTarget := some (result.getD .placeholder), state := .ready }
    have hafter : after = (before.enter u.calls).put late saved := congrArg Prod.snd hok
    -- Storing the descriptor is one more call, which configures and installs nothing.
    have hlast : ∀ f : OutsideCall → Option String, f (.saved saved) = none →
        (u.calls ++ [(⟨late, .saved saved⟩ : JournalEntry)]).filterMap (fun x => f x.call) =
          u.calls.filterMap fun x => f x.call := by
      intro f hf
      rw [List.filterMap_append]
      simp [hf]
    rw [hafter]
    refine ⟨u.calls ++ [⟨late, .saved saved⟩], by simp, ?_, ?_, fun installed _ => ⟨?_, ?_⟩, ?_⟩
    · exact (u.orderly_calls hnames).append (.singleton (hfinished.barred_saved saved))
    · rw [hlast OutsideCall.configured? rfl, hlast OutsideCall.installed? rfl]
      exact honce
    · exact hfinished.leadsAll.append_saved late saved
    · rw [hlast OutsideCall.configured? rfl, hlast OutsideCall.installed? rfl]
      exact fun role hrole => hfinished.count_eq_one hnames hrole
    · intro other stored hstored
      rw [Books.find?_put] at hstored
      split at hstored
      · cases hstored
        exact .inr ⟨_, List.mem_append_right _ List.mem_cons_self, rfl⟩
      · exact .inl hstored

namespace Sample

def tiers : Template :=
  ⟨.of [("front", .of [("db", .of [])])], by simp [RoleForest.Sorted, RoleForest.SortedBelow]⟩

def tierDocuments : Documents :=
  { topologies := Dict.ofList [("tiers", tiers)]
    implementations := Dict.ofList [("standard",
      { topology := "tiers"
        defaults := { cloud := some "fake" }
        roles := Dict.ofList [
          ("db", { implementation := some "backend", region := some "r1"
                   parameters := Dict.ofList [("port", "5432")] }),
          ("front", { implementation := some "proxy", region := some "r2", count := some 2
                      parameters := Dict.ofList [("listen_port", "6432")] })] })]
    clouds := Dict.ofList [("fake", { client := "fake" })] }

def address : String → String
  | "db_0" => "b"
  | "front_0" => "p"
  | _ => "q"

/-- Surroundings with the built-in roles, and with a cloud that gives machines these addresses. -/
def tiered : Surroundings Nat :=
  let addressed : Cloud Nat :=
    { cloud with
      launchInstance := fun r =>
        return .ok (some { r.machine "i-1" with publicAddress := some (address r.name) }) }
  { steady with
    clouds := Dict.ofList [("fake", fun _ _ _ => .ok addressed)]
    roles := RoleRegistry.builtin steady.executor }

def tierTurns : List Turn :=
  [.configure tierDocuments "standard" false, .allocate false].map fun request =>
    tiered.turn { outside := 0 } "c" request

end Sample

theorem sample_phases_barred : ∃ d calls,
    (Books.afterVentures Sample.tierTurns).find? "c" = some d ∧ d.topology.roles = ["db", "front"] ∧
      Orderly d.Barred [] calls ∧
      ∀ role ∈ d.topology.roles, (calls.filterMap fun x => x.call.configured?).count role = 1 ∧
        (calls.filterMap fun x => x.call.installed?).count role = 1 := by
  have hplayed : (((Books.afterVentures Sample.tierTurns).find? "c").map fun d =>
        (d.environments.map Environment.name, d.topology.roles),
      ((Sample.tiered.turn { outside := 0 } "c" .install).venture
        (Books.afterVentures Sample.tierTurns)).1.isOk) =
      (some (["fake-r1", "fake-r2"], ["db", "front"]), true) := by
    cbv
  simp only [Prod.mk.injEq, Option.map_eq_some_iff] at hplayed
  obtain ⟨⟨d, hd, henvironments, hroles⟩, hok⟩ := hplayed
  have hnames : (d.environments.map Environment.name).Nodup := by
    rw [henvironments]
    decide
  obtain ⟨calls, -, horderly, -, honce, -⟩ :=
    install_phases_barred Sample.tierTurns Sample.tiered { outside := 0 } hd hnames
  obtain ⟨installed, hinstalled⟩ := Fallible.isOk_iff.1 hok
  exact ⟨d, calls, hd, hroles, horderly, (honce installed hinstalled).2⟩

end BenchCluster
