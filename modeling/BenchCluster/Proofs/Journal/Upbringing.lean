import BenchCluster.Proofs.Journal.Course
import BenchCluster.Proofs.Journal.Roles

/-! # What bringing up a cluster enters in the journal

The roles of one environment after the other are configured, then all are installed, and then the
proxies are led to what stands below them. Wherever this ends, all calls that have been made before
have succeeded but for those of the last phase that was begun.
-/

namespace BenchCluster

variable {ω : Type} {s : Surroundings ω} {d : ClusterDescriptor} {built : List (BuiltRole ω)}

open Chore

theorem eq_append_cons_cases {α : Type} {first others before after : List α} {x : α}
    (h : first ++ others = before ++ x :: after) :
    (∃ l, first = before ++ x :: l) ∨ ∃ l, before = first ++ l ∧ others = l ++ x :: after := by
  rcases List.append_eq_append_iff.1 h with ⟨l, rfl, hl⟩ | ⟨l, rfl, hl⟩
  · exact .inr ⟨l, rfl, hl⟩
  · cases l with
    | nil => exact .inr ⟨[], by simp, by simpa using hl.symm⟩
    | cons y l =>
      rw [List.cons_append, List.cons.injEq] at hl
      exact .inl ⟨l, by rw [hl.1]⟩

/-! ## Configuring one environment after the other -/

namespace Surroundings

/-- The roles of environments are those that live in the first one, those that live in the second
one, and so on. -/
def tenants (built : List (BuiltRole ω)) (environments : List Environment) : List (BuiltRole ω) :=
  environments.flatMap fun env => built.filter fun x => x.livesIn env.name

/-- A role is configured only after all roles of earlier environments have been, with success. -/
def InTurn (built : List (BuiltRole ω)) (environments : List Environment)
    (reports : List (RoleReport ω Unit)) : Prop :=
  ∀ before x after, reports = before ++ x :: after → ∀ earlier env later,
    environments = earlier ++ env :: later → x.done.livesIn env.name = true →
      ∀ y ∈ tenants built earlier, ∃ r ∈ before, r.done = y ∧ r.answer.isOk = true

theorem configureEnvironment_cases (s : Surroundings ω) (built : List (BuiltRole ω))
    (env : Environment) (inv : Invocation (Booked ω)) :
    let work := s.booked.configureEnvironment (built.map s.bookEntry) env
    let lodgers := built.filter fun x => x.livesIn env.name
    ∃ reports after, after.books = inv.books.enter (reports.map configuring.entry) ∧
      reports.map RoleReport.done <+: lodgers ∧
      ((∃ e, work.outcome inv = (.error e, after)) ∨
        work.outcome inv = (.ok (), after) ∧ reports.map RoleReport.done = lodgers ∧
          Succeeded reports) := by
  intro work lodgers
  have hgo := outcome_checkInterrupted s.booked inv
  by_cases hi : s.booked.interrupted inv.outside
  · rw [if_pos hi] at hgo
    exact ⟨[], inv, (Books.enter_nil _).symm, List.nil_prefix,
      .inl ⟨_, Work.bind_of_error hgo⟩⟩
  rw [if_neg hi] at hgo
  have hroles : (built.map s.bookEntry).filter (fun entry => entry.environment = env.name) =
      lodgers.map s.bookEntry := List.filter_map
  obtain ⟨reports, after, hserved, hafter, hcases⟩ :=
    runPhase_cases s configuring .configure lodgers inv
  have hwork : work.outcome inv =
      (runPhase .configure Role.configure (lodgers.map s.bookEntry)).outcome inv := by
    rw [← hroles]
    exact Work.bind_of_ok hgo
  rw [hwork]
  exact ⟨reports, after, hafter, hserved.done_eq ▸ List.prefix_rfl,
    hcases.imp_right fun hok => ⟨hok.1, hserved.done_eq, hok.2⟩⟩

theorem InTurn.nil (built : List (BuiltRole ω)) (environments : List Environment) :
    InTurn built environments [] := by
  intro before x after h
  cases before <;> cases h

/-- Reports on the roles of a first environment, and on those of the others, which come later. -/
theorem InTurn.append {env : Environment} {rest : List Environment}
    {first others : List (RoleReport ω Unit)}
    (hnodup : ((env :: rest).map Environment.name).Nodup)
    (hfirst : first.map RoleReport.done <+: built.filter fun x => x.livesIn env.name)
    (hbegun : others ≠ [] →
      first.map RoleReport.done = (built.filter fun x => x.livesIn env.name) ∧ Succeeded first)
    (hrest : InTurn built rest others) : InTurn built (env :: rest) (first ++ others) := by
  rw [List.map_cons, List.nodup_cons] at hnodup
  intro before x after hsplit earlier home later henvironments hlives y hy
  have hname : x.done.context.environment.name = home.name := by
    simpa [BuiltRole.livesIn] using hlives
  cases earlier with
  | nil => cases hy
  | cons env' earlier =>
    rw [List.cons_append, List.cons.injEq] at henvironments
    obtain ⟨rfl, henvironments⟩ := henvironments
    rcases eq_append_cons_cases hsplit with ⟨l, rfl⟩ | ⟨l, rfl, hl⟩
    · -- A role of the first environment cannot live in one of the others.
      have hlodges := hfirst.subset (List.mem_map_of_mem (f := RoleReport.done)
        (List.mem_append_right before List.mem_cons_self))
      have hname' : x.done.context.environment.name = env.name := by
        simpa [BuiltRole.livesIn] using (List.mem_filter.1 hlodges).2
      refine absurd ?_ hnodup.1
      rw [← hname', hname, henvironments]
      simp
    · obtain ⟨hall, hsucceeded⟩ := hbegun (by simp [hl])
      rw [tenants, List.flatMap_cons, List.mem_append] at hy
      rcases hy with hy | hy
      · rw [← hall] at hy
        obtain ⟨r, hr, rfl⟩ := List.mem_map.1 hy
        exact ⟨r, List.mem_append_left _ hr, rfl, hsucceeded r hr⟩
      · obtain ⟨r, hr, hdone⟩ := hrest l x after hl earlier home later henvironments hlives y hy
        exact ⟨r, List.mem_append_right _ hr, hdone⟩

/-- The roles of one environment after the other are configured, until one of them has failed. -/
theorem forM_configureEnvironment_cases (s : Surroundings ω) (built : List (BuiltRole ω))
    (environments : List Environment) (inv : Invocation (Booked ω)) :
    let work := environments.forM (s.booked.configureEnvironment (built.map s.bookEntry))
    ∃ reports after, after.books = inv.books.enter (reports.map configuring.entry) ∧
      reports.map RoleReport.done <+: tenants built environments ∧
      ((environments.map Environment.name).Nodup → InTurn built environments reports) ∧
      ((∃ e, work.outcome inv = (.error e, after)) ∨
        work.outcome inv = (.ok (), after) ∧
          reports.map RoleReport.done = tenants built environments ∧ Succeeded reports) := by
  induction environments generalizing inv with
  | nil =>
    exact ⟨[], inv, (Books.enter_nil _).symm, List.nil_prefix, fun _ => .nil _ _,
      .inr ⟨rfl, rfl, by simp [Succeeded]⟩⟩
  | cons env rest ih =>
    intro work
    obtain ⟨first, mid, hmid, hfirst, hcases⟩ := configureEnvironment_cases s built env inv
    rcases hcases with ⟨e, herror⟩ | ⟨hok, hall, hsucceeded⟩
    · refine ⟨first, mid, hmid, hfirst.trans (List.prefix_append _ _), fun hnodup => ?_,
        .inl ⟨e, Work.bind_of_error herror⟩⟩
      have hturn := InTurn.append hnodup hfirst (fun h => absurd rfl h) (InTurn.nil _ _)
      rwa [List.append_nil] at hturn
    -- The later environments have their turn only because all of this one has succeeded.
    · obtain ⟨others, after, hafter, hothers, hrest, hcases⟩ := ih mid
      have houtcome : work.outcome inv = _ := Work.bind_of_ok hok
      rw [houtcome]
      refine ⟨first ++ others, after, ?_, ?_, fun hnodup => ?_, ?_⟩
      · rw [hafter, hmid, Books.enter_enter, List.map_append]
      · rw [List.map_append, hall]
        exact (List.prefix_append_right_inj _).2 hothers
      · exact InTurn.append hnodup hfirst (fun _ => ⟨hall, hsucceeded⟩)
          (hrest (List.nodup_cons.1 (List.map_cons ▸ hnodup)).2)
      · refine hcases.imp_right fun hpassed => ?_
        obtain ⟨hdone, hothersAll, hothersOk⟩ := hpassed
        refine ⟨hdone, ?_, fun r hr => ?_⟩
        · rw [List.map_append, hall, hothersAll]
          rfl
        · rcases List.mem_append.1 hr with hr | hr
          · exact hsucceeded r hr
          · exact hothersOk r hr

end Surroundings

/-! ## Leading proxies to what stands below them -/

def roleAbove? (t : Template) (built : List (BuiltRole ω)) (role : String) :
    Option (BuiltRole ω) :=
  (t.roleAbove? role).bind fun parent => built.find? fun x => x.name = parent

/-- What becomes of a candidate when the targets of roles are led through the proxies above them,
and the calls that are made for it. -/
inductive Chained (t : Template) (built : List (BuiltRole ω)) :
    List (String × Option ConnectionTarget) → Option ConnectionTarget → Option ConnectionTarget →
      List JournalEntry → Prop
  | nil {candidate : Option ConnectionTarget} : Chained t built [] candidate candidate []
  /-- A role that clients do not connect to changes nothing. -/
  | passed {role : String} {rest : List (String × Option ConnectionTarget)}
      {candidate result : Option ConnectionTarget} {calls : List JournalEntry}
      (others : Chained t built rest candidate result calls) :
      Chained t built ((role, none) :: rest) candidate result calls
  /-- A target without a proxy above its role is the new candidate. -/
  | kept {role : String} {target : ConnectionTarget}
      {rest : List (String × Option ConnectionTarget)} {candidate result : Option ConnectionTarget}
      {calls : List JournalEntry}
      (unproxied : ∀ x ∈ roleAbove? t built role, x.role.proxy = none)
      (others : Chained t built rest (some target) result calls) :
      Chained t built ((role, some target) :: rest) candidate result calls
  /-- Otherwise the new candidate is what the proxy answers when it is led to the target. -/
  | led {role : String} {target chained : ConnectionTarget} {x : BuiltRole ω} {late : Bool}
      {lead : ConnectionTarget → Action ω (Except RoleError ConnectionTarget)}
      {rest : List (String × Option ConnectionTarget)} {candidate result : Option ConnectionTarget}
      {calls : List JournalEntry} (above : roleAbove? t built role = some x)
      (proxy : x.role.proxy = some lead) (answered : ∃ inv, (lead target inv).1 = .ok chained)
      (others : Chained t built rest (some chained) result calls) :
      Chained t built ((role, some target) :: rest) candidate result
        (⟨late, .role x.context (.postInstall target (.ok chained))⟩ :: calls)

def Leads (built : List (BuiltRole ω)) (calls : List JournalEntry) : Prop :=
  ∀ y ∈ calls, ∃ x ∈ built, ∃ target answer, y.call = .role x.context (.postInstall target answer)

/-- The last of the calls has led a proxy in vain. -/
inductive Misled (built : List (BuiltRole ω)) : List JournalEntry → RoleError → Prop
  | last {e : RoleError} {x : BuiltRole ω} {late : Bool} {target : ConnectionTarget}
      {lead : ConnectionTarget → Action ω (Except RoleError ConnectionTarget)}
      (earlier : List JournalEntry) (mem : x ∈ built) (proxy : x.role.proxy = some lead)
      (answered : ∃ inv, (lead target inv).1 = .error e) :
      Misled built (earlier ++ [⟨late, .role x.context (.postInstall target (.error e))⟩]) e

theorem Misled.append {built : List (BuiltRole ω)} {calls : List JournalEntry} {e : RoleError}
    (h : Misled built calls e) (earlier : List JournalEntry) :
    Misled built (earlier ++ calls) e := by
  obtain ⟨before, mem, proxy, answered⟩ := h
  rw [← List.append_assoc]
  exact .last _ mem proxy answered

namespace Surroundings

/-- The role above another one has no proxy side, or it is a built role whose proxy side enters its
calls. -/
theorem proxyAbove?_cases (s : Surroundings ω) (built : List (BuiltRole ω)) {tree : TopologyTree}
    (htree : TopologyTree.restore d.topology d.topologyMap = .ok tree) (role : String) :
    (proxyAbove? tree (built.map s.bookEntry) role = none ∧
        ∀ x ∈ roleAbove? d.topology built role, x.role.proxy = none) ∨
      ∃ x ∈ built, ∃ lead, roleAbove? d.topology built role = some x ∧
        x.role.proxy = some lead ∧ proxyAbove? tree (built.map s.bookEntry) role =
          some fun target => s.journaled (fun a => .role x.context (.postInstall target a))
            (lead target) := by
  have hproxy : proxyAbove? tree (built.map s.bookEntry) role =
      (roleAbove? d.topology built role).bind fun x => x.role.proxy.map fun lead target =>
        s.journaled (fun a => .role x.context (.postInstall target a)) (lead target) := by
    rw [proxyAbove?, ClusterDescriptor.parentRole_restore htree, roleAbove?, Option.bind_assoc]
    refine Option.bind_congr fun parent _ => ?_
    rw [List.find?_map, Option.bind_eq_bind, Option.bind_map]
    rfl
  rw [hproxy]
  cases habove : roleAbove? d.topology built role with
  | none => exact .inl ⟨rfl, by simp⟩
  | some x =>
    rw [Option.bind_some]
    cases hlead : x.role.proxy with
    | none => exact .inl ⟨rfl, by simp [hlead]⟩
    | some lead =>
      obtain ⟨parent, -, hfind⟩ := Option.bind_eq_some_iff.1 habove
      exact .inr ⟨x, List.mem_of_find?_eq_some hfind, lead, rfl, hlead, rfl⟩

theorem lead_outcome (s : Surroundings ω) (context : RoleContext)
    (lead : ConnectionTarget → Action ω (Except RoleError ConnectionTarget))
    (target : ConnectionTarget) (inv : Invocation (Booked ω)) :
    ∃ late answer after, (∃ inv, (lead target inv).1 = answer) ∧
      (Work.ofFallible OrchestratorError.role (s.journaled
        (fun a => .role context (.postInstall target a)) (lead target))).outcome inv =
          (answer.mapError .role, after) ∧
      after.books = inv.books.enter [⟨late, .role context (.postInstall target answer)⟩] :=
  ⟨_, _, _, ⟨{ metrics := inv.metrics, outside := inv.outside.world }, rfl⟩, rfl, rfl⟩

/-- Targets are led through the proxies above them, until one of these has failed. -/
theorem chainTargets_cases (s : Surroundings ω) (built : List (BuiltRole ω)) {tree : TopologyTree}
    (htree : TopologyTree.restore d.topology d.topologyMap = .ok tree)
    (targets : List (String × Option ConnectionTarget)) (candidate : Option ConnectionTarget)
    (inv : Invocation (Booked ω)) :
    let work := chainTargets tree (built.map s.bookEntry) targets candidate
    ∃ calls after, after.books = inv.books.enter calls ∧ Leads built calls ∧
      ((∃ e, work.outcome inv = (.error (.role e), after) ∧ Misled built calls e) ∨
        ∃ result, work.outcome inv = (.ok result, after) ∧
          Chained d.topology built targets candidate result calls) := by
  induction targets generalizing candidate inv with
  | nil =>
    exact ⟨[], inv, (Books.enter_nil _).symm, by simp [Leads], .inr ⟨candidate, rfl, .nil⟩⟩
  | cons t rest ih =>
    intro work
    obtain ⟨role, none | target⟩ := t
    -- A role without a target leaves the candidate to those behind it.
    · obtain ⟨calls, after, hafter, hleads, hcases⟩ := ih candidate inv
      refine ⟨calls, after, hafter, hleads, hcases.imp_right fun hdone => ?_⟩
      obtain ⟨result, hok, hchained⟩ := hdone
      exact ⟨result, hok, .passed hchained⟩
    have hwork : work = chainTargets tree (built.map s.bookEntry) ((role, some target) :: rest)
      candidate := rfl
    rw [chainTargets] at hwork
    rcases proxyAbove?_cases s built htree role with
      ⟨hnone, hopen⟩ | ⟨x, hx, lead, habove, hlead, hproxy⟩
    · rw [hnone] at hwork
      obtain ⟨calls, after, hafter, hleads, hcases⟩ := ih (some target) inv
      rw [hwork]
      refine ⟨calls, after, hafter, hleads, hcases.imp_right fun hdone => ?_⟩
      obtain ⟨result, hok, hchained⟩ := hdone
      exact ⟨result, hok, .kept hopen hchained⟩
    rw [hproxy] at hwork
    rw [hwork]
    obtain ⟨late, answer, mid, hanswered, houtcome, hmid⟩ :=
      lead_outcome s x.context lead target inv
    cases answer with
    | error e =>
      refine ⟨_, mid, hmid, fun y hy => ?_,
        .inl ⟨e, Work.bind_of_error houtcome, .last [] hx hlead hanswered⟩⟩
      rw [List.mem_singleton.1 hy]
      exact ⟨x, hx, target, _, rfl⟩
    | ok chained =>
      obtain ⟨calls, after, hafter, hleads, hcases⟩ := ih (some chained) mid
      refine ⟨_ :: calls, after, by rw [hafter, hmid, Books.enter_enter]; rfl, fun y hy => ?_, ?_⟩
      · rcases List.mem_cons.1 hy with rfl | hy
        · exact ⟨x, hx, target, _, rfl⟩
        · exact hleads y hy
      · rw [Work.bind_of_ok houtcome]
        rcases hcases with ⟨e, herror, hmisled⟩ | ⟨result, hok, hchained⟩
        · exact .inl ⟨e, herror, hmisled.append [_]⟩
        · exact .inr ⟨result, hok, .led habove hlead hanswered hchained⟩

end Surroundings

/-! ## All of it -/

def RoleReport.target? (x : RoleReport ω (Option ConnectionTarget)) : Option ConnectionTarget :=
  match x.answer with
  | .ok target => target
  | .error _ => none

/-- What has been done to bring up a cluster: roles have been configured and installed, and proxies
have been led. Nothing is begun before what comes before it has succeeded. -/
structure Upbringing (s : Surroundings ω) (d : ClusterDescriptor) where
  built : List (BuiltRole ω)
  configures : List (RoleReport ω Unit)
  installs : List (RoleReport ω (Option ConnectionTarget))
  leads : List JournalEntry
  names : built.map BuiltRole.name = d.topology.rolesInOrder
  builds : ∀ x ∈ built, s.Builds d x
  configures_done : configures.map RoleReport.done <+: Surroundings.tenants built d.environments
  configures_turn : (d.environments.map Environment.name).Nodup →
    Surroundings.InTurn built d.environments configures
  installs_done : installs.map RoleReport.done <+: built
  installs_after : installs ≠ [] → configures.map RoleReport.done =
    Surroundings.tenants built d.environments ∧ Succeeded configures
  leads_done : Leads built leads
  leads_after : leads ≠ [] → installs.map RoleReport.done = built ∧ Succeeded installs

namespace Upbringing

def calls (u : Upbringing s d) : List JournalEntry :=
  u.configures.map configuring.entry ++ u.installs.map installing.entry ++ u.leads

structure Finished (u : Upbringing s d) (result : Option ConnectionTarget) : Prop where
  configured : u.configures.map RoleReport.done = Surroundings.tenants u.built d.environments
  configured_ok : Succeeded u.configures
  installed : installing.Served u.built u.installs
  installed_ok : Succeeded u.installs
  chained : Chained d.topology u.built (u.installs.map fun x => (x.done.name, x.target?)) none
    result u.leads

end Upbringing

namespace Surroundings

theorem installedTargets_reports (reports : List (RoleReport ω (Option ConnectionTarget))) :
    installedTargets (reports.map fun x => (x.done.name, x.answer)) =
      reports.map fun x => (x.done.name, x.target?) := by
  rw [installedTargets, List.map_map]
  rfl

/-- The roles cannot be built, or bringing up the cluster enters the calls that have been made for
it, and succeeds only if all of it has been done. -/
theorem bringUp_cases (s : Surroundings ω) (hd : d.Numbered) (inv : Invocation (Booked ω)) :
    (∃ e, (s.booked.bringUp d).outcome inv = (.error e, inv)) ∨
      ∃ (u : Upbringing s d) (after : Invocation (Booked ω)),
        after.books = inv.books.enter u.calls ∧
          ((∃ e, (s.booked.bringUp d).outcome inv = (.error e, after)) ∨
            ∃ result, (s.booked.bringUp d).outcome inv = (.ok result, after) ∧
              u.Finished result) := by
  rw [bringUp]
  cases hroles : s.booked.rolesOf d with
  | error e => exact .inl ⟨e, rfl⟩
  | ok pair =>
    obtain ⟨tree, roles⟩ := pair
    obtain ⟨htree, built, rfl, hnames, hbuilds⟩ := rolesOf_booked hd hroles
    right
    rw [Work.bind_ofExcept_of_ok rfl]
    obtain ⟨configures, mid, hmid, hprefix, hturn, hcases⟩ :=
      forM_configureEnvironment_cases s built d.environments inv
    -- What has been done if no role has been installed.
    let halted : Upbringing s d :=
      { built := built, configures := configures, installs := [], leads := []
        names := hnames, builds := hbuilds, configures_done := hprefix, configures_turn := hturn
        installs_done := List.nil_prefix, installs_after := fun h => absurd rfl h
        leads_done := by simp [Leads], leads_after := fun h => absurd rfl h }
    have hhalted : mid.books = inv.books.enter halted.calls := by
      rw [hmid]
      simp [Upbringing.calls, halted]
    rcases hcases with ⟨e, herror⟩ | ⟨hok, hall, hsucceeded⟩
    · exact ⟨halted, mid, hhalted, .inl ⟨e, Work.bind_of_error herror⟩⟩
    rw [Work.bind_of_ok hok]
    have hgo := outcome_checkInterrupted s.booked mid
    by_cases hi : s.booked.interrupted mid.outside
    · rw [if_pos hi] at hgo
      exact ⟨halted, mid, hhalted, .inl ⟨_, Work.bind_of_error hgo⟩⟩
    rw [if_neg hi] at hgo
    rw [Work.bind_of_ok hgo, Work.bind_ofAction]
    obtain ⟨installs, hserved, hresults, hlast⟩ := onEveryRole_served s installing built mid
    change (onEveryRole Role.install (built.map s.bookEntry) mid).1 = _ at hresults
    change (onEveryRole Role.install (built.map s.bookEntry) mid).2.books = _ at hlast
    generalize (onEveryRole Role.install (built.map s.bookEntry) mid).2 = last at hlast ⊢
    rw [hresults, installedTargets_reports]
    -- What has been done if no proxy has been led to anything.
    let stuck : Upbringing s d :=
      { halted with
        installs := installs
        installs_done := hserved.done_eq ▸ List.prefix_rfl
        installs_after := fun _ => ⟨hall, hsucceeded⟩
        leads_after := fun h => absurd rfl h }
    have hstuck : last.books = inv.books.enter stuck.calls := by
      rw [hlast, hmid, Books.enter_enter]
      simp [Upbringing.calls, stuck, halted]
    rcases checkPhase_cases .install installs with ⟨e, he⟩ | ⟨hpassed, hinstalled⟩
    · exact ⟨stuck, last, hstuck, .inl ⟨e, Work.bind_ofExcept_of_error he _ _⟩⟩
    rw [Work.bind_ofExcept_of_ok hpassed]
    have hgoOn := outcome_checkInterrupted s.booked last
    by_cases hstop : s.booked.interrupted last.outside
    · rw [if_pos hstop] at hgoOn
      exact ⟨stuck, last, hstuck, .inl ⟨_, Work.bind_of_error hgoOn⟩⟩
    rw [if_neg hstop] at hgoOn
    rw [Work.bind_of_ok hgoOn]
    obtain ⟨leads, after, hafter, hleads, hcases⟩ := chainTargets_cases s built htree
      (installs.map fun x => (x.done.name, x.target?)) none last
    let u : Upbringing s d :=
      { stuck with
        leads := leads, leads_done := hleads
        leads_after := fun _ => ⟨hserved.done_eq, hinstalled⟩ }
    have hbooks : after.books = inv.books.enter u.calls := by
      rw [hafter, hlast, hmid, Books.enter_enter, Books.enter_enter, ← List.append_assoc]
      rfl
    rcases hcases with ⟨e, herror, -⟩ | ⟨result, hdone, hchained⟩
    · exact ⟨u, after, hbooks, .inl ⟨_, herror⟩⟩
    · exact ⟨u, after, hbooks,
        .inr ⟨result, hdone, hall, hsucceeded, hserved, hinstalled, hchained⟩⟩

end Surroundings

/-- An installation fails before it calls any role, or it brings up the cluster, and stores the
descriptor if all of it has been done and the store does not fail. -/
theorem venture_install_cases (s : Surroundings ω) (start : Invocation ω) (cluster : String)
    {b : Books} (hb : b.Every fun _ d => d.Numbered) :
    let t := (s.turn start cluster .install).venture b
    (∃ e, t = (.error e, b)) ∨ ∃ d, b.Loaded cluster .install d ∧ ∃ u : Upbringing s d,
      (∃ e, t = (.error e, b.enter u.calls)) ∨ ∃ result late, u.Finished result ∧
        let installed := { d with
          connectionTarget := some (result.getD .placeholder), state := .ready }
        t = (.ok (some installed), (b.enter u.calls).put late installed) := by
  intro t
  have ht : t = (((s.frail.install cluster).outcome (start.withBooks b)).1.map some,
      ((s.frail.install cluster).outcome (start.withBooks b)).2.books) := by
    change (((s.frail.serve cluster .install).outcome (start.withBooks b)).1,
      ((s.frail.serve cluster .install).outcome (start.withBooks b)).2.books) = _
    rw [Surroundings.serve, Work.outcome_some]
  rw [ht, Surroundings.install_eq]
  rcases s.loadFor_frail_cases cluster .install (start.withBooks b) with
    ⟨e, after, hload, hafter, -⟩ | ⟨d, mid, hloaded, hload, hmid⟩
  · rw [Work.bind_of_error hload]
    exact .inl ⟨e, Prod.ext rfl hafter⟩
  rw [Work.bind_of_ok hload]
  change mid.books = b at hmid
  rcases s.bringUp_cases (hb cluster d hloaded.stored) mid with
    ⟨e, herror⟩ | ⟨u, after, hafter, ⟨e, herror⟩ | ⟨result, hok, hfinished⟩⟩
  · change (s.frail.bringUp d).outcome mid = _ at herror
    rw [Work.bind_of_error herror]
    exact .inl ⟨e, Prod.ext rfl hmid⟩
  · change (s.frail.bringUp d).outcome mid = _ at herror
    rw [Work.bind_of_error herror]
    exact .inr ⟨d, hloaded, u, .inl ⟨e, Prod.ext rfl (hmid ▸ hafter)⟩⟩
  · change (s.frail.bringUp d).outcome mid = _ at hok
    rw [Work.bind_of_ok hok]
    rw [hmid] at hafter
    rcases s.save_frail_cases { d with
        connectionTarget := some (result.getD .placeholder), state := .ready } after with
      ⟨e, last, hsave, hlast⟩ | ⟨late, last, hsave, -, hlast⟩
    · rw [Work.bind_of_error hsave]
      exact .inr ⟨d, hloaded, u, .inl ⟨_, Prod.ext rfl (hlast.trans hafter)⟩⟩
    · rw [Work.bind_of_ok hsave]
      exact .inr ⟨d, hloaded, u, .inr ⟨result, late, hfinished, Prod.ext rfl (hafter ▸ hlast)⟩⟩

end BenchCluster
