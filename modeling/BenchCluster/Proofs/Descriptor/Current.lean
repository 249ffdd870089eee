import BenchCluster.Proofs.Descriptor.Cleaned
import BenchCluster.Proofs.Descriptor.Remembered
import BenchCluster.Proofs.Descriptor.Targeted

/-! # How current stored targets are

The target of a cluster is worked out once, when it is installed. Over runs with built-in roles each
of its hosts is one that a member is reached at, unless a start has moved that member elsewhere.
-/

namespace BenchCluster

variable {ω : Type} {d : ClusterDescriptor}

/-- Whether a call answers with a machine of the same name if it starts one. -/
def OutsideCall.keepsName : OutsideCall → Bool
  | .startMachine _ m (.ok up) => up.name = m.name
  | _ => true

namespace ClusterDescriptor

/-- A member of the cluster was reached at a host until a start has moved it elsewhere. -/
def LeftBehind (d : ClusterDescriptor) (journal : List JournalEntry) (h : String) : Prop :=
  ∃ x ∈ journal, ∃ env m up, x.call = .startMachine env m (.ok up) ∧
    d.members.contains m.name = true ∧ m.hostAddress? = some h ∧ up.hostAddress? ≠ some h

/-- The cluster has a target, whose hosts are those of members or were so before a start. -/
def Connected (d : ClusterDescriptor) (journal : List JournalEntry) : Prop :=
  ∃ target, d.connectionTarget = some target ∧
    ∀ h ∈ target.hosts, d.Reaches h ∨ d.LeftBehind journal h

variable {journal more : List JournalEntry} {h : String}

theorem LeftBehind.mono (hleft : d.LeftBehind journal h) (hmore : journal ⊆ more) :
    d.LeftBehind more h := by
  obtain ⟨x, hx, hmoved⟩ := hleft
  exact ⟨x, hmore hx, hmoved⟩

theorem Connected.mono (hd : d.Connected journal) (hmore : journal ⊆ more) : d.Connected more := by
  obtain ⟨target, htarget, hhosts⟩ := hd
  exact ⟨target, htarget, fun h hh => (hhosts h hh).imp_right fun hleft => hleft.mono hmore⟩

/-- A cluster with a new target is connected if the target names members. -/
theorem connected_installed {target : ConnectionTarget} (htarget : d.chainedTarget? = some target)
    (journal : List JournalEntry) :
    { d with connectionTarget := some target, state := .ready }.Connected journal :=
  ⟨target, rfl, fun _ hh => .inl (reaches_of_chainedTarget? htarget hh)⟩

/-- A start leaves the target as it is: where a machine has been moved, it is out of date. -/
theorem Connected.started (hd : d.Connected journal) (x : Starting d) (hkeyed : d.Keyed)
    (hmore : journal ⊆ more) (hentries : x.entries ⊆ more) : x.descriptor.Connected more := by
  obtain ⟨target, htarget, hhosts⟩ := hd
  refine ⟨target, htarget, fun h hh => ?_⟩
  have hkeys := x.keys_members hkeyed
  have hcontains : ∀ {name}, d.members.contains name = true →
      x.descriptor.members.contains name = true := by
    intro name hname
    rwa [← Dict.mem_keys_iff, hkeys, Dict.mem_keys_iff]
  rcases hhosts h hh with ⟨name, m, hm, hhost⟩ | ⟨y, hy, env, m, up, hcall, hname, hmoved⟩
  · have hname := hcontains (Dict.contains_iff.2 ⟨m, hm⟩)
    obtain ⟨m', hm'⟩ := Dict.contains_iff.1 hname
    by_cases hsame : m'.hostAddress? = some h
    · exact .inl ⟨name, m', hm', hsame⟩
    rcases x.find?_members hm' with hd | ⟨a, ha, hrequest, hvalue⟩
    · rw [hm, Option.some.injEq] at hd
      exact absurd (hd ▸ hhost) hsame
    -- The member has been started: it is the machine that was asked for.
    obtain ⟨hmember, -⟩ := List.mem_filter.1 (x.served.request_mem ha)
    obtain ⟨key, hkey⟩ := Dict.mem_values_iff.1 hmember
    rw [← hkeyed key _ hkey, hrequest, hm, Option.some.injEq] at hkey
    refine .inr ⟨_, hentries (Errand.entry_mem ha (Attempt.value?_eq_some.1 hvalue)),
      a.environment, m, m', by rw [hkey]; rfl, ?_, hhost, hsame⟩
    rwa [hkeyed name m hm]
  · exact .inr ⟨y, hmore hy, env, m, up, hcall, hcontains hname, hmoved⟩

end ClusterDescriptor

/-! ## What operations keep -/

theorem Starting.keyed (x : Starting d) (hd : d.Keyed)
    (hkeeps : ∀ y ∈ x.entries, y.call.keepsName = true) : x.descriptor.Keyed := by
  intro key m hm
  rcases x.find?_members hm with hm | ⟨a, ha, rfl, hvalue⟩
  · exact hd key m hm
  · exact of_decide_eq_true (hkeeps _ (Errand.entry_mem ha (Attempt.value?_eq_some.1 hvalue)))

theorem Effect.keyed {cluster : String} {request : Request} {b b' : Books}
    {answer : Except OrchestratorError (Option ClusterDescriptor)}
    (h : Effect cluster b request answer b') (hall : b.Every fun _ d => d.Keyed)
    (hnames : ∀ x ∈ b'.journal, x.call.keepsName = true) : b'.Every fun _ d => d.Keyed := by
  have hput : ∀ {d : ClusterDescriptor} {late : Bool} (entries : List JournalEntry), d.Keyed →
      ((b.enter entries).put late d).Every fun _ d => d.Keyed := by
    intro d late entries hd
    exact Books.Every.put (b := b.enter entries) hall _ hd
  cases h with
  | refused refusal unaccepted => exact hall
  | failed mishap nothing => exact hall
  | configured valid inert accepted planned expanded => exact hput _ fun key m hm => by cases hm
  | lost loaded a mishap => exact hall
  | allocated loaded a =>
    refine hput _ fun key m hm => ?_
    rcases a.find?_members hm with hm | ⟨-, hname⟩
    · exact hall _ _ loaded.stored key m hm
    · exact hname
  | made loaded inert => exact hall
  | installed loaded inert =>
    have hd := hall _ _ loaded.stored
    exact hput _ hd
  | stopped loaded inert =>
    have hd := hall _ _ loaded.stored
    exact hput _ hd
  | woken loaded x failures =>
    exact hput _ (x.keyed (hall _ _ loaded.stored) fun y hy => hnames y (by simp [hy]))
  | started loaded x inert =>
    exact hput _ (x.keyed (hall _ _ loaded.stored) fun y hy => hnames y (by simp [hy]))
  | cleaned loaded roles c =>
    rw [Cleaning.settle]
    split
    · exact Books.Every.drop (b := b.enter _) hall _ _
    · exact hput _ fun key m hm => hall _ _ loaded.stored key m (c.find?_members_left.1 hm).1

namespace Books

def Connected (b : Books) : Prop :=
  b.Every fun _ d => d.state = .ready ∨ d.state = .down → d.Connected b.journal

variable {b : Books} {entries : List JournalEntry} {late : Bool}

theorem Connected.enter (hb : b.Connected) (entries : List JournalEntry) :
    (b.enter entries).Connected := fun cluster d hd hstate =>
  (hb cluster d hd hstate).mono (List.subset_append_left _ _)

theorem Connected.put (hb : b.Connected) (hd : d.state = .ready ∨ d.state = .down →
    d.Connected ((b.enter entries).put late d).journal) :
    ((b.enter entries).put late d).Connected := by
  have hothers : (b.enter entries).Every fun _ stored => stored.state = .ready ∨
      stored.state = .down → stored.Connected ((b.enter entries).put late d).journal :=
    fun other stored hstored hstate => (hb other stored hstored hstate).mono (by simp)
  exact hothers.put late hd

theorem Connected.drop (hb : b.Connected) (late : Bool) (cluster : String) :
    (b.drop late cluster).Connected := by
  have hothers : b.Every fun _ stored => stored.state = .ready ∨
      stored.state = .down → stored.Connected (b.drop late cluster).journal :=
    fun other stored hstored hstate => (hb other stored hstored hstate).mono (by simp)
  exact hothers.drop late cluster

end Books

/-- Clusters stay connected, whatever is done besides installing one. -/
theorem Effect.connected {cluster : String} {request : Request} {b b' : Books}
    {answer : Except OrchestratorError (Option ClusterDescriptor)}
    (h : Effect cluster b request answer b') (hrequest : request ≠ .install)
    (hkeyed : b.Every fun _ d => d.Keyed) (hb : b.Connected) : b'.Connected := by
  cases h with
  | refused refusal unaccepted => exact hb
  | failed mishap nothing => exact hb.enter _
  | configured valid inert accepted planned expanded =>
    refine hb.put ?_
    rintro (hstate | hstate) <;> cases hstate
  | lost loaded a mishap => exact hb.enter _
  | allocated loaded a =>
    refine hb.put fun hstate => ?_
    rw [a.state_descriptor] at hstate
    split at hstate
    · rcases hstate with hstate | hstate <;> cases hstate
    · rcases hstate with hstate | hstate <;> cases hstate
  | made loaded inert => exact hb.enter _
  | installed loaded inert => exact absurd rfl hrequest
  | stopped loaded inert =>
    have hready := ClusterState.allows_stop_iff.1 loaded.allowed
    exact hb.put fun _ => (hb _ _ loaded.stored (.inl hready)).mono (by simp)
  | woken loaded x failures =>
    have hdown := ClusterState.allows_start_iff.1 loaded.allowed
    exact hb.put fun _ => (hb _ _ loaded.stored (.inr hdown)).started x (hkeyed _ _ loaded.stored)
      (by simp) (by simp)
  | started loaded x inert =>
    have hdown := ClusterState.allows_start_iff.1 loaded.allowed
    exact hb.put fun _ => (hb _ _ loaded.stored (.inr hdown)).started x (hkeyed _ _ loaded.stored)
      (by simp) (by simp)
  | cleaned loaded roles c =>
    rw [Cleaning.settle]
    split
    · exact (hb.enter _).drop _ _
    · refine hb.put ?_
      rintro (hstate | hstate) <;> cases hstate

/-! ## What installations do -/

theorem Upbringing.scripted {s : Surroundings ω} {ex : RemoteExecutor ω} (u : Upbringing s d)
    (hroles : s.roles = RoleRegistry.builtin ex) : d.Scripted := by
  intro role hrole
  obtain ⟨x, hx, rfl, -⟩ := u.exists_built hrole
  have hbuild := (u.builds x hx).build
  rw [RoleRegistry.build, hroles] at hbuild
  split at hbuild
  · rename_i make hmake
    obtain ⟨kind, hkind⟩ := RoleRegistry.exists_kind hmake
    exact ⟨kind, (ClusterDescriptor.runsAs_iff (u.builds x hx).component).2 hkind⟩
  · cases hbuild

/-- An installation with built-in roles connects its cluster. -/
theorem connected_of_install {s : Surroundings ω} {ex : RemoteExecutor ω}
    (hroles : s.roles = RoleRegistry.builtin ex) (start : Invocation ω) (cluster : String)
    {b : Books} (hnumbered : b.Every fun _ d => d.Numbered)
    (hcomplete : b.Every fun _ d => d.Complete) (hb : b.Connected) :
    ((s.turn start cluster .install).venture b).2.Connected := by
  have hbuiltin : s.HasBuiltin ex := by
    intro kind
    rw [hroles]
    exact RoleRegistry.find?_builtin ex kind
  rcases venture_install_cases s start cluster hnumbered with
    ⟨e, he⟩ | ⟨d, hloaded, u, ⟨e, he⟩ | ⟨result, late, hfinished, hdone⟩⟩
  · rw [he]
    exact hb
  · rw [he]
    exact hb.enter _
  · have hstaffed : d.Staffed := (hcomplete cluster d hloaded.stored).staffed
      (.inl (ClusterState.allows_install_iff.1 hloaded.allowed))
    obtain ⟨htarget, -⟩ := hfinished.target_eq hbuiltin (u.scripted hroles) hstaffed
    rw [hdone]
    exact hb.put fun _ => ClusterDescriptor.connected_installed htarget _

/-! ## Every run -/

theorem Books.keyed_afterVentures (turns : List Turn)
    (hnames : ∀ x ∈ (afterVentures turns).journal, x.call.keepsName = true) :
    (afterVentures turns).Every fun _ d => d.Keyed := by
  refine (afterVentures_induction (P := fun b => b.Named ∧
    ((∀ x ∈ b.journal, x.call.keepsName = true) → b.Every fun _ d => d.Keyed)) turns
      ⟨named_blank, fun _ => every_blank _⟩ ?_).2 hnames
  rintro t - request - answer b b' ⟨hnamed, hkeyed⟩ heffect
  have hgrows := (heffect.extendsBooks fun d hd => (hnamed t.cluster d hd).1).journal_grows
  exact ⟨heffect.named hnamed,
    fun hnames => heffect.keyed (hkeyed fun x hx => hnames x (hgrows.subset hx)) hnames⟩

/-- What is known of books over runs with the built-in roles. -/
structure Books.Settled (b : Books) : Prop where
  named : b.Named
  numbered : b.Every fun _ d => d.Numbered
  complete : b.Every fun _ d => d.Complete
  keyed : (∀ x ∈ b.journal, x.call.keepsName = true) → b.Every fun _ d => d.Keyed
  connected : (∀ x ∈ b.journal, x.call.keepsName = true) → b.Connected

theorem Books.Settled.venture {s : Surroundings ω} {ex : RemoteExecutor ω}
    (hroles : s.roles = RoleRegistry.builtin ex) (start : Invocation ω) (cluster : String)
    {request : Request} (hrequest : request.stages = [request]) {b : Books} (hb : b.Settled) :
    ((s.turn start cluster request).venture b).2.Settled := by
  have heffect : Effect cluster b request ((s.turn start cluster request).venture b).1
      ((s.turn start cluster request).venture b).2 :=
    Effect.serve s cluster hrequest (start.withBooks b)
  have hgrows := (heffect.extendsBooks fun d hd => (hb.named cluster d hd).1).journal_grows
  refine ⟨heffect.named hb.named, heffect.numbered hb.numbered, heffect.complete hb.complete,
    fun hnames => ?_, fun hnames => ?_⟩
  · exact heffect.keyed (hb.keyed fun x hx => hnames x (hgrows.subset hx)) hnames
  · have hbefore : ∀ x ∈ b.journal, x.call.keepsName = true := fun x hx =>
      hnames x (hgrows.subset hx)
    by_cases hinstall : request = .install
    · rw [hinstall]
      exact connected_of_install hroles start cluster hb.numbered hb.complete
        (hb.connected hbefore)
    · exact heffect.connected hinstall (hb.keyed hbefore) (hb.connected hbefore)

theorem Books.settled_afterVentures (turns : List Turn)
    (hroles : ∀ t ∈ turns, ∃ ex, t.surroundings.roles = RoleRegistry.builtin ex) :
    (afterVentures turns).Settled := by
  refine afterVentures_keeps turns ?_ fun t ht b hb => ?_
  · exact ⟨named_blank, every_blank _, every_blank _, fun _ => every_blank _,
      fun _ => every_blank _⟩
  · obtain ⟨ex, hex⟩ := hroles t ht
    refine (t.ventures b).keeps hb fun request hrequest answer x y hx hventure => ?_
    obtain ⟨start, hventure⟩ := hventure
    have hsettled := hx.venture hex start t.cluster (Request.stages_of_mem hrequest)
    rwa [hventure] at hsettled

/-- Whatever has run with the built-in roles, each host in the target of a ready cluster is one that
a member is reached at, unless a start has moved that member elsewhere: starts leave targets as they
are. This takes starts that answer with machines of the same names. -/
theorem ready_target_current (turns : List Turn)
    (hroles : ∀ t ∈ turns, ∃ ex, t.surroundings.roles = RoleRegistry.builtin ex)
    (hnames : ∀ x ∈ (Books.afterVentures turns).journal, x.call.keepsName = true) {cluster : String}
    {d : ClusterDescriptor} (hd : (Books.afterVentures turns).find? cluster = some d)
    (hready : d.state = .ready) : ∃ target, d.connectionTarget = some target ∧
      ∀ h ∈ target.hosts, d.Reaches h ∨ d.LeftBehind (Books.afterVentures turns).journal h :=
  (Books.settled_afterVentures turns hroles).connected hnames cluster d hd (.inl hready)

def Sample.restartTurns : List Turn :=
  downTurns ++ [restless.turn { outside := 0 } "c" .start]

/-- The target still names the host that the machine was reached at before. -/
theorem sample_target_outdated : ∃ d target,
    (Books.afterVentures Sample.restartTurns).find? "c" = some d ∧ d.state = .ready ∧
      d.connectionTarget = some target ∧ target.hosts = ["b"] ∧ ¬ d.Reaches "b" ∧
      d.LeftBehind (Books.afterVentures Sample.restartTurns).journal "b" := by
  have hplayed : (((Books.afterVentures Sample.restartTurns).find? "c").map fun d =>
        (d.state, d.connectionTarget.map ConnectionTarget.hosts,
          d.members.values.map Machine.hostAddress?),
      (Books.afterVentures Sample.restartTurns).journal.all fun x => x.call.keepsName) =
      (some (.ready, some ["b"], [some "n"]), true) := by
    cbv
  simp only [Prod.mk.injEq, Option.map_eq_some_iff] at hplayed
  obtain ⟨⟨d, hd, hready, htarget, hmembers⟩, hnames⟩ := hplayed
  have hroles : ∀ t ∈ Sample.restartTurns,
      ∃ ex, t.surroundings.roles = RoleRegistry.builtin ex := by
    simp only [Sample.restartTurns, Sample.downTurns, List.map_cons, List.map_nil, List.cons_append,
      List.nil_append, List.forall_mem_cons]
    exact ⟨⟨_, rfl⟩, ⟨_, rfl⟩, ⟨_, rfl⟩, ⟨_, rfl⟩, ⟨_, rfl⟩, by simp⟩
  obtain ⟨target, hstored, hhosts⟩ := ready_target_current Sample.restartTurns hroles
    (List.all_eq_true.1 hnames) hd hready
  rw [hstored] at htarget
  have hb : target.hosts = ["b"] := by simpa using htarget
  have hmoved : ¬ d.Reaches "b" := by
    rintro ⟨name, m, hm, hhost⟩
    have hmem := List.mem_map_of_mem (f := Machine.hostAddress?) (Dict.mem_values_iff.2 ⟨name, hm⟩)
    rw [hmembers, hhost] at hmem
    exact absurd hmem (by decide)
  refine ⟨d, target, hd, hready, hstored, hb, hmoved, ?_⟩
  exact (hhosts "b" (by rw [hb]; exact List.mem_cons_self)).resolve_left hmoved

end BenchCluster
