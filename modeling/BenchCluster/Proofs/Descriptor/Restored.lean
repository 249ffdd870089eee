import BenchCluster.Proofs.Descriptor.Fixed
import BenchCluster.Proofs.Topology.Reached

/-! # Restoring what has been expanded

A tree is restored from its template and the names that it has recorded. Nothing but the names of
the template's roles matters, and a tree whose nodes are all expanded comes back as it was. That of
a cluster comes back from the descriptor, whose instances are those of the tree.
-/

namespace BenchCluster

namespace TopologyTree

variable {t : Template} {tree : TopologyTree} {names others : Dict String}

/-- Restoring fails at the first role in level order without a name. -/
theorem restore_eq_inLevels (t : Template) (names : Dict String) : restore t names =
    match (t.inLevels.map Prod.snd).find? (fun role => !names.contains role) with
    | some role => .error (.notExpanded role)
    | none => .ok (named t names) := by
  rw [restore_eq, ← Template.map_role_places, List.find?_map]
  have hsame : (fun role => !names.contains role) ∘ TreeNode.role =
      fun n => !names.contains n.role := rfl
  rw [hsame]
  cases (ofTemplate t).places.find? fun n => !names.contains n.role <;> rfl

theorem restore_eq_error_iff {e : TopologyError} : restore t names = .error e ↔
    ∃ before role later, t.inLevels.map Prod.snd = before ++ role :: later ∧
      (∀ r ∈ before, names.contains r = true) ∧ names.contains role = false ∧
      e = .notExpanded role := by
  rw [restore_eq_inLevels]
  constructor
  · intro h
    cases hfind : (t.inLevels.map Prod.snd).find? fun role => !names.contains role with
    | none =>
      rw [hfind] at h
      cases h
    | some role =>
      rw [hfind] at h
      obtain ⟨hmissing, before, later, hlevels, hbefore⟩ := List.find?_eq_some_iff_append.1 hfind
      refine ⟨before, role, later, hlevels, fun r hr => ?_, by simpa using hmissing,
        (Except.error.inj h).symm⟩
      simpa using hbefore r hr
  · rintro ⟨before, role, later, hlevels, hbefore, hmissing, rfl⟩
    have hfind : (t.inLevels.map Prod.snd).find? (fun role => !names.contains role) =
        some role := by
      refine List.find?_eq_some_iff_append.2 ⟨by simp [hmissing], before, later, hlevels,
        fun r hr => ?_⟩
      simp [hbefore r hr]
    rw [hfind]

theorem exists_restore_eq_error_iff : (∃ e, restore t names = .error e) ↔
    ∃ role ∈ t.roles, names.contains role = false := by
  constructor
  · rintro ⟨e, he⟩
    by_contra hall
    simp only [not_exists, not_and, Bool.not_eq_false] at hall
    cases he.symm.trans (restore_eq_ok_iff.2 ⟨hall, rfl⟩)
  · rintro ⟨role, hrole, hmissing⟩
    cases h : restore t names with
    | error e => exact ⟨e, rfl⟩
    | ok tree =>
      rw [(restore_eq_ok_iff.1 h).1 role hrole] at hmissing
      cases hmissing

theorem restore_congr (h : ∀ role ∈ t.roles, names.find? role = others.find? role) :
    restore t names = restore t others := by
  have hroles : ∀ n ∈ (ofTemplate t).places, n.role ∈ t.roles := fun n hn =>
    mem_map_role_places.1 (List.mem_map_of_mem hn)
  have hnamed : named t names = named t others := named_congr fun role hrole => by
    rw [nameOf, h role hrole, nameOf]
  have hfind : (ofTemplate t).places.find? (fun n => !names.contains n.role) =
      (ofTemplate t).places.find? fun n => !others.contains n.role := by
    refine List.find?_congr fun n hn => ?_
    rw [Dict.contains, h n.role (hroles n hn), Dict.contains]
  rw [restore_eq, restore_eq, hnamed, hfind]

/-- A tree whose nodes are all expanded is restored from the names that it has recorded. -/
theorem Reached.restore_topologyMap (h : Reached t tree)
    (hexpanded : ∀ n ∈ tree.nodes.drop 1, n.isExpanded = true) :
    restore t tree.topologyMap = .ok tree := by
  obtain ⟨names, rfl⟩ := h.exists_named
  have hrecorded : ∀ role ∈ t.roles,
      (named t names).topologyMap.find? role = some (nameOf names role) := by
    intro role hrole
    obtain ⟨n, hn, rfl⟩ := List.mem_map.1 ((mem_map_role_named t names).2 hrole)
    have hname := hexpanded n (by rwa [drop_named])
    rw [find?_topologyMap_named, if_pos ⟨hrole, (isExpanded_named hn).1 hname⟩]
  refine restore_eq_ok_iff.2 ⟨fun role hrole => ?_, named_congr fun role hrole => ?_⟩
  · exact Dict.contains_iff.2 ⟨_, hrecorded role hrole⟩
  · exact (nameOf_of_find? (hrecorded role hrole)).symm

end TopologyTree

variable {ω : Type} {d : ClusterDescriptor}

theorem Surroundings.configure_numbered {s : Surroundings ω} {cluster implementation : String}
    {documents : Documents} {force : Bool} {inv last : Invocation ω}
    (h : (s.configure cluster documents implementation force).outcome inv = (.ok d, last)) :
    d.Numbered := by
  obtain ⟨plan, names, now, before, hplan, hnames, -, rfl, -⟩ := configure_eq_ok h
  exact plan.numbered_descriptor hplan hnames cluster now

namespace ClusterDescriptor

open TopologyTree

/-- The groups of the restored tree are the roles that have names, each with its instances. -/
theorem Numbered.groups_restore_perm (h : d.Numbered) {tree : TopologyTree}
    (htree : restore d.topology d.topologyMap = .ok tree) :
    (tree.groups.map Prod.fst).Perm d.topologyMap.keys ∧
      ∀ group ∈ tree.groups, group.2 = d.instancesOf group.1 := by
  rw [groups_restore h.expanded htree]
  constructor
  · rw [List.map_map, h.roles]
    change (d.topology.rolesInOrder.map id).Perm d.topology.roles
    rw [List.map_id,
      List.perm_ext_iff_of_nodup d.topology.nodup_rolesInOrder d.topology.nodup_roles]
    exact fun role => d.topology.mem_rolesInOrder
  · rintro group hgroup
    obtain ⟨role, -, rfl⟩ := List.mem_map.1 hgroup
    rfl

end ClusterDescriptor

/-- Restoring fails exactly if some role of the template has no name, namely for the first one in
level order, and the names of other roles do not matter. A tree whose nodes are all expanded is what
is restored from the names that it records. The tree of every descriptor that a configuration
answers can be restored: its groups are the roles with names, each with the instances that the
descriptor reads from them. -/
theorem restore_inverts_expansion :
    (∀ t names,
      ((∃ e, TopologyTree.restore t names = .error e) ↔
        ∃ role ∈ t.roles, names.contains role = false) ∧
      (∀ e, TopologyTree.restore t names = .error e ↔ ∃ before role later,
        t.inLevels.map Prod.snd = before ++ role :: later ∧
          (∀ r ∈ before, names.contains r = true) ∧ names.contains role = false ∧
          e = .notExpanded role) ∧
      ∀ others : Dict String, (∀ role ∈ t.roles, names.find? role = others.find? role) →
        TopologyTree.restore t names = TopologyTree.restore t others) ∧
    (∀ t tree, TopologyTree.Reached t tree → (∀ n ∈ tree.nodes.drop 1, n.isExpanded = true) →
      TopologyTree.restore t tree.topologyMap = .ok tree) ∧
    ∀ {ω : Type} (s : Surroundings ω) cluster documents implementation force inv d last,
      (s.configure cluster documents implementation force).outcome inv = (.ok d, last) →
      ∃ tree, TopologyTree.restore d.topology d.topologyMap = .ok tree ∧
        (tree.groups.map Prod.fst).Perm d.topologyMap.keys ∧
        ∀ group ∈ tree.groups, group.2 = d.instancesOf group.1 := by
  refine ⟨fun t names => ⟨TopologyTree.exists_restore_eq_error_iff,
    fun e => TopologyTree.restore_eq_error_iff, fun others h => TopologyTree.restore_congr h⟩,
    fun t tree h hexpanded => h.restore_topologyMap hexpanded, ?_⟩
  intro ω s cluster documents implementation force inv d last h
  have hnumbered := Surroundings.configure_numbered h
  have htree := hnumbered.restore_eq
  exact ⟨_, htree, hnumbered.groups_restore_perm htree⟩

/-- A restoration that fails, a tree that comes back as it was, and a configuration whose tree is
restored. -/
theorem sample_restored :
    TopologyTree.restore TopologyTree.Sample.nested (Dict.ofList [("a_1", "b")]) =
        .error (.notExpanded "a") ∧
      (∃ tree, TopologyTree.Reached TopologyTree.Sample.nested tree ∧
        TopologyTree.restore TopologyTree.Sample.nested tree.topologyMap = .ok tree) ∧
      ∃ d last, (Sample.surroundings.configure "c" Sample.documents "standard" false).outcome
          { outside := 0 } = (.ok d, last) ∧
        ∃ tree, TopologyTree.restore d.topology d.topologyMap = .ok tree ∧
          (tree.groups.map Prod.fst).Perm d.topologyMap.keys := by
  obtain ⟨hnames, htrees, hdescriptors⟩ := restore_inverts_expansion
  refine ⟨?_, ?_, ?_⟩
  · refine ((hnames _ _).2.1 _).2 ⟨[], "a", ["a_1", "a_1"], by cbv, by simp, by cbv, rfl⟩
  · let names : Dict String := Dict.ofList [("a", "x,y"), ("a_1", "")]
    have hreached : TopologyTree.Reached TopologyTree.Sample.nested
        (TopologyTree.named TopologyTree.Sample.nested names) := .restored names (by cbv)
    have hexpanded : (TopologyTree.named TopologyTree.Sample.nested names).nodes.drop 1 |>.all
        TreeNode.isExpanded := by
      cbv
    exact ⟨_, hreached, htrees _ _ hreached (List.all_eq_true.1 hexpanded)⟩
  · let run := (Sample.surroundings.configure "c" Sample.documents "standard" false).outcome
      { outside := 0 }
    have hok : run.1.isOk = true := by cbv
    obtain ⟨d, hd⟩ := Fallible.isOk_iff.1 hok
    have hrun : run = (.ok d, run.2) := Prod.ext hd rfl
    obtain ⟨tree, htree, hperm, -⟩ := hdescriptors _ _ _ _ _ _ _ _ hrun
    exact ⟨d, _, hrun, tree, htree, hperm⟩

end BenchCluster
