import Mathlib.Data.List.Nodup
import BenchCluster.Proofs.Topology.Expansion
import BenchCluster.Proofs.Topology.Groups

/-! # Whose instances there are

The instances of different roles have different names if no role holds a comma, so the tree finds
the role that an instance belongs to. This does not depend on how many nodes hold the name.
-/

namespace BenchCluster

namespace TopologyTree

variable {t : Template} {count : String → Option Nat} {names : Dict String}

/-- The instances of a role without a comma are numbered up to its count. -/
theorem Completes.instancesIn_eq (h : Completes t count ∅ names) {role : String}
    (hrole : role ∈ t.roles) (hcomma : ',' ∉ role.toList) :
    ∃ k, count role = some k ∧ instancesIn names role = (List.range k).map (instanceName role) := by
  obtain ⟨k, -, hcount, hfind⟩ := h.counted hrole
  refine ⟨k, hcount, ?_⟩
  rw [instancesIn, if_neg (h.nameOf_ne hrole), nameOf_of_find? hfind,
    words_joinedInstances_of_not_mem hcomma]

theorem Completes.mem_instancesIn_iff (h : Completes t count ∅ names) {role name : String}
    (hrole : role ∈ t.roles) (hcomma : ',' ∉ role.toList) :
    name ∈ instancesIn names role ↔
      ∃ k, count role = some k ∧ ∃ i < k, name = instanceName role i := by
  obtain ⟨k, hcount, hinstances⟩ := h.instancesIn_eq hrole hcomma
  rw [hinstances, List.mem_map]
  constructor
  · rintro ⟨i, hi, rfl⟩
    exact ⟨k, hcount, i, List.mem_range.1 hi, rfl⟩
  · rintro ⟨_, hk, i, hi, rfl⟩
    obtain rfl := Option.some.inj (hcount.symm.trans hk)
    exact ⟨i, List.mem_range.2 hi, rfl⟩

theorem Completes.disjoint_instancesIn (h : Completes t count ∅ names)
    (hcommas : ∀ role ∈ t.roles, ',' ∉ role.toList) {role other : String} (hrole : role ∈ t.roles)
    (hother : other ∈ t.roles) (hne : role ≠ other) :
    List.Disjoint (instancesIn names role) (instancesIn names other) := by
  intro name hname hsame
  obtain ⟨_, -, i, -, rfl⟩ := (h.mem_instancesIn_iff hrole (hcommas role hrole)).1 hname
  obtain ⟨_, -, j, -, heq⟩ := (h.mem_instancesIn_iff hother (hcommas other hother)).1 hsame
  exact hne (instanceName_injective heq).1

theorem Completes.nodup_instancesIn (h : Completes t count ∅ names) {role : String}
    (hrole : role ∈ t.roles) (hcomma : ',' ∉ role.toList) : (instancesIn names role).Nodup := by
  obtain ⟨k, -, hinstances⟩ := h.instancesIn_eq hrole hcomma
  rw [hinstances]
  exact List.nodup_range.map fun i j hij => (instanceName_injective hij).2

/-- An instance belongs to the role that it is an instance of: the nodes that hold it are those of
this role. -/
theorem Completes.roleOf_named_iff (h : Completes t count ∅ names)
    (hcommas : ∀ role ∈ t.roles, ',' ∉ role.toList) {name role : String} :
    (named t names).roleOf name = some role ↔ role ∈ t.roles ∧ name ∈ instancesIn names role := by
  rw [roleOf, Option.map_eq_some_iff]
  constructor
  · rintro ⟨n, hfind, rfl⟩
    have hplace := List.mem_of_find?_eq_some hfind
    have hholds := List.find?_some hfind
    rw [instances_of_mem_named hplace, List.contains_iff_mem] at hholds
    exact ⟨role_mem_roles hplace, hholds⟩
  · rintro ⟨hrole, hname⟩
    obtain ⟨n, hn, rfl⟩ := List.mem_map.1 ((mem_map_role_named t names).2 hrole)
    cases hfind : (named t names).places.find? fun n => n.instances.contains name with
    | none =>
      have hnot := List.find?_eq_none.1 hfind n hn
      rw [instances_of_mem_named hn, List.contains_iff_mem] at hnot
      exact absurd hname hnot
    | some m =>
      have hplace := List.mem_of_find?_eq_some hfind
      have hholds := List.find?_some hfind
      rw [instances_of_mem_named hplace, List.contains_iff_mem] at hholds
      -- Another node may hold the name first, but no node of another role.
      refine ⟨m, rfl, by_contra fun hne => ?_⟩
      exact h.disjoint_instancesIn hcommas (role_mem_roles hplace) hrole hne hholds hname

/-- If no role of a template holds a comma, all instances of an expanded tree are distinct, each
role has one group with as many instances as it has replicas, and the role of an instance is the one
that its name was made of. -/
theorem instances_identify_roles {tree : TopologyTree}
    (hcommas : ∀ role ∈ t.roles, ',' ∉ role.toList)
    (h : (ofTemplate t).expand count = .ok (tree, names)) :
    (tree.groups.flatMap Prod.snd).Nodup ∧
    (tree.groups.map Prod.fst).Nodup ∧
    (∀ role, role ∈ tree.groups.map Prod.fst ↔ role ∈ t.roles) ∧
    (∀ group ∈ tree.groups, ∃ k, count group.1 = some k ∧
      group.2 = (List.range k).map (instanceName group.1)) ∧
    ∀ name role, tree.roleOf name = some role ↔
      role ∈ t.roles ∧ ∃ k, count role = some k ∧ ∃ i < k, name = instanceName role i := by
  obtain ⟨rfl, hcompletes⟩ := expand_ofTemplate_eq_ok h
  have hroles : (named t names).groups.map Prod.fst = t.rolesInOrder := by
    rw [groups_named, List.map_map]
    exact List.map_id _
  refine ⟨?_, ?_, fun role => ?_, fun group hgroup => ?_, fun name role => ?_⟩
  · rw [groups_named, List.flatMap_map, List.nodup_flatMap]
    refine ⟨fun role hrole => ?_, t.nodup_rolesInOrder.pairwise_of_forall_ne
      fun role hrole other hother hne => ?_⟩
    · have hrole := t.mem_rolesInOrder.1 hrole
      exact hcompletes.nodup_instancesIn hrole (hcommas role hrole)
    · exact hcompletes.disjoint_instancesIn hcommas (t.mem_rolesInOrder.1 hrole)
        (t.mem_rolesInOrder.1 hother) hne
  · rw [hroles]
    exact t.nodup_rolesInOrder
  · rw [hroles, t.mem_rolesInOrder]
  · rw [groups_named] at hgroup
    obtain ⟨role, hrole, rfl⟩ := List.mem_map.1 hgroup
    have hrole := t.mem_rolesInOrder.1 hrole
    exact hcompletes.instancesIn_eq hrole (hcommas role hrole)
  · rw [hcompletes.roleOf_named_iff hcommas]
    exact and_congr_right fun hrole => hcompletes.mem_instancesIn_iff hrole (hcommas role hrole)

namespace Sample

/-- Enough instances for the names of one role to begin with that of another. -/
def many (role : String) : Option Nat := if role = "a" then some 12 else some 2

end Sample

/-- An instance may have the name of another role, which does not matter. -/
theorem nested_instances_identify_roles :
    (∀ role ∈ Sample.nested.roles, ',' ∉ role.toList) ∧
      ∃ tree names, (ofTemplate Sample.nested).expand Sample.many = .ok (tree, names) ∧
        (tree.groups.flatMap Prod.snd).Nodup ∧ tree.roleOf "a_1" = some "a" ∧
        tree.roleOf "a_1_0" = some "a_1" := by
  have hroles : Sample.nested.roles = ["a", "a_1"] := rfl
  have hcommas : ∀ role ∈ Sample.nested.roles, ',' ∉ role.toList := by
    rw [hroles]
    decide
  have hok : ((ofTemplate Sample.nested).expand Sample.many).isOk = true := rfl
  obtain ⟨⟨tree, names⟩, hexpand⟩ := Fallible.isOk_iff.1 hok
  obtain ⟨hnodup, -, -, -, howner⟩ := instances_identify_roles hcommas hexpand
  refine ⟨hcommas, tree, names, hexpand, hnodup, ?_, ?_⟩
  · exact (howner _ _).2 ⟨by simp [hroles], 12, rfl, 1, by decide, rfl⟩
  · exact (howner _ _).2 ⟨by simp [hroles], 2, rfl, 0, by decide, rfl⟩

end TopologyTree

end BenchCluster
