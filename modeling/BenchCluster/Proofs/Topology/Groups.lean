import BenchCluster.Cluster.Descriptor
import BenchCluster.Proofs.Fallible
import BenchCluster.Proofs.Topology.Levels
import BenchCluster.Proofs.Topology.Named

/-! # The groups of a restored tree

A tree that is restored from a template and the instance names of its roles has one group for each
role, in the order of the first places, and the role above it is that of the template.
-/

namespace BenchCluster

/-- No instance names are those of the role itself, so every node of a restored tree counts as
expanded. -/
def ClusterDescriptor.Expanded (d : ClusterDescriptor) : Prop :=
  ∀ role names, d.topologyMap.find? role = some names → names ≠ role

namespace TopologyTree

theorem roleAt_mapPlaces {f : TreeNode → TreeNode} {t : TopologyTree}
    (hrole : ∀ n, (f n).role = n.role) (parent : Option Nat) :
    roleAt (t.mapPlaces f).nodes parent = roleAt t.nodes parent := by
  cases parent with
  | none => rfl
  | some p =>
    simp only [roleAt, Option.bind_some]
    by_cases hp : p = 0
    · rw [if_pos hp, if_pos hp]
    · rw [if_neg hp, if_neg hp, getElem?_mapPlaces, Option.map_map]
      congr 1
      funext n
      rw [Function.comp_apply, if_neg hp, hrole]

theorem parentRole_eq (t : TopologyTree) (role : String) : t.parentRole role =
    (t.places.find? fun n => n.role = role).bind fun n => roleAt t.nodes n.parent := rfl

/-- The nodes that stand for their roles come from the list, and their roles are those of the list,
each once and where it comes first, without those that have been seen. -/
theorem firstOfEachRole_spec (seen : List String) (nodes : List TreeNode) :
    (∀ n ∈ firstOfEachRole seen nodes, n ∈ nodes ∧ n.role ∉ seen) ∧
      ((firstOfEachRole seen nodes).map TreeNode.role).Nodup ∧
      (firstOfEachRole seen nodes).map TreeNode.role =
        ((nodes.map TreeNode.role).filter fun role => !seen.contains role).eraseDups := by
  induction nodes generalizing seen with
  | nil => simp [firstOfEachRole]
  | cons n rest ih =>
    rw [firstOfEachRole]
    by_cases hseen : seen.contains n.role
    · obtain ⟨hmem, hnodup, hroles⟩ := ih seen
      rw [if_pos hseen, List.map_cons, List.filter_cons_of_neg (by simpa using hseen)]
      exact ⟨fun m hm => ⟨List.mem_cons_of_mem _ (hmem m hm).1, (hmem m hm).2⟩, hnodup, hroles⟩
    · obtain ⟨hmem, hnodup, hroles⟩ := ih (n.role :: seen)
      rw [if_neg hseen, List.map_cons, List.map_cons,
        List.filter_cons_of_pos (by simpa using hseen), List.eraseDups_cons, hroles,
        List.filter_filter]
      refine ⟨fun m hm => ?_, List.nodup_cons.2 ⟨fun hrole => ?_, hroles ▸ hnodup⟩, ?_⟩
      · rcases List.mem_cons.1 hm with rfl | hm
        · exact ⟨List.mem_cons_self, by simpa using hseen⟩
        · exact ⟨List.mem_cons_of_mem _ (hmem m hm).1,
            fun hin => (hmem m hm).2 (List.mem_cons_of_mem _ hin)⟩
      · rw [← hroles] at hrole
        obtain ⟨m, hm, hsame⟩ := List.mem_map.1 hrole
        exact (hmem m hm).2 (hsame ▸ List.mem_cons_self)
      · congr 2
        refine List.filter_congr fun role _ => ?_
        rw [List.contains_cons, Bool.not_or, Bool.and_comm]

theorem map_role_firstOfEachRole (nodes : List TreeNode) :
    (firstOfEachRole [] nodes).map TreeNode.role = (nodes.map TreeNode.role).eraseDups := by
  rw [(firstOfEachRole_spec [] nodes).2.2]
  simp

end TopologyTree

namespace Template

open TopologyTree

variable (t : Template)

theorem map_role_places : (ofTemplate t).places.map TreeNode.role = t.inLevels.map Prod.snd := by
  rw [← map_places_ofTemplate, List.map_map]
  rfl

theorem firstOfEachRole_places :
    (firstOfEachRole [] (ofTemplate t).places).map TreeNode.role = t.rolesInOrder := by
  rw [map_role_firstOfEachRole, map_role_places, rolesInOrder]

theorem nodup_rolesInOrder : t.rolesInOrder.Nodup := by
  rw [← firstOfEachRole_places]
  exact (firstOfEachRole_spec [] _).2.1

theorem mem_rolesInOrder {role : String} : role ∈ t.rolesInOrder ↔ role ∈ t.roles := by
  rw [rolesInOrder, List.mem_eraseDups, ← map_role_places,
    (map_role_places_ofTemplate t).mem_iff, mem_roles_iff]

theorem roleAbove?_eq (role : String) : t.roleAbove? role = (ofTemplate t).parentRole role := by
  rw [roleAbove?, ← map_places_ofTemplate, List.find?_map, parentRole_eq, Option.bind_map]
  rfl

theorem mem_roles_of_roleAbove? {role parent : String} (h : t.roleAbove? role = some parent) :
    parent ∈ t.roles := by
  rw [roleAbove?_eq, parentRole_eq] at h
  obtain ⟨n, -, hparent⟩ := Option.bind_eq_some_iff.1 h
  obtain ⟨p, -, hat⟩ := Option.bind_eq_some_iff.1 hparent
  split at hat
  · cases hat
  · rename_i hp
    obtain ⟨above, habove, rfl⟩ := Option.map_eq_some_iff.1 hat
    exact mem_map_role_places.1 (List.mem_map_of_mem (mem_places_of_getElem? habove hp))

end Template

namespace TopologyTree

variable {t : Template} {names : Dict String}

def instancesIn (names : Dict String) (role : String) : List String :=
  if nameOf names role = role then [] else Text.words ',' (nameOf names role)

theorem instances_of_mem_named {n : TreeNode} (h : n ∈ (named t names).places) :
    n.instances = instancesIn names n.role := by
  have hexpanded := isExpanded_named h
  rw [TreeNode.instances, instancesIn, name_of_mem_named h]
  by_cases hname : nameOf names n.role = n.role
  · rw [if_pos hname, if_neg fun h => hexpanded.1 h hname]
  · rw [if_neg hname, if_pos (hexpanded.2 hname)]

/-- The groups of a tree are the roles in the order of their first places, each with the instance
names of its nodes. -/
theorem groups_named (t : Template) (names : Dict String) :
    (named t names).groups = t.rolesInOrder.map fun role => (role, instancesIn names role) := by
  have hgroups : (named t names).groups =
      ((firstOfEachRole [] (named t names).places).map TreeNode.role).map
        fun role => (role, instancesIn names role) := by
    rw [groups, List.map_map]
    refine List.map_congr_left fun n hn => ?_
    have hplace := ((firstOfEachRole_spec [] _).1 n hn).1
    rw [Function.comp_apply, instances_of_mem_named hplace]
  rw [hgroups, map_role_firstOfEachRole, map_role_named, Template.map_role_places,
    Template.rolesInOrder]

theorem parentRole_named (t : Template) (names : Dict String) (role : String) :
    (named t names).parentRole role = t.roleAbove? role := by
  rw [Template.roleAbove?_eq, parentRole_eq, parentRole_eq, places_named, List.find?_map,
    Option.bind_map]
  congr 1
  funext n
  exact roleAt_mapPlaces (f := TreeNode.rename names) (t := ofTemplate t) (fun _ => rfl) n.parent

end TopologyTree

namespace ClusterDescriptor

open TopologyTree

variable {d : ClusterDescriptor} {tree : TopologyTree}

/-- The groups of a restored tree are the roles in the order of their first places, with their
instances. -/
theorem groups_restore (hexpanded : d.Expanded)
    (h : restore d.topology d.topologyMap = .ok tree) :
    tree.groups = d.topology.rolesInOrder.map fun role => (role, d.instancesOf role) := by
  obtain ⟨hnames, rfl⟩ := restore_eq_ok_iff.1 h
  rw [groups_named]
  refine List.map_congr_left fun role hrole => ?_
  obtain ⟨joined, hjoined⟩ := Dict.contains_iff.1
    (hnames role (d.topology.mem_rolesInOrder.1 hrole))
  rw [instancesIn, nameOf_of_find? hjoined, if_neg (hexpanded role joined hjoined), instancesOf,
    hjoined]

theorem parentRole_restore (h : restore d.topology d.topologyMap = .ok tree) (role : String) :
    tree.parentRole role = d.topology.roleAbove? role := by
  obtain ⟨-, rfl⟩ := restore_eq_ok_iff.1 h
  exact parentRole_named d.topology d.topologyMap role

end ClusterDescriptor

end BenchCluster
