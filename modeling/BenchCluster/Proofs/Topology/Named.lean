import Mathlib.Data.List.Basic
import BenchCluster.Proofs.Topology.LevelOrder

/-! # Trees with names for their roles

The nodes of one role share a name: the one that a dictionary has for the role, or else the role
itself. What a tree answers about its nodes depends on the template and on these names alone.
-/

namespace BenchCluster

theorem Template.mem_roles_iff {t : Template} {role : String} :
    role ∈ t.roles ↔ role ∈ t.forest.occurrences := by
  rw [roles, Dict.mem_keys_ofList, List.map_map]
  simp

theorem Template.nodup_roles (t : Template) : t.roles.Nodup := Dict.nodup_keys _

theorem Template.keys_eq_roles {α : Type} {t : Template} {d : Dict α}
    (h : ∀ role, d.contains role = true ↔ role ∈ t.roles) : d.keys = t.roles := by
  rw [roles]
  refine Dict.keys_eq_of_mem_iff fun role => ?_
  rw [h, roles, Dict.mem_keys_iff]

def TreeNode.rename (names : Dict String) (n : TreeNode) : TreeNode :=
  { n with name := (names.find? n.role).getD n.name }

namespace TopologyTree

theorem isExpanded_places {t : Template} {n : TreeNode} (h : n ∈ (ofTemplate t).places) :
    n.isExpanded = false := by
  rw [places_ofTemplate] at h
  exact isExpanded_ofTemplate (List.mem_of_mem_drop h)

theorem mem_map_role_places {t : Template} {role : String} :
    role ∈ (ofTemplate t).places.map TreeNode.role ↔ role ∈ t.roles := by
  rw [Template.mem_roles_iff, (map_role_places_ofTemplate t).mem_iff]

variable {f : TreeNode → TreeNode}

/-! ## Changing all places -/

theorem getElem?_mapPlaces (f : TreeNode → TreeNode) (t : TopologyTree) (id : Nat) :
    (t.mapPlaces f).nodes[id]? = (t.nodes[id]?).map fun n => if id = 0 then n else f n := by
  obtain ⟨nodes⟩ := t
  cases nodes with
  | nil => simp [mapPlaces]
  | cons root rest => cases id <;> simp [mapPlaces]

theorem size_mapPlaces (f : TreeNode → TreeNode) (t : TopologyTree) :
    (t.mapPlaces f).size = t.size := by
  obtain ⟨nodes⟩ := t
  cases nodes <;> simp [mapPlaces, size]

theorem drop_mapPlaces (f : TreeNode → TreeNode) (t : TopologyTree) :
    (t.mapPlaces f).nodes.drop 1 = (t.nodes.drop 1).map f := by
  obtain ⟨nodes⟩ := t
  cases nodes <;> simp [mapPlaces]

theorem mapPlaces_mapPlaces (f g : TreeNode → TreeNode) (t : TopologyTree) :
    (t.mapPlaces f).mapPlaces g = t.mapPlaces fun n => g (f n) := by
  obtain ⟨nodes⟩ := t
  cases nodes <;> simp [mapPlaces]

theorem mapPlaces_congr {t : TopologyTree} {f g : TreeNode → TreeNode}
    (h : ∀ n ∈ t.nodes.drop 1, f n = g n) : t.mapPlaces f = t.mapPlaces g := by
  rw [mapPlaces, mapPlaces, List.map_congr_left h]

/-- Changes that leave the children of nodes alone do not change the order of a visit. -/
theorem visit_mapPlaces {t : TopologyTree} (hchildren : ∀ n, (f n).children = n.children)
    (fuel : Nat) (queue : List Nat) : (t.mapPlaces f).visit fuel queue =
      (t.visit fuel queue).map fun p => (p.1, if p.1 = 0 then p.2 else f p.2) := by
  induction fuel generalizing queue with
  | zero => rfl
  | succ fuel ih =>
    cases queue with
    | nil => rfl
    | cons id rest =>
      rw [visit, visit, getElem?_mapPlaces]
      cases hn : t.nodes[id]? with
      | none => simp only [Option.map_none, ih]
      | some n =>
        have hsame : (if id = 0 then n else f n).children = n.children := by
          split
          · rfl
          · exact hchildren n
        simp only [Option.map_some, List.map_cons, ih, hsame]

theorem map_numbered {next : Nat} (h : 0 < next) (nodes : List TreeNode) :
    (numbered next nodes).map (fun p => (p.1, if p.1 = 0 then p.2 else f p.2)) =
      numbered next (nodes.map f) := by
  induction nodes generalizing next with
  | nil => rfl
  | cons n rest ih =>
    rw [List.map_cons, numbered_cons, numbered_cons, List.map_cons, ih (Nat.succ_pos next),
      if_neg (Nat.ne_of_gt h)]

/-- If a visit goes through the nodes in the order of their positions, it still does when the places
are changed. -/
theorem visit_mapPlaces_eq_numbered {t : TopologyTree} {fuel : Nat} {queue : List Nat}
    (h : t.visit fuel queue = numbered 0 t.nodes) (hchildren : ∀ n, (f n).children = n.children) :
    (t.mapPlaces f).visit fuel queue = numbered 0 (t.mapPlaces f).nodes := by
  rw [visit_mapPlaces hchildren, h]
  obtain ⟨nodes⟩ := t
  cases nodes with
  | nil => rfl
  | cons root rest =>
    rw [numbered_cons, List.map_cons, if_pos rfl, map_numbered Nat.zero_lt_one]
    exact (numbered_cons 0 root (rest.map f)).symm

theorem levelOrder_mapPlaces {t : TopologyTree} (h : t.levelOrder = numbered 0 t.nodes)
    (hchildren : ∀ n, (f n).children = n.children) :
    (t.mapPlaces f).levelOrder = numbered 0 (t.mapPlaces f).nodes := by
  rw [levelOrder, size_mapPlaces]
  exact visit_mapPlaces_eq_numbered h hchildren

theorem places_mapPlaces (template : Template) (hchildren : ∀ n, (f n).children = n.children) :
    ((ofTemplate template).mapPlaces f).places = (ofTemplate template).places.map f := by
  rw [places_of_levelOrder (levelOrder_mapPlaces (levelOrder_ofTemplate template) hchildren),
    drop_mapPlaces, places_ofTemplate]

theorem mem_places_of_getElem? {t : Template} {n : TreeNode} {id : Nat}
    (h : (ofTemplate t).nodes[id]? = some n) (hid : id ≠ 0) : n ∈ (ofTemplate t).places := by
  rw [places_ofTemplate]
  refine List.mem_of_getElem? (i := id - 1) ?_
  rw [List.getElem?_drop, Nat.add_sub_cancel' (Nat.one_le_iff_ne_zero.2 hid), h]

/-! ## The names of roles -/

def nameOf (names : Dict String) (role : String) : String := (names.find? role).getD role

/-- The tree of a template with names for its roles. -/
def named (t : Template) (names : Dict String) : TopologyTree :=
  (ofTemplate t).mapPlaces (TreeNode.rename names)

theorem nameOf_of_find? {names : Dict String} {role name : String}
    (h : names.find? role = some name) : nameOf names role = name := by
  rw [nameOf, h, Option.getD_some]

variable {t : Template} {names : Dict String} {n : TreeNode}

theorem levelOrder_named (t : Template) (names : Dict String) :
    (named t names).levelOrder = numbered 0 (named t names).nodes :=
  levelOrder_mapPlaces (levelOrder_ofTemplate t) fun _ => rfl

theorem places_named (t : Template) (names : Dict String) :
    (named t names).places = (ofTemplate t).places.map (TreeNode.rename names) :=
  places_mapPlaces t fun _ => rfl

theorem drop_named (t : Template) (names : Dict String) :
    (named t names).nodes.drop 1 = (named t names).places :=
  (places_of_levelOrder (levelOrder_named t names)).symm

theorem map_role_named (t : Template) (names : Dict String) :
    (named t names).places.map TreeNode.role = (ofTemplate t).places.map TreeNode.role := by
  rw [places_named, List.map_map]
  rfl

theorem mem_map_role_named (t : Template) (names : Dict String) {role : String} :
    role ∈ (named t names).places.map TreeNode.role ↔ role ∈ t.roles := by
  rw [map_role_named, mem_map_role_places]

theorem role_mem_roles (h : n ∈ (named t names).places) : n.role ∈ t.roles :=
  (mem_map_role_named t names).1 (List.mem_map_of_mem h)

theorem name_of_mem_places (h : n ∈ (ofTemplate t).places) : n.name = n.role := by
  simpa [TreeNode.isExpanded] using isExpanded_places h

theorem rename_of_mem_places (names : Dict String) (h : n ∈ (ofTemplate t).places) :
    n.rename names = { n with name := nameOf names n.role } := by
  rw [TreeNode.rename, name_of_mem_places h]
  rfl

theorem name_of_mem_named (h : n ∈ (named t names).places) : n.name = nameOf names n.role := by
  rw [places_named] at h
  obtain ⟨m, hm, rfl⟩ := List.mem_map.1 h
  rw [rename_of_mem_places names hm]

/-- A node counts as expanded if the name of its role is not that of the role itself. -/
theorem isExpanded_named (h : n ∈ (named t names).places) :
    n.isExpanded = true ↔ nameOf names n.role ≠ n.role := by
  rw [TreeNode.isExpanded, decide_eq_true_iff, name_of_mem_named h]

theorem named_empty (t : Template) : named t ∅ = ofTemplate t := by
  have hsame : TreeNode.rename ∅ = id := rfl
  rw [named, hsame, mapPlaces, List.map_id, List.take_append_drop]

theorem named_congr {others : Dict String}
    (h : ∀ role ∈ t.roles, nameOf names role = nameOf others role) :
    named t names = named t others := by
  refine mapPlaces_congr fun n hn => ?_
  rw [← places_ofTemplate] at hn
  rw [rename_of_mem_places names hn, rename_of_mem_places others hn,
    h n.role (mem_map_role_places.1 (List.mem_map_of_mem hn))]

/-! ## Restoring -/

/-- A restored tree has the names that it is restored with, and every role needs one. -/
theorem restore_eq (t : Template) (names : Dict String) : restore t names =
    match (ofTemplate t).places.find? (fun n => !names.contains n.role) with
    | some n => .error (.notExpanded n.role)
    | none => .ok (named t names) := by
  rw [places_ofTemplate]
  rfl

theorem restore_eq_ok_iff {tree : TopologyTree} : restore t names = .ok tree ↔
    (∀ role ∈ t.roles, names.contains role = true) ∧ tree = named t names := by
  have hroles : (∀ role ∈ t.roles, names.contains role = true) ↔
      ∀ n ∈ (ofTemplate t).places, names.contains n.role = true := by
    simp only [← mem_map_role_places, List.forall_mem_map]
  rw [restore_eq, hroles]
  cases hfind : (ofTemplate t).places.find? fun n => !names.contains n.role with
  | some n =>
    have hmissing := List.find?_some hfind
    have hn := List.mem_of_find?_eq_some hfind
    simp only [reduceCtorEq, false_iff, not_and]
    intro hall
    rw [hall n hn] at hmissing
    cases hmissing
  | none =>
    have hall := List.find?_eq_none.1 hfind
    simp only [Bool.not_eq_true', Bool.not_eq_false] at hall
    rw [Except.ok.injEq, and_iff_right hall, eq_comm]

/-! ## What is recorded in a tree -/

theorem mem_role_expanded {role : String} :
    role ∈ ((named t names).places.filter TreeNode.isExpanded).map TreeNode.role ↔
      role ∈ t.roles ∧ nameOf names role ≠ role := by
  rw [List.mem_map, ← mem_map_role_named t names, List.mem_map]
  constructor
  · rintro ⟨n, hn, rfl⟩
    obtain ⟨hplace, hexpanded⟩ := List.mem_filter.1 hn
    exact ⟨⟨n, hplace, rfl⟩, (isExpanded_named hplace).1 hexpanded⟩
  · rintro ⟨⟨n, hn, rfl⟩, hname⟩
    exact ⟨n, List.mem_filter.2 ⟨hn, (isExpanded_named hn).2 hname⟩, rfl⟩

theorem mem_role_pending {role : String} :
    role ∈ ((named t names).places.filter fun n => !n.isExpanded).map TreeNode.role ↔
      role ∈ t.roles ∧ nameOf names role = role := by
  rw [List.mem_map, ← mem_map_role_named t names, List.mem_map]
  constructor
  · rintro ⟨n, hn, rfl⟩
    obtain ⟨hplace, hpending⟩ := List.mem_filter.1 hn
    refine ⟨⟨n, hplace, rfl⟩, of_not_not fun hname => ?_⟩
    rw [(isExpanded_named hplace).2 hname] at hpending
    cases hpending
  · rintro ⟨⟨n, hn, rfl⟩, hname⟩
    refine ⟨n, List.mem_filter.2 ⟨hn, ?_⟩, rfl⟩
    rw [Bool.not_eq_true', ← Bool.not_eq_true, isExpanded_named hn]
    exact not_not_intro hname

/-- The names of a tree are recorded for the roles that they differ from. -/
theorem find?_topologyMap_named (t : Template) (names : Dict String) (role : String) :
    (named t names).topologyMap.find? role =
      if role ∈ t.roles ∧ nameOf names role ≠ role then some (nameOf names role) else none := by
  rw [topologyMap, drop_named, Dict.find?_ofList_of_forall (h := nameOf names), List.map_map]
  · simp only [← mem_role_expanded]
    rfl
  · rintro e he
    obtain ⟨n, hn, rfl⟩ := List.mem_map.1 he
    exact name_of_mem_named (List.mem_filter.1 hn).1

theorem recorded_named (t : Template) (names : Dict String) :
    recorded (named t names).places = (named t names).topologyMap := by
  refine Dict.ext_find? fun role => ?_
  have hnames : recorded (named t names).places =
      ((named t names).places.filter TreeNode.isExpanded).foldl
        (fun d n => d.insertIfNew n.role (nameOf names n.role)) ∅ := by
    refine List.foldl_ext _ _ _ fun d n hn => ?_
    rw [name_of_mem_named (List.mem_filter.1 hn).1]
  rw [find?_topologyMap_named, hnames, Dict.find?_foldl_insertIfNew (h := nameOf names)]
  simp only [mem_role_expanded]
  rfl

namespace Sample

def nested : Template :=
  ⟨.of [("a", .of [("a_1", .of [])]), ("a_1", .of [])], by
    simp only [RoleForest.Sorted, RoleForest.SortedBelow]
    decide⟩

end Sample

end TopologyTree

end BenchCluster
