import BenchCluster.Proofs.Topology.Groups
import BenchCluster.Proofs.Topology.Reached
import BenchCluster.Proofs.Topology.Ways

/-! # Trees are laid out breadth first

Level order goes through the nodes of a tree as they stand, which is the order of the paths of its
template. Names change nothing of it, so it is the same for all trees that are reached.
-/

namespace BenchCluster

namespace TopologyTree

open RoleForest

variable {t : Template} {tree : TopologyTree} {names : Dict String}

/-! ## Names change nothing -/

/-- The node at a position with the name that its role has, where the root keeps its own. -/
def renameAt (names : Dict String) (id : Nat) (n : TreeNode) : TreeNode :=
  if id = 0 then n else n.rename names

@[simp]
theorem role_renameAt (id : Nat) (n : TreeNode) : (renameAt names id n).role = n.role := by
  rw [renameAt]
  split <;> rfl

@[simp]
theorem parent_renameAt (id : Nat) (n : TreeNode) : (renameAt names id n).parent = n.parent := by
  rw [renameAt]
  split <;> rfl

@[simp]
theorem children_renameAt (id : Nat) (n : TreeNode) :
    (renameAt names id n).children = n.children := by
  rw [renameAt]
  split <;> rfl

theorem node?_named_iff {id : Nat} {n : TreeNode} : (named t names).node? id = some n ↔
    ∃ m, (ofTemplate t).node? id = some m ∧ renameAt names id m = n := by
  rw [node?, getElem?_named]
  exact Option.map_eq_some_iff

theorem size_named (t : Template) (names : Dict String) :
    (named t names).size = (ofTemplate t).size :=
  size_mapPlaces _ _

theorem Linked.named (t : Template) (names : Dict String) : (named t names).Linked where
  root_iff {id n} hn := by
    obtain ⟨m, hm, rfl⟩ := node?_named_iff.1 hn
    rw [parent_renameAt]
    exact (Linked.ofTemplate t).root_iff hm
  parent_lt {id n parent} hn hparent := by
    obtain ⟨m, hm, rfl⟩ := node?_named_iff.1 hn
    rw [parent_renameAt] at hparent
    exact (Linked.ofTemplate t).parent_lt hm hparent
  mem_children_iff {parent child} := by
    have hlinked := @(Linked.ofTemplate t).mem_children_iff parent child
    constructor
    · rintro ⟨n, hn, hchild⟩
      obtain ⟨m, hm, rfl⟩ := node?_named_iff.1 hn
      rw [children_renameAt] at hchild
      obtain ⟨c, hc, hparent⟩ := hlinked.1 ⟨m, hm, hchild⟩
      exact ⟨_, node?_named_iff.2 ⟨c, hc, rfl⟩, (parent_renameAt child c).trans hparent⟩
    · rintro ⟨n, hn, hparent⟩
      obtain ⟨c, hc, rfl⟩ := node?_named_iff.1 hn
      rw [parent_renameAt] at hparent
      obtain ⟨m, hm, hchild⟩ := hlinked.2 ⟨c, hc, hparent⟩
      refine ⟨_, node?_named_iff.2 ⟨m, hm, rfl⟩, ?_⟩
      rw [children_renameAt]
      exact hchild
  sorted {id n} hn := by
    obtain ⟨m, hm, rfl⟩ := node?_named_iff.1 hn
    rw [children_renameAt]
    exact (Linked.ofTemplate t).sorted hm

theorem labelled_named (t : Template) (names : Dict String) :
    Labelled (named t names).nodes t.paths := by
  have h := labelled_ofTemplate t
  refine ⟨(size_named t names).trans h.length_eq, fun {id n} hn hroot => ?_,
    fun {id parent n} hn hparent => ?_⟩
  · obtain ⟨m, hm, rfl⟩ := node?_named_iff.1 hn
    rw [parent_renameAt] at hroot
    exact h.root hm hroot
  · obtain ⟨m, hm, rfl⟩ := node?_named_iff.1 hn
    rw [parent_renameAt] at hparent
    rw [role_renameAt]
    exact h.under hm hparent

/-- A visit that may take longer than the nodes are many ends with the last of them. -/
theorem visit_named (t : Template) (names : Dict String) (more : Nat) :
    (named t names).visit ((named t names).size + more) [0] =
      numbered 0 (named t names).nodes := by
  refine visit_mapPlaces_eq_numbered ?_ fun _ => rfl
  have hvisit := @visit_arrange (t.forest.size + 1 + more) 0 [(none, rootName, t.forest)] [] rfl
  rw [List.nil_append, arrange_template] at hvisit
  rw [size_named, size_ofTemplate]
  exact hvisit

/-! ## The first node of a role -/

theorem exists_first_node (hplaces : tree.places = tree.nodes.drop 1) {role : String}
    (hrole : ∃ n ∈ tree.nodes.drop 1, n.role = role) :
    ∃ id n, id ≠ 0 ∧ tree.node? id = some n ∧ n.role = role ∧
      tree.places.find? (fun n => n.role = role) = some n ∧
      ∀ j m, j ≠ 0 → tree.node? j = some m → m.role = role → id ≤ j := by
  obtain ⟨m, hm, hsame⟩ := hrole
  have hfound : (tree.places.find? fun n => n.role = role).isSome := by
    rw [hplaces, List.find?_isSome]
    exact ⟨m, hm, decide_eq_true hsame⟩
  obtain ⟨n, hn⟩ := Option.isSome_iff_exists.1 hfound
  obtain ⟨hholds, k, hk, hat, hbefore⟩ := List.find?_eq_some_iff_getElem.1 hn
  have hnode : ∀ {j : Nat} {m : TreeNode}, j ≠ 0 → tree.node? j = some m →
      tree.places[j - 1]? = some m := by
    intro j m hj hm
    rw [hplaces, List.getElem?_drop, Nat.add_sub_cancel' (Nat.one_le_iff_ne_zero.2 hj)]
    exact hm
  refine ⟨k + 1, n, Nat.succ_ne_zero k, ?_, of_decide_eq_true hholds, hn, ?_⟩
  · have hplace : tree.places[k]? = some n := hat ▸ List.getElem?_eq_getElem hk
    rw [hplaces, List.getElem?_drop, Nat.add_comm] at hplace
    exact hplace
  · intro j m hj hm hsame
    by_contra hlt
    have hlt : j - 1 < k := by omega
    obtain ⟨hj', hm⟩ := List.getElem?_eq_some_iff.1 (hnode hj hm)
    have hnot := hbefore (j - 1) hlt
    rw [hm, hsame] at hnot
    simp at hnot

/-- The role above the first node of a role is that above the first place of the role. -/
theorem Labelled.exists_first (h : Labelled tree.nodes t.paths) (hlinked : tree.Linked)
    (hplaces : tree.places = tree.nodes.drop 1) {role : String}
    (hrole : ∃ n ∈ tree.nodes.drop 1, n.role = role) :
    ∃ above, t.forest.First role above ∧ tree.parentRole role = above.getLast? := by
  obtain ⟨id, n, hid, hn, rfl, hfind, hfirst⟩ := exists_first_node hplaces hrole
  have hnotroot : n.parent ≠ none := mt (hlinked.root_iff hn).1 hid
  obtain ⟨parent, hparent⟩ := Option.ne_none_iff_exists'.1 hnotroot
  have hlt := (hlinked.parent_lt hn hparent).trans (lt_size_of_node? hn)
  obtain ⟨m, hm⟩ := exists_node?_of_lt hlt
  obtain ⟨above, habove, -⟩ := h.existsUnique_path hlt
  have hstands : tree.Stands id (above ++ [n.role]) := .under hn hparent habove
  refine ⟨above, ⟨h.occurs hstands, fun other hother => ?_⟩, ?_⟩
  · -- A node for the other place has the role as well, so it is not before the first one.
    obtain ⟨id', hstands', -⟩ := h.existsUnique_node hother
    have hid' : id' < tree.size := by
      rw [size, h.length_eq]
      exact (List.getElem?_eq_some_iff.1 (h.stands_iff.1 hstands')).1
    obtain ⟨n', hn'⟩ := exists_node?_of_lt hid'
    have hlast := h.getLast?_eq hn' hstands'
    rw [List.getLast?_concat] at hlast
    split at hlast
    · cases hlast
    · rename_i hnone
      have hle := hfirst id' n' (mt (hlinked.root_iff hn').2 hnone) hn' (Option.some.inj hlast).symm
      rcases Nat.eq_or_lt_of_le hle with rfl | hlt
      · exact .inl (List.append_cancel_right (h.stands_unique hstands' hstands))
      · exact .inr ((h.lt_iff hstands hstands').1 hlt)
  · rw [parentRole_eq, hfind, Option.bind_some, hparent, h.getLast?_eq hm habove, roleAt,
      Option.bind_some, if_congr (hlinked.root_iff hm) rfl rfl]
    have hm' : tree.nodes[parent]? = some m := hm
    rw [hm', Option.map_some]

/-! ## All that is reached -/

/-- A tree is the breadth-first layout of a template. -/
structure BreadthFirst (t : Template) (tree : TopologyTree) : Prop where
  /-- There is one node for each place where a role stands, and the root. -/
  size_eq : tree.size = t.forest.occurrences.length + 1
  linked : tree.Linked
  existsUnique_path : ∀ {id}, id < tree.size → ∃! path, tree.Stands id path
  existsUnique_node : ∀ {path}, t.forest.Occurs path → ∃! id, tree.Stands id path
  occurs : ∀ {id path}, tree.Stands id path → t.forest.Occurs path
  /-- On one level the nodes stand from left to right. -/
  lt_iff : ∀ {id id' path path'}, tree.Stands id path → tree.Stands id' path' →
    (id < id' ↔ Precedes path path')
  /-- No node is less deep than one before it. -/
  length_le : ∀ {id id' path path'}, tree.Stands id path → tree.Stands id' path' → id ≤ id' →
    path.length ≤ path'.length
  levelOrder_eq : tree.levelOrder = (List.range tree.size).zip tree.nodes
  /-- Level order ends since nothing is left to be visited. -/
  visit_eq : ∀ more, tree.visit (tree.size + more) [0] = tree.levelOrder
  mem_roles_iff : ∀ {role}, role ∈ t.roles ↔ ∃ n ∈ tree.nodes.drop 1, n.role = role
  /-- The role above a role is that above its first place, and nothing is above the top level. -/
  parentRole_eq : ∀ {role}, role ∈ t.roles →
    ∃ above, t.forest.First role above ∧ tree.parentRole role = above.getLast?
  parentRole_eq_none : ∀ {role}, role ∉ t.roles → tree.parentRole role = none

theorem breadthFirst_named (t : Template) (names : Dict String) :
    BreadthFirst t (named t names) := by
  have hlabelled := labelled_named t names
  have hlinked := Linked.named t names
  have hroles : ∀ {role}, role ∈ t.roles ↔ ∃ n ∈ (named t names).nodes.drop 1, n.role = role := by
    intro role
    rw [drop_named, ← mem_map_role_named t names, List.mem_map]
  have hlevelOrder := levelOrder_named t names
  refine
    { size_eq := ?_
      linked := hlinked
      existsUnique_path := hlabelled.existsUnique_path
      existsUnique_node := hlabelled.existsUnique_node
      occurs := hlabelled.occurs
      lt_iff := hlabelled.lt_iff
      length_le := fun {id id' path path'} hpath hpath' hle => ?_
      levelOrder_eq := by rw [hlevelOrder, numbered, ← List.range_eq_range', size]
      visit_eq := fun more => (visit_named t names more).trans hlevelOrder.symm
      mem_roles_iff := hroles
      parentRole_eq := fun {role} hrole =>
        hlabelled.exists_first hlinked (drop_named t names).symm (hroles.1 hrole)
      parentRole_eq_none := fun {role} hrole => ?_ }
  · have hlength := (map_role_places_ofTemplate t).length_eq
    rw [List.length_map, places_ofTemplate, List.length_drop] at hlength
    have hsize := size_ofTemplate t
    rw [size_named]
    rw [size] at hsize ⊢
    omega
  · rcases Nat.eq_or_lt_of_le hle with rfl | hlt
    · rw [hlabelled.stands_unique hpath hpath']
    · exact ((hlabelled.lt_iff hpath hpath').1 hlt).length_le
  · have hnone : ((named t names).places.find? fun n => n.role = role) = none := by
      rw [List.find?_eq_none]
      intro n hn hsame
      exact hrole (of_decide_eq_true hsame ▸ role_mem_roles hn)
    rw [parentRole_eq, hnone, Option.bind_none]

/-- A template is laid out breadth first: growing the tree node by node and gathering the roles from
a stack come to their ends, to the tree and the roles of the template. Whatever a tree has gone
through since it was made or restored, it has one node for each path of the template and the root,
in level order and linked both ways. Level order goes through the positions as they are, and the
role above a role is that above its first place on the first level where it stands. -/
theorem laid_out_breadth_first (t : Template) :
    (∀ more, grow (t.forest.size + 1 + more) [(0, t.forest)] bareRoot = ofTemplate t) ∧
    (∀ more, (gather (t.forest.size + 1 + more) [t.forest] ∅).keys = t.roles) ∧
    ∀ tree, Reached t tree → BreadthFirst t tree := by
  refine ⟨grow_bareRoot t, keys_gather t, fun tree hreached => ?_⟩
  obtain ⟨names, rfl⟩ := hreached.exists_named
  exact breadthFirst_named t names

/-- A role that stands at the top as well has nothing above it, in a restored tree that has been
expanded too. -/
theorem nested_laid_out_breadth_first :
    ∃ tree, Reached Sample.nested tree ∧ tree.topologyMap.find? "a" = some "a_0,a_1" ∧
      tree.size = 4 ∧ tree.levelOrder.map Prod.fst = [0, 1, 2, 3] ∧
      (∃! id, tree.Stands id ["a", "a_1"]) ∧ tree.parentRole "a_1" = none := by
  have hreached : Reached Sample.nested
      ((named Sample.nested Sample.partly).expandInPlace Sample.pair).2 :=
    .expanded Sample.pair (.restored Sample.partly rfl)
  have hlaid := (laid_out_breadth_first Sample.nested).2.2 _ hreached
  have hsize := hlaid.size_eq
  have hbelow : Sample.nested.forest.Occurs ["a", "a_1"] :=
    .under List.mem_cons_self (.under List.mem_cons_self (.root _))
  have hfirst : Sample.nested.forest.First "a_1" [] := by
    refine ⟨.under (List.mem_cons_of_mem _ List.mem_cons_self) (.root _), fun other _ => ?_⟩
    cases other with
    | nil => exact .inl rfl
    | cons role rest => exact .inr (.of_length_lt (by simp))
  have hrole : "a_1" ∈ Sample.nested.roles := List.mem_cons_of_mem _ List.mem_cons_self
  obtain ⟨above, habove, hparent⟩ := hlaid.parentRole_eq hrole
  obtain rfl := hfirst.unique habove
  have hlevelOrder := congrArg (List.map Prod.fst) hlaid.levelOrder_eq
  rw [hsize, List.map_fst_zip (List.length_range.trans hsize.symm).le] at hlevelOrder
  exact ⟨_, hreached, rfl, hsize, hlevelOrder, hlaid.existsUnique_node hbelow, hparent⟩

end TopologyTree

end BenchCluster
