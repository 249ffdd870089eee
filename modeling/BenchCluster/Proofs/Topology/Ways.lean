import BenchCluster.Proofs.Topology.Grown

/-! # The way to a node

A node stands at the end of a path of roles, which its parents tell. In the tree of a template there
is one node for each path of the template, and the nodes stand in the order of these paths.
-/

namespace BenchCluster

namespace TopologyTree

open RoleForest

/-! ## Nodes and paths -/

/-- A node stands at the end of a path. The root stands at the end of the empty one, and every other
node at the end of its role behind the path of its parent. -/
inductive Stands (tree : TopologyTree) : Nat → List String → Prop
  | root {id : Nat} {n : TreeNode} (h : tree.node? id = some n) (hroot : n.parent = none) :
    Stands tree id []
  | under {id parent : Nat} {n : TreeNode} {above : List String} (h : tree.node? id = some n)
      (hparent : n.parent = some parent) (habove : Stands tree parent above) :
    Stands tree id (above ++ [n.role])

/-- The path to the node that a queue entry is for, by the paths to the nodes before it. -/
def wayTo (paths : List (List String)) (q : Option Nat × String × RoleForest) : List String :=
  match q.1 with
  | none => []
  | some parent => (paths[parent]?).getD [] ++ [q.2.1]

/-- The nodes of a list stand at the ends of the paths of another list. -/
structure Labelled (nodes : List TreeNode) (paths : List (List String)) : Prop where
  length_eq : nodes.length = paths.length
  root : ∀ {id : Nat} {n : TreeNode}, nodes[id]? = some n → n.parent = none →
    paths[id]? = some []
  under : ∀ {id parent : Nat} {n : TreeNode}, nodes[id]? = some n → n.parent = some parent →
    parent < id ∧ ∃ above, paths[parent]? = some above ∧ paths[id]? = some (above ++ [n.role])

variable {nodes before : List TreeNode} {paths : List (List String)} {tree : TopologyTree}

theorem wayTo_some {parent : Nat} {above : List String} (h : paths[parent]? = some above)
    (role : String) (forest : RoleForest) :
    wayTo paths (some parent, role, forest) = above ++ [role] := by
  simp [wayTo, h]

theorem wayTo_append {q : Option Nat × String × RoleForest} (h : ∀ p ∈ q.1, p < paths.length)
    (more : List (List String)) : wayTo (paths ++ more) q = wayTo paths q := by
  obtain ⟨parent, role, forest⟩ := q
  cases parent with
  | none => rfl
  | some p => simp only [wayTo, List.getElem?_append_left (h p rfl)]

theorem Labelled.concat (h : Labelled nodes paths) {q : Option Nat × String × RoleForest}
    {n : TreeNode} (hparent : n.parent = q.1) (hrole : n.role = q.2.1)
    (hq : ∀ p ∈ q.1, p < nodes.length) :
    Labelled (nodes ++ [n]) (paths ++ [wayTo paths q]) := by
  obtain ⟨parent, role, forest⟩ := q
  have hcases : ∀ {id m}, (nodes ++ [n])[id]? = some m →
      (id < nodes.length ∧ nodes[id]? = some m) ∨ (id = nodes.length ∧ m = n) := by
    intro id m hm
    rw [List.getElem?_append] at hm
    split at hm
    · rename_i hid
      exact .inl ⟨hid, hm⟩
    · obtain ⟨hlast, rfl⟩ := List.getElem?_eq_some_iff.1 hm
      rw [List.length_singleton] at hlast
      exact .inr ⟨by omega, List.getElem_singleton _⟩
  have hold : ∀ {id : Nat}, id < nodes.length →
      (paths ++ [wayTo paths (parent, role, forest)])[id]? = paths[id]? := fun hid =>
    List.getElem?_append_left (h.length_eq ▸ hid)
  have hnew : (paths ++ [wayTo paths (parent, role, forest)])[nodes.length]? =
      some (wayTo paths (parent, role, forest)) := by
    rw [h.length_eq]
    exact List.getElem?_concat_length
  refine ⟨by simp [h.length_eq], fun {id m} hm hroot => ?_, fun {id above m} hm habove => ?_⟩
  · rcases hcases hm with ⟨hid, hm⟩ | ⟨rfl, rfl⟩
    · rw [hold hid]
      exact h.root hm hroot
    · rw [hnew, wayTo, ← hparent, hroot]
  · rcases hcases hm with ⟨hid, hm⟩ | ⟨rfl, rfl⟩
    · obtain ⟨hlt, way, hway, hpath⟩ := h.under hm habove
      rw [hold (hlt.trans hid), hold hid]
      exact ⟨hlt, way, hway, hpath⟩
    · obtain rfl : parent = some above := hparent.symm.trans habove
      have hlt : above < nodes.length := hq above rfl
      have hlt' : above < paths.length := h.length_eq ▸ hlt
      have hway : paths[above]? = some paths[above] := List.getElem?_eq_getElem hlt'
      rw [hold hlt, hnew, wayTo_some hway, hrole, hway]
      exact ⟨hlt, _, rfl, rfl⟩

/-- Laying out a queue gives nodes that stand at the ends of the paths that it comes to. -/
theorem labelled_arrange (fuel : Nat) (h : Labelled before paths)
    {queue : List (Option Nat × String × RoleForest)}
    (hparents : ∀ q ∈ queue, ∀ p ∈ q.1, p < before.length) :
    Labelled (before ++ arrange fuel before.length queue)
      (paths ++ unroll fuel (queue.map fun q => (wayTo paths q, q.2.2))) := by
  induction fuel generalizing before paths queue with
  | zero => simpa [arrange, unroll] using h
  | succ fuel ih =>
    cases queue with
    | nil => simpa [arrange, unroll] using h
    | cons q rest =>
      obtain ⟨hq, hrest⟩ := List.forall_mem_cons.1 hparents
      obtain ⟨parent, role, forest⟩ := q
      let node : TreeNode :=
        { name := role, role := role, parent := parent
          children := List.range' (before.length + 1 + rest.length) forest.trees.length }
      have hnode : Labelled (before ++ [node]) (paths ++ [wayTo paths (parent, role, forest)]) :=
        h.concat rfl rfl hq
      have hlength : (before ++ [node]).length = before.length + 1 := by simp
      have hqueue : ∀ q ∈ rest ++ forest.children before.length, ∀ p ∈ q.1,
          p < (before ++ [node]).length := by
        intro q hq p hp
        rw [hlength]
        rcases List.mem_append.1 hq with hq | hq
        · exact Nat.lt_succ_of_lt (hrest q hq p hp)
        · obtain ⟨t, -, rfl⟩ := List.mem_map.1 hq
          obtain rfl := Option.some.inj hp
          exact Nat.lt_succ_self _
      -- The ways to pending places stay as they are, and those to new ones go through the new node.
      have hways : (rest ++ forest.children before.length).map (fun q =>
            (wayTo (paths ++ [wayTo paths (parent, role, forest)]) q, q.2.2)) =
          rest.map (fun q => (wayTo paths q, q.2.2)) ++ forest.trees.map fun t =>
            (wayTo paths (parent, role, forest) ++ [t.1], t.2) := by
        rw [List.map_append]
        congr 1
        · refine List.map_congr_left fun q hq => ?_
          rw [wayTo_append fun p hp => h.length_eq ▸ hrest q hq p hp]
        · have hlast : (paths ++ [wayTo paths (parent, role, forest)])[before.length]? =
              some (wayTo paths (parent, role, forest)) := by
            rw [h.length_eq]
            exact List.getElem?_concat_length
          rw [children, List.map_map]
          refine List.map_congr_left fun t _ => ?_
          rw [Function.comp_apply, wayTo_some hlast]
      have hih := ih hnode hqueue
      rw [hways, hlength, List.append_assoc, List.append_assoc] at hih
      exact hih

theorem labelled_ofTemplate (t : Template) : Labelled (ofTemplate t).nodes t.paths := by
  have hnothing : Labelled [] [] := ⟨rfl, by simp, by simp⟩
  have hqueue : ∀ q ∈ [((none : Option Nat), rootName, t.forest)], ∀ p ∈ q.1, p < 0 := by simp
  exact labelled_arrange (t.forest.size + 1) hnothing hqueue

/-- A node stands at the end of the path that it is labelled with, and of no other one. -/
theorem Labelled.stands_iff (h : Labelled tree.nodes paths) {id : Nat} {path : List String} :
    tree.Stands id path ↔ paths[id]? = some path := by
  constructor
  · intro hstands
    induction hstands with
    | root hn hroot => exact h.root hn hroot
    | under hn hparent _ ih =>
      obtain ⟨-, above, habove, hpath⟩ := h.under hn hparent
      rw [Option.some.inj (ih.symm.trans habove)]
      exact hpath
  · intro hpath
    induction id using Nat.strongRecOn generalizing path with
    | ind id ih =>
      have hid : id < tree.nodes.length := by
        rw [h.length_eq]
        exact (List.getElem?_eq_some_iff.1 hpath).1
      obtain ⟨n, hn⟩ := exists_node?_of_lt hid
      cases hparent : n.parent with
      | none =>
        obtain rfl := Option.some.inj (hpath.symm.trans (h.root hn hparent))
        exact .root hn hparent
      | some parent =>
        obtain ⟨hlt, above, habove, hunder⟩ := h.under hn hparent
        obtain rfl := Option.some.inj (hpath.symm.trans hunder)
        exact .under hn hparent (ih parent hlt habove)

/-! ## Positions in the order of the paths -/

variable {t : Template} {names : Dict String}

theorem Labelled.stands_unique (h : Labelled tree.nodes paths) {id : Nat} {p q : List String}
    (hp : tree.Stands id p) (hq : tree.Stands id q) : p = q :=
  Option.some.inj ((h.stands_iff.1 hp).symm.trans (h.stands_iff.1 hq))

theorem Labelled.lt_iff (h : Labelled tree.nodes t.paths) {id id' : Nat} {p p' : List String}
    (hp : tree.Stands id p) (hp' : tree.Stands id' p') : id < id' ↔ Precedes p p' := by
  have hforward : ∀ {i j : Nat} {p q : List String}, tree.Stands i p → tree.Stands j q → i < j →
      Precedes p q := by
    intro i j p q hp hq hlt
    obtain ⟨hi, rfl⟩ := List.getElem?_eq_some_iff.1 (h.stands_iff.1 hp)
    obtain ⟨hj, rfl⟩ := List.getElem?_eq_some_iff.1 (h.stands_iff.1 hq)
    exact List.pairwise_iff_getElem.1 t.pairwise_paths i j hi hj hlt
  refine ⟨hforward hp hp', fun hlt => ?_⟩
  rcases Nat.lt_trichotomy id id' with h' | rfl | h'
  · exact h'
  · rw [h.stands_unique hp hp'] at hlt
    exact absurd hlt hlt.asymm
  · exact absurd (hforward hp' hp h') hlt.asymm

theorem Labelled.occurs (h : Labelled tree.nodes t.paths) {id : Nat} {path : List String}
    (hpath : tree.Stands id path) : t.forest.Occurs path :=
  Template.mem_paths_iff.1 (List.mem_of_getElem? (h.stands_iff.1 hpath))

theorem Labelled.existsUnique_node (h : Labelled tree.nodes t.paths) {path : List String}
    (hpath : t.forest.Occurs path) : ∃! id, tree.Stands id path := by
  obtain ⟨id, hid⟩ := List.mem_iff_getElem?.1 (Template.mem_paths_iff.2 hpath)
  have hstands := h.stands_iff.2 hid
  refine ⟨id, hstands, fun other hother => ?_⟩
  rcases Nat.lt_trichotomy other id with hlt | heq | hgt
  · exact absurd ((h.lt_iff hother hstands).1 hlt) fun hself => hself.asymm hself
  · exact heq
  · exact absurd ((h.lt_iff hstands hother).1 hgt) fun hself => hself.asymm hself

theorem Labelled.existsUnique_path (h : Labelled tree.nodes paths) {id : Nat}
    (hid : id < tree.size) : ∃! path, tree.Stands id path := by
  have hid' : id < paths.length := h.length_eq ▸ hid
  have hstands := h.stands_iff.2 (List.getElem?_eq_getElem hid')
  exact ⟨_, hstands, fun other hother => h.stands_unique hother hstands⟩

/-- The last role on the way down to a node is its own one, and the way to the root is empty. -/
theorem Labelled.getLast?_eq (h : Labelled tree.nodes paths) {id : Nat} {n : TreeNode}
    {path : List String} (hn : tree.node? id = some n) (hpath : tree.Stands id path) :
    path.getLast? = if n.parent = none then none else some n.role := by
  have hpath := h.stands_iff.1 hpath
  cases hparent : n.parent with
  | none =>
    obtain rfl := Option.some.inj (hpath.symm.trans (h.root hn hparent))
    rfl
  | some parent =>
    obtain ⟨-, above, -, hunder⟩ := h.under hn hparent
    obtain rfl := Option.some.inj (hpath.symm.trans hunder)
    simp

end TopologyTree

end BenchCluster
