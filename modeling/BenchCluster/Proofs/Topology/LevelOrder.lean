import BenchCluster.Topology.Tree
import BenchCluster.Proofs.Dict
import Mathlib.Data.List.Perm.Basic

/-! # Level order

A tree made from a template has one node for every place of the template and one for the root,
and level order visits the nodes in the order of their positions.
-/

namespace BenchCluster

namespace RoleForest

def queueSize : List (Option Nat × String × RoleForest) → Nat
  | [] => 0
  | q :: rest => 1 + q.2.2.size + queueSize rest

def queueRoles (queue : List (Option Nat × String × RoleForest)) : List String :=
  queue.flatMap fun q => q.2.1 :: q.2.2.occurrences

def children (parent : Nat) (forest : RoleForest) : List (Option Nat × String × RoleForest) :=
  forest.trees.map fun t => (some parent, t.1, t.2)

def total : List RoleForest → Nat
  | [] => 0
  | forest :: rest => 1 + forest.size + total rest

theorem total_singleton (forest : RoleForest) : total [forest] = forest.size + 1 := by
  rw [total, total, Nat.add_zero, Nat.add_comm]

theorem total_append (first rest : List RoleForest) :
    total (first ++ rest) = total first + total rest := by
  induction first with
  | nil => simp [total]
  | cons forest first ih =>
    simp only [List.cons_append, total, ih]
    omega

theorem total_reverse (forests : List RoleForest) : total forests.reverse = total forests := by
  induction forests with
  | nil => rfl
  | cons forest rest ih =>
    simp only [List.reverse_cons, total_append, total, ih]
    omega

theorem total_trees (forest : RoleForest) : total (forest.trees.map Prod.snd) = forest.size := by
  obtain ⟨trees⟩ := forest
  change total (trees.map Prod.snd) = sizeBelow trees
  induction trees with
  | nil => rfl
  | cons t rest ih =>
    obtain ⟨role, below⟩ := t
    rw [List.map_cons, total, ih, sizeBelow]

theorem queueSize_eq_total (queue : List (Option Nat × String × RoleForest)) :
    queueSize queue = total (queue.map fun q => q.2.2) := by
  induction queue with
  | nil => rfl
  | cons q rest ih => rw [queueSize, ih, List.map_cons, total]

theorem queueSize_children (parent : Nat) (forest : RoleForest) :
    queueSize (forest.children parent) = forest.size := by
  rw [queueSize_eq_total, children, List.map_map]
  exact total_trees forest

theorem queueRoles_children (parent : Nat) (forest : RoleForest) :
    queueRoles (forest.children parent) = forest.occurrences := by
  obtain ⟨trees⟩ := forest
  change queueRoles (trees.map fun t => (some parent, t.1, t.2)) = occurrencesBelow trees
  induction trees with
  | nil => rfl
  | cons t rest ih =>
    obtain ⟨role, below⟩ := t
    simp only [queueRoles, List.map_cons, List.flatMap_cons, occurrencesBelow] at ih ⊢
    rw [ih]

theorem queueSize_append (q r : List (Option Nat × String × RoleForest)) :
    queueSize (q ++ r) = queueSize q + queueSize r := by
  simp only [queueSize_eq_total, List.map_append, total_append]

end RoleForest

namespace TopologyTree

open RoleForest

theorem length_arrange {fuel next : Nat} {queue : List (Option Nat × String × RoleForest)}
    (h : queueSize queue = fuel) : (arrange fuel next queue).length = fuel := by
  induction fuel generalizing next queue with
  | zero => rfl
  | succ fuel ih =>
    cases queue with
    | nil => simp [queueSize] at h
    | cons q rest =>
      obtain ⟨parent, role, forest⟩ := q
      have hrest : queueSize (rest ++ forest.children next) = fuel := by
        rw [queueSize_append, queueSize_children]
        simp only [queueSize] at h ⊢
        omega
      simp only [arrange, List.length_cons, Nat.add_right_cancel_iff]
      exact ih hrest

theorem size_ofTemplate (t : Template) : (ofTemplate t).size = t.forest.size + 1 :=
  length_arrange (by simp [queueSize, Nat.add_comm])

theorem map_role_arrange {fuel next : Nat} {queue : List (Option Nat × String × RoleForest)}
    (h : queueSize queue = fuel) :
    ((arrange fuel next queue).map TreeNode.role).Perm (queueRoles queue) := by
  induction fuel generalizing next queue with
  | zero =>
    cases queue with
    | nil => exact .refl _
    | cons q rest => simp [queueSize] at h
  | succ fuel ih =>
    cases queue with
    | nil => simp [queueSize] at h
    | cons q rest =>
      obtain ⟨parent, role, forest⟩ := q
      have hrest : queueSize (rest ++ forest.children next) = fuel := by
        rw [queueSize_append, queueSize_children]
        simp only [queueSize] at h ⊢
        omega
      have hroles : queueRoles (rest ++ forest.children next) =
          queueRoles rest ++ forest.occurrences := by
        rw [queueRoles, List.flatMap_append]
        exact congrArg _ (queueRoles_children next forest)
      have hperm := @ih (next + 1) _ hrest
      rw [hroles] at hperm
      exact (hperm.trans List.perm_append_comm).cons role

/-- The nodes of a list with their positions, the first of which is given. -/
def numbered (next : Nat) (nodes : List TreeNode) : List (Nat × TreeNode) :=
  (List.range' next nodes.length).zip nodes

theorem numbered_cons (next : Nat) (n : TreeNode) (nodes : List TreeNode) :
    numbered next (n :: nodes) = (next, n) :: numbered (next + 1) nodes := by
  simp [numbered, List.range'_succ]

/-- Visiting the positions of a queue goes through the nodes that it was laid out as, one after the
other: the queue of positions runs ahead of the queue of places by what is laid out already. -/
theorem visit_arrange {fuel next : Nat} {queue : List (Option Nat × String × RoleForest)}
    {before : List TreeNode} (h : before.length = next) :
    (⟨before ++ arrange fuel next queue⟩ : TopologyTree).visit fuel
      (List.range' next queue.length) = numbered next (arrange fuel next queue) := by
  induction fuel generalizing next queue before with
  | zero => rfl
  | succ fuel ih =>
    cases queue with
    | nil => rfl
    | cons q rest =>
      obtain ⟨parent, role, forest⟩ := q
      simp only [arrange, List.length_cons, List.range'_succ, visit]
      rw [List.getElem?_append_right (Nat.le_of_eq h), h, Nat.sub_self, List.getElem?_cons_zero,
        numbered_cons]
      have hids : List.range' (next + 1) rest.length ++
          List.range' (next + 1 + rest.length) forest.trees.length =
          List.range' (next + 1) (rest ++ forest.children next).length := by
        rw [List.length_append, children, List.length_map, ← List.range'_append_1]
      simp only [hids]
      rw [List.append_cons before]
      exact congrArg _ (@ih _ (rest ++ forest.children next) _ (by simp [h]))

/-- Level order visits the nodes of a fresh tree in the order of their positions. -/
theorem levelOrder_ofTemplate (t : Template) :
    (ofTemplate t).levelOrder = numbered 0 (ofTemplate t).nodes := by
  have hvisit := @visit_arrange (t.forest.size + 1) 0 [(none, rootName, t.forest)] [] rfl
  rw [levelOrder, size_ofTemplate]
  exact hvisit

theorem places_of_levelOrder {t : TopologyTree} (h : t.levelOrder = numbered 0 t.nodes) :
    t.places = t.nodes.drop 1 := by
  rw [places, h, List.map_drop, numbered, List.map_snd_zip (by simp)]

theorem places_ofTemplate (t : Template) :
    (ofTemplate t).places = (ofTemplate t).nodes.drop 1 :=
  places_of_levelOrder (levelOrder_ofTemplate t)

theorem map_role_places_ofTemplate (t : Template) :
    ((ofTemplate t).places.map TreeNode.role).Perm t.forest.occurrences := by
  rw [places_ofTemplate]
  have hsize : queueSize (t.forest.children 0) = t.forest.size := queueSize_children _ _
  have hperm := @map_role_arrange _ 1 _ hsize
  rw [queueRoles_children] at hperm
  exact hperm

theorem isExpanded_ofTemplate {t : Template} {n : TreeNode} (h : n ∈ (ofTemplate t).nodes) :
    n.isExpanded = false := by
  have key : ∀ {fuel next queue}, n ∈ arrange fuel next queue → n.isExpanded = false := by
    intro fuel
    induction fuel with
    | zero => intro next queue h; cases h
    | succ fuel ih =>
      intro next queue h
      cases queue with
      | nil => cases h
      | cons q rest =>
        rw [arrange] at h
        rcases List.mem_cons.1 h with rfl | h
        · simp [TreeNode.isExpanded]
        · exact ih h
  exact key h

end TopologyTree

end BenchCluster
