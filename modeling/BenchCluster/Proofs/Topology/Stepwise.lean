import BenchCluster.Proofs.Fallible
import BenchCluster.Proofs.Topology.InPlace

/-! # Expanding node by node

A tree whose nodes are visited in the order of their positions can be expanded by three passes over
these positions. Each pass looks at one node after the other, as the passes before have left it: the
first one checks the nodes, the second one takes up the names that are there, and the third one
gives names to the nodes that have none. Only the first pass can fail, and it changes nothing.
-/

namespace BenchCluster

namespace TopologyTree

/-- Work on a tree that changes one node at a time. What has been changed stays if it fails. -/
abbrev NodeWork (α : Type) := ExceptT TopologyError (StateM TopologyTree) α

def setName (id : Nat) (name : String) (t : TopologyTree) : TopologyTree :=
  ⟨t.nodes.modify id fun n => { n with name := name }⟩

def checkNode (count : String → Option Nat) (id : Nat) : NodeWork Unit := do
  let t ← get
  match (t.node? id).bind (expansionError? count) with
  | some e => throw e
  | none => return ()

/-- Takes up the name of the node at a position if it is expanded and its role has no name yet. -/
def recordNode (names : Dict String) (id : Nat) : NodeWork (Dict String) := do
  let t ← get
  match t.node? id with
  | some n => return if n.isExpanded then names.insertIfNew n.role n.name else names
  | none => return names

/-- Gives the name of its role to the node at a position, unless it is expanded. A role that has no
name yet gets the joined names of its instances. -/
def expandNode (count : String → Option Nat) (names : Dict String) (id : Nat) :
    NodeWork (Dict String) := do
  let t ← get
  match t.node? id with
  | some n =>
    if n.isExpanded then
      return names
    else
      let joined := joinedInstances n.role ((count n.role).getD 1)
      set (t.setName id ((names.find? n.role).getD joined))
      return names.insertIfNew n.role joined
  | none => return names

def expandNodes (count : String → Option Nat) : NodeWork (Dict String) := do
  let t ← get
  let ids := (t.levelOrder.drop 1).map Prod.fst
  ids.forM (checkNode count)
  let names ← ids.foldlM recordNode ∅
  ids.foldlM (expandNode count) names

variable {count : String → Option Nat} {before rest : List TreeNode} {n : TreeNode}
  {names : Dict String}

theorem run_get_bind {α : Type} (f : TopologyTree → NodeWork α) (t : TopologyTree) :
    (get >>= f).run t = (f t).run t :=
  rfl

theorem node?_append : (⟨before ++ n :: rest⟩ : TopologyTree).node? before.length = some n := by
  simp [node?]

theorem setName_append (name : String) :
    setName before.length name ⟨before ++ n :: rest⟩ =
      ⟨before ++ { n with name := name } :: rest⟩ := by
  simp [setName, List.modify_eq_take_cons_drop]

/-! ## One node -/

theorem run_checkNode (count : String → Option Nat) (before : List TreeNode) (n : TreeNode)
    (rest : List TreeNode) : (checkNode count before.length).run ⟨before ++ n :: rest⟩ =
      (match expansionError? count n with | some e => .error e | none => .ok (),
        ⟨before ++ n :: rest⟩) := by
  rw [checkNode, run_get_bind, node?_append, Option.bind_some]
  cases expansionError? count n <;> rfl

theorem run_recordNode : (recordNode names before.length).run ⟨before ++ n :: rest⟩ =
    (.ok (if n.isExpanded then names.insertIfNew n.role n.name else names),
      ⟨before ++ n :: rest⟩) := by
  rw [recordNode, run_get_bind, node?_append]
  rfl

theorem run_expandNode (count : String → Option Nat) (names : Dict String)
    (before : List TreeNode) (n : TreeNode) (rest : List TreeNode) :
    (expandNode count names before.length).run ⟨before ++ n :: rest⟩ =
    if n.isExpanded then (.ok names, ⟨before ++ n :: rest⟩) else
      let joined := joinedInstances n.role ((count n.role).getD 1)
      (.ok (names.insertIfNew n.role joined),
        ⟨before ++ { n with name := (names.find? n.role).getD joined } :: rest⟩) := by
  rw [expandNode, run_get_bind]
  simp only [node?_append]
  by_cases h : n.isExpanded = true
  · rw [if_pos h, if_pos h]
    rfl
  · rw [if_neg h, if_neg h, setName_append]
    rfl

/-! ## All nodes -/

theorem forM_checkNode (count : String → Option Nat) (before nodes : List TreeNode) :
    ((List.range' before.length nodes.length).forM (checkNode count)).run ⟨before ++ nodes⟩ =
      (match nodes.findSome? (expansionError? count) with | some e => .error e | none => .ok (),
        ⟨before ++ nodes⟩) := by
  induction nodes generalizing before with
  | nil => rfl
  | cons n rest ih =>
    have hfirst := run_checkNode count before n rest
    have hrest := ih (before ++ [n])
    rw [List.length_cons, List.range'_succ, List.findSome?_cons]
    change (checkNode count before.length >>= fun _ => List.forM _ _).run _ = _
    cases herror : expansionError? count n with
    | some e =>
      rw [herror] at hfirst
      exact Fallible.run_bind_of_error hfirst
    | none =>
      rw [herror] at hfirst
      rw [Fallible.run_bind_of_ok hfirst]
      simpa using hrest

theorem foldlM_recordNode (before nodes : List TreeNode) (names : Dict String) :
    ((List.range' before.length nodes.length).foldlM recordNode names).run ⟨before ++ nodes⟩ =
      (.ok ((nodes.filter TreeNode.isExpanded).foldl
        (fun names n => names.insertIfNew n.role n.name) names), ⟨before ++ nodes⟩) := by
  induction nodes generalizing before names with
  | nil => rfl
  | cons n rest ih =>
    have hrest := ih (before ++ [n])
    rw [List.length_cons, List.range'_succ, List.foldlM_cons,
      Fallible.run_bind_of_ok run_recordNode]
    rw [List.length_append, List.append_assoc] at hrest
    refine (hrest _).trans ?_
    by_cases h : n.isExpanded = true
    · rw [if_pos h, List.filter_cons_of_pos h]
      rfl
    · rw [if_neg h, List.filter_cons_of_neg h]
      rfl

/-- The third pass gives names to nodes before it has gone through all of them, but a name that a
role has been given stays, so these are the names that the roles have in the end. -/
theorem foldlM_expandNode (count : String → Option Nat) (before nodes : List TreeNode)
    (names : Dict String) :
    ((List.range' before.length nodes.length).foldlM (expandNode count) names).run
        ⟨before ++ nodes⟩ =
      (.ok (givenNames count nodes names),
        ⟨before ++ nodes.map (fillName (givenNames count nodes names))⟩) := by
  induction nodes generalizing before names with
  | nil => rfl
  | cons n rest ih =>
    have hfirst := run_expandNode count names before n rest
    rw [List.length_cons, List.range'_succ, List.foldlM_cons, givenNames, List.map_cons, fillName]
    by_cases h : n.isExpanded = true
    · have hrest := ih (before ++ [n]) names
      rw [List.length_append, List.append_assoc, List.append_assoc] at hrest
      rw [if_pos h] at hfirst
      rw [Fallible.run_bind_of_ok hfirst, List.filter_cons_of_neg (by simp [h]), if_pos h]
      exact hrest
    · let joined := joinedInstances n.role ((count n.role).getD 1)
      let named : TreeNode := { n with name := (names.find? n.role).getD joined }
      -- The pass goes on behind a node that has its name already.
      have hrest := ih (before ++ [named]) (names.insertIfNew n.role joined)
      have hname : (names.insertIfNew n.role joined).find? n.role = some named.name := by
        rw [Dict.find?_insertIfNew, if_pos rfl]
        cases hfind : names.find? n.role <;> simp [named, hfind]
      have hkept : (givenNames count rest (names.insertIfNew n.role joined)).find? n.role =
          some named.name := by
        rw [find?_givenNames, hname]
        rfl
      rw [List.length_append, List.append_assoc, List.append_assoc] at hrest
      rw [if_neg h] at hfirst
      rw [Fallible.run_bind_of_ok hfirst, List.filter_cons_of_pos (by simp [h]), if_neg h,
        List.foldl_cons]
      refine hrest.trans ?_
      rw [givenNames] at hkept
      rw [hkept]
      rfl

/-- The three passes come to what expanding the tree as a whole does. -/
theorem run_expandNodes {t : TopologyTree} (h : t.levelOrder = numbered 0 t.nodes)
    (count : String → Option Nat) : (expandNodes count).run t = t.expandInPlace count := by
  have hids : (t.levelOrder.drop 1).map Prod.fst =
      List.range' (t.nodes.take 1).length (t.nodes.drop 1).length := by
    rw [h]
    obtain ⟨nodes⟩ := t
    cases nodes with
    | nil => rfl
    | cons root rest => simp [numbered, List.map_fst_zip]
  have hnodes : t = ⟨t.nodes.take 1 ++ t.nodes.drop 1⟩ := by rw [List.take_append_drop]
  have hcheck := forM_checkNode count (t.nodes.take 1) (t.nodes.drop 1)
  have hrecord := foldlM_recordNode (t.nodes.take 1) (t.nodes.drop 1) ∅
  have hexpand := foldlM_expandNode count (t.nodes.take 1) (t.nodes.drop 1)
    (recorded (t.nodes.drop 1))
  rw [← hnodes] at hcheck hrecord hexpand
  rw [expandNodes, run_get_bind, hids, expandInPlace, expand_eq,
    places_of_levelOrder h]
  cases herror : (t.nodes.drop 1).findSome? (expansionError? count) with
  | some e =>
    rw [herror] at hcheck
    exact Fallible.run_bind_of_error hcheck
  | none =>
    rw [herror] at hcheck
    rw [Fallible.run_bind_of_ok hcheck, Fallible.run_bind_of_ok hrecord]
    exact hexpand

end TopologyTree

end BenchCluster
