import BenchCluster.Topology.Template
import BenchCluster.Text.Split

/-! # Topology trees

The places of a template laid out as nodes in level order under one root. Expanding a tree gives
every node the names of its role's instances; nodes of one role share them.
-/

namespace BenchCluster

inductive TopologyError
  | missingRole (role : String)
  | zeroCount (role : String)
  | notExpanded (role : String)
  deriving DecidableEq, Repr

def TopologyError.message : TopologyError → String
  | .missingRole role =>
    s!"role '{role}' is used in the topology but has no parameters in any environment"
  | .zeroCount role => s!"role '{role}' has a count of 0"
  | .notExpanded role => s!"role '{role}' has no recorded expansion"

/-- The name of one replica of a role. -/
def instanceName (role : String) (index : Nat) : String := role ++ "_" ++ toString index

def joinedInstances (role : String) (count : Nat) : String :=
  ",".intercalate ((List.range count).map (instanceName role))

/-- A place of the topology. Its name is the role until it is expanded, then the joined names of
the instances. -/
structure TreeNode where
  name : String
  role : String
  parent : Option Nat
  children : List Nat
  deriving DecidableEq, Repr, Inhabited

namespace TreeNode

def isExpanded (n : TreeNode) : Bool := n.name ≠ n.role

def instances (n : TreeNode) : List String :=
  if n.isExpanded then Text.words ',' n.name else []

def encode (id : Nat) (n : TreeNode) : Data :=
  let number (k : Nat) : Data := .integer k
  .table [("id", number id), ("name", .text n.name), ("role", .text n.role),
    ("parent", match n.parent with | some parent => number parent | none => .null),
    ("children", .list (n.children.map number)), ("expanded", .bool n.isExpanded),
    ("instances", .list (n.instances.map .text))]

end TreeNode

/-- The nodes of a topology; the first one is the root. A node is referred to by its position. -/
structure TopologyTree where
  nodes : List TreeNode
  deriving DecidableEq, Repr, Inhabited

namespace TopologyTree

def rootName : String := "cluster"

/-- Lays out a queue of places. Each takes the next position, and its children go to the end of the
queue, so their positions are known already. -/
def arrange : Nat → Nat → List (Option Nat × String × RoleForest) → List TreeNode
  | 0, _, _ => []
  | _ + 1, _, [] => []
  | fuel + 1, next, (parent, role, forest) :: rest =>
    let trees := forest.trees
    { name := role, role := role, parent := parent
      children := List.range' (next + 1 + rest.length) trees.length } ::
      arrange fuel (next + 1) (rest ++ trees.map fun (r, f) => (some next, r, f))

def ofTemplate (t : Template) : TopologyTree :=
  ⟨arrange (t.forest.size + 1) 0 [(none, rootName, t.forest)]⟩

def size (t : TopologyTree) : Nat := t.nodes.length

def isEmpty (t : TopologyTree) : Bool := t.size ≤ 1

def node? (t : TopologyTree) (id : Nat) : Option TreeNode := t.nodes[id]?

/-- Visits the nodes of a queue of positions, each followed later by its children. -/
def visit (t : TopologyTree) : Nat → List Nat → List (Nat × TreeNode)
  | 0, _ => []
  | _ + 1, [] => []
  | fuel + 1, id :: rest =>
    match t.nodes[id]? with
    | some n => (id, n) :: t.visit fuel (rest ++ n.children)
    | none => t.visit fuel rest

/-- Every node with its position, one level after the other. -/
def levelOrder (t : TopologyTree) : List (Nat × TreeNode) := t.visit t.size [0]

def places (t : TopologyTree) : List TreeNode := (t.levelOrder.drop 1).map Prod.snd

/-- What prevents a node from being expanded. -/
def expansionError? (count : String → Option Nat) (n : TreeNode) : Option TopologyError :=
  if n.isExpanded then none
  else match count n.role with
    | none => some (.missingRole n.role)
    | some 0 => some (.zeroCount n.role)
    | some _ => none

/-- The names that expanded nodes have given to their roles. -/
def recorded (nodes : List TreeNode) : Dict String :=
  (nodes.filter TreeNode.isExpanded).foldl (fun names n => names.insertIfNew n.role n.name) ∅

def mapPlaces (f : TreeNode → TreeNode) (t : TopologyTree) : TopologyTree :=
  ⟨t.nodes.take 1 ++ (t.nodes.drop 1).map f⟩

/-- Gives every node that is not expanded the instance names of its role. All roles are checked
first, and a role that has names already keeps them. -/
def expand (count : String → Option Nat) (t : TopologyTree) :
    Except TopologyError (TopologyTree × Dict String) :=
  match t.places.findSome? (expansionError? count) with
  | some e => .error e
  | none =>
    let pending := t.places.filter fun n => !n.isExpanded
    let names := pending.foldl
      (fun names n => names.insertIfNew n.role (joinedInstances n.role ((count n.role).getD 1)))
      (recorded t.places)
    let expanded := t.mapPlaces fun n =>
      if n.isExpanded then n else { n with name := (names.find? n.role).getD n.name }
    .ok (expanded, names)

def restore (template : Template) (names : Dict String) : Except TopologyError TopologyTree :=
  let t := ofTemplate template
  match (t.nodes.drop 1).find? (fun n => !names.contains n.role) with
  | some n => .error (.notExpanded n.role)
  | none => .ok (t.mapPlaces fun n => { n with name := (names.find? n.role).getD n.name })

def topologyMap (t : TopologyTree) : Dict String :=
  Dict.ofList (((t.nodes.drop 1).filter TreeNode.isExpanded).map fun n => (n.role, n.name))

def firstOfEachRole (seen : List String) : List TreeNode → List TreeNode
  | [] => []
  | n :: rest =>
    if seen.contains n.role then firstOfEachRole seen rest
    else n :: firstOfEachRole (n.role :: seen) rest

/-- The distinct roles in level order, each with its instance names. -/
def groups (t : TopologyTree) : List (String × List String) :=
  (firstOfEachRole [] t.places).map fun n => (n.role, n.instances)

def roleOf (t : TopologyTree) (name : String) : Option String :=
  (t.places.find? fun n => n.instances.contains name).map TreeNode.role

/-- The role above the first place of a role, unless that is the root. -/
def parentRole (t : TopologyTree) (role : String) : Option String := do
  let n ← t.places.find? fun n => n.role = role
  let parent ← n.parent
  if parent = 0 then none else (t.nodes[parent]?).map TreeNode.role

end TopologyTree

end BenchCluster
