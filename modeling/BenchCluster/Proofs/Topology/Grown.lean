import BenchCluster.Proofs.Topology.Named
import BenchCluster.Proofs.Topology.Paths

/-! # Trees that grow node by node

The tree of a template can be grown from its root: a queue holds the nodes whose roles below are
still to be added, and each of these gets the next position. Whatever is added, parents and children
refer to each other. The roles of a template can be gathered from a stack, in another order, which
comes to the same.
-/

namespace BenchCluster

namespace TopologyTree

open RoleForest

/-! ## Adding nodes -/

def bare (parent : Option Nat) (role : String) : TreeNode :=
  { name := role, role := role, parent := parent, children := [] }

def addBelow (parent : Nat) (role : String) (t : TopologyTree) : TopologyTree :=
  ⟨(t.nodes.modify parent fun n => { n with children := n.children ++ [t.size] }) ++
    [bare (some parent) role]⟩

/-- Adds nodes for several roles below another one, and puts each of them at the end of the queue
with what stands below it. -/
def addAll (parent : Nat) : List (String × RoleForest) → List (Nat × RoleForest) → TopologyTree →
    List (Nat × RoleForest) × TopologyTree
  | [], queue, t => (queue, t)
  | (role, forest) :: rest, queue, t =>
    addAll parent rest (queue ++ [(t.size, forest)]) (t.addBelow parent role)

/-- Works off a queue of nodes, each with what is to be added below it. -/
def grow : Nat → List (Nat × RoleForest) → TopologyTree → TopologyTree
  | 0, _, t => t
  | _ + 1, [], t => t
  | fuel + 1, (parent, forest) :: rest, t =>
    let (queue, t) := addAll parent forest.trees rest t
    grow fuel queue t

def bareRoot : TopologyTree := ⟨[bare none rootName]⟩

variable {before after : List TreeNode} {node : TreeNode}

theorem addBelow_append (role : String) :
    addBelow before.length role ⟨before ++ node :: after⟩ =
      ⟨before ++ { node with children := node.children ++ [before.length + 1 + after.length] } ::
        (after ++ [bare (some before.length) role])⟩ := by
  have hsize : size ⟨before ++ node :: after⟩ = before.length + 1 + after.length := by
    simp only [size, List.length_append, List.length_cons]
    omega
  simp [addBelow, hsize, List.modify_eq_take_cons_drop]

theorem addAll_append (trees : List (String × RoleForest)) (queue : List (Nat × RoleForest)) :
    addAll before.length trees queue ⟨before ++ node :: after⟩ =
      let added := List.range' (before.length + 1 + after.length) trees.length
      (queue ++ added.zip (trees.map Prod.snd),
        ⟨before ++ { node with children := node.children ++ added } ::
          (after ++ trees.map fun t => bare (some before.length) t.1)⟩) := by
  induction trees generalizing node after queue with
  | nil => simp [addAll]
  | cons t rest ih =>
    obtain ⟨role, forest⟩ := t
    have hsize : size ⟨before ++ node :: after⟩ = before.length + 1 + after.length := by
      simp only [size, List.length_append, List.length_cons]
      omega
    rw [addAll, hsize, addBelow_append, ih]
    simp [List.range'_succ, Nat.add_assoc]

/-- Growing works off the nodes that are there already, one after the other. A node has all its
children when its turn has come, and until then none. -/
theorem grow_eq {fuel : Nat} (before : List TreeNode)
    {queue : List (Option Nat × String × RoleForest)} (h : queueSize queue ≤ fuel) :
    grow fuel ((List.range' before.length queue.length).zip (queue.map fun q => q.2.2))
        ⟨before ++ queue.map fun q => bare q.1 q.2.1⟩ =
      ⟨before ++ arrange fuel before.length queue⟩ := by
  induction fuel generalizing before queue with
  | zero =>
    cases queue with
    | nil => rfl
    | cons q rest => simp [queueSize] at h
  | succ fuel ih =>
    cases queue with
    | nil => rfl
    | cons q rest =>
      obtain ⟨parent, role, forest⟩ := q
      have hrest : queueSize (rest ++ forest.children before.length) ≤ fuel := by
        rw [queueSize_append, queueSize_children]
        simp only [queueSize] at h
        omega
      let node : TreeNode :=
        { name := role, role := role, parent := parent
          children := List.range' (before.length + 1 + rest.length) forest.trees.length }
      -- With its children the node is finished; they are pending behind the others from now on.
      have hnext := ih (before ++ [node]) hrest
      have hpending : (List.range' (before ++ [node]).length
            (rest ++ forest.children before.length).length).zip
          ((rest ++ forest.children before.length).map fun q => q.2.2) =
            (List.range' (before.length + 1) rest.length).zip (rest.map fun q => q.2.2) ++
              (List.range' (before.length + 1 + rest.length) forest.trees.length).zip
                (forest.trees.map Prod.snd) := by
        rw [← List.zip_append (by simp), List.range'_append_1]
        simp [children, Function.comp_def]
      rw [hpending] at hnext
      simp only [List.length_cons, List.range'_succ, List.map_cons, List.zip_cons_cons, grow,
        addAll_append, List.length_map]
      simpa [arrange, children, bare, node, Function.comp_def] using hnext

theorem arrange_of_le {fuel next : Nat} {queue : List (Option Nat × String × RoleForest)}
    (h : queueSize queue ≤ fuel) :
    arrange fuel next queue = arrange (queueSize queue) next queue := by
  induction fuel generalizing next queue with
  | zero => rw [Nat.le_zero.1 h]
  | succ fuel ih =>
    cases queue with
    | nil => rfl
    | cons q rest =>
      obtain ⟨parent, role, forest⟩ := q
      have hrest : queueSize ((parent, role, forest) :: rest) =
          queueSize (rest ++ forest.children next) + 1 := by
        rw [queueSize_append, queueSize_children]
        simp only [queueSize]
        omega
      have hle : queueSize (rest ++ forest.children next) ≤ fuel := by omega
      rw [hrest, arrange, arrange]
      exact congrArg _ (ih hle)

/-- The layout of a template does not depend on how long it may take. -/
theorem arrange_template (t : Template) (more : Nat) :
    arrange (t.forest.size + 1 + more) 0 [(none, rootName, t.forest)] = (ofTemplate t).nodes := by
  have hsize : queueSize [(none, rootName, t.forest)] = t.forest.size + 1 := by
    simp [queueSize, Nat.add_comm]
  rw [arrange_of_le (by omega), hsize]
  rfl

/-- A tree that grows until nothing is left to be added is that of its template. -/
theorem grow_bareRoot (t : Template) (more : Nat) :
    grow (t.forest.size + 1 + more) [(0, t.forest)] bareRoot = ofTemplate t := by
  have hsize : queueSize [(none, rootName, t.forest)] ≤ t.forest.size + 1 + more := by
    simp only [queueSize]
    omega
  have hgrow := grow_eq [] hsize
  exact hgrow.trans (congrArg TopologyTree.mk (arrange_template t more))

/-! ## Parents and children -/

/-- The nodes of a tree refer to each other: only the first one has no parent, parents stand before
their children, and the children of a node are those whose parent it is, each once and in order. -/
structure Linked (t : TopologyTree) : Prop where
  root_iff : ∀ {id n}, t.node? id = some n → (n.parent = none ↔ id = 0)
  parent_lt : ∀ {id n parent}, t.node? id = some n → n.parent = some parent → parent < id
  mem_children_iff : ∀ {parent child}, (∃ n, t.node? parent = some n ∧ child ∈ n.children) ↔
    ∃ n, t.node? child = some n ∧ n.parent = some parent
  sorted : ∀ {id n}, t.node? id = some n → n.children.Pairwise (· < ·)

variable {t : TopologyTree} {parent id : Nat} {role : String} {n : TreeNode}

theorem lt_size_of_node? (h : t.node? id = some n) : id < t.size :=
  (List.getElem?_eq_some_iff.1 h).1

theorem exists_node?_of_lt (h : id < t.size) : ∃ n, t.node? id = some n :=
  ⟨t.nodes[id], List.getElem?_eq_getElem h⟩

theorem size_addBelow : (t.addBelow parent role).size = t.size + 1 := by
  simp [addBelow, size]

theorem node?_addBelow : (t.addBelow parent role).node? id = some n ↔
    (id = t.size ∧ n = bare (some parent) role) ∨ ∃ m, t.node? id = some m ∧
      n = if id = parent then { m with children := m.children ++ [t.size] } else m := by
  have hsize : t.nodes.length = t.size := rfl
  rw [node?, addBelow, List.getElem?_append, List.length_modify, hsize]
  by_cases hid : id < t.size
  · rw [if_pos hid, List.getElem?_modify]
    have hne : id ≠ t.size := Nat.ne_of_lt hid
    obtain ⟨m, hm⟩ := exists_node?_of_lt hid
    have hm' : t.nodes[id]? = some m := hm
    by_cases hparent : id = parent
    · subst hparent
      simp [hne, hm, hm', @eq_comm _ n]
    · simp [hne, hm, hm', hparent, Ne.symm hparent, @eq_comm _ n]
  · rw [if_neg hid]
    have hnone : t.node? id = none := List.getElem?_eq_none (Nat.not_lt.1 hid)
    by_cases hlast : id = t.size
    · simp [hlast, hlast ▸ hnone, @eq_comm _ n]
    · have hpast : [bare (some parent) role].length ≤ id - t.size := by
        simp only [List.length_singleton]
        omega
      simp [hnone, hlast, List.getElem?_eq_none hpast]

namespace Linked

theorem lt_size_of_mem_children (h : t.Linked) (hn : t.node? id = some n) {child : Nat}
    (hchild : child ∈ n.children) : child < t.size := by
  obtain ⟨m, hm, -⟩ := h.mem_children_iff.1 ⟨n, hn, hchild⟩
  exact lt_size_of_node? hm

/-- A node that is added below another one is linked with it. -/
theorem addBelow (h : t.Linked) (hparent : parent < t.size) (role : String) :
    (t.addBelow parent role).Linked where
  root_iff {id n} hn := by
    rcases node?_addBelow.1 hn with ⟨rfl, rfl⟩ | ⟨m, hm, rfl⟩
    · have hpos : t.size ≠ 0 := Nat.ne_of_gt (Nat.zero_lt_of_lt hparent)
      simp [bare, hpos]
    · rw [← h.root_iff hm]
      split <;> rfl
  parent_lt {id n above} hn habove := by
    rcases node?_addBelow.1 hn with ⟨rfl, rfl⟩ | ⟨m, hm, rfl⟩
    · obtain rfl := Option.some.inj habove
      exact hparent
    · refine h.parent_lt hm ?_
      rw [← habove]
      split <;> rfl
  mem_children_iff {above child} := by
    constructor
    · rintro ⟨n, hn, hchild⟩
      rcases node?_addBelow.1 hn with ⟨rfl, rfl⟩ | ⟨m, hm, rfl⟩
      · cases hchild
      -- The child was one of this node before, or it is the new one.
      have hcases : child ∈ m.children ∨ above = parent ∧ child = t.size := by
        by_cases habove : above = parent
        · rw [if_pos habove] at hchild
          simpa [habove] using hchild
        · rw [if_neg habove] at hchild
          exact .inl hchild
      rcases hcases with hold | ⟨rfl, rfl⟩
      · obtain ⟨c, hc, hparent⟩ := h.mem_children_iff.1 ⟨m, hm, hold⟩
        refine ⟨_, node?_addBelow.2 (.inr ⟨c, hc, rfl⟩), ?_⟩
        rw [← hparent]
        split <;> rfl
      · exact ⟨_, node?_addBelow.2 (.inl ⟨rfl, rfl⟩), rfl⟩
    · rintro ⟨n, hn, habove⟩
      rcases node?_addBelow.1 hn with ⟨rfl, rfl⟩ | ⟨c, hc, rfl⟩
      · obtain rfl := Option.some.inj habove
        obtain ⟨m, hm⟩ := exists_node?_of_lt hparent
        exact ⟨_, node?_addBelow.2 (.inr ⟨m, hm, rfl⟩), by simp⟩
      · have hold : c.parent = some above := by
          rw [← habove]
          split <;> rfl
        obtain ⟨m, hm, hchild⟩ := h.mem_children_iff.2 ⟨c, hc, hold⟩
        refine ⟨_, node?_addBelow.2 (.inr ⟨m, hm, rfl⟩), ?_⟩
        split
        · exact List.mem_append_left _ hchild
        · exact hchild
  sorted {id n} hn := by
    rcases node?_addBelow.1 hn with ⟨rfl, rfl⟩ | ⟨m, hm, rfl⟩
    · exact .nil
    · split
      · refine List.pairwise_append.2 ⟨h.sorted hm, List.pairwise_singleton .., ?_⟩
        intro child hchild last hlast
        obtain rfl := List.mem_singleton.1 hlast
        exact h.lt_size_of_mem_children hm hchild
      · exact h.sorted hm

theorem addAll (h : t.Linked) (hparent : parent < t.size) {queue : List (Nat × RoleForest)}
    (hqueue : ∀ e ∈ queue, e.1 < t.size) (trees : List (String × RoleForest)) :
    let (pending, after) := TopologyTree.addAll parent trees queue t
    after.Linked ∧ ∀ e ∈ pending, e.1 < after.size := by
  induction trees generalizing t queue with
  | nil => exact ⟨h, hqueue⟩
  | cons tree rest ih =>
    obtain ⟨role, forest⟩ := tree
    have hsize : (t.addBelow parent role).size = t.size + 1 := size_addBelow
    refine ih (h.addBelow hparent role) (by omega) fun e he => ?_
    rcases List.mem_append.1 he with he | he
    · have := hqueue e he
      omega
    · obtain rfl := List.mem_singleton.1 he
      exact hsize ▸ Nat.lt_succ_self _

theorem grow (h : t.Linked) {queue : List (Nat × RoleForest)} (hqueue : ∀ e ∈ queue, e.1 < t.size)
    (fuel : Nat) : (TopologyTree.grow fuel queue t).Linked := by
  induction fuel generalizing t queue with
  | zero => exact h
  | succ fuel ih =>
    cases queue with
    | nil => exact h
    | cons e rest =>
      obtain ⟨hparent, hrest⟩ := List.forall_mem_cons.1 hqueue
      obtain ⟨hlinked, hpending⟩ := h.addAll hparent hrest e.2.trees
      exact ih hlinked hpending

theorem bareRoot : TopologyTree.bareRoot.Linked := by
  have hroot : ∀ {id n}, TopologyTree.bareRoot.node? id = some n →
      id = 0 ∧ n = bare none rootName := by
    intro id n hn
    cases id with
    | zero => exact ⟨rfl, (Option.some.inj hn).symm⟩
    | succ id => cases hn
  refine ⟨fun hn => ?_, fun hn hparent => ?_, ⟨?_, ?_⟩, fun hn => ?_⟩
  · obtain ⟨rfl, rfl⟩ := hroot hn
    simp [bare]
  · obtain ⟨rfl, rfl⟩ := hroot hn
    cases hparent
  · rintro ⟨n, hn, hchild⟩
    obtain ⟨rfl, rfl⟩ := hroot hn
    cases hchild
  · rintro ⟨n, hn, hparent⟩
    obtain ⟨rfl, rfl⟩ := hroot hn
    cases hparent
  · obtain ⟨rfl, rfl⟩ := hroot hn
    exact .nil

/-- The nodes of a fresh tree refer to each other. -/
theorem ofTemplate (t : Template) : (TopologyTree.ofTemplate t).Linked := by
  rw [← grow_bareRoot t 0]
  refine bareRoot.grow (fun e he => ?_) _
  obtain rfl := List.mem_singleton.1 he
  exact Nat.zero_lt_one

end Linked

/-! ## Gathering roles from a stack -/

/-- Gathers the roles of the forests of a stack. Those at the top of a forest are taken at once, and
what stands below them goes onto the stack, the last of it on top. -/
def gather : Nat → List RoleForest → Dict Unit → Dict Unit
  | 0, _, roles => roles
  | _ + 1, [], roles => roles
  | fuel + 1, forest :: stack, roles =>
    gather fuel ((forest.trees.map Prod.snd).reverse ++ stack)
      (forest.trees.foldl (fun roles t => roles.insert t.1 ()) roles)

theorem mem_occurrences_iff (forest : RoleForest) : role ∈ forest.occurrences ↔
    role ∈ forest.trees.map Prod.fst ∨ ∃ below ∈ forest.trees.map Prod.snd,
      role ∈ below.occurrences := by
  rw [← queueRoles_children 0, queueRoles, children, List.flatMap_map, List.mem_flatMap]
  simp only [List.mem_cons, List.mem_map]
  grind

theorem contains_gather {fuel : Nat} {stack : List RoleForest} (h : total stack ≤ fuel)
    (roles : Dict Unit) (role : String) : (gather fuel stack roles).contains role = true ↔
      roles.contains role = true ∨ ∃ forest ∈ stack, role ∈ forest.occurrences := by
  induction fuel generalizing stack roles with
  | zero =>
    cases stack with
    | nil => simp [gather]
    | cons forest rest => simp [total] at h
  | succ fuel ih =>
    cases stack with
    | nil => simp [gather]
    | cons forest rest =>
      have hrest : total ((forest.trees.map Prod.snd).reverse ++ rest) ≤ fuel := by
        have hnext := total_of_cons h
        rw [total_append] at hnext ⊢
        rw [total_reverse]
        omega
      rw [gather, ih hrest, Dict.contains_foldl_insert (f := Prod.fst) (g := fun _ => ())]
      simp only [List.mem_append, List.mem_reverse, List.mem_cons, or_and_right, exists_or,
        exists_eq_left, mem_occurrences_iff forest]
      rw [or_assoc, or_assoc, or_left_comm]

/-- The roles that are gathered until the stack is empty are those of the template, in the order of
their names. -/
theorem keys_gather (t : Template) (more : Nat) :
    (gather (t.forest.size + 1 + more) [t.forest] ∅).keys = t.roles := by
  refine Template.keys_eq_roles fun role => ?_
  have htotal : total [t.forest] ≤ t.forest.size + 1 + more := by
    rw [total_singleton]
    exact Nat.le_add_right _ more
  have hnone : (∅ : Dict Unit).contains role = false := rfl
  rw [contains_gather htotal, Template.mem_roles_iff, hnone]
  simp

end TopologyTree

end BenchCluster
