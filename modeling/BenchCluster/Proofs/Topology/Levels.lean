import BenchCluster.Proofs.Topology.LevelOrder

/-! # Level order by levels

The level order of a fresh tree, whose nodes refer to each other by positions, is that of its
template: the places of one level after the other, from left to right, each below its role.
-/

namespace BenchCluster

namespace RoleForest

/-- The places on a level of a forest, each with the role directly above it, if there is one. The
top level has the number 0. -/
def level : Nat → Option String → RoleForest → List (Option String × String)
  | 0, above, forest => forest.trees.map fun t => (above, t.1)
  | k + 1, _, forest => forest.trees.flatMap fun t => t.2.level k (some t.1)

/-- Goes through a queue of places, each with the role above it and what stands below it; this goes
to the end of the queue. -/
def walk : Nat → List (Option String × String × RoleForest) → List (Option String × String)
  | 0, _ => []
  | _ + 1, [] => []
  | fuel + 1, (above, role, forest) :: rest =>
    (above, role) :: walk fuel (rest ++ forest.trees.map fun t => (some role, t.1, t.2))

def queueLevel (k : Nat) (queue : List (Option String × String × RoleForest)) :
    List (Option String × String) :=
  queue.flatMap fun e => match k with
    | 0 => [(e.1, e.2.1)]
    | k + 1 => e.2.2.level k (some e.2.1)

def nextQueue (queue : List (Option String × String × RoleForest)) :
    List (Option String × String × RoleForest) :=
  queue.flatMap fun e => e.2.2.trees.map fun t => (some e.2.1, t.1, t.2)

theorem queueLevel_nextQueue (k : Nat) (queue : List (Option String × String × RoleForest)) :
    queueLevel k (nextQueue queue) = queueLevel (k + 1) queue := by
  rw [queueLevel, nextQueue, List.flatMap_assoc]
  refine List.flatMap_congr fun e _ => ?_
  rw [List.flatMap_map]
  cases k with
  | zero => exact List.map_eq_flatMap.symm
  | succ k => rfl

def walkSize : List (Option String × String × RoleForest) → Nat
  | [] => 0
  | e :: rest => 1 + e.2.2.size + walkSize rest

theorem walkSize_eq_total (queue : List (Option String × String × RoleForest)) :
    walkSize queue = total (queue.map fun e => e.2.2) := by
  induction queue with
  | nil => rfl
  | cons e rest ih => rw [walkSize, ih, List.map_cons, total]

theorem walkSize_append (first rest : List (Option String × String × RoleForest)) :
    walkSize (first ++ rest) = walkSize first + walkSize rest := by
  simp only [walkSize_eq_total, List.map_append, total_append]

theorem walkSize_trees (above : Option String) (forest : RoleForest) :
    walkSize (forest.trees.map fun t => (above, t.1, t.2)) = forest.size := by
  rw [walkSize_eq_total, List.map_map]
  exact total_trees forest

theorem walkSize_nextQueue (queue : List (Option String × String × RoleForest)) :
    walkSize queue = queue.length + walkSize (nextQueue queue) := by
  induction queue with
  | nil => rfl
  | cons e rest ih =>
    have hnext : nextQueue (e :: rest) =
        (e.2.2.trees.map fun t => (some e.2.1, t.1, t.2)) ++ nextQueue rest := rfl
    rw [hnext, walkSize_append, walkSize_trees, walkSize, ih, List.length_cons]
    omega

/-- A walk goes through the first part of its queue before it comes to what stands below. -/
theorem walk_append (fuel : Nat) (first rest : List (Option String × String × RoleForest)) :
    walk (first.length + fuel) (first ++ rest) =
      queueLevel 0 first ++ walk fuel (rest ++ nextQueue first) := by
  induction first generalizing rest with
  | nil => simp [queueLevel, nextQueue]
  | cons e first ih =>
    obtain ⟨above, role, forest⟩ := e
    rw [List.length_cons, Nat.add_right_comm, List.cons_append, walk, List.append_assoc, ih]
    simp [queueLevel, nextQueue]

theorem depth_pos (forest : RoleForest) : 0 < forest.depth := by
  obtain ⟨trees⟩ := forest
  simp only [depth]
  omega

theorem depth_of_mem_trees {forest : RoleForest} {t : String × RoleForest}
    (h : t ∈ forest.trees) : t.2.depth < forest.depth := by
  obtain ⟨trees⟩ := forest
  change t ∈ trees at h
  suffices hbelow : t.2.depth ≤ depthBelow trees by
    rw [depth]
    omega
  induction trees with
  | nil => cases h
  | cons u rest ih =>
    rw [depthBelow]
    rcases List.mem_cons.1 h with rfl | h
    · exact Nat.le_max_left _ _
    · exact (ih h).trans (Nat.le_max_right _ _)

/-- A walk goes through one level after the other. -/
theorem walk_eq_levels {levels fuel : Nat} {queue : List (Option String × String × RoleForest)}
    (hdepth : ∀ e ∈ queue, e.2.2.depth ≤ levels) (hsize : walkSize queue ≤ fuel) :
    walk fuel queue = (List.range levels).flatMap fun k => queueLevel k queue := by
  induction levels generalizing fuel queue with
  | zero =>
    have hempty : queue = [] := by
      refine List.eq_nil_iff_forall_not_mem.2 fun e he => ?_
      exact absurd (hdepth e he) (Nat.not_le.2 e.2.2.depth_pos)
    rw [hempty]
    cases fuel <;> rfl
  | succ levels ih =>
    have hnext : ∀ e ∈ nextQueue queue, e.2.2.depth ≤ levels := by
      intro e he
      obtain ⟨e', he', hbelow⟩ := List.mem_flatMap.1 he
      obtain ⟨t, ht, rfl⟩ := List.mem_map.1 hbelow
      have hless := depth_of_mem_trees ht
      have hbound := hdepth e' he'
      exact Nat.le_of_lt_succ (hless.trans_le hbound)
    rw [walkSize_nextQueue] at hsize
    have hfuel : fuel = queue.length + (fuel - queue.length) := by omega
    -- The walk goes through the queue first, and then through what stands directly below it.
    have hwalk := walk_append (fuel - queue.length) queue []
    rw [List.append_nil, List.nil_append, ← hfuel, ih hnext (by omega)] at hwalk
    rw [hwalk, List.range_succ_eq_map, List.flatMap_cons, List.flatMap_map]
    simp only [queueLevel_nextQueue]

end RoleForest

/-- The places of a template in level order, each with the role directly above it, if there is
one. -/
def Template.inLevels (t : Template) : List (Option String × String) :=
  (List.range t.depth).flatMap fun k => t.forest.level k none

/-- The role directly above the first place of a role, if there is one. -/
def Template.roleAbove? (t : Template) (role : String) : Option String :=
  (t.inLevels.find? fun place => place.2 = role).bind Prod.fst

def Template.rolesInOrder (t : Template) : List String := (t.inLevels.map Prod.snd).eraseDups

namespace TopologyTree

open RoleForest

def roleAt (nodes : List TreeNode) (parent : Option Nat) : Option String :=
  parent.bind fun p => if p = 0 then none else (nodes[p]?).map TreeNode.role

theorem roleAt_append {nodes rest : List TreeNode} {parent : Option Nat}
    (h : ∀ p ∈ parent, p < nodes.length) : roleAt (nodes ++ rest) parent = roleAt nodes parent := by
  cases parent with
  | none => rfl
  | some p => simp only [roleAt, Option.bind_some, List.getElem?_append_left (h p rfl)]

/-- The roles of the nodes that a queue is laid out as, and of those above them, are what a walk
through the queue comes to. -/
theorem places_arrange (fuel : Nat) {before : List TreeNode}
    {queue : List (Option Nat × String × RoleForest)} (hbefore : before ≠ [])
    (hparents : ∀ q ∈ queue, ∀ p ∈ q.1, p < before.length) :
    (arrange fuel before.length queue).map
        (fun n => (roleAt (before ++ arrange fuel before.length queue) n.parent, n.role)) =
      walk fuel (queue.map fun q => (roleAt before q.1, q.2.1, q.2.2)) := by
  induction fuel generalizing before queue with
  | zero => rfl
  | succ fuel ih =>
    cases queue with
    | nil => rfl
    | cons q rest =>
      obtain ⟨parent, role, forest⟩ := q
      -- Parents come before their children, so that later nodes do not change the role above.
      let node : TreeNode :=
        { name := role, role := role, parent := parent
          children := List.range' (before.length + 1 + rest.length) forest.trees.length }
      have hlength : (before ++ [node]).length = before.length + 1 := by simp
      have hparent : ∀ p ∈ parent, p < before.length := hparents _ List.mem_cons_self
      have hrest : ∀ q ∈ rest ++ forest.children before.length, ∀ p ∈ q.1,
          p < (before ++ [node]).length := by
        intro q hq p hp
        rw [hlength]
        rcases List.mem_append.1 hq with hq | hq
        · exact Nat.lt_succ_of_lt (hparents q (List.mem_cons_of_mem _ hq) p hp)
        · obtain ⟨t, -, rfl⟩ := List.mem_map.1 hq
          obtain rfl := Option.some.inj hp
          exact Nat.lt_succ_self _
      have hnode : roleAt (before ++ [node]) (some before.length) = some role := by
        simp [roleAt, hbefore, node]
      have hih := ih (by simp) hrest
      rw [hlength, List.append_assoc] at hih
      change (node :: arrange fuel (before.length + 1) (rest ++ forest.children before.length)).map
        (fun n => (roleAt (before ++ ([node] ++
          arrange fuel (before.length + 1) (rest ++ forest.children before.length))) n.parent,
            n.role)) = _
      rw [List.map_cons, hih, roleAt_append hparent, List.map_cons, walk, List.map_append]
      have hold : rest.map (fun q => (roleAt (before ++ [node]) q.1, q.2.1, q.2.2)) =
          rest.map fun q => (roleAt before q.1, q.2.1, q.2.2) := by
        refine List.map_congr_left fun q hq => ?_
        rw [roleAt_append (hparents q (List.mem_cons_of_mem _ hq))]
      have hnew : (forest.children before.length).map
          (fun q => (roleAt (before ++ [node]) q.1, q.2.1, q.2.2)) =
          forest.trees.map fun t => (some role, t.1, t.2) := by
        rw [children, List.map_map]
        refine List.map_congr_left fun t _ => ?_
        simp only [Function.comp_apply, hnode]
      rw [hold, hnew]

/-- The places of a fresh tree are those of its template in level order. -/
theorem map_places_ofTemplate (t : Template) :
    (ofTemplate t).places.map (fun n => (roleAt (ofTemplate t).nodes n.parent, n.role)) =
      t.inLevels := by
  let root : TreeNode :=
    { name := rootName, role := rootName, parent := none
      children := List.range' 1 t.forest.trees.length }
  have hnodes : (ofTemplate t).nodes = root :: arrange t.forest.size 1 (t.forest.children 0) := by
    simp [ofTemplate, arrange, root, children]
  have hparents : ∀ q ∈ t.forest.children 0, ∀ p ∈ q.1, p < [root].length := by
    intro q hq p hp
    obtain ⟨t, -, rfl⟩ := List.mem_map.1 hq
    obtain rfl := Option.some.inj hp
    exact Nat.zero_lt_one
  have hplaces := places_arrange t.forest.size (List.cons_ne_nil root []) hparents
  have hqueue : (t.forest.children 0).map (fun q => (roleAt [root] q.1, q.2.1, q.2.2)) =
      t.forest.trees.map fun t => (none, t.1, t.2) := by
    rw [children, List.map_map]
    rfl
  have hdepth : ∀ e ∈ t.forest.trees.map (fun t => ((none : Option String), t.1, t.2)),
      e.2.2.depth ≤ t.depth := by
    intro e he
    obtain ⟨u, hu, rfl⟩ := List.mem_map.1 he
    exact (depth_of_mem_trees hu).le
  rw [places_ofTemplate, hnodes]
  refine hplaces.trans ?_
  rw [hqueue, walk_eq_levels hdepth (walkSize_trees none t.forest).le, Template.inLevels]
  refine List.flatMap_congr fun k _ => ?_
  rw [queueLevel, List.flatMap_map]
  cases k with
  | zero => exact List.map_eq_flatMap.symm
  | succ k => rfl

end TopologyTree

end BenchCluster
