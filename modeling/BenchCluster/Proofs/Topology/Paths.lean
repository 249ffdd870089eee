import Mathlib.Data.List.Shortlex
import BenchCluster.Proofs.Topology.LevelOrder

/-! # The paths of a template

A place of a template is told by the roles on the way down to it. A queue comes to the places of
one level after the other and on each of them from left to right, so shorter paths come first and
those of one length in the order of their roles.
-/

namespace BenchCluster

namespace RoleForest

/-- The way down to a place by the roles that it passes. The empty path leads to the root. -/
inductive Occurs : RoleForest → List String → Prop
  | root (forest : RoleForest) : Occurs forest []
  | under {forest below : RoleForest} {role : String} {path : List String}
      (h : (role, below) ∈ forest.trees) (rest : Occurs below path) : Occurs forest (role :: path)

/-- A path comes before another one in level order: it is shorter, or of the same length and its
roles come first. -/
abbrev Precedes : List String → List String → Prop := List.Shortlex (· < ·)

/-- The paths to which a queue of places comes. What stands below a place goes to the end of it. -/
def unroll : Nat → List (List String × RoleForest) → List (List String)
  | 0, _ => []
  | _ + 1, [] => []
  | fuel + 1, (path, forest) :: rest =>
    path :: unroll fuel (rest ++ forest.trees.map fun t => (path ++ [t.1], t.2))

theorem total_of_cons {forest : RoleForest} {rest : List RoleForest} {fuel : Nat}
    (h : total (forest :: rest) ≤ fuel + 1) : total (rest ++ forest.trees.map Prod.snd) ≤ fuel := by
  rw [total_append, total_trees]
  rw [total] at h
  omega

theorem exists_of_mem_unroll {fuel : Nat} {queue : List (List String × RoleForest)}
    {path : List String} (h : path ∈ unroll fuel queue) :
    ∃ e ∈ queue, ∃ below, e.2.Occurs below ∧ path = e.1 ++ below := by
  induction fuel generalizing queue with
  | zero => cases h
  | succ fuel ih =>
    cases queue with
    | nil => cases h
    | cons e rest =>
      obtain ⟨first, forest⟩ := e
      rw [unroll, List.mem_cons] at h
      rcases h with rfl | h
      · exact ⟨_, List.mem_cons_self, [], .root forest, (List.append_nil _).symm⟩
      · obtain ⟨e, he, below, hbelow, rfl⟩ := ih h
        rcases List.mem_append.1 he with he | he
        · exact ⟨e, List.mem_cons_of_mem _ he, below, hbelow, rfl⟩
        · obtain ⟨t, ht, rfl⟩ := List.mem_map.1 he
          exact ⟨_, List.mem_cons_self, t.1 :: below, .under ht hbelow, List.append_assoc ..⟩

theorem mem_unroll {fuel : Nat} {queue : List (List String × RoleForest)}
    (hfuel : total (queue.map Prod.snd) ≤ fuel) {e : List String × RoleForest} (he : e ∈ queue)
    {below : List String} (hbelow : e.2.Occurs below) : e.1 ++ below ∈ unroll fuel queue := by
  induction fuel generalizing queue e below with
  | zero =>
    have hpos : 0 < total (queue.map Prod.snd) := by
      cases queue with
      | nil => cases he
      | cons e rest =>
        rw [List.map_cons, total]
        omega
    omega
  | succ fuel ih =>
    cases queue with
    | nil => cases he
    | cons first rest =>
      obtain ⟨path, forest⟩ := first
      have hrest := total_of_cons hfuel
      have hqueue : rest.map Prod.snd ++ forest.trees.map Prod.snd =
          (rest ++ forest.trees.map fun t => (path ++ [t.1], t.2)).map Prod.snd := by
        simp [Function.comp_def]
      rw [hqueue] at hrest
      rw [unroll, List.mem_cons]
      -- The place has its turn now; the way below it goes on from one of the places that are added.
      rcases List.mem_cons.1 he with rfl | he
      · cases hbelow with
        | root => exact .inl (List.append_nil _)
        | @under _ below role way h hway =>
          have hentry := List.mem_map_of_mem (f := fun t => (path ++ [t.1], t.2)) h
          have hchild := ih hrest (List.mem_append_right _ hentry) hway
          rw [List.append_assoc] at hchild
          exact .inr hchild
      · exact .inr (ih hrest (List.mem_append_left _ he) hbelow)

/-! ## The order of the paths -/

theorem Precedes.concat {p q : List String} (h : Precedes p q) (a b : String) :
    Precedes (p ++ [a]) (q ++ [b]) := by
  rcases List.shortlex_def.1 h with hlength | ⟨hlength, hlex⟩
  · exact .of_length_lt (by simpa using hlength)
  · refine .of_lex (by simpa using hlength) ?_
    clear h
    induction hlex with
    | nil => cases hlength
    | cons _ ih => exact .cons (ih (Nat.succ.inj hlength))
    | rel h => exact .rel h

theorem Precedes.asymm {p q : List String} (h : Precedes p q) : ¬ Precedes q p := by
  have hasymm : Std.Asymm fun a b : String => a < b := ⟨fun _ _ => String.lt_asymm⟩
  exact Std.Asymm.asymm _ _ h

theorem Precedes.length_le {p q : List String} (h : Precedes p q) : p.length ≤ q.length := by
  rcases List.shortlex_def.1 h with hlength | ⟨hlength, -⟩
  · exact hlength.le
  · exact hlength.le

/-- The first place of a role: all other places of the role come after it. -/
def First (forest : RoleForest) (role : String) (above : List String) : Prop :=
  forest.Occurs (above ++ [role]) ∧ ∀ other, forest.Occurs (other ++ [role]) →
    other = above ∨ Precedes (above ++ [role]) (other ++ [role])

theorem First.unique {forest : RoleForest} {role : String} {above other : List String}
    (h : forest.First role above) (hother : forest.First role other) : other = above := by
  rcases h.2 other hother.1 with heq | hlt
  · exact heq
  · rcases hother.2 above h.1 with heq | hgt
    · exact heq.symm
    · exact absurd hgt hlt.asymm

/-- A queue whose places come one after the other, and what stands below them after all of them. -/
structure InOrder (queue : List (List String × RoleForest)) : Prop where
  sorted : queue.Pairwise fun e e' => Precedes e.1 e'.1
  below : ∀ x ∈ queue, ∀ e ∈ queue, ∀ t ∈ e.2.trees, Precedes x.1 (e.1 ++ [t.1])
  forests : ∀ e ∈ queue, e.2.Sorted

theorem sorted_trees {forest : RoleForest} (h : forest.Sorted) :
    forest.trees.Pairwise (fun a b => a.1 < b.1) ∧ ∀ t ∈ forest.trees, t.2.Sorted := by
  obtain ⟨trees⟩ := forest
  exact ⟨h.1, sortedBelow_iff.1 h.2⟩

/-- A queue stays in order when its first place goes and what stands below it comes to the end. -/
theorem InOrder.next {path : List String} {forest : RoleForest}
    {rest : List (List String × RoleForest)} (h : InOrder ((path, forest) :: rest)) :
    InOrder (rest ++ forest.trees.map fun t => (path ++ [t.1], t.2)) := by
  obtain ⟨hfirst, hrest⟩ := List.pairwise_cons.1 h.sorted
  obtain ⟨htrees, hforests⟩ := sorted_trees (h.forests _ List.mem_cons_self)
  have hbelow := fun x hx => h.below x hx _ List.mem_cons_self
  refine ⟨List.pairwise_append.2 ⟨hrest, ?_, ?_⟩, ?_, ?_⟩
  · rw [List.pairwise_map]
    exact htrees.imp fun hlt =>
      .append_left (List.shortlex_singleton_iff _ _ |>.2 hlt) path
  · intro x hx e he
    obtain ⟨t, ht, rfl⟩ := List.mem_map.1 he
    exact hbelow x (List.mem_cons_of_mem _ hx) t ht
  · intro x hx e he u hu
    -- What stands below the first place comes before what stands below all later ones.
    rcases List.mem_append.1 he with he | he <;> rcases List.mem_append.1 hx with hx | hx
    · exact h.below x (List.mem_cons_of_mem _ hx) e (List.mem_cons_of_mem _ he) u hu
    · obtain ⟨t, -, rfl⟩ := List.mem_map.1 hx
      exact (hfirst e he).concat _ _
    · obtain ⟨t, ht, rfl⟩ := List.mem_map.1 he
      refine List.Shortlex.append_right _ ?_
      exact hbelow x (List.mem_cons_of_mem _ hx) t ht
    · obtain ⟨t, -, rfl⟩ := List.mem_map.1 hx
      obtain ⟨t', -, rfl⟩ := List.mem_map.1 he
      exact .of_length_lt (by simp)
  · intro e he
    rcases List.mem_append.1 he with he | he
    · exact h.forests e (List.mem_cons_of_mem _ he)
    · obtain ⟨t, ht, rfl⟩ := List.mem_map.1 he
      exact hforests t ht

/-- The paths of a queue in order come one after the other. -/
theorem InOrder.pairwise_unroll {queue : List (List String × RoleForest)} (h : InOrder queue)
    (fuel : Nat) : (unroll fuel queue).Pairwise Precedes := by
  induction fuel generalizing queue with
  | zero => exact .nil
  | succ fuel ih =>
    cases queue with
    | nil => exact .nil
    | cons e rest =>
      obtain ⟨path, forest⟩ := e
      refine List.pairwise_cons.2 ⟨fun later hlater => ?_, ih h.next⟩
      obtain ⟨e, he, below, -, rfl⟩ := exists_of_mem_unroll hlater
      refine List.Shortlex.append_right below ?_
      rcases List.mem_append.1 he with he | he
      · exact (List.pairwise_cons.1 h.sorted).1 e he
      · obtain ⟨t, ht, rfl⟩ := List.mem_map.1 he
        exact h.below _ List.mem_cons_self _ List.mem_cons_self t ht

end RoleForest

namespace Template

open RoleForest

def paths (t : Template) : List (List String) := unroll (t.forest.size + 1) [([], t.forest)]

theorem mem_paths_iff {t : Template} {path : List String} :
    path ∈ t.paths ↔ t.forest.Occurs path := by
  constructor
  · intro h
    obtain ⟨e, he, below, hbelow, rfl⟩ := exists_of_mem_unroll h
    obtain rfl := List.mem_singleton.1 he
    exact hbelow
  · intro h
    exact mem_unroll (total_singleton t.forest).le (List.mem_singleton_self ([], t.forest)) h

theorem pairwise_paths (t : Template) : t.paths.Pairwise Precedes := by
  refine InOrder.pairwise_unroll ⟨List.pairwise_singleton .., ?_, ?_⟩ _
  · intro x hx e he u hu
    obtain rfl := List.mem_singleton.1 hx
    exact .of_length_lt (by simp)
  · intro e he
    obtain rfl := List.mem_singleton.1 he
    exact t.sorted

end Template

end BenchCluster
