import BenchCluster.Proofs.Topology.Expansion
import BenchCluster.Proofs.Topology.Groups

/-! # Expanding a fresh tree in place

A fresh tree is expanded if every role of its template has replicas. Otherwise the first role in
level order that has none is named, and the tree stays as it is.
-/

namespace BenchCluster

namespace TopologyTree

def expandInPlace (count : String → Option Nat) (t : TopologyTree) :
    Except TopologyError (Dict String) × TopologyTree :=
  match t.expand count with
  | .ok (expanded, names) => (.ok names, expanded)
  | .error e => (.error e, t)

variable {count : String → Option Nat} {n : TreeNode} {t : Template}

theorem findSome?_expansionError?_eq_none_iff :
    (ofTemplate t).places.findSome? (expansionError? count) = none ↔
      ∀ role ∈ t.roles, Counted count role := by
  have hname : ∀ role, nameOf ∅ role = role := fun _ => rfl
  rw [← named_empty t, findSome?_named_eq_none_iff]
  simp only [hname, forall_const]

/-- The error of a fresh tree is that of the first role in level order that has no replicas. -/
theorem findSome?_expansionError?_eq_some_iff {e : TopologyError} :
    (ofTemplate t).places.findSome? (expansionError? count) = some e ↔
      ∃ before role after, t.inLevels.map Prod.snd = before ++ role :: after ∧
        (∀ r ∈ before, Counted count r) ∧ Uncounted count role e := by
  have hroles := Template.map_role_places t
  rw [List.findSome?_eq_some_iff]
  constructor
  · rintro ⟨before, n, after, hplaces, herror, hbefore⟩
    have hmem : ∀ m ∈ before ++ n :: after, m.isExpanded = false := fun m hm =>
      isExpanded_places (hplaces ▸ hm)
    refine ⟨before.map TreeNode.role, n.role, after.map TreeNode.role, ?_, fun r hr => ?_, ?_⟩
    · rw [← hroles, hplaces, List.map_append, List.map_cons]
    · obtain ⟨m, hm, rfl⟩ := List.mem_map.1 hr
      exact (expansionError?_eq_none_iff (hmem m (List.mem_append_left _ hm))).1 (hbefore m hm)
    · exact (expansionError?_eq_some_iff (hmem n (by simp))).1 herror
  · rintro ⟨before, role, after, hlevels, hbefore, herror⟩
    rw [← hroles] at hlevels
    obtain ⟨first, others, hplaces, rfl, hothers⟩ := List.map_eq_append_iff.1 hlevels
    obtain ⟨n, rest, rfl, rfl, rfl⟩ := List.map_eq_cons_iff.1 hothers
    have hmem : ∀ m ∈ first ++ n :: rest, m.isExpanded = false := fun m hm =>
      isExpanded_places (hplaces ▸ hm)
    refine ⟨first, n, rest, hplaces, ?_, fun m hm => ?_⟩
    · exact (expansionError?_eq_some_iff (hmem n (by simp))).2 herror
    · refine (expansionError?_eq_none_iff (hmem m (List.mem_append_left _ hm))).2 (hbefore _ ?_)
      exact List.mem_map_of_mem hm

/-- The names that nodes share: for each of their roles those of its instances. -/
def sharedNames (count : String → Option Nat) (nodes : List TreeNode) : Dict String :=
  nodes.foldl
    (fun names n => names.insertIfNew n.role (joinedInstances n.role ((count n.role).getD 1))) ∅

theorem extendedNames_places (count : String → Option Nat) (t : Template) :
    extendedNames count (ofTemplate t).places = sharedNames count (ofTemplate t).places := by
  have hpending : (ofTemplate t).places.filter (fun n => !n.isExpanded) = (ofTemplate t).places :=
    List.filter_eq_self.2 fun n hn => by simp [isExpanded_places hn]
  have hexpanded : (ofTemplate t).places.filter TreeNode.isExpanded = [] :=
    List.filter_eq_nil_iff.2 fun n hn => by simp [isExpanded_places hn]
  rw [extendedNames, givenNames, hpending, recorded, hexpanded, sharedNames]
  rfl

/-- A fresh tree is expanded with the names that its nodes share, unless there is something wrong
with one of them. -/
theorem expand_ofTemplate (count : String → Option Nat) (t : Template) :
    (ofTemplate t).expand count =
      match (ofTemplate t).places.findSome? (expansionError? count) with
      | some e => .error e
      | none =>
        let names := sharedNames count (ofTemplate t).places
        .ok ((ofTemplate t).mapPlaces (TreeNode.rename names), names) := by
  have hexpand := expand_named count t ∅
  rw [named_empty, extendedNames_places] at hexpand
  exact hexpand

theorem expandInPlace_ofTemplate (count : String → Option Nat) (t : Template) :
    (ofTemplate t).expandInPlace count =
      match (ofTemplate t).places.findSome? (expansionError? count) with
      | some e => (.error e, ofTemplate t)
      | none =>
        let names := sharedNames count (ofTemplate t).places
        (.ok names, (ofTemplate t).mapPlaces (TreeNode.rename names)) := by
  rw [expandInPlace, expand_ofTemplate]
  cases (ofTemplate t).places.findSome? (expansionError? count) <;> rfl

/-! ## A tree that has been expanded -/

theorem completes_sharedNames (h : ∀ role ∈ t.roles, Counted count role) :
    Completes t count ∅ (sharedNames count (ofTemplate t).places) := by
  have hnone : (named t ∅).places.findSome? (expansionError? count) = none :=
    findSome?_named_eq_none_iff.2 fun role hrole _ => h role hrole
  have hcompletes := completes_extendedNames hnone
  rwa [named_empty, extendedNames_places] at hcompletes

theorem find?_sharedNames_of_counted (h : ∀ role ∈ t.roles, Counted count role) {role : String}
    (hrole : role ∈ t.roles) : ∃ k, 0 < k ∧ count role = some k ∧
      (sharedNames count (ofTemplate t).places).find? role = some (joinedInstances role k) :=
  (completes_sharedNames h).counted hrole

theorem keys_sharedNames (count : String → Option Nat) (t : Template) :
    (sharedNames count (ofTemplate t).places).keys = t.roles := by
  refine Template.keys_eq_roles fun role => ?_
  rw [Dict.contains, sharedNames, Dict.find?_foldl_insertIfNew (f := TreeNode.role)
    (h := fun role => joinedInstances role ((count role).getD 1))]
  simp only [mem_map_role_places]
  by_cases hrole : role ∈ t.roles
  · simp [hrole]
  · simp only [hrole, if_false, iff_false]
    exact Bool.false_ne_true

variable {names : Dict String}

/-- The names that are recorded in an expanded tree are those that its nodes share. -/
theorem topologyMap_rename (h : ∀ role ∈ t.roles, Counted count role) :
    let names := sharedNames count (ofTemplate t).places
    ((ofTemplate t).mapPlaces (TreeNode.rename names)).topologyMap = names :=
  (completes_sharedNames h).topologyMap_eq

theorem name_rename (h : ∀ role ∈ t.roles, Counted count role) :
    let names := sharedNames count (ofTemplate t).places
    ∀ n ∈ ((ofTemplate t).mapPlaces (TreeNode.rename names)).nodes.drop 1,
      names.find? n.role = some n.name := by
  intro names n hn
  have hplace : n ∈ (named t names).places := by
    rw [← drop_named]
    exact hn
  obtain ⟨name, -, hfind⟩ := (completes_sharedNames h).exists_name (role_mem_roles hplace)
  rw [name_of_mem_named hplace, nameOf_of_find? hfind]
  exact hfind

theorem shape_rename (t : TopologyTree) :
    (t.mapPlaces (TreeNode.rename names)).nodes.map (fun n => (n.role, n.parent, n.children)) =
      t.nodes.map fun n => (n.role, n.parent, n.children) := by
  rw [mapPlaces, List.map_append, List.map_map]
  have hsame : (fun n : TreeNode => (n.role, n.parent, n.children)) ∘ TreeNode.rename names =
      fun n => (n.role, n.parent, n.children) := rfl
  rw [hsame, ← List.map_append, List.take_append_drop]

/-- A fresh tree is expanded exactly if every role of its template has replicas. The error is that
of the first role in level order that has none, and the tree stays as it is. Otherwise the answer
has the roles of the template with the joined names of their instances, which is what the tree
records now; every node below the root has the names of its role, and nothing else has changed. -/
theorem fresh_tree_expanded (t : Template) (count : String → Option Nat) :
    let answer := ((ofTemplate t).expandInPlace count).1
    let after := ((ofTemplate t).expandInPlace count).2
    ((∃ names, answer = .ok names) ↔ ∀ role ∈ t.roles, Counted count role) ∧
    (∀ e, answer = .error e ↔ ∃ before role later,
      t.inLevels.map Prod.snd = before ++ role :: later ∧
        (∀ r ∈ before, Counted count r) ∧ Uncounted count role e) ∧
    (∀ e, answer = .error e → after = ofTemplate t) ∧
    ∀ names, answer = .ok names →
      names.keys = t.roles ∧ after.topologyMap = names ∧
      (∀ role ∈ t.roles, ∃ k, count role = some k ∧
        names.find? role = some (joinedInstances role k)) ∧
      (∀ n ∈ after.nodes.drop 1, names.find? n.role = some n.name) ∧
      after.nodes.head? = (ofTemplate t).nodes.head? ∧
      after.nodes.map (fun n => (n.role, n.parent, n.children)) =
        (ofTemplate t).nodes.map fun n => (n.role, n.parent, n.children) := by
  have houtcome := expandInPlace_ofTemplate count t
  cases herror : (ofTemplate t).places.findSome? (expansionError? count) with
  | some first =>
    rw [herror] at houtcome
    rw [houtcome]
    refine ⟨⟨?_, fun hcounted => ?_⟩, fun e => ?_, fun _ _ => rfl, ?_⟩
    · rintro ⟨names, ⟨⟩⟩
    · cases herror.symm.trans (findSome?_expansionError?_eq_none_iff.2 hcounted)
    · rw [← findSome?_expansionError?_eq_some_iff, herror, Except.error.injEq, Option.some.injEq]
    · rintro names ⟨⟩
  | none =>
    rw [herror] at houtcome
    rw [houtcome]
    have hcounted := findSome?_expansionError?_eq_none_iff.1 herror
    refine ⟨⟨fun _ => hcounted, fun _ => ⟨_, rfl⟩⟩, fun e => ?_, ?_, ?_⟩
    · rw [← findSome?_expansionError?_eq_some_iff, herror]
      simp
    · rintro e ⟨⟩
    · rintro names ⟨⟩
      refine ⟨keys_sharedNames count t, topologyMap_rename hcounted, fun role hrole => ?_,
        name_rename hcounted, rfl, shape_rename _⟩
      obtain ⟨k, -, hcount, hfind⟩ := find?_sharedNames_of_counted hcounted hrole
      exact ⟨k, hcount, hfind⟩

end TopologyTree

end BenchCluster
