import BenchCluster.Proofs.Topology.Instances
import BenchCluster.Proofs.Topology.Named

/-! # Expanding a tree

A tree is expanded if every role that has no names of its own yet has replicas. Roles keep the names
that they have, and the others get those of their instances.
-/

namespace BenchCluster

namespace TopologyTree

def Counted (count : String → Option Nat) (role : String) : Prop :=
  ∃ k, 0 < k ∧ count role = some k

/-- What keeps a role from being expanded. -/
inductive Uncounted (count : String → Option Nat) (role : String) : TopologyError → Prop
  | missing (h : count role = none) : Uncounted count role (.missingRole role)
  | zero (h : count role = some 0) : Uncounted count role (.zeroCount role)

variable {count : String → Option Nat} {n : TreeNode} {t : Template} {names extended : Dict String}

theorem expansionError?_eq_none_iff (hn : n.isExpanded = false) :
    expansionError? count n = none ↔ Counted count n.role := by
  rw [expansionError?, if_neg (by simp [hn])]
  constructor
  · intro h
    cases hc : count n.role with
    | none => simp [hc] at h
    | some k =>
      cases k with
      | zero => simp [hc] at h
      | succ k => exact ⟨k + 1, Nat.succ_pos k, hc⟩
  · rintro ⟨k, hk, hcount⟩
    obtain ⟨k, rfl⟩ := Nat.exists_eq_succ_of_ne_zero (Nat.ne_of_gt hk)
    simp [hcount]

theorem expansionError?_eq_some_iff (hn : n.isExpanded = false) {e : TopologyError} :
    expansionError? count n = some e ↔ Uncounted count n.role e := by
  rw [expansionError?, if_neg (by simp [hn])]
  constructor
  · intro h
    cases hcount : count n.role with
    | none =>
      simp only [hcount, Option.some.injEq] at h
      exact h ▸ .missing hcount
    | some k =>
      cases k with
      | zero =>
        simp only [hcount, Option.some.injEq] at h
        exact h ▸ .zero hcount
      | succ k => simp [hcount] at h
  · rintro (hcount | hcount) <;> simp [hcount]

/-- The names of an expanded tree: every role has names, those that differ from the role stay, and
the other roles get the joined names of their instances. -/
structure Completes (t : Template) (count : String → Option Nat) (names extended : Dict String) :
    Prop where
  keys : ∀ role, extended.contains role = true → role ∈ t.roles
  kept : ∀ role ∈ t.roles, nameOf names role ≠ role →
    extended.find? role = some (nameOf names role)
  added : ∀ role ∈ t.roles, nameOf names role = role → ∃ k, 0 < k ∧ count role = some k ∧
    extended.find? role = some (joinedInstances role k)

namespace Completes

theorem counted (h : Completes t count ∅ extended) {role : String} (hrole : role ∈ t.roles) :
    ∃ k, 0 < k ∧ count role = some k ∧ extended.find? role = some (joinedInstances role k) :=
  h.added role hrole rfl

theorem exists_name (h : Completes t count names extended) {role : String}
    (hrole : role ∈ t.roles) : ∃ name, name ≠ role ∧ extended.find? role = some name := by
  by_cases hname : nameOf names role = role
  · obtain ⟨k, hk, -, hfind⟩ := h.added role hrole hname
    exact ⟨_, joinedInstances_ne role hk, hfind⟩
  · exact ⟨_, hname, h.kept role hrole hname⟩

theorem keys_eq (h : Completes t count names extended) : extended.keys = t.roles := by
  refine Template.keys_eq_roles fun role => ⟨h.keys role, fun hrole => ?_⟩
  obtain ⟨name, -, hfind⟩ := h.exists_name hrole
  exact Dict.contains_iff.2 ⟨name, hfind⟩

theorem nameOf_ne (h : Completes t count names extended) {role : String} (hrole : role ∈ t.roles) :
    nameOf extended role ≠ role := by
  obtain ⟨name, hne, hfind⟩ := h.exists_name hrole
  rwa [nameOf_of_find? hfind]

theorem topologyMap_eq (h : Completes t count names extended) :
    (named t extended).topologyMap = extended := by
  refine Dict.ext_find? fun role => ?_
  rw [find?_topologyMap_named]
  by_cases hrole : role ∈ t.roles
  · obtain ⟨name, hne, hfind⟩ := h.exists_name hrole
    rw [if_pos ⟨hrole, h.nameOf_ne hrole⟩, nameOf_of_find? hfind, hfind]
  · rw [if_neg fun hand => hrole hand.1]
    exact (Dict.contains_eq_false_iff.1
      (Bool.eq_false_iff.2 fun hcontains => hrole (h.keys role hcontains))).symm

/-- Names that are complete already stay as they are. -/
theorem eq_of_completes {other : String → Option Nat} {later : Dict String}
    (h : Completes t count names extended) (hlater : Completes t other extended later) :
    later = extended := by
  refine Dict.ext_find? fun role => ?_
  by_cases hrole : role ∈ t.roles
  · obtain ⟨name, -, hfind⟩ := h.exists_name hrole
    rw [hlater.kept role hrole (h.nameOf_ne hrole), nameOf_of_find? hfind, hfind]
  · have hnone : ∀ {d : Dict String}, (∀ role, d.contains role = true → role ∈ t.roles) →
        d.find? role = none := fun hkeys => Dict.contains_eq_false_iff.1
      (Bool.eq_false_iff.2 fun hcontains => hrole (hkeys role hcontains))
    rw [hnone h.keys, hnone hlater.keys]

end Completes

/-! ## The two passes of an expansion -/

/-- The names of roles after nodes without names have been given those of their roles. -/
def givenNames (count : String → Option Nat) (nodes : List TreeNode) (names : Dict String) :
    Dict String :=
  (nodes.filter fun n => !n.isExpanded).foldl
    (fun names n => names.insertIfNew n.role (joinedInstances n.role ((count n.role).getD 1))) names

def fillName (names : Dict String) (n : TreeNode) : TreeNode :=
  if n.isExpanded then n else { n with name := (names.find? n.role).getD n.name }

theorem expand_eq (count : String → Option Nat) (t : TopologyTree) : t.expand count =
    match t.places.findSome? (expansionError? count) with
    | some e => .error e
    | none =>
      let names := givenNames count t.places (recorded t.places)
      .ok (t.mapPlaces (fillName names), names) :=
  rfl

/-- Names that are there stay, and the others are those of the instances. -/
theorem find?_givenNames (count : String → Option Nat) (nodes : List TreeNode)
    (names : Dict String) (role : String) : (givenNames count nodes names).find? role =
      (names.find? role <|> if role ∈ (nodes.filter fun n => !n.isExpanded).map TreeNode.role then
        some (joinedInstances role ((count role).getD 1)) else none) :=
  Dict.find?_foldl_insertIfNew (f := TreeNode.role)
    (h := fun role => joinedInstances role ((count role).getD 1))

/-- The names that an expansion of nodes comes to: those that they have, and those of the instances
of the roles without. -/
def extendedNames (count : String → Option Nat) (nodes : List TreeNode) : Dict String :=
  givenNames count nodes (recorded nodes)

/-- Nothing keeps a tree from being expanded if all roles without names have replicas. -/
theorem findSome?_named_eq_none_iff :
    (named t names).places.findSome? (expansionError? count) = none ↔
      ∀ role ∈ t.roles, nameOf names role = role → Counted count role := by
  rw [List.findSome?_eq_none_iff]
  constructor
  · intro h role hrole hname
    obtain ⟨n, hn, rfl⟩ := List.mem_map.1 ((mem_map_role_named t names).2 hrole)
    have hpending : n.isExpanded = false := by
      rw [← Bool.not_eq_true, isExpanded_named hn]
      exact not_not_intro hname
    exact (expansionError?_eq_none_iff hpending).1 (h n hn)
  · intro h n hn
    by_cases hexpanded : n.isExpanded = true
    · rw [expansionError?, if_pos hexpanded]
    · have hname := of_not_not fun hne => hexpanded ((isExpanded_named hn).2 hne)
      rw [Bool.not_eq_true] at hexpanded
      exact (expansionError?_eq_none_iff hexpanded).2 (h n.role (role_mem_roles hn) hname)

theorem completes_extendedNames
    (h : (named t names).places.findSome? (expansionError? count) = none) :
    Completes t count names (extendedNames count (named t names).places) := by
  have hfind : ∀ role, (extendedNames count (named t names).places).find? role =
      if role ∈ t.roles then
        if nameOf names role = role then some (joinedInstances role ((count role).getD 1))
        else some (nameOf names role)
      else none := by
    intro role
    rw [extendedNames, find?_givenNames, recorded_named, find?_topologyMap_named]
    simp only [mem_role_pending]
    by_cases hrole : role ∈ t.roles <;> by_cases hname : nameOf names role = role <;>
      simp [hrole, hname]
  refine ⟨fun role hcontains => ?_, fun role hrole hname => ?_, fun role hrole hname => ?_⟩
  · by_contra hrole
    rw [Dict.contains, hfind, if_neg hrole] at hcontains
    cases hcontains
  · rw [hfind, if_pos hrole, if_neg hname]
  · obtain ⟨k, hk, hcount⟩ := findSome?_named_eq_none_iff.1 h role hrole hname
    refine ⟨k, hk, hcount, ?_⟩
    rw [hfind, if_pos hrole, if_pos hname, hcount, Option.getD_some]

/-- Nodes that are given the names that are missing have the completed names of their roles. -/
theorem fillName_rename (h : Completes t count names extended) (hn : n ∈ (ofTemplate t).places) :
    fillName extended (n.rename names) = n.rename extended := by
  have hrole := mem_map_role_places.1 (List.mem_map_of_mem hn)
  have hplace : n.rename names ∈ (named t names).places := by
    rw [places_named]
    exact List.mem_map_of_mem hn
  rw [rename_of_mem_places names hn] at hplace ⊢
  rw [rename_of_mem_places extended hn, fillName]
  by_cases hname : nameOf names n.role = n.role
  · obtain ⟨name, -, hfind⟩ := h.exists_name hrole
    rw [if_neg fun hexpanded => (isExpanded_named hplace).1 hexpanded hname, hfind,
      nameOf_of_find? hfind, Option.getD_some]
  · rw [if_pos ((isExpanded_named hplace).2 hname),
      nameOf_of_find? (h.kept n.role hrole hname)]

/-- A tree is expanded to the one with the names that are completed, unless there is something wrong
with one of its nodes. -/
theorem expand_named (count : String → Option Nat) (t : Template) (names : Dict String) :
    (named t names).expand count =
      match (named t names).places.findSome? (expansionError? count) with
      | some e => .error e
      | none =>
        let extended := extendedNames count (named t names).places
        .ok (named t extended, extended) := by
  rw [expand_eq]
  cases herror : (named t names).places.findSome? (expansionError? count) with
  | some e => rfl
  | none =>
    have hcompletes := completes_extendedNames herror
    have htree : (named t names).mapPlaces
        (fillName (extendedNames count (named t names).places)) =
          named t (extendedNames count (named t names).places) := by
      rw [named, mapPlaces_mapPlaces]
      refine mapPlaces_congr fun n hn => fillName_rename hcompletes ?_
      rwa [places_ofTemplate]
    exact congrArg (fun tree => Except.ok (tree, _)) htree

/-- An expansion completes the names, or a role without names has no replicas. -/
theorem expand_named_cases (count : String → Option Nat) (t : Template) (names : Dict String) :
    (∃ e, (named t names).expand count = .error e ∧
        ¬ ∀ role ∈ t.roles, nameOf names role = role → Counted count role) ∨
      ∃ extended, (named t names).expand count = .ok (named t extended, extended) ∧
        Completes t count names extended := by
  rw [expand_named]
  cases herror : (named t names).places.findSome? (expansionError? count) with
  | some e =>
    refine .inl ⟨e, rfl, fun hcounted => ?_⟩
    cases herror.symm.trans (findSome?_named_eq_none_iff.2 hcounted)
  | none => exact .inr ⟨_, rfl, completes_extendedNames herror⟩

theorem expand_ofTemplate_eq_ok {tree : TopologyTree}
    (h : (ofTemplate t).expand count = .ok (tree, extended)) :
    tree = named t extended ∧ Completes t count ∅ extended := by
  rw [← named_empty] at h
  rcases expand_named_cases count t ∅ with ⟨e, herror, -⟩ | ⟨names, hok, hcompletes⟩
  · cases herror.symm.trans h
  · cases hok.symm.trans h
    exact ⟨rfl, hcompletes⟩

end TopologyTree

end BenchCluster
