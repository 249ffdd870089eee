import BenchCluster.Proofs.Topology.Stepwise

/-! # Trees that are reached

Whatever a tree has gone through since it was made from its template or restored, it has one name
for each role. So expanding it is all or nothing, and nothing is left to be done by a second time.
-/

namespace BenchCluster

namespace TopologyTree

/-- The trees of a template that any expansions and restorations lead to. An expansion may fail, and
a restoration makes a new tree. -/
inductive Reached (t : Template) : TopologyTree → Prop
  | fresh : Reached t (ofTemplate t)
  | expanded {tree : TopologyTree} (count : String → Option Nat) (before : Reached t tree) :
    Reached t (tree.expandInPlace count).2
  | restored {tree : TopologyTree} (names : Dict String) (h : restore t names = .ok tree) :
    Reached t tree

variable {t : Template} {tree : TopologyTree} {count : String → Option Nat} {n : TreeNode}
  {names extended : Dict String}

theorem expandInPlace_named_cases (count : String → Option Nat) (t : Template)
    (names : Dict String) :
    (∃ e, (named t names).expandInPlace count = (.error e, named t names) ∧
        ¬ ∀ role ∈ t.roles, nameOf names role = role → Counted count role) ∨
      ∃ extended, (named t names).expandInPlace count = (.ok extended, named t extended) ∧
        Completes t count names extended := by
  rw [expandInPlace]
  rcases expand_named_cases count t names with ⟨e, he, huncounted⟩ | ⟨extended, hok, hcompletes⟩
  · rw [he]
    exact .inl ⟨e, rfl, huncounted⟩
  · rw [hok]
    exact .inr ⟨extended, rfl, hcompletes⟩

/-- Trees that are reached have names for their roles. -/
theorem Reached.exists_named (h : Reached t tree) : ∃ names, tree = named t names := by
  induction h with
  | fresh => exact ⟨∅, (named_empty t).symm⟩
  | expanded count before ih =>
    obtain ⟨names, rfl⟩ := ih
    rcases expandInPlace_named_cases count t names with ⟨e, he, -⟩ | ⟨extended, hok, -⟩
    · rw [he]
      exact ⟨names, rfl⟩
    · rw [hok]
      exact ⟨extended, rfl⟩
  | restored names h => exact ⟨names, (restore_eq_ok_iff.1 h).2⟩

theorem getElem?_named (t : Template) (names : Dict String) (id : Nat) :
    (named t names).nodes[id]? =
      ((ofTemplate t).nodes[id]?).map fun n => if id = 0 then n else n.rename names :=
  getElem?_mapPlaces _ _ id

theorem node?_of_completes {id : Nat} (h : Completes t count names extended)
    (hn : (named t names).node? id = some n) (hexpanded : n.isExpanded = true) :
    (named t extended).node? id = some n := by
  rw [node?, getElem?_named] at hn ⊢
  obtain ⟨m, hm, rfl⟩ := Option.map_eq_some_iff.1 hn
  rw [hm, Option.map_some]
  -- The root is the same in all trees; below it the name of the role decides.
  by_cases hid : id = 0
  · rw [if_pos hid, if_pos hid]
  · rw [if_neg hid] at hexpanded
    rw [if_neg hid, if_neg hid]
    have hplace := mem_places_of_getElem? hm hid
    have hrole := mem_map_role_places.1 (List.mem_map_of_mem hplace)
    have hname : nameOf names m.role ≠ m.role := by
      rw [rename_of_mem_places names hplace] at hexpanded
      simpa [TreeNode.isExpanded] using hexpanded
    rw [rename_of_mem_places names hplace, rename_of_mem_places extended hplace,
      nameOf_of_find? (h.kept m.role hrole hname)]

/-- A tree whose names are complete stays as it is, whatever the counts are. -/
theorem expandInPlace_of_completes (h : Completes t count names extended)
    (other : String → Option Nat) :
    (named t extended).expandInPlace other = (.ok extended, named t extended) := by
  rcases expandInPlace_named_cases other t extended with ⟨e, -, huncounted⟩ | ⟨later, hok, hlater⟩
  · exact absurd (fun role hrole hname => absurd hname (h.nameOf_ne hrole)) huncounted
  · rw [hok, h.eq_of_completes hlater]

/-- In a tree that is reached all nodes of a role below the root have the same name, and expanding it
as a whole is what expanding it node by node comes to. If that fails, the tree stays as it is.
Otherwise all nodes below the root are expanded afterwards, those that were expanded before have not
changed, the answer is what the tree records, and expanding it again answers the same for any counts
and changes nothing. -/
theorem reached_expanded_once (h : Reached t tree) :
    (∀ n ∈ tree.nodes.drop 1, ∀ m ∈ tree.nodes.drop 1, n.role = m.role → n.name = m.name) ∧
    ∀ count, (expandNodes count).run tree = tree.expandInPlace count ∧
      let answer := (tree.expandInPlace count).1
      let after := (tree.expandInPlace count).2
      (∀ e, answer = .error e → after = tree) ∧
      ∀ names, answer = .ok names →
        (∀ n ∈ after.nodes.drop 1, n.isExpanded = true) ∧
        (∀ id n, tree.node? id = some n → n.isExpanded = true → after.node? id = some n) ∧
        after.topologyMap = names ∧
        ∀ other, after.expandInPlace other = (.ok names, after) := by
  obtain ⟨names, rfl⟩ := h.exists_named
  refine ⟨fun n hn m hm hrole => ?_, fun count => ⟨run_expandNodes (levelOrder_named t names) count,
    ?_⟩⟩
  · rw [drop_named] at hn hm
    rw [name_of_mem_named hn, name_of_mem_named hm, hrole]
  · rcases expandInPlace_named_cases count t names with ⟨e, he, -⟩ | ⟨extended, hok, hcompletes⟩
    · rw [he]
      refine ⟨fun _ _ => rfl, ?_⟩
      rintro extended ⟨⟩
    · rw [hok]
      refine ⟨?_, ?_⟩
      · rintro e ⟨⟩
      rintro _ ⟨⟩
      refine ⟨fun n hn => ?_, fun id n hn hexpanded => node?_of_completes hcompletes hn hexpanded,
        hcompletes.topologyMap_eq, expandInPlace_of_completes hcompletes⟩
      rw [drop_named] at hn
      exact (isExpanded_named hn).2 (hcompletes.nameOf_ne (role_mem_roles hn))

namespace Sample

def pair (role : String) : Option Nat := if role = "a" then some 2 else none

/-- The first role has no names of its own, and the names of the second one are empty. -/
def partly : Dict String := Dict.ofList [("a", "a"), ("a_1", "")]

end Sample

/-- A tree that has been restored without names for one of its roles is expanded once. -/
theorem partly_named_expanded_once : Reached Sample.nested (named Sample.nested Sample.partly) ∧
    ∃ names after, (named Sample.nested Sample.partly).expandInPlace Sample.pair =
        (.ok names, after) ∧
      names = Dict.ofList [("a", "a_0,a_1"), ("a_1", "")] ∧
      ∀ other, after.expandInPlace other = (.ok names, after) := by
  have hreached : Reached Sample.nested (named Sample.nested Sample.partly) :=
    .restored Sample.partly rfl
  have hanswer : ((named Sample.nested Sample.partly).expandInPlace Sample.pair).1 =
      .ok (Dict.ofList [("a", "a_0,a_1"), ("a_1", "")]) :=
    rfl
  obtain ⟨-, -, -, hagain⟩ := ((reached_expanded_once hreached).2 Sample.pair).2.2 _ hanswer
  exact ⟨hreached, _, _, Prod.ext hanswer rfl, rfl, hagain⟩

end TopologyTree

end BenchCluster
