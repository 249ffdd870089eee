import BenchCluster.Topology.Tree
import BenchCluster.Proofs.Text.Split

/-! # Instance names

An instance name tells the role and the number that it was made of. The joined names of a role are
never the role itself. They can be read back exactly if the role does not hold a comma; otherwise
each of them falls apart at the commas of the role.
-/

namespace BenchCluster

theorem toList_instanceName (role : String) (index : Nat) :
    (instanceName role index).toList = role.toList ++ '_' :: Nat.toDigits 10 index := by
  simp [instanceName, toString, Nat.repr]

theorem instanceName_eq (role : String) (index : Nat) :
    instanceName role index = role ++ String.ofList ('_' :: index.repr.toList) := by
  refine String.ext ?_
  rw [toList_instanceName, String.toList_append, String.toList_ofList, Nat.toList_repr]

theorem not_mem_repr {c : Char} (h : c.isDigit = false) (index : Nat) : c ∉ index.repr.toList := by
  intro hmem
  rw [Nat.toList_repr] at hmem
  have hdigit := Nat.isDigit_of_mem_toDigits (by decide) (by decide) hmem
  rw [h] at hdigit
  cases hdigit

theorem instanceName_ne_empty (role : String) (index : Nat) : instanceName role index ≠ "" := by
  intro hempty
  have hlist := congrArg String.toList hempty
  rw [toList_instanceName] at hlist
  simp at hlist

/-- The number stands behind the last line of an instance name. -/
theorem splitAtLast_instanceName (role : String) (index : Nat) :
    Text.splitAtLast '_' (instanceName role index) = some (role, index.repr) := by
  rw [instanceName_eq, Text.splitAtLast_append (not_mem_repr (by decide) index)]

theorem instanceName_injective {role other : String} {i j : Nat}
    (h : instanceName role i = instanceName other j) : role = other ∧ i = j := by
  have hparts := splitAtLast_instanceName role i
  rw [h, splitAtLast_instanceName, Option.some.injEq, Prod.mk.injEq] at hparts
  obtain ⟨hrole, hnumber⟩ := hparts
  have hdigits := congrArg (fun text => Nat.ofDigitChars 10 text.toList 0) hnumber
  simp only [Nat.toList_repr, Nat.ofDigitChars_ten_toDigits] at hdigits
  exact ⟨hrole.symm, hdigits.symm⟩

/-- The joined names of some instances begin with the name of the first one. -/
theorem joinedInstances_ne (role : String) {count : Nat} (h : 0 < count) :
    joinedInstances role count ≠ role := by
  intro hsame
  obtain ⟨n, rfl⟩ := Nat.exists_eq_succ_of_ne_zero (Nat.ne_of_gt h)
  have hlist := congrArg (fun text => text.toList.length) hsame
  rw [joinedInstances, List.range_succ_eq_map, List.map_cons, String.toList_intercalate,
    List.map_cons, toList_instanceName] at hlist
  cases hrest : ((List.range n).map Nat.succ).map (instanceName role) with
  | nil =>
    rw [hrest] at hlist
    simp [List.intercalate] at hlist
  | cons next others =>
    rw [hrest, List.map_cons, List.intercalate_cons_cons] at hlist
    simp only [List.length_append, List.length_cons] at hlist
    omega

/-! ## Reading joined names back -/

/-- What is read back in place of an instance name: the words in front of the last comma of the
role, and an instance name of what is behind it. -/
def namesRead (role : String) (index : Nat) : List String :=
  match Text.splitAtLast ',' role with
  | none => [instanceName role index]
  | some (front, rest) => Text.words ',' front ++ [instanceName rest index]

/-- The number of names that are read back in front of the one that has the number. -/
def strayNames (role : String) : Nat :=
  match Text.splitAtLast ',' role with
  | none => 0
  | some (front, _) => (Text.words ',' front).length

variable {role : String}

theorem namesRead_of_not_mem (h : ',' ∉ role.toList) (index : Nat) :
    namesRead role index = [instanceName role index] := by
  rw [namesRead, Text.splitAtLast_eq_none_iff.2 h]

theorem length_namesRead (role : String) (index : Nat) :
    (namesRead role index).length = strayNames role + 1 := by
  rw [namesRead, strayNames]
  split <;> simp

theorem comma_not_mem_instanceName (h : ',' ∉ role.toList) (index : Nat) :
    ',' ∉ (instanceName role index).toList := by
  rw [instanceName_eq, String.toList_append, String.toList_ofList, List.mem_append, List.mem_cons]
  rintro (hrole | hline | hdigit)
  · exact h hrole
  · exact absurd hline (by decide)
  · exact not_mem_repr (by decide) index hdigit

theorem words_instanceName (role : String) (index : Nat) :
    Text.words ',' (instanceName role index) = namesRead role index := by
  have hplain : ∀ r : String, ',' ∉ r.toList →
      Text.words ',' (instanceName r index) = [instanceName r index] := fun r hr => by
    rw [Text.words_of_not_mem (comma_not_mem_instanceName hr index),
      if_neg (instanceName_ne_empty r index)]
  cases hsplit : Text.splitAtLast ',' role with
  | none =>
    have hcomma := Text.splitAtLast_eq_none_iff.1 hsplit
    rw [namesRead_of_not_mem hcomma, hplain role hcomma]
  | some parts =>
    obtain ⟨front, rest⟩ := parts
    obtain ⟨hrole, hcomma⟩ := Text.splitAtLast_eq_some_iff.1 hsplit
    have hname : instanceName role index =
        front ++ String.ofList (',' :: (instanceName rest index).toList) := by
      refine String.ext ?_
      rw [toList_instanceName, hrole]
      simp [toList_instanceName]
    rw [hname, Text.words_append, hplain rest hcomma, namesRead, hsplit]

/-- The words of joined names are what is read back for each of them. -/
theorem words_joinedInstances (role : String) (count : Nat) :
    Text.words ',' (joinedInstances role count) = (List.range count).flatMap (namesRead role) := by
  have hjoined : joinedInstances role count =
      (String.ofList [',']).intercalate ((List.range count).map (instanceName role)) := rfl
  rw [hjoined, Text.words_intercalate, List.flatMap_map]
  exact List.flatMap_congr fun index _ => words_instanceName role index

theorem words_joinedInstances_of_not_mem (h : ',' ∉ role.toList) (count : Nat) :
    Text.words ',' (joinedInstances role count) = (List.range count).map (instanceName role) := by
  rw [words_joinedInstances, List.map_eq_flatMap]
  exact List.flatMap_congr fun index _ => namesRead_of_not_mem h index

/-- The instance names of a role are the words of the joined names only if it holds no comma. -/
theorem words_joinedInstances_eq_iff {count : Nat} (h : 0 < count) :
    Text.words ',' (joinedInstances role count) = (List.range count).map (instanceName role) ↔
      ',' ∉ role.toList := by
  refine ⟨fun hwords hcomma => ?_, fun hcomma => words_joinedInstances_of_not_mem hcomma count⟩
  have hfirst : instanceName role 0 ∈ Text.words ',' (joinedInstances role count) := by
    rw [hwords]
    exact List.mem_map_of_mem (List.mem_range.2 h)
  refine Text.not_mem_of_mem_words hfirst ?_
  rw [toList_instanceName]
  exact List.mem_append_left _ hcomma

theorem length_words_joinedInstances (role : String) (count : Nat) :
    (Text.words ',' (joinedInstances role count)).length = count * (strayNames role + 1) := by
  rw [words_joinedInstances, List.length_flatMap]
  simp [length_namesRead]

end BenchCluster
