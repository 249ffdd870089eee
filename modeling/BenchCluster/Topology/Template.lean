import BenchCluster.Data.Decode

/-! # Topology templates

A template says which roles a cluster has and how they nest: each role stands above the roles that
it talks to. A role may occur in several places. On every level the roles stand in the order of
their names, each once, so equal templates are equal values.
-/

namespace BenchCluster

/-- Roles, each with the roles below it. -/
inductive RoleForest
  | of (trees : List (String × RoleForest))
  deriving Repr

namespace RoleForest

def trees : RoleForest → List (String × RoleForest)
  | .of trees => trees

mutual

def size : RoleForest → Nat
  | .of trees => sizeBelow trees

def sizeBelow : List (String × RoleForest) → Nat
  | [] => 0
  | (_, forest) :: rest => 1 + forest.size + sizeBelow rest

end

mutual

/-- The number of levels, of which the last one is empty. -/
def depth : RoleForest → Nat
  | .of trees => 1 + depthBelow trees

def depthBelow : List (String × RoleForest) → Nat
  | [] => 0
  | (_, forest) :: rest => max forest.depth (depthBelow rest)

end

mutual

/-- Every role, once for each place where it stands. -/
def occurrences : RoleForest → List String
  | .of trees => occurrencesBelow trees

def occurrencesBelow : List (String × RoleForest) → List String
  | [] => []
  | (role, forest) :: rest => role :: forest.occurrences ++ occurrencesBelow rest

end

mutual

/-- On every level the roles stand in the order of their names. -/
def Sorted : RoleForest → Prop
  | .of trees => trees.Pairwise (fun a b => a.1 < b.1) ∧ SortedBelow trees

def SortedBelow : List (String × RoleForest) → Prop
  | [] => True
  | (_, forest) :: rest => forest.Sorted ∧ SortedBelow rest

end

/-- The forest with the given roles, of which the last one of a name counts. -/
def ofList (trees : List (String × RoleForest)) : RoleForest := .of (Dict.ofList trees).entries

mutual

def decode : Decoder RoleForest
  | .table entries => (decodeBelow entries).map ofList
  | _ => none

def decodeBelow : List (String × Data) → Option (List (String × RoleForest))
  | [] => some []
  | (role, d) :: rest =>
    match decode d, decodeBelow rest with
    | some forest, some trees => some ((role, forest) :: trees)
    | _, _ => none

end

mutual

def encode : RoleForest → Data
  | .of trees => .table (encodeBelow trees)

def encodeBelow : List (String × RoleForest) → List (String × Data)
  | [] => []
  | (role, forest) :: rest => (role, forest.encode) :: encodeBelow rest

end

theorem sortedBelow_iff {trees : List (String × RoleForest)} :
    SortedBelow trees ↔ ∀ t ∈ trees, t.2.Sorted := by
  induction trees with
  | nil => simp [SortedBelow]
  | cons t rest ih => obtain ⟨role, forest⟩ := t; simp [SortedBelow, ih]

/-- What a list of sorted forests is gathered into is sorted. -/
theorem sorted_ofList {trees : List (String × RoleForest)} (h : ∀ t ∈ trees, t.2.Sorted) :
    (ofList trees).Sorted := by
  have key : ∀ (l : List (String × RoleForest)) (d : Dict RoleForest),
      (∀ t ∈ l, t.2.Sorted) → (∀ t ∈ d.entries, t.2.Sorted) →
      ∀ t ∈ (l.foldl (fun d e => d.insert e.1 e.2) d).entries, t.2.Sorted := by
    intro l
    induction l with
    | nil => intro d _ hd; simpa using hd
    | cons a rest ih =>
      intro d hl hd
      refine ih _ (fun t ht => hl t (by simp [ht])) fun t ht => ?_
      rcases Dict.mem_insertEntry ht with rfl | ht
      · exact hl a (by simp)
      · exact hd t ht
  refine ⟨(Dict.ofList trees).sorted, sortedBelow_iff.2 ?_⟩
  exact key trees Dict.empty h (by simp [Dict.empty])

mutual

theorem sorted_of_decode : ∀ {d : Data} {forest : RoleForest},
    decode d = some forest → forest.Sorted
  | .table entries, forest, h => by
    simp only [decode, Option.map_eq_some_iff] at h
    obtain ⟨trees, ht, rfl⟩ := h
    exact sorted_ofList (sorted_of_decodeBelow ht)
  | .null, _, h => by simp [decode] at h
  | .bool _, _, h => by simp [decode] at h
  | .integer _, _, h => by simp [decode] at h
  | .number _, _, h => by simp [decode] at h
  | .text _, _, h => by simp [decode] at h
  | .moment _, _, h => by simp [decode] at h
  | .unusable, _, h => by simp [decode] at h
  | .list _, _, h => by simp [decode] at h
  | .openList _, _, h => by simp [decode] at h

theorem sorted_of_decodeBelow : ∀ {entries : List (String × Data)}
    {trees : List (String × RoleForest)},
    decodeBelow entries = some trees → ∀ t ∈ trees, t.2.Sorted
  | [], trees, h => by simp [decodeBelow] at h; simp [h]
  | (role, d) :: rest, trees, h => by
    simp only [decodeBelow] at h
    cases hd : decode d with
    | none => simp [hd] at h
    | some forest =>
      cases hr : decodeBelow rest with
      | none => simp [hd, hr] at h
      | some others =>
        simp only [hd, hr, Option.some.injEq] at h
        subst h
        intro t ht
        rcases List.mem_cons.1 ht with rfl | ht
        · exact sorted_of_decode hd
        · exact sorted_of_decodeBelow hr t ht

end

end RoleForest

/-- A topology template: a sorted forest of roles. -/
structure Template where
  forest : RoleForest
  sorted : forest.Sorted

namespace Template

instance : Repr Template := ⟨fun t n => reprPrec t.forest n⟩

def empty : Template := ⟨.of [], by simp [RoleForest.Sorted, RoleForest.SortedBelow]⟩

instance : Inhabited Template := ⟨empty⟩

/-- Every role of the template, once, in the order of the names. -/
def roles (t : Template) : List String :=
  (Dict.ofList (t.forest.occurrences.map fun role => (role, ()))).keys

def depth (t : Template) : Nat := t.forest.depth

def decode : Decoder Template := fun d =>
  match h : RoleForest.decode d with
  | some forest => some ⟨forest, RoleForest.sorted_of_decode h⟩
  | none => none

def encode (t : Template) : Data := t.forest.encode

theorem ext {s t : Template} (h : s.forest = t.forest) : s = t := by
  cases s; cases t; simp_all

end Template

end BenchCluster
