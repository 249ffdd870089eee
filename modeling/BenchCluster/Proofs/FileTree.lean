import BenchCluster.FileTree
import BenchCluster.Proofs.Fallible
import BenchCluster.Proofs.Text.Utf8
import Mathlib.Data.List.Induction

/-! # What stands where in a file tree

`entry?` is the view of a file tree. Changing one place leaves the others as they are, so a path
that led to a place with no directory on it still leads there after this place was changed.
-/

namespace BenchCluster.FileTree

open Fallible (bind_eq_ok)

variable {t made : FileTree} {place names : List String} {e : FileEntry}

/-! ## Single places -/

theorem entry?_of_isRoot (t : FileTree) (h : place = [] ∨ place = [rootName]) :
    t.entry? place = some .directory :=
  if_pos h

@[simp] theorem entry?_nil (t : FileTree) : t.entry? [] = some .directory :=
  t.entry?_of_isRoot (.inl rfl)

theorem entry?_put (t : FileTree) (place : List String) (e : FileEntry) (p : List String)
    (h : p ≠ [] ∧ p ≠ [rootName]) :
    FileTree.entry? (t.put place e) p = if p = place then some e else t.entry? p := by
  have hroot : ¬ (p = [] ∨ p = [rootName]) := not_or.2 h
  rw [ entry?, entry?, if_neg hroot, if_neg hroot, put]
  by_cases hp : p = place
  · simp [hp]
  · have hne : ¬ place = p := fun he => hp he.symm
    rw [if_neg hp, List.find?_cons_of_neg (by simpa using hne), List.find?_filter]
    congr 2
    funext old
    by_cases hold : old.1 = p
    · simp [hold, hp]
    · simp [hold]

theorem entry?_remove (t : FileTree) (place p : List String) (h : p ≠ [] ∧ p ≠ [rootName]) :
    FileTree.entry? (t.remove place) p = if p = place then none else t.entry? p := by
  have hroot : ¬ (p = [] ∨ p = [rootName]) := not_or.2 h
  rw [ entry?, entry?, if_neg hroot, if_neg hroot, remove, List.find?_filter]
  by_cases hp : p = place
  · rw [if_pos hp, Option.map_eq_none_iff, List.find?_eq_none]
    simp [hp]
  · rw [if_neg hp]
    congr 2
    funext old
    by_cases hold : old.1 = p
    · simp [hold, hp]
    · simp [hold]

theorem ne_root_of_not_directory (h : t.entry? place ≠ some .directory) :
    place ≠ [] ∧ place ≠ [rootName] :=
  ⟨fun he => h (t.entry?_of_isRoot (.inl he)), fun he => h (t.entry?_of_isRoot (.inr he))⟩

theorem entry?_put_of_ne (t : FileTree) (e : FileEntry) {p : List String} (h : p ≠ place) :
    FileTree.entry? (t.put place e) p = t.entry? p := by
  by_cases hroot : p = [] ∨ p = [rootName]
  · rw [entry?_of_isRoot _ hroot, entry?_of_isRoot _ hroot]
  · rw [entry?_put _ _ _ _ (not_or.1 hroot), if_neg h]

theorem entry?_remove_of_ne (t : FileTree) {p : List String} (h : p ≠ place) :
    FileTree.entry? (t.remove place) p = t.entry? p := by
  by_cases hroot : p = [] ∨ p = [rootName]
  · rw [entry?_of_isRoot _ hroot, entry?_of_isRoot _ hroot]
  · rw [entry?_remove _ _ _ (not_or.1 hroot), if_neg h]

theorem entry?_put_self (h : t.entry? place ≠ some .directory) (e : FileEntry) :
    FileTree.entry? (t.put place e) place = some e := by
  rw [entry?_put _ _ _ _ (ne_root_of_not_directory h), if_pos rfl]

theorem entry?_remove_self (h : t.entry? place ≠ some .directory) :
    FileTree.entry? (t.remove place) place = none := by
  rw [entry?_remove _ _ _ (ne_root_of_not_directory h), if_pos rfl]

/-! ## Reading what was written -/

/-- A path goes through directories only, so what is put in another entry's stead at its end does
not change where it leads. -/
theorem walk_put {target : List String} (h : t.walk place names = .ok target)
    (htarget : t.entry? target ≠ some .directory) (e : FileEntry) :
    (t.put target e).walk place names = .ok target := by
  induction names generalizing place with
  | nil => exact h
  | cons name rest ih =>
    rw [walk] at h ⊢
    split at h
    · cases h
    · cases h
    · rename_i hplace
      -- The path goes on from here, so this is a directory and not what is replaced.
      have hne : place ≠ target := fun he => htarget (he ▸ hplace)
      rw [entry?_put_of_ne t e hne, hplace]
      dsimp only
      split at h
      · rename_i hup
        rw [if_pos hup]
        split at h
        · cases h
        · rename_i hnil
          rw [if_neg hnil]
          split at h
          · rename_i hroot
            rw [if_pos hroot]
            exact ih h
          · rename_i hroot
            rw [if_neg hroot]
            exact ih h
      · rename_i hdown
        rw [if_neg hdown]
        split at h
        · cases h
        · rename_i hshort
          rw [if_neg hshort]
          exact ih h

def isProgram (t : FileTree) (place : List String) : Bool :=
  match t.entry? place with
  | some (.file _ executable) => executable
  | _ => false

/-- What is written replaces whatever file there was, which stays a program if it was one. -/
theorem writeBytes_of_resolve {path : String} (content : List UInt8)
    (hplace : t.resolve path = .ok place) (hentry : t.entry? place ≠ some .directory) :
    t.writeBytes path content = .ok (t.put place (.file content (t.isProgram place))) := by
  rw [writeBytes, hplace, isProgram]
  cases hthere : t.entry? place with
  | none => simp only [bind, Except.bind, hthere]
  | some e =>
    cases e with
    | file old executable => simp only [bind, Except.bind, hthere]
    | directory => exact absurd hthere hentry

theorem writeBytes_eq_ok {path : String} {content : List UInt8} {written : FileTree}
    (h : t.writeBytes path content = .ok written) :
    ∃ place, t.resolve path = .ok place ∧ t.entry? place ≠ some .directory ∧
      written = t.put place (.file content (t.isProgram place)) := by
  obtain ⟨place, hplace, hentry⟩ := bind_eq_ok.1 h
  have hfile : t.entry? place ≠ some .directory := by
    intro hdirectory
    rw [hdirectory] at hentry
    cases hentry
  rw [writeBytes_of_resolve content hplace hfile] at h
  exact ⟨place, hplace, hfile, (Except.ok.inj h).symm⟩

theorem readText_writeText {path text : String} {written : FileTree}
    (h : t.writeText path text = .ok written) : written.readText path = .ok text := by
  obtain ⟨place, hplace, hentry, hwritten⟩ := writeBytes_eq_ok h
  have hresolve : written.resolve path = .ok place := by
    rw [resolve] at hplace ⊢
    split at hplace
    · cases hplace
    · rename_i hpath
      rw [if_neg hpath, hwritten]
      exact walk_put hplace hentry _
  have hlook : written.look path = .ok (.file (Text.encode text) (t.isProgram place)) := by
    rw [look, hresolve]
    simp only [bind, Except.bind, hwritten, entry?_put_self hentry]
  rw [readText, readBytes, hlook]
  simp only [bind, Except.bind, Text.decode?_encode]

/-! ## Chains of directories -/

/-- Directories lead from a place along names to the last of them. -/
def Leads (t : FileTree) (place : List String) : List String → Prop
  | [] => t.entry? place = some .directory
  | name :: rest =>
    t.entry? place = some .directory ∧ name ≠ ".." ∧ name.utf8ByteSize ≤ maxNameLength ∧
      t.Leads (place ++ [name]) rest

theorem Leads.entry?_start (h : t.Leads place names) : t.entry? place = some .directory := by
  cases names with
  | nil => exact h
  | cons name rest => exact h.1

theorem Leads.entry?_end (h : t.Leads place names) :
    t.entry? (place ++ names) = some .directory := by
  induction names generalizing place with
  | nil => rwa [List.append_nil]
  | cons name rest ih =>
    rw [List.append_cons]
    exact ih h.2.2.2

theorem Leads.mono {t' : FileTree}
    (hsub : ∀ p, t.entry? p = some .directory → t'.entry? p = some .directory)
    (h : t.Leads place names) : t'.Leads place names := by
  induction names generalizing place with
  | nil => exact hsub _ h
  | cons name rest ih => exact ⟨hsub _ h.1, h.2.1, h.2.2.1, ih h.2.2.2⟩

theorem Leads.put (h : t.Leads place names) {p : List String}
    (hp : t.entry? p ≠ some .directory) (e : FileEntry) : (t.put p e).Leads place names := by
  refine h.mono fun q hq => ?_
  have hne : q ≠ p := fun he => hp (he ▸ hq)
  rwa [entry?_put_of_ne t e hne]

theorem Leads.remove (h : t.Leads place names) {p : List String}
    (hp : t.entry? p ≠ some .directory) : (t.remove p).Leads place names := by
  refine h.mono fun q hq => ?_
  have hne : q ≠ p := fun he => hp (he ▸ hq)
  rwa [entry?_remove_of_ne t hne]

theorem Leads.walk_append (h : t.Leads place names) (more : List String) :
    t.walk place (names ++ more) = t.walk (place ++ names) more := by
  induction names generalizing place with
  | nil => rw [List.nil_append, List.append_nil]
  | cons name rest ih =>
    obtain ⟨hentry, hup, hshort, hrest⟩ := h
    rw [List.cons_append, walk, hentry]
    dsimp only
    rw [if_neg hup, if_neg (Nat.not_lt.2 hshort), ih hrest, ← List.append_cons]

theorem Leads.walk (h : t.Leads place names) : t.walk place names = .ok (place ++ names) := by
  have hend := h.walk_append []
  rwa [List.append_nil] at hend

theorem Leads.walk_concat (h : t.Leads place names) {name : String} (hup : name ≠ "..")
    (hshort : name.utf8ByteSize ≤ maxNameLength) :
    t.walk place (names ++ [name]) = .ok (place ++ names ++ [name]) := by
  rw [h.walk_append, FileTree.walk, h.entry?_end]
  dsimp only
  rw [if_neg hup, if_neg (Nat.not_lt.2 hshort)]
  rfl

/-! ## Making directories -/

theorem Leads.makeDirectories (h : t.Leads place names) :
    t.makeDirectories place names = .ok t := by
  induction names generalizing place with
  | nil => rfl
  | cons name rest ih =>
    obtain ⟨-, hup, hshort, hrest⟩ := h
    rw [FileTree.makeDirectories, if_neg hup, if_neg (Nat.not_lt.2 hshort)]
    simp only [hrest.entry?_start]
    exact ih hrest

/-- Making directories adds what is missing on the way and changes nothing else. -/
theorem entry?_makeDirectories (h : t.makeDirectories place names = .ok made) (p : List String) :
    made.entry? p = t.entry? p ∨
      t.entry? p = none ∧ made.entry? p = some .directory ∧ p <+: place ++ names := by
  induction names generalizing t place with
  | nil =>
    cases h
    exact .inl rfl
  | cons name rest ih =>
    rw [FileTree.makeDirectories] at h
    split at h
    · cases h
    split at h
    · cases h
    rw [List.append_cons]
    dsimp only at h
    split at h
    · cases h
    · exact ih h
    · rename_i hnone
      have hdirectory : t.entry? (place ++ [name]) ≠ some .directory := by simp [hnone]
      by_cases hp : p = place ++ [name]
      · subst hp
        have hput := entry?_put_self hdirectory .directory
        rcases ih h with hsame | ⟨habsent, -⟩
        · exact .inr ⟨hnone, by rw [hsame, hput], List.prefix_append _ _⟩
        · rw [hput] at habsent
          cases habsent
      · have hput := entry?_put_of_ne t .directory hp
        rw [← hput]
        exact ih h

theorem entry?_makeDirectories_of_some (h : t.makeDirectories place names = .ok made)
    {p : List String} (hp : t.entry? p = some e) : made.entry? p = some e := by
  rcases entry?_makeDirectories h p with hsame | ⟨hnone, -⟩
  · rw [hsame, hp]
  · rw [hp] at hnone
    cases hnone

theorem leads_of_makeDirectories (hplace : t.entry? place = some .directory)
    (h : t.makeDirectories place names = .ok made) : made.Leads place names := by
  induction names generalizing t place with
  | nil =>
    cases h
    exact hplace
  | cons name rest ih =>
    have hstart := entry?_makeDirectories_of_some h hplace
    rw [FileTree.makeDirectories] at h
    split at h
    · cases h
    rename_i hup
    split at h
    · cases h
    rename_i hshort
    refine ⟨hstart, hup, Nat.not_lt.1 hshort, ?_⟩
    dsimp only at h
    split at h
    · cases h
    · rename_i hnext
      exact ih hnext h
    · rename_i hnone
      have hdirectory : t.entry? (place ++ [name]) ≠ some .directory := by simp [hnone]
      exact ih (entry?_put_self hdirectory .directory) h

/-- Nothing stands where names lead. -/
def Lacks (t : FileTree) (place names : List String) : Prop :=
  t.walk place names = .error .notFound ∨
    ∃ p, t.walk place names = .ok p ∧ t.entry? p = none

theorem Lacks.resolve {path : String} (h : t.Lacks [] (components path)) :
    t.resolve path = .error .notFound ∨ ∃ p, t.resolve path = .ok p ∧ t.entry? p = none := by
  rw [FileTree.resolve]
  split
  · exact .inl rfl
  · exact h

theorem Lacks.look {path : String} (h : t.Lacks [] (components path)) :
    t.look path = .error .notFound := by
  rcases h.resolve with herror | ⟨p, hp, hnone⟩
  · rw [FileTree.look, herror]
    rfl
  · rw [FileTree.look, hp]
    simp only [bind, Except.bind, hnone]

theorem Lacks.removeFile {path : String} (h : t.Lacks [] (components path)) :
    t.removeFile path = .error .notFound := by
  rcases h.resolve with herror | ⟨p, hp, hnone⟩
  · rw [FileTree.removeFile, herror]
    rfl
  · rw [FileTree.removeFile, hp]
    simp only [bind, Except.bind, hnone]

theorem Lacks.list {path : String} (h : t.Lacks [] (components path)) :
    t.list path = .error .notFound := by
  rcases h.resolve with herror | ⟨p, hp, hnone⟩
  · rw [FileTree.list, herror]
    rfl
  · rw [FileTree.list, hp]
    simp only [bind, Except.bind, hnone]

/-- Where directories can be made, they are there already or nothing stands at their end. -/
theorem leads_or_lacks (hplace : t.entry? place = some .directory)
    (h : t.makeDirectories place names = .ok made) (more : List String) :
    t.Leads place names ∨ t.Lacks place (names ++ more) := by
  induction names generalizing t place made with
  | nil => exact .inl hplace
  | cons name rest ih =>
    rw [FileTree.makeDirectories] at h
    split at h
    · cases h
    rename_i hup
    split at h
    · cases h
    rename_i hshort
    have hstep : t.walk place (name :: rest ++ more) = t.walk (place ++ [name]) (rest ++ more) := by
      rw [List.cons_append, walk, hplace]
      dsimp only
      rw [if_neg hup, if_neg hshort]
    dsimp only at h
    split at h
    · cases h
    · rename_i hnext
      rcases ih hnext h with hleads | hlacks
      · exact .inl ⟨hplace, hup, Nat.not_lt.1 hshort, hleads⟩
      · rw [Lacks, hstep]
        exact .inr hlacks
    -- The next directory is one of those that are made, so nothing stands there or below.
    · rename_i hnone
      refine .inr ?_
      rw [Lacks, hstep]
      cases rest ++ more with
      | nil => exact .inr ⟨_, rfl, hnone⟩
      | cons next others =>
        rw [walk, hnone]
        exact .inl rfl

/-! ## Files in a directory -/

/-- A name as a file may have it. -/
structure IsFileName (name : String) : Prop where
  ne_empty : name ≠ ""
  ne_dot : name ≠ "."
  ne_dots : name ≠ ".."
  slash_not_mem : '/' ∉ name.toList
  short : name.utf8ByteSize ≤ maxNameLength

theorem components_of_append {path longer name : String} {xs : List Char} (hname : IsFileName name)
    (hpath : path.toList = xs ∨ path.toList = xs ++ ['/'])
    (hlonger : longer.toList = xs ++ '/' :: name.toList)
    (hhead : longer.toList.head? = path.toList.head?) :
    components longer = components path ++ [name] := by
  have hsplit : name.toList.splitOn '/' = [name.toList] :=
    List.splitOn_eq_singleton hname.slash_not_mem
  have hkept : [name].filter (fun part => part ≠ "" && part ≠ ".") = [name] := by
    simp [hname.ne_empty, hname.ne_dot]
  rw [components, components, hhead, hlonger, List.splitOn_append_cons_self, hsplit,
    List.map_append, List.filter_append, List.map_singleton, String.ofList_toList, hkept]
  rcases hpath with hpath | hpath
  · rw [hpath]
    split <;> rfl
  · rw [hpath, List.splitOn_append_cons_self, List.map_append, List.filter_append]
    have hlast : ((([] : List Char).splitOn '/').map String.ofList).filter
        (fun part => part ≠ "" && part ≠ ".") = [] := by simp
    rw [hlast, List.append_nil]
    split <;> rfl

theorem components_joinPath (directory : String) {name : String} (hname : IsFileName name) :
    components (joinPath directory name) = components directory ++ [name] := by
  rw [joinPath]
  split
  · rename_i hempty
    subst hempty
    have hsplit : name.toList.splitOn '/' = [name.toList] :=
      List.splitOn_eq_singleton hname.slash_not_mem
    have hhead : name.toList.head? ≠ some '/' := fun h =>
      hname.slash_not_mem (List.mem_of_mem_head? h)
    have hempty : components "" = [] := by simp [components]
    rw [hempty, components, if_neg hhead, hsplit]
    simp [hname.ne_empty, hname.ne_dot]
  · rename_i hne
    have hchars : directory.toList ≠ [] := by simpa using hne
    split
    · rename_i hlast
      obtain ⟨xs, hxs⟩ := List.getLast?_eq_some_iff.1 hlast
      refine components_of_append hname (.inr hxs) ?_ ?_
      · rw [String.toList_append, hxs, List.append_assoc]
        rfl
      · rw [String.toList_append, List.head?_append_of_ne_nil _ hchars]
    · refine components_of_append hname (.inl rfl) ?_ ?_
      · simp
      · rw [String.toList_append, String.toList_append, List.append_assoc,
          List.head?_append_of_ne_nil _ hchars]

theorem joinPath_ne_empty (directory : String) {name : String} (hname : name ≠ "") :
    joinPath directory name ≠ "" := by
  rw [joinPath]
  split
  · exact hname
  · split <;> simp [hname]

theorem Leads.resolve_joinPath {directory name : String}
    (h : t.Leads [] (components directory)) (hname : IsFileName name) :
    t.resolve (joinPath directory name) = .ok (components directory ++ [name]) := by
  rw [resolve, if_neg (joinPath_ne_empty directory hname.ne_empty),
    components_joinPath directory hname, h.walk_concat hname.ne_dots hname.short, List.nil_append]

theorem Leads.resolve {directory : String} (h : t.Leads [] (components directory))
    (hne : directory ≠ "") : t.resolve directory = .ok (components directory) := by
  rw [FileTree.resolve, if_neg hne, h.walk, List.nil_append]

/-! ## Listings -/

def childNames (t : FileTree) (place : List String) : List String :=
  t.entries.filterMap fun e => childName? place e.1

theorem childName?_eq_some {p : List String} {name : String} :
    childName? place p = some name ↔ p = place ++ [name] := by
  rw [childName?]
  cases p using List.reverseRecOn with
  | nil => simp
  | append_singleton first last =>
    rw [List.getLast?_concat, List.dropLast_concat]
    dsimp only
    split
    · rename_i hfirst
      simp [hfirst]
    · rename_i hfirst
      simp [hfirst]

theorem IsFileName.ne_rootName {name : String} (h : IsFileName name) : name ≠ rootName := by
  rintro rfl
  exact h.slash_not_mem (by decide)

theorem entry?_of_not_mem_childNames {name : String} (hname : IsFileName name)
    (h : name ∉ t.childNames place) : t.entry? (place ++ [name]) = none := by
  have hroot : ¬ (place ++ [name] = [] ∨ place ++ [name] = [rootName]) := by
    rintro (he | he)
    · simp at he
    · obtain ⟨-, hlast⟩ := List.append_inj' (show place ++ [name] = [] ++ [rootName] from he) rfl
      exact hname.ne_rootName (List.singleton_inj.1 hlast)
  rw [ entry?, if_neg hroot, Option.map_eq_none_iff, List.find?_eq_none]
  intro e he hplace
  rw [decide_eq_true_eq] at hplace
  exact h (List.mem_filterMap.2 ⟨e, he, childName?_eq_some.2 hplace⟩)

theorem childNames_remove (t : FileTree) (place : List String) (name : String) :
    (t.remove (place ++ [name])).childNames place =
      (t.childNames place).filter (· ≠ name) := by
  rw [childNames, childNames, remove, List.filterMap_filter, List.filter_filterMap]
  congr 1
  funext e
  by_cases he : e.1 = place ++ [name]
  · simp [he, childName?_eq_some.2, Option.filter]
  · cases hchild : childName? place e.1 with
    | none => simp
    | some other =>
      have hother : other ≠ name := by
        rintro rfl
        exact he (childName?_eq_some.1 hchild)
      simp [he, hother, Option.filter]

theorem childNames_put (t : FileTree) (place : List String) (name : String) (e : FileEntry) :
    (t.put (place ++ [name]) e).childNames place =
      name :: (t.childNames place).filter (· ≠ name) := by
  rw [← childNames_remove, childNames, put, List.filterMap_cons,
    childName?_eq_some.2 (rfl : (place ++ [name], e).1 = place ++ [name])]
  rfl

theorem Leads.list {directory : String} (h : t.Leads [] (components directory))
    (hne : directory ≠ "") : t.list directory = .ok (t.childNames (components directory)) := by
  have hentry := h.entry?_end
  rw [List.nil_append] at hentry
  rw [FileTree.list, h.resolve hne]
  simp only [bind, Except.bind, hentry, childNames]

end BenchCluster.FileTree
