import BenchCluster.Proofs.Store.Access
import Mathlib.Data.List.Nodup
import Mathlib.Logic.Function.Basic

/-! # The store is a map

However often descriptors are saved, loaded and deleted, the store answers as a map from cluster
names to descriptors does. The invariant says which files stand in the directory: those of the
clusters that are kept, and no others. It holds of an empty directory and of one that is still to be
made, and every call preserves it.
-/

namespace BenchCluster

inductive StoreCall
  | save (d : ClusterDescriptor)
  | load (cluster : String)
  | contains (cluster : String)
  | delete (cluster : String)
  | list

inductive StoreAnswer
  | done
  | descriptor (d : ClusterDescriptor)
  | presence (present : Bool)
  | names (clusters : List String)

namespace StoreCall

def cluster? : StoreCall → Option String
  | save d => some d.clusterName
  | load cluster | contains cluster | delete cluster => some cluster
  | list => none

/-- The file of the cluster can have its name, unless this is refused anyway. -/
def Fits (call : StoreCall) : Prop :=
  ∀ cluster ∈ call.cluster?, isValidClusterName cluster = true → FitsFile cluster

def update (kept : String → Option ClusterDescriptor) :
    StoreCall → String → Option ClusterDescriptor
  | save d =>
    if isValidClusterName d.clusterName then Function.update kept d.clusterName (some d) else kept
  | delete cluster =>
    if isValidClusterName cluster then Function.update kept cluster none else kept
  | load _ | contains _ | list => kept

end StoreCall

/-- Under each name the descriptor that was saved last, unless it was deleted since. -/
def lastSaved (calls : List StoreCall) : String → Option ClusterDescriptor :=
  calls.foldl StoreCall.update fun _ => none

namespace Store

variable {s : Store} {files made : FileTree} {kept : String → Option ClusterDescriptor}
  {cluster : String} {d : ClusterDescriptor}

def answer (s : Store) (files : FileTree) : StoreCall → Except StoreError StoreAnswer × FileTree
  | .save d => ((s.save files d).1.map fun _ => .done, (s.save files d).2)
  | .load cluster => ((s.load files cluster).map .descriptor, files)
  | .contains cluster => ((s.contains files cluster).map .presence, files)
  | .delete cluster => ((s.delete files cluster).1.map fun _ => .done, (s.delete files cluster).2)
  | .list => ((s.list files).map .names, files)

def after (s : Store) (files : FileTree) (calls : List StoreCall) : FileTree :=
  calls.foldl (fun files call => (s.answer files call).2) files

/-- The answers are those of a map, and no call reaches further than the file of its cluster and
the directories that lead to it. -/
structure IsMap (s : Store) (files : FileTree) (kept : String → Option ClusterDescriptor) :
    Prop where
  /-- A name that is not valid is refused, and nothing changes. -/
  refused : ∀ call cluster, call.cluster? = some cluster → isValidClusterName cluster = false →
    s.answer files call = (.error (.invalidName cluster), files)
  save : ∀ d, isValidClusterName d.clusterName = true → FitsFile d.clusterName →
    (s.save files d).1 = .ok ()
  load : ∀ cluster, isValidClusterName cluster = true → FitsFile cluster →
    s.load files cluster =
      match kept cluster with
      | some d => s.readBack d cluster
      | none => .error (.notFound cluster)
  contains : ∀ cluster, isValidClusterName cluster = true → FitsFile cluster →
    s.contains files cluster = .ok (kept cluster).isSome
  /-- Deleting once more succeeds too and changes nothing. -/
  delete : ∀ cluster, isValidClusterName cluster = true → FitsFile cluster →
    (s.delete files cluster).1 = .ok () ∧
      s.delete (s.delete files cluster).2 cluster = (.ok (), (s.delete files cluster).2)
  list : ∃ names, s.list files = .ok names ∧ names.Pairwise (· < ·) ∧
    ∀ cluster, cluster ∈ names ↔ (kept cluster).isSome
  frame : ∀ call : StoreCall, call.Fits → ∀ place,
    (∀ cluster ∈ call.cluster?, place ≠ s.placeOf cluster) →
    FileTree.entry? (s.answer files call).2 place = files.entry? place ∨
      files.entry? place = none ∧ place <+: FileTree.components s.directory ∧
        FileTree.entry? (s.answer files call).2 place = some .directory

/-! ## The invariant -/

/-- The directory is there and holds the files of the clusters that are kept. -/
structure Holds (s : Store) (files : FileTree) (kept : String → Option ClusterDescriptor) :
    Prop where
  named : s.directory ≠ ""
  leads : files.Leads [] (FileTree.components s.directory)
  entry : ∀ cluster, isValidClusterName cluster = true → FitsFile cluster →
    files.entry? (s.placeOf cluster) =
      (kept cluster).map fun d => .file (Text.encode (textOf d)) false
  nodup : (files.childNames (FileTree.components s.directory)).Nodup
  children : ∀ name, name ∈ files.childNames (FileTree.components s.directory) ↔
    ∃ cluster d, name = fileNameOf cluster ∧ kept cluster = some d
  valid : ∀ cluster d, kept cluster = some d →
    isValidClusterName cluster = true ∧ FitsFile cluster

/-- Nothing stands where the directory is to be made. -/
structure Missing (s : Store) (files : FileTree) : Prop where
  made : ∃ made, files.makeDirectory s.directory = .ok made ∧ s.Holds made fun _ => none
  lacks : ∀ more, files.Lacks [] (FileTree.components s.directory ++ more)

/-- The clusters that are kept have their files, in a directory that need not be there for none. -/
inductive Keeps (s : Store) (files : FileTree) : (String → Option ClusterDescriptor) → Prop
  | held {kept : String → Option ClusterDescriptor} : s.Holds files kept → s.Keeps files kept
  | missing : s.Missing files → s.Keeps files fun _ => none

theorem keeps_of_makeDirectory (hmade : files.makeDirectory s.directory = .ok made)
    (hempty : made.list s.directory = .ok []) : s.Keeps files fun _ => none := by
  have hleads := FileTree.leads_of_makeDirectories files.entry?_nil hmade
  have hnamed : s.directory ≠ "" := by
    intro he
    rw [he] at hempty
    cases hempty
  have hchildren : made.childNames (FileTree.components s.directory) = [] := by
    rw [hleads.list hnamed] at hempty
    exact Except.ok.inj hempty
  have hholds : s.Holds made fun _ => none := by
    refine ⟨hnamed, hleads, fun cluster hvalid hfits => ?_, ?_, ?_, fun _ _ h => nomatch h⟩
    · refine FileTree.entry?_of_not_mem_childNames (isFileName_fileNameOf hvalid hfits) ?_
      simp [hchildren]
    · rw [hchildren]
      exact List.nodup_nil
    · simp [hchildren]
  by_cases hthere : files.Leads [] (FileTree.components s.directory)
  · have hsame : made = files := by
      rw [FileTree.makeDirectory, hthere.makeDirectories] at hmade
      exact (Except.ok.inj hmade).symm
    exact .held (hsame ▸ hholds)
  · refine .missing ⟨⟨made, hmade, hholds⟩, fun more => ?_⟩
    exact (FileTree.leads_or_lacks files.entry?_nil hmade more).resolve_left hthere

/-! ## What the files of a directory answer -/

theorem Holds.resolve (h : s.Holds files kept) (hvalid : isValidClusterName cluster = true)
    (hfits : FitsFile cluster) :
    files.resolve (joinPath s.directory (fileNameOf cluster)) = .ok (s.placeOf cluster) :=
  h.leads.resolve_joinPath (isFileName_fileNameOf hvalid hfits)

theorem Holds.entry?_ne_directory (h : s.Holds files kept)
    (hvalid : isValidClusterName cluster = true) (hfits : FitsFile cluster) :
    files.entry? (s.placeOf cluster) ≠ some .directory := by
  rw [h.entry cluster hvalid hfits]
  cases kept cluster with
  | none => exact nofun
  | some d => exact nofun

theorem Holds.look (h : s.Holds files kept) (hvalid : isValidClusterName cluster = true)
    (hfits : FitsFile cluster) :
    files.look (joinPath s.directory (fileNameOf cluster)) =
      match kept cluster with
      | some d => .ok (.file (Text.encode (textOf d)) false)
      | none => .error .notFound := by
  rw [FileTree.look, h.resolve hvalid hfits]
  simp only [bind, Except.bind, h.entry cluster hvalid hfits]
  cases kept cluster <;> rfl

theorem Holds.load (h : s.Holds files kept) (hvalid : isValidClusterName cluster = true)
    (hfits : FitsFile cluster) :
    s.load files cluster =
      match kept cluster with
      | some d => s.readBack d cluster
      | none => .error (.notFound cluster) := by
  have hlook := h.look hvalid hfits
  cases hkept : kept cluster with
  | none =>
    rw [hkept] at hlook
    rw [Store.load, s.path_of_valid hvalid]
    simp only [bind, Except.bind, FileTree.readText, FileTree.readBytes, hlook]
  | some d =>
    rw [hkept] at hlook
    refine load_of_readText hvalid ?_
    simp only [FileTree.readText, FileTree.readBytes, bind, Except.bind, hlook,
      Text.decode?_encode]

theorem Holds.contains (h : s.Holds files kept) (hvalid : isValidClusterName cluster = true)
    (hfits : FitsFile cluster) : s.contains files cluster = .ok (kept cluster).isSome := by
  have hlook := h.look hvalid hfits
  rw [Store.contains, s.path_of_valid hvalid]
  simp only [bind, Except.bind, FileTree.pathExists, hlook]
  cases kept cluster <;> rfl

/-- The clusters that are listed are those that are kept, in the order of their names. -/
theorem Holds.list (h : s.Holds files kept) :
    ∃ names, s.list files = .ok names ∧ names.Pairwise (· < ·) ∧
      ∀ cluster, cluster ∈ names ↔ (kept cluster).isSome := by
  obtain ⟨stored, hstored⟩ : ∃ names, names =
      (files.childNames (FileTree.components s.directory)).filterMap clusterOfFile? := ⟨_, rfl⟩
  have hnodup : stored.Nodup := by
    rw [hstored]
    refine List.Nodup.filterMap (fun a b cluster ha hb => ?_) h.nodup
    rw [eq_fileNameOf_of_clusterOfFile? ha, eq_fileNameOf_of_clusterOfFile? hb]
  have hmem : ∀ cluster, cluster ∈ stored ↔ (kept cluster).isSome = true := by
    intro cluster
    rw [hstored, List.mem_filterMap, Option.isSome_iff_exists]
    constructor
    · rintro ⟨name, hname, hcluster⟩
      obtain ⟨other, d, rfl, hkept⟩ := (h.children name).1 hname
      rw [fileNameOf_injective (eq_fileNameOf_of_clusterOfFile? hcluster)] at hkept
      exact ⟨d, hkept⟩
    · rintro ⟨d, hkept⟩
      exact ⟨fileNameOf cluster, (h.children _).2 ⟨cluster, d, rfl, hkept⟩,
        clusterOfFile?_fileNameOf (h.valid cluster d hkept).1⟩
  have hperm := List.mergeSort_perm stored fun a b => decide (a ≤ b)
  refine ⟨stored.mergeSort fun a b => decide (a ≤ b), ?_, ?_, fun cluster => ?_⟩
  · rw [Store.list, h.leads.list h.named, hstored]
  · have hsorted : (stored.mergeSort fun a b => decide (a ≤ b)).Pairwise fun a b => a ≤ b := by
      refine (List.pairwise_mergeSort (fun a b c => ?_) (fun a b => ?_) stored).imp fun h => ?_
      · simpa using String.le_trans
      · simpa using String.le_total a b
      · simpa using h
    refine (hsorted.and (hperm.nodup_iff.2 hnodup)).imp fun hle => ?_
    exact Std.lt_of_le_of_ne hle.1 hle.2
  · rw [hperm.mem_iff, hmem]

theorem Holds.save (h : s.Holds files kept) (hvalid : isValidClusterName d.clusterName = true)
    (hfits : FitsFile d.clusterName) :
    s.save files d = (.ok (), files.put (s.placeOf d.clusterName)
      (.file (Text.encode (textOf d)) false)) := by
  have hmade : files.makeDirectory s.directory = .ok files := h.leads.makeDirectories
  have hprogram : files.isProgram (s.placeOf d.clusterName) = false := by
    rw [FileTree.isProgram, h.entry _ hvalid hfits]
    cases kept d.clusterName <;> rfl
  have hsave := save_of_makeDirectory hvalid hfits hmade (h.entry?_ne_directory hvalid hfits)
  rwa [hprogram] at hsave

theorem Holds.delete (h : s.Holds files kept) (hvalid : isValidClusterName cluster = true)
    (hfits : FitsFile cluster) :
    s.delete files cluster = (.ok (),
      if (kept cluster).isSome then files.remove (s.placeOf cluster) else files) := by
  have hresolve := h.resolve hvalid hfits
  have hentry := h.entry cluster hvalid hfits
  rw [Store.delete, s.path_of_valid hvalid]
  cases hkept : kept cluster with
  | none =>
    rw [hkept, Option.map_none] at hentry
    simp [FileTree.removeFile, hresolve, bind, Except.bind, hentry]
  | some d =>
    rw [hkept, Option.map_some] at hentry
    simp [FileTree.removeFile, hresolve, bind, Except.bind, hentry]

/-! ## What the calls preserve -/

theorem Holds.put (h : s.Holds files kept) (hvalid : isValidClusterName cluster = true)
    (hfits : FitsFile cluster) (d : ClusterDescriptor) :
    s.Holds (files.put (s.placeOf cluster) (.file (Text.encode (textOf d)) false))
      (Function.update kept cluster (some d)) := by
  have hfile := h.entry?_ne_directory hvalid hfits
  have hchildren := files.childNames_put (FileTree.components s.directory) (fileNameOf cluster)
    (.file (Text.encode (textOf d)) false)
  refine ⟨h.named, h.leads.put hfile _, fun other hother hshort => ?_, ?_, fun name => ?_,
    fun other e hkept => ?_⟩
  · by_cases heq : other = cluster
    · subst heq
      rw [FileTree.entry?_put_self hfile, Function.update_self, Option.map_some]
    · have hne : s.placeOf other ≠ s.placeOf cluster := fun he => heq (s.placeOf_injective he)
      rw [FileTree.entry?_put_of_ne _ _ hne, Function.update_of_ne heq, h.entry _ hother hshort]
  · rw [placeOf, hchildren, List.nodup_cons]
    exact ⟨by simp, h.nodup.filter _⟩
  · rw [placeOf, hchildren, List.mem_cons, List.mem_filter, h.children, decide_eq_true_eq]
    constructor
    · rintro (rfl | ⟨⟨other, e, rfl, hkept⟩, hne⟩)
      · exact ⟨cluster, d, rfl, Function.update_self ..⟩
      · have heq : other ≠ cluster := fun he => hne (congrArg fileNameOf he)
        exact ⟨other, e, rfl, by rwa [Function.update_of_ne heq]⟩
    · rintro ⟨other, e, rfl, hkept⟩
      by_cases heq : other = cluster
      · exact .inl (congrArg fileNameOf heq)
      · rw [Function.update_of_ne heq] at hkept
        exact .inr ⟨⟨other, e, rfl, hkept⟩, fun he => heq (fileNameOf_injective he)⟩
  · by_cases heq : other = cluster
    · exact heq ▸ ⟨hvalid, hfits⟩
    · rw [Function.update_of_ne heq] at hkept
      exact h.valid other e hkept

/-- After deleting, nothing is kept under the name. -/
theorem Holds.remove (h : s.Holds files kept) (hvalid : isValidClusterName cluster = true)
    (hfits : FitsFile cluster) :
    s.Holds (files.remove (s.placeOf cluster)) (Function.update kept cluster none) := by
  have hfile := h.entry?_ne_directory hvalid hfits
  have hchildren := files.childNames_remove (FileTree.components s.directory) (fileNameOf cluster)
  refine ⟨h.named, h.leads.remove hfile, fun other hother hshort => ?_, ?_, fun name => ?_,
    fun other e hkept => ?_⟩
  · by_cases heq : other = cluster
    · subst heq
      rw [FileTree.entry?_remove_self hfile, Function.update_self, Option.map_none]
    · have hne : s.placeOf other ≠ s.placeOf cluster := fun he => heq (s.placeOf_injective he)
      rw [FileTree.entry?_remove_of_ne _ hne, Function.update_of_ne heq, h.entry _ hother hshort]
  · rw [placeOf, hchildren]
    exact h.nodup.filter _
  · rw [placeOf, hchildren, List.mem_filter, h.children, decide_eq_true_eq]
    constructor
    · rintro ⟨⟨other, e, rfl, hkept⟩, hne⟩
      have heq : other ≠ cluster := fun he => hne (congrArg fileNameOf he)
      exact ⟨other, e, rfl, by rwa [Function.update_of_ne heq]⟩
    · rintro ⟨other, e, rfl, hkept⟩
      have heq : other ≠ cluster := by
        rintro rfl
        rw [Function.update_self] at hkept
        cases hkept
      rw [Function.update_of_ne heq] at hkept
      exact ⟨⟨other, e, rfl, hkept⟩, fun he => heq (fileNameOf_injective he)⟩
  · have heq : other ≠ cluster := by
      rintro rfl
      rw [Function.update_self] at hkept
      cases hkept
    rw [Function.update_of_ne heq] at hkept
    exact h.valid other e hkept

theorem Holds.after_delete (h : s.Holds files kept) (hvalid : isValidClusterName cluster = true)
    (hfits : FitsFile cluster) :
    s.Holds (s.delete files cluster).2 (Function.update kept cluster none) := by
  rw [h.delete hvalid hfits]
  cases hkept : kept cluster with
  | none =>
    have hsame : Function.update kept cluster none = kept := by
      rw [← hkept, Function.update_eq_self]
    rw [hsame]
    exact h
  | some d => exact h.remove hvalid hfits

/-! ## Where the directory is still to be made -/

namespace Missing

theorem lacks_file (h : s.Missing files) (hvalid : isValidClusterName cluster = true)
    (hfits : FitsFile cluster) :
    files.Lacks [] (FileTree.components (joinPath s.directory (fileNameOf cluster))) := by
  rw [FileTree.components_joinPath _ (isFileName_fileNameOf hvalid hfits)]
  exact h.lacks _

theorem save (h : s.Missing files) (hvalid : isValidClusterName d.clusterName = true)
    (hfits : FitsFile d.clusterName) :
    ∃ made, files.makeDirectory s.directory = .ok made ∧ s.Holds made (fun _ => none) ∧
      s.save files d = s.save made d := by
  obtain ⟨made, hmade, hholds⟩ := h.made
  refine ⟨made, hmade, hholds, ?_⟩
  have hfile := hholds.entry?_ne_directory hvalid hfits
  rw [save_of_makeDirectory hvalid hfits hmade hfile,
    save_of_makeDirectory hvalid hfits hholds.leads.makeDirectories hfile]

theorem load (h : s.Missing files) (hvalid : isValidClusterName cluster = true)
    (hfits : FitsFile cluster) : s.load files cluster = .error (.notFound cluster) := by
  rw [Store.load, s.path_of_valid hvalid]
  simp only [bind, Except.bind, FileTree.readText, FileTree.readBytes,
    (h.lacks_file hvalid hfits).look]

theorem contains (h : s.Missing files) (hvalid : isValidClusterName cluster = true)
    (hfits : FitsFile cluster) : s.contains files cluster = .ok false := by
  rw [Store.contains, s.path_of_valid hvalid]
  simp only [bind, Except.bind, FileTree.pathExists, (h.lacks_file hvalid hfits).look]
  rfl

theorem delete (h : s.Missing files) (hvalid : isValidClusterName cluster = true)
    (hfits : FitsFile cluster) : s.delete files cluster = (.ok (), files) := by
  rw [Store.delete, s.path_of_valid hvalid]
  simp only [(h.lacks_file hvalid hfits).removeFile]

theorem list (h : s.Missing files) : s.list files = .ok [] := by
  have hlacks := h.lacks []
  rw [List.append_nil] at hlacks
  rw [Store.list, hlacks.list]

end Missing

/-! ## Sequences of calls -/

/-- A name that is not valid is refused by every operation. -/
theorem answer_of_invalid (files : FileTree) {call : StoreCall}
    (hcall : call.cluster? = some cluster) (hinvalid : isValidClusterName cluster = false) :
    s.answer files call = (.error (.invalidName cluster), files) := by
  have hpath := s.path_of_invalid hinvalid
  cases call with
  | save d =>
    cases hcall
    rw [answer, Store.save, hpath]
    rfl
  | load name =>
    cases hcall
    rw [answer, Store.load, hpath]
    rfl
  | contains name =>
    cases hcall
    rw [answer, Store.contains, hpath]
    rfl
  | delete name =>
    cases hcall
    rw [answer, Store.delete, hpath]
    rfl
  | list => cases hcall

/-- A call leaves the files of the clusters that are kept after it. -/
theorem Keeps.answer (h : s.Keeps files kept) {call : StoreCall} (hfits : call.Fits) :
    s.Keeps (s.answer files call).2 (call.update kept) := by
  cases call with
  | save d =>
    rw [StoreCall.update]
    split
    · rename_i hvalid
      have hshort := hfits d.clusterName rfl hvalid
      cases h with
      | held h =>
        rw [Store.answer, h.save hvalid hshort]
        exact .held (h.put hvalid hshort d)
      | missing h =>
        obtain ⟨made, -, hmade, hsave⟩ := h.save hvalid hshort
        rw [Store.answer, hsave, hmade.save hvalid hshort]
        exact .held (hmade.put hvalid hshort d)
    · rename_i hinvalid
      rwa [answer_of_invalid files rfl (Bool.eq_false_iff.2 hinvalid)]
  | delete cluster =>
    rw [StoreCall.update]
    split
    · rename_i hvalid
      have hshort := hfits cluster rfl hvalid
      cases h with
      | held h => exact .held (h.after_delete hvalid hshort)
      | missing h =>
        have hsame : Function.update (fun _ => none) cluster none =
            fun _ : String => (none : Option ClusterDescriptor) := Function.update_eq_self ..
        rw [Store.answer, h.delete hvalid hshort, hsame]
        exact .missing h
    · rename_i hinvalid
      rwa [answer_of_invalid files rfl (Bool.eq_false_iff.2 hinvalid)]
  | load cluster => exact h
  | contains cluster => exact h
  | list => exact h

/-- Wherever the files of a cluster are not, a call at most makes a missing directory. -/
theorem Keeps.frame (h : s.Keeps files kept) {call : StoreCall} (hfits : call.Fits)
    {place : List String} (hplace : ∀ cluster ∈ call.cluster?, place ≠ s.placeOf cluster) :
    FileTree.entry? (s.answer files call).2 place = files.entry? place ∨
      files.entry? place = none ∧ place <+: FileTree.components s.directory ∧
        FileTree.entry? (s.answer files call).2 place = some .directory := by
  cases hcall : call.cluster?.filter fun cluster => !isValidClusterName cluster with
  | some cluster =>
    obtain ⟨hcluster, hinvalid⟩ := Option.filter_eq_some_iff.1 hcall
    rw [answer_of_invalid files hcluster (by simpa using hinvalid)]
    exact .inl rfl
  | none =>
    have hvalid : ∀ cluster ∈ call.cluster?, isValidClusterName cluster = true := by
      simpa [Option.filter_eq_none_iff] using hcall
    cases call with
    | save d =>
      have hne := hplace d.clusterName rfl
      have hname := hvalid d.clusterName rfl
      have hshort := hfits d.clusterName rfl hname
      cases h with
      | held h =>
        rw [Store.answer, h.save hname hshort]
        exact .inl (FileTree.entry?_put_of_ne _ _ hne)
      -- The first save makes the directory, and the file is written into that.
      | missing h =>
        obtain ⟨made, hmake, hmade, hsave⟩ := h.save hname hshort
        rw [Store.answer, hsave, hmade.save hname hshort]
        dsimp only
        rw [FileTree.entry?_put_of_ne _ _ hne]
        rcases FileTree.entry?_makeDirectories hmake place with hsame | ⟨hnone, hdir, hprefix⟩
        · exact .inl hsame
        · exact .inr ⟨hnone, hprefix, hdir⟩
    | delete cluster =>
      refine .inl ?_
      have hne := hplace cluster rfl
      have hname := hvalid cluster rfl
      have hshort := hfits cluster rfl hname
      cases h with
      | held h =>
        rw [Store.answer, h.delete hname hshort]
        dsimp only
        split
        · exact FileTree.entry?_remove_of_ne _ hne
        · rfl
      | missing h => rw [Store.answer, h.delete hname hshort]
    | load cluster => exact .inl rfl
    | contains cluster => exact .inl rfl
    | list => exact .inl rfl

theorem Keeps.isMap (h : s.Keeps files kept) : s.IsMap files kept where
  refused call cluster hcall hinvalid := answer_of_invalid files hcall hinvalid
  save d hvalid hfits := by
    cases h with
    | held h => rw [h.save hvalid hfits]
    | missing h =>
      obtain ⟨made, -, hmade, hsave⟩ := h.save hvalid hfits
      rw [hsave, hmade.save hvalid hfits]
  load cluster hvalid hfits := by
    cases h with
    | held h => exact h.load hvalid hfits
    | missing h => exact h.load hvalid hfits
  contains cluster hvalid hfits := by
    cases h with
    | held h => exact h.contains hvalid hfits
    | missing h => exact h.contains hvalid hfits
  delete cluster hvalid hfits := by
    cases h with
    | held h =>
      refine ⟨congrArg Prod.fst (h.delete hvalid hfits), ?_⟩
      have hagain := (h.after_delete hvalid hfits).delete hvalid hfits
      rwa [Function.update_self] at hagain
    | missing h =>
      have hdelete := h.delete hvalid hfits
      rw [hdelete]
      exact ⟨rfl, hdelete⟩
  list := by
    cases h with
    | held h => exact h.list
    | missing h => exact ⟨[], h.list, .nil, by simp⟩
  frame call hfits place hplace := h.frame hfits hplace

theorem Keeps.after (h : s.Keeps files kept) {calls : List StoreCall}
    (hfits : ∀ call ∈ calls, call.Fits) :
    s.Keeps (s.after files calls) (calls.foldl StoreCall.update kept) := by
  induction calls generalizing files kept with
  | nil => exact h
  | cons call rest ih =>
    exact ih (h.answer (hfits call List.mem_cons_self))
      fun call hcall => hfits call (List.mem_cons_of_mem _ hcall)

/-- After any calls, in a directory that was empty or is made by the first save, the store answers
the next call as a map of what was saved last under each name and not deleted since. -/
theorem isMap_after (s : Store) {files made : FileTree}
    (hmade : files.makeDirectory s.directory = .ok made)
    (hempty : made.list s.directory = .ok []) (calls : List StoreCall)
    (hfits : ∀ call ∈ calls, call.Fits) : s.IsMap (s.after files calls) (lastSaved calls) :=
  ((keeps_of_makeDirectory hmade hempty).after hfits).isMap

def Sample.storeCalls : List StoreCall :=
  [.save Sample.quoted, .save { Sample.quoted with clusterName := "b.json" }, .delete "b.json",
    .save { Sample.quoted with clusterName := "../b" }]

theorem isMap_after_storeCalls :
    (⟨"state"⟩ : Store).load (Store.after ⟨"state"⟩ .empty Sample.storeCalls) "bench \"1\"" =
      .ok Sample.quoted ∧
    (⟨"state"⟩ : Store).load (Store.after ⟨"state"⟩ .empty Sample.storeCalls) "b.json" =
      .error (.notFound "b.json") ∧
    ∃ names, (⟨"state"⟩ : Store).list (Store.after ⟨"state"⟩ .empty Sample.storeCalls) =
      .ok names ∧ ∀ cluster, cluster ∈ names ↔ cluster = "bench \"1\"" := by
  have hmade : FileTree.empty.makeDirectory "state" = .ok ⟨[(["state"], .directory)]⟩ := by
    decide +kernel
  have hempty : (⟨[(["state"], .directory)]⟩ : FileTree).list "state" = .ok [] := by
    decide +kernel
  have hfits : ∀ call ∈ Sample.storeCalls, call.Fits := by
    simp only [Sample.storeCalls, StoreCall.Fits, StoreCall.cluster?, List.forall_mem_cons,
      Option.mem_def, Option.some.injEq, forall_eq']
    exact ⟨by decide, by decide, by decide, by decide, by simp⟩
  have hkept : ∀ cluster, lastSaved Sample.storeCalls cluster =
      if cluster = "bench \"1\"" then some Sample.quoted else none := by
    intro cluster
    have hquoted : isValidClusterName Sample.quoted.clusterName = true := by decide
    have hother : isValidClusterName "b.json" = true := by decide
    have hrefused : isValidClusterName "../b" = false := by decide
    simp only [lastSaved, Sample.storeCalls, List.foldl, StoreCall.update, hquoted, hother,
      hrefused, if_true, Function.update_idem]
    by_cases hother : cluster = "b.json"
    · subst hother
      simp
    · by_cases hquoted : cluster = "bench \"1\""
      · subst hquoted
        simp [Sample.quoted, ClusterDescriptor.fresh]
      · simp [hother, hquoted, Sample.quoted, ClusterDescriptor.fresh]
  have hmap := isMap_after ⟨"state"⟩ hmade hempty Sample.storeCalls hfits
  refine ⟨?_, ?_, ?_⟩
  · rw [hmap.load _ (by decide) (by decide), hkept]
    simp only [if_true]
    rw [readBack, if_pos (by decide)]
  · rw [hmap.load _ (by decide) (by decide), hkept]
    rfl
  · obtain ⟨names, hlist, -, hmem⟩ := hmap.list
    refine ⟨names, hlist, fun cluster => ?_⟩
    rw [hmem, hkept]
    split <;> simp_all

/-! ## Topologies that are nested too deeply -/

def Sample.chain : Nat → RoleForest
  | 0 => .of []
  | n + 1 => .of [("r", chain n)]

theorem Sample.sorted_chain (n : Nat) : (chain n).Sorted := by
  induction n with
  | zero => simp [chain, RoleForest.Sorted, RoleForest.SortedBelow]
  | succ n ih => simp [chain, RoleForest.Sorted, RoleForest.SortedBelow, ih]

theorem Sample.depth_chain (n : Nat) : (chain n).depth = n + 1 := by
  induction n with
  | zero => rfl
  | succ n ih =>
    rw [chain, RoleForest.depth, RoleForest.depthBelow, RoleForest.depthBelow, ih]
    omega

/-- A descriptor whose topology has one level more than can be read. -/
def Sample.deep : ClusterDescriptor :=
  { Sample.quoted with topology := ⟨chain 126, sorted_chain 126⟩ }

/-- It is saved and then there, but loading it says that its file cannot be understood. -/
theorem deep_not_loaded :
    ((⟨"state"⟩ : Store).save .empty Sample.deep).1 = .ok () ∧
    (⟨"state"⟩ : Store).contains (Store.after ⟨"state"⟩ .empty [.save Sample.deep])
      "bench \"1\"" = .ok true ∧
    (⟨"state"⟩ : Store).load (Store.after ⟨"state"⟩ .empty [.save Sample.deep])
      "bench \"1\"" = .error (.malformed "state/bench \"1\".json") := by
  have hmade : FileTree.empty.makeDirectory "state" = .ok ⟨[(["state"], .directory)]⟩ := by
    decide +kernel
  -- Evaluating the round trip would take long, so this goes by what the store answers in general.
  have hkeeps : (⟨"state"⟩ : Store).Keeps .empty fun _ => none :=
    keeps_of_makeDirectory hmade (by decide +kernel)
  have hvalid : isValidClusterName Sample.deep.clusterName = true := by decide
  have hfits : FitsFile Sample.deep.clusterName := by decide
  have hcall : ∀ call ∈ [StoreCall.save Sample.deep], call.Fits := by
    simpa [StoreCall.Fits, StoreCall.cluster?] using fun _ => hfits
  have hmap := (hkeeps.after hcall).isMap
  have hkept : [StoreCall.save Sample.deep].foldl StoreCall.update (fun _ => none)
      "bench \"1\"" = some Sample.deep := by
    rw [List.foldl_cons, StoreCall.update, if_pos hvalid]
    exact Function.update_self ..
  have hdepth : ¬ Sample.deep.topology.depth ≤ ClusterDescriptor.maxTopologyDepth := by
    change ¬ (Sample.chain 126).depth ≤ 126
    rw [Sample.depth_chain]
    omega
  refine ⟨hkeeps.isMap.save _ hvalid hfits, ?_, ?_⟩
  · rw [hmap.contains _ (by decide) (by decide), hkept]
    rfl
  · rw [hmap.load _ (by decide) (by decide), hkept]
    dsimp only
    rw [readBack, if_neg hdepth]
    have hpath : joinPath "state" (fileNameOf "bench \"1\"") = "state/bench \"1\".json" := by
      decide
    rw [hpath]

end Store

end BenchCluster
