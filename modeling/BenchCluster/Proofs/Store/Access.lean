import BenchCluster.Store
import BenchCluster.Proofs.Cluster.Codec
import BenchCluster.Proofs.FileTree
import BenchCluster.Proofs.Text.Split

/-! # What the store writes, it reads

A valid cluster name with the ending that the store appends is the name of a file, from which the
store gets the cluster name back. What was saved under it is what is loaded from it.
-/

namespace BenchCluster

open Fallible (bind_eq_ok)

/-! ## Names -/

def fileNameOf (cluster : String) : String := cluster ++ ".json"

/-- The name of a cluster is short enough for its file. -/
def FitsFile (cluster : String) : Prop :=
  (fileNameOf cluster).utf8ByteSize ≤ FileTree.maxNameLength

instance (cluster : String) : Decidable (FitsFile cluster) :=
  inferInstanceAs (Decidable (_ ≤ _))

theorem fileNameOf_injective {a b : String} (h : fileNameOf a = fileNameOf b) : a = b := by
  rw [fileNameOf, fileNameOf, String.ext_iff, String.toList_append, String.toList_append] at h
  exact String.ext (List.append_cancel_right h)

theorem isFileName_fileNameOf {cluster : String} (h : isValidClusterName cluster = true)
    (hfits : FitsFile cluster) : FileTree.IsFileName (fileNameOf cluster) := by
  have hchars : (fileNameOf cluster).toList = cluster.toList ++ ".json".toList :=
    String.toList_append
  have hlong : ∀ other : String, other.toList.length < 5 → fileNameOf cluster ≠ other := by
    rintro _ hlength rfl
    rw [hchars, List.length_append] at hlength
    change cluster.toList.length + 5 < 5 at hlength
    omega
  refine ⟨hlong "" (by decide), hlong "." (by decide), hlong ".." (by decide), ?_, hfits⟩
  rw [hchars, List.mem_append, not_or]
  refine ⟨fun hmem => ?_, by decide⟩
  simp only [isValidClusterName, Bool.and_eq_true, Bool.not_eq_eq_eq_not, Bool.not_true,
    List.any_eq_false, Bool.or_eq_true, decide_eq_true_eq, not_or] at h
  exact (h.2 _ hmem).1.1 rfl

namespace Store

variable {s : Store} {files made written : FileTree} {d : ClusterDescriptor} {cluster : String}

theorem clusterOfFile?_fileNameOf (h : isValidClusterName cluster = true) :
    clusterOfFile? (fileNameOf cluster) = some cluster := by
  have hending : ".json" = String.ofList ('.' :: "json".toList) := by decide
  have hdot : '.' ∉ "json".toList := by decide
  have hempty : cluster ≠ "" := by
    rintro rfl
    exact absurd h (by decide)
  rw [clusterOfFile?, fileNameOf, hending, Text.splitAtLast_append hdot]
  simp [hempty]

theorem eq_fileNameOf_of_clusterOfFile? {name : String} (h : clusterOfFile? name = some cluster) :
    name = fileNameOf cluster := by
  rw [clusterOfFile?] at h
  split at h
  · rename_i stem extension hsplit
    split at h
    · rename_i hjson
      cases h
      rw [Bool.and_eq_true, decide_eq_true_eq] at hjson
      rw [(Text.splitAtLast_eq_some_iff.1 hsplit).1, hjson.1]
      rfl
    · cases h
  · cases h

theorem path_of_valid (s : Store) (h : isValidClusterName cluster = true) :
    s.path cluster = .ok (joinPath s.directory (fileNameOf cluster)) :=
  if_pos h

theorem path_of_invalid (s : Store) (h : isValidClusterName cluster = false) :
    s.path cluster = .error (.invalidName cluster) :=
  if_neg (by rw [h]; exact Bool.false_ne_true)

/-! ## The text of a file -/

def textOf (d : ClusterDescriptor) : String := d.toText ++ "\n"

theorem ofText?_textOf (d : ClusterDescriptor) :
    ClusterDescriptor.ofText? (textOf d) =
      if d.topology.depth ≤ ClusterDescriptor.maxTopologyDepth then some d else none :=
  d.ofText?_toText "\n" (by simp [Json.isBlank])

/-- The answer to a request for a descriptor that is kept: one that is nested too deeply can not be
read again. -/
def readBack (s : Store) (d : ClusterDescriptor) (cluster : String) :
    Except StoreError ClusterDescriptor :=
  if d.topology.depth ≤ ClusterDescriptor.maxTopologyDepth then .ok d
  else .error (.malformed (joinPath s.directory (fileNameOf cluster)))

theorem load_of_readText (h : isValidClusterName cluster = true)
    (hread : files.readText (joinPath s.directory (fileNameOf cluster)) = .ok (textOf d)) :
    s.load files cluster = s.readBack d cluster := by
  rw [load, s.path_of_valid h, readBack]
  simp only [bind, Except.bind, hread, ofText?_textOf]
  by_cases hdepth : d.topology.depth ≤ ClusterDescriptor.maxTopologyDepth
  · simp only [if_pos hdepth]
  · simp only [if_neg hdepth]

theorem save_eq_ok (h : s.save files d = (.ok (), written)) :
    isValidClusterName d.clusterName = true ∧
      ∃ made, files.makeDirectory s.directory = .ok made ∧
        made.writeText (joinPath s.directory (fileNameOf d.clusterName)) (textOf d) =
          .ok written := by
  cases hvalid : isValidClusterName d.clusterName with
  | false =>
    rw [save, s.path_of_invalid hvalid] at h
    cases h
  | true =>
    rw [save, s.path_of_valid hvalid] at h
    dsimp only at h
    split at h
    · cases h
    · rename_i made hmade
      split at h
      · cases h
      · rename_i hwritten
        cases h
        exact ⟨rfl, made, hmade, hwritten⟩

theorem load_of_save (h : s.save files d = (.ok (), written)) :
    s.load written d.clusterName = s.readBack d d.clusterName := by
  obtain ⟨hvalid, made, -, hwritten⟩ := save_eq_ok h
  exact load_of_readText hvalid (FileTree.readText_writeText hwritten)

def placeOf (s : Store) (cluster : String) : List String :=
  FileTree.components s.directory ++ [fileNameOf cluster]

theorem placeOf_injective (s : Store) {a b : String} (h : s.placeOf a = s.placeOf b) : a = b :=
  fileNameOf_injective (List.singleton_inj.1 (List.append_cancel_left h))

/-- A descriptor is saved where its directory can be made and no directory bears the name of its
file. -/
theorem save_of_makeDirectory (hvalid : isValidClusterName d.clusterName = true)
    (hfits : FitsFile d.clusterName) (hmade : files.makeDirectory s.directory = .ok made)
    (hfile : made.entry? (s.placeOf d.clusterName) ≠ some .directory) :
    s.save files d = (.ok (), made.put (s.placeOf d.clusterName)
      (.file (Text.encode (textOf d)) (made.isProgram (s.placeOf d.clusterName)))) := by
  have hleads := FileTree.leads_of_makeDirectories files.entry?_nil hmade
  have hwritten : made.writeText (joinPath s.directory (fileNameOf d.clusterName)) (textOf d) =
      .ok (made.put (s.placeOf d.clusterName)
        (.file (Text.encode (textOf d)) (made.isProgram (s.placeOf d.clusterName)))) :=
    FileTree.writeBytes_of_resolve _
      (hleads.resolve_joinPath (isFileName_fileNameOf hvalid hfits)) hfile
  rw [textOf] at hwritten
  rw [save, s.path_of_valid hvalid]
  simp only [hmade, hwritten, textOf]

/-! ## Round trips -/

/-- Every descriptor that is not nested too deeply is read from the text that is kept for it and
loaded after it was saved, which succeeds wherever its file can be written. What was read from any
text is read again from its own text. -/
theorem descriptor_round_trips :
    (∀ d : ClusterDescriptor, d.topology.depth ≤ ClusterDescriptor.maxTopologyDepth →
      ClusterDescriptor.ofText? (textOf d) = some d ∧
        ∀ (s : Store) (files written : FileTree), s.save files d = (.ok (), written) →
          written.readText (joinPath s.directory (fileNameOf d.clusterName)) = .ok (textOf d) ∧
            s.load written d.clusterName = .ok d) ∧
    (∀ (d : ClusterDescriptor) (s : Store) (files made : FileTree),
      isValidClusterName d.clusterName = true → FitsFile d.clusterName →
      files.makeDirectory s.directory = .ok made →
      made.entry? (s.placeOf d.clusterName) ≠ some .directory →
        ∃ written, s.save files d = (.ok (), written)) ∧
    ∀ (text : String) (d : ClusterDescriptor), ClusterDescriptor.ofText? text = some d →
      ClusterDescriptor.ofText? d.toText = some d := by
  refine ⟨fun d hdepth => ⟨?_, fun s files written h => ⟨?_, ?_⟩⟩, ?_, fun text d h => ?_⟩
  · rw [ofText?_textOf, if_pos hdepth]
  · obtain ⟨-, made, -, hwritten⟩ := save_eq_ok h
    exact FileTree.readText_writeText hwritten
  · rw [load_of_save h, readBack, if_pos hdepth]
  · intro d s files made hvalid hfits hmade hfile
    exact ⟨_, save_of_makeDirectory hvalid hfits hmade hfile⟩
  · have hagain := d.ofText?_toText "" (by simp)
    rwa [String.append_empty, if_pos (ClusterDescriptor.depth_le_of_ofText? h)] at hagain

/-- A descriptor with texts that have to be written with care. -/
def Sample.quoted : ClusterDescriptor :=
  { ClusterDescriptor.fresh "bench \"1\"" "a\\b" "drei Stufen: größer\x07\x7f"
      ⟨.of [("driver\n", .of [("back\tend", .of []), ("proxy", .of [])])], by
        simp only [RoleForest.Sorted, RoleForest.SortedBelow]
        decide⟩
      ⟨⟨9999, 12, 31, 23, 59, 59, 1⟩, by decide⟩ with
    topologyMap := Dict.ofList [("proxy", "proxy_0,proxy_1"), ("", "\x00")]
    connectionTarget := some { hosts := ["::1"], port := some 65535, dialect := "\u2028" }
    volumeSpecs := [{ name := "data", sizeGb := 4294967295 }] }

/-- It is saved in a directory that is not there yet, and loaded from it. -/
theorem quoted_round_trips : ∃ written,
    (⟨"state"⟩ : Store).save .empty Sample.quoted = (.ok (), written) ∧
      (⟨"state"⟩ : Store).load written "bench \"1\"" = .ok Sample.quoted ∧
      ClusterDescriptor.ofText? Sample.quoted.toText = some Sample.quoted := by
  have hdepth : Sample.quoted.topology.depth ≤ ClusterDescriptor.maxTopologyDepth := by decide
  obtain ⟨hread, hload⟩ := descriptor_round_trips.1 Sample.quoted hdepth
  have hmade : FileTree.empty.makeDirectory "state" = .ok ⟨[(["state"], .directory)]⟩ := by
    decide +kernel
  obtain ⟨written, hsave⟩ := descriptor_round_trips.2.1 Sample.quoted ⟨"state"⟩ .empty _
    (by decide) (by decide) hmade (by decide +kernel)
  exact ⟨written, hsave, (hload _ _ _ hsave).2, descriptor_round_trips.2.2 _ _ hread⟩

end Store

end BenchCluster
