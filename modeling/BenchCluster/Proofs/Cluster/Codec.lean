import BenchCluster.Cluster.Codec
import BenchCluster.Proofs.Data.Decode
import BenchCluster.Proofs.Dict
import BenchCluster.Proofs.Json.RoundTrip
import BenchCluster.Proofs.Timestamp

/-! # Descriptors read back -/

namespace BenchCluster

namespace Decoder.Reads

variable {α : Type} {decode : Decoder α} {encode : α → Data}

theorem dict (h : decode.Reads encode) : (Decoder.dict decode).Reads (Data.ofDict encode) := by
  intro d
  simp [Decoder.dict, Data.ofDict, Data.entries?, h.pairs, Dict.ofList_entries]

theorem texts : (Decoder.list .text).Reads Data.ofTexts := text.list

/-- Values that are not written as nothing may be unset. -/
theorem optional (h : decode.Reads encode) (hnull : ∀ a, encode a ≠ .null) :
    (Decoder.optional decode).Reads (Data.ofOptional encode) := by
  intro o
  cases o with
  | none => rfl
  | some a =>
    rw [Data.ofOptional, Decoder.optional]
    · rw [h a, Option.map_some]
    · exact hnull a

theorem optionalText : (Decoder.optional .text).Reads Data.ofText? :=
  text.optional fun _ h => nomatch h

end Decoder.Reads

open Decoder (Reads)

/-! ## The parts of a descriptor

In each proof the fields are looked up first, all of them, and the record is put together after
that.
-/

theorem Environment.reads : Environment.decode.Reads Environment.encode := by
  intro e
  rw [Environment.decode, Environment.encode, Record.read?_table_bind]
  · simp -implicitDefEqProofs only [Record.required_ofEntries, List.lookup, String.reduceBEq,
      Option.elim_some, Option.bind_eq_bind, Decoder.text]
    simp only [↓Option.bind_some, pure]
  · rfl
  · decide

theorem ComponentParams.reads : ComponentParams.decode.Reads ComponentParams.encode := by
  intro p
  have hcount := Reads.uint32 p.count
  have hhosts := Reads.texts p.hosts
  have hparameters := Reads.text.dict p.parameters
  rw [ComponentParams.decode, ComponentParams.encode, Record.read?_table_bind]
  · simp -implicitDefEqProofs only [Record.required_ofEntries, Record.optional_ofEntries,
      Record.withDefault_ofEntries, List.lookup, String.reduceBEq, Option.elim_some,
      Option.bind_eq_bind, Decoder.text, Decoder.bool, Reads.optionalText _, hcount, hhosts,
      hparameters]
    simp only [↓Option.bind_some, pure]
  · rfl
  · decide

theorem VolumeSpec.reads : VolumeSpec.decode.Reads VolumeSpec.encode := by
  intro v
  have hsize := Reads.uint32 v.sizeGb
  rw [VolumeSpec.decode, VolumeSpec.encode, Record.read?_table_bind]
  · simp -implicitDefEqProofs only [Record.required_ofEntries, Record.optional_ofEntries,
      List.lookup, String.reduceBEq, Option.elim_some, Option.bind_eq_bind, Decoder.text,
      Reads.optionalText _, hsize]
    simp only [↓Option.bind_some, pure]
  · rfl
  · decide

theorem Volume.reads : Volume.decode.Reads Volume.encode := by
  intro v
  have hsize := Reads.uint32 v.sizeGb
  rw [Volume.decode, Volume.encode, Record.read?_table_bind]
  · simp -implicitDefEqProofs only [Record.required_ofEntries, Record.optional_ofEntries,
      List.lookup, String.reduceBEq, Option.elim_some, Option.bind_eq_bind, Decoder.text,
      Decoder.bool, Reads.optionalText _, hsize]
    simp only [↓Option.bind_some, pure]
  · rfl
  · decide

theorem Machine.reads : Machine.decode.Reads Machine.encode := by
  intro m
  have hstorage := Volume.reads.list m.storage
  rw [Machine.decode, Machine.encode, Record.read?_table_bind]
  · simp -implicitDefEqProofs only [Record.required_ofEntries, Record.optional_ofEntries,
      Record.withDefault_ofEntries, List.lookup, String.reduceBEq, Option.elim_some,
      Option.bind_eq_bind, Decoder.text, Decoder.bool, Reads.optionalText _, hstorage]
    simp only [↓Option.bind_some, pure]
  · rfl
  · decide

theorem SslMaterial.reads : SslMaterial.decode.Reads SslMaterial.encode := by
  intro s
  rw [SslMaterial.decode, SslMaterial.encode, Record.read?_table_bind]
  · simp -implicitDefEqProofs only [Record.optional_ofEntries, List.lookup, String.reduceBEq,
      Option.elim_some, Option.bind_eq_bind, Reads.optionalText _]
    simp only [↓Option.bind_some, pure]
  · rfl
  · decide

theorem ConnectionTarget.reads : ConnectionTarget.decode.Reads ConnectionTarget.encode := by
  intro t
  have hhosts := Reads.texts t.hosts
  have hport := (Reads.uint16.optional fun _ h => nomatch h) t.port
  have hssl := (SslMaterial.reads.optional fun _ h => nomatch h) t.ssl
  rw [ConnectionTarget.decode, ConnectionTarget.encode, Record.read?_table_bind]
  · simp -implicitDefEqProofs only [Record.required_ofEntries, Record.optional_ofEntries,
      List.lookup, String.reduceBEq, Option.elim_some, Option.bind_eq_bind, Decoder.text,
      Reads.optionalText _, hhosts, hport, hssl]
    simp only [↓Option.bind_some, pure]
  · rfl
  · decide

theorem ClusterState.reads : ClusterState.decode.Reads ClusterState.encode := by
  intro state
  cases state <;> rfl

theorem Timestamp.reads : Timestamp.decode.Reads Timestamp.encode := fun t => by
  simp [Timestamp.decode, Timestamp.encode, Decoder.text, Timestamp.read?_toText]

/-! ## Topologies -/

namespace RoleForest

mutual

theorem decode_encode : ∀ {forest : RoleForest}, forest.Sorted → decode forest.encode = some forest
  | .of trees, h => by
    have hentries : (Dict.ofList trees).entries = trees :=
      congrArg Dict.entries (Dict.ofList_entries ⟨trees, h.1⟩)
    rw [encode, decode, decodeBelow_encodeBelow h.2, Option.map_some, ofList, hentries]

theorem decodeBelow_encodeBelow : ∀ {trees : List (String × RoleForest)}, SortedBelow trees →
    decodeBelow (encodeBelow trees) = some trees
  | [], _ => rfl
  | (role, forest) :: rest, h => by
    rw [encodeBelow, decodeBelow, decode_encode h.1, decodeBelow_encodeBelow h.2]

end

end RoleForest

theorem Template.reads : Template.decode.Reads Template.encode := by
  intro t
  have hforest := RoleForest.decode_encode t.sorted
  rw [Template.decode, Template.encode]
  split
  · rename_i forest heq
    rw [hforest, Option.some.injEq] at heq
    rw [Option.some.injEq]
    exact Template.ext heq.symm
  · rename_i heq
    rw [hforest] at heq
    cases heq

/-! ## Descriptors -/

namespace ClusterDescriptor

theorem decodeTopology_encode (t : Template) :
    decodeTopology t.encode = if t.depth ≤ maxTopologyDepth then some t else none := by
  rw [decodeTopology, Template.reads t, Option.bind_eq_bind, Option.bind_some]

/-- A descriptor is read back unless its topology is nested too deeply. -/
theorem decode_encode (d : ClusterDescriptor) :
    decode d.encode = if d.topology.depth ≤ maxTopologyDepth then some d else none := by
  have hstate := ClusterState.reads d.state
  have htopology := decodeTopology_encode d.topology
  have hmap := Reads.text.dict d.topologyMap
  have henvironments := Environment.reads.list d.environments
  have hcomponents := ComponentParams.reads.dict.dict d.components
  have hmembers := Machine.reads.dict d.members
  have htarget := (ConnectionTarget.reads.optional fun _ h => nomatch h) d.connectionTarget
  have hspecs := VolumeSpec.reads.list d.volumeSpecs
  have hvolumes := Volume.reads.list d.sharedStorage
  have hcreated := Timestamp.reads d.createdAt
  have hfields : decode d.encode =
      (decodeTopology d.topology.encode).bind fun t => some { d with topology := t } := by
    rw [decode, encode, Record.read?_table_bind]
    · simp -implicitDefEqProofs only [Record.required_ofEntries, Record.optional_ofEntries,
        Record.withDefault_ofEntries, List.lookup, String.reduceBEq, Option.elim_some,
        Option.bind_eq_bind, Decoder.text, hstate, hmap, henvironments, hcomponents, hmembers,
        htarget, hspecs, hvolumes, hcreated]
      simp only [↓Option.bind_some, pure]
    · rfl
    · decide
  rw [hfields, htopology]
  split <;> rfl

theorem depth_le_of_decode {x : Data} {d : ClusterDescriptor} (h : decode x = some d) :
    d.topology.depth ≤ maxTopologyDepth := by
  have hrequired : ∃ r : Record, r.required "topology" decodeTopology = some d.topology := by
    rw [decode] at h
    obtain ⟨r, -, h⟩ := Option.bind_eq_some_iff.1 h
    iterate 4 obtain ⟨_, -, h⟩ := Option.bind_eq_some_iff.1 h
    obtain ⟨topology, htopology, h⟩ := Option.bind_eq_some_iff.1 h
    iterate 8 obtain ⟨_, -, h⟩ := Option.bind_eq_some_iff.1 h
    cases h
    exact ⟨r, htopology⟩
  obtain ⟨r, hr⟩ := hrequired
  rw [Record.required] at hr
  split at hr
  · simp only [decodeTopology, Option.bind_eq_bind, Option.bind_eq_some_iff] at hr
    obtain ⟨t, -, ht⟩ := hr
    split at ht
    · cases ht
      assumption
    · cases ht
  · cases hr

end ClusterDescriptor

/-! ## Texts -/

namespace Data

variable {α : Type} {encode : α → Data}

theorem isPlain_ofOptional (h : ∀ a, (encode a).IsPlain) (o : Option α) :
    (ofOptional encode o).IsPlain := by
  cases o with
  | none => trivial
  | some a => exact h a

@[simp] theorem isPlain_ofText? (s : Option String) : (ofText? s).IsPlain :=
  isPlain_ofOptional isPlain_text s

@[simp] theorem isPlain_ofTexts (l : List String) : (ofTexts l).IsPlain := by
  simp [ofTexts]

theorem isPlain_ofDict (h : ∀ a, (encode a).IsPlain) (d : Dict α) : (ofDict encode d).IsPlain := by
  rw [ofDict, isPlain_table]
  simp only [List.mem_map, forall_exists_index, and_imp]
  rintro _ e _ rfl
  exact h e.2

end Data

open Data (isPlain_ofDict isPlain_ofOptional)

mutual

theorem RoleForest.isPlain_encode : ∀ forest : RoleForest, forest.encode.IsPlain
  | .of trees => by
    rw [RoleForest.encode, Data.IsPlain]
    exact RoleForest.entriesPlain_encodeBelow trees

theorem RoleForest.entriesPlain_encodeBelow : ∀ trees : List (String × RoleForest),
    Data.EntriesPlain (RoleForest.encodeBelow trees)
  | [] => trivial
  | (_, forest) :: rest =>
    ⟨RoleForest.isPlain_encode forest, RoleForest.entriesPlain_encodeBelow rest⟩

end

theorem Environment.isPlain_encode (e : Environment) : e.encode.IsPlain := by
  simp [Environment.encode]

theorem ComponentParams.isPlain_encode (p : ComponentParams) : p.encode.IsPlain := by
  have hparameters := isPlain_ofDict Data.isPlain_text p.parameters
  simp [ComponentParams.encode, hparameters]

theorem VolumeSpec.isPlain_encode (v : VolumeSpec) : v.encode.IsPlain := by
  simp [VolumeSpec.encode]

theorem Volume.isPlain_encode (v : Volume) : v.encode.IsPlain := by
  simp [Volume.encode]

theorem Machine.isPlain_encode (m : Machine) : m.encode.IsPlain := by
  simp [Machine.encode, Volume.isPlain_encode]

theorem SslMaterial.isPlain_encode (s : SslMaterial) : s.encode.IsPlain := by
  simp [SslMaterial.encode]

theorem ConnectionTarget.isPlain_encode (t : ConnectionTarget) : t.encode.IsPlain := by
  have hport := isPlain_ofOptional Data.isPlain_uint16 t.port
  have hssl := isPlain_ofOptional SslMaterial.isPlain_encode t.ssl
  simp [ConnectionTarget.encode, hport, hssl]

namespace ClusterDescriptor

theorem isPlain_encode (d : ClusterDescriptor) : d.encode.IsPlain := by
  have hmap := isPlain_ofDict Data.isPlain_text d.topologyMap
  have hcomponents := isPlain_ofDict (isPlain_ofDict ComponentParams.isPlain_encode) d.components
  have hmembers := isPlain_ofDict Machine.isPlain_encode d.members
  have htarget := isPlain_ofOptional ConnectionTarget.isPlain_encode d.connectionTarget
  simp [encode, ClusterState.encode, Template.encode, Timestamp.encode, RoleForest.isPlain_encode,
    Environment.isPlain_encode, VolumeSpec.isPlain_encode, Volume.isPlain_encode, hmap,
    hcomponents, hmembers, htarget]

/-- The text of a descriptor, with any blanks behind it, is read as this descriptor, or refused if
the topology is nested too deeply. -/
theorem ofText?_toText (d : ClusterDescriptor) (blanks : String)
    (hblanks : ∀ c ∈ blanks.toList, Json.isBlank c = true) :
    ofText? (d.toText ++ blanks) =
      if d.topology.depth ≤ maxTopologyDepth then some d else none := by
  rw [ofText?, toText, Json.read?_pretty d.isPlain_encode blanks hblanks, Option.bind_some,
    decode_encode]

theorem depth_le_of_ofText? {text : String} {d : ClusterDescriptor} (h : ofText? text = some d) :
    d.topology.depth ≤ maxTopologyDepth := by
  obtain ⟨x, -, hx⟩ := Option.bind_eq_some_iff.1 h
  exact depth_le_of_decode hx

end ClusterDescriptor

end BenchCluster
