import BenchCluster.Proofs.Descriptor.Restored
import BenchCluster.Proofs.Journal.Frail

/-! # Reading instances back

A descriptor keeps the instances of a role as one text with commas between them. What is read back
are these instances exactly if the role itself holds no comma. Otherwise every instance falls apart
at the commas of the role, and more instances may be missing than there are to be.
-/

namespace BenchCluster

namespace ClusterDescriptor

variable {d : ClusterDescriptor} {role : String}

def replicas (d : ClusterDescriptor) (role : String) : Nat :=
  ((d.component? role).map fun c => c.2.count.toNat).getD 0

theorem Numbered.replicas_spec (h : d.Numbered) (hrole : role ∈ d.topology.roles) :
    0 < d.replicas role ∧
      d.topologyMap.find? role = some (joinedInstances role (d.replicas role)) := by
  obtain ⟨env, params, hcomponent, -⟩ := h.components role hrole
  rw [replicas, hcomponent]
  exact h.names role env params hrole hcomponent

/-- The instances of a role are read back as those that have been joined, cut at every comma. -/
theorem Numbered.instancesOf_eq_flatMap (h : d.Numbered) (hrole : role ∈ d.topology.roles) :
    d.instancesOf role = (List.range (d.replicas role)).flatMap (namesRead role) := by
  rw [instancesOf, (h.replicas_spec hrole).2]
  exact words_joinedInstances role _

theorem Numbered.instancesOf_eq_iff (h : d.Numbered) (hrole : role ∈ d.topology.roles) :
    d.instancesOf role = (List.range (d.replicas role)).map (instanceName role) ↔
      ',' ∉ role.toList := by
  rw [instancesOf, (h.replicas_spec hrole).2]
  exact words_joinedInstances_eq_iff (h.replicas_spec hrole).1

theorem instances_eq (d : ClusterDescriptor) : d.instances =
    d.topologyMap.keys.flatMap fun role => (d.instancesOf role).map fun name => (name, role) := by
  rw [instances, Dict.keys, List.flatMap_map]
  refine List.flatMap_congr fun entry hentry => ?_
  rw [instancesOf, Dict.find?_eq_some_iff.2 hentry]

theorem missingInstances_of_members_empty (h : d.members = ∅) :
    d.missingInstances = d.instances := by
  rw [missingInstances, List.filter_eq_self, h]
  exact fun _ _ => rfl

/-- As many instances are missing without members as are read back for all roles. -/
theorem Numbered.length_missingInstances (h : d.Numbered) (hmembers : d.members = ∅) :
    d.missingInstances.length =
      (d.topology.roles.map fun role => d.replicas role * (strayNames role + 1)).sum := by
  rw [missingInstances_of_members_empty hmembers, instances_eq, h.roles, List.length_flatMap]
  refine congrArg List.sum (List.map_congr_left fun role hrole => ?_)
  rw [List.length_map, instancesOf, (h.replicas_spec hrole).2]
  exact length_words_joinedInstances role _

end ClusterDescriptor

/-- Weights do not add anything to a sum of positive numbers only if none of them is positive. -/
theorem sum_weighted_eq_iff {α : Type} {l : List α} {f g : α → Nat} (h : ∀ a ∈ l, 0 < f a) :
    (l.map fun a => f a * (g a + 1)).sum = (l.map f).sum ↔ ∀ a ∈ l, g a = 0 := by
  have hsum : (l.map fun a => f a * (g a + 1)).sum =
      (l.map fun a => f a * g a).sum + (l.map f).sum := by
    simp only [Nat.mul_add_one, List.sum_map_add]
  rw [hsum, Nat.add_eq_right, List.sum_eq_zero_iff, List.forall_mem_map]
  refine forall₂_congr fun a ha => ?_
  rw [Nat.mul_eq_zero, or_iff_right (Nat.ne_of_gt (h a ha))]

/-- Once a cluster has been configured, the instances of a role, in the descriptor that is stored
and in the tree that is restored from it, are those that the documents ask for, cut at every comma.
They are the instances themselves exactly if the role holds no comma, and as many are missing as the
documents ask for exactly if no words stand in front of the last comma of any role. -/
theorem instances_read_back_iff {ω : Type} {s : Surroundings ω} {cluster implementation : String}
    {documents : Documents} {force : Bool} {d : ClusterDescriptor}
    {inv last : Invocation (Booked ω)}
    (h : (s.frail.configure cluster documents implementation force).outcome inv = (.ok d, last)) :
    last.books.find? cluster = some d ∧
    (∃ tree, TopologyTree.restore d.topology d.topologyMap = .ok tree ∧
      ∀ role ∈ d.topology.roles, ∀ names, (role, names) ∈ tree.groups ↔
        names = d.instancesOf role) ∧
    (∀ role ∈ d.topology.roles,
      (∃ env params, documents.Asks implementation role env params ∧
        params.count.toNat = d.replicas role) ∧
      d.instancesOf role = (List.range (d.replicas role)).flatMap (namesRead role) ∧
      (d.instancesOf role = (List.range (d.replicas role)).map (instanceName role) ↔
        ',' ∉ role.toList)) ∧
    d.missingInstances.length =
      (d.topology.roles.map fun role => d.replicas role * (strayNames role + 1)).sum ∧
    (d.missingInstances.length = (d.topology.roles.map d.replicas).sum ↔
      ∀ role ∈ d.topology.roles, strayNames role = 0) := by
  have hnumbered := Surroundings.configure_numbered h
  obtain ⟨plan, names, now, before, hplan, -, -, hd, hsaved⟩ := Surroundings.configure_eq_ok h
  have hmembers : d.members = ∅ := by
    rw [hd]
    rfl
  have hmissing := hnumbered.length_missingInstances hmembers
  have htree := hnumbered.restore_eq
  refine ⟨?_, ⟨_, htree, fun role hrole names => ?_⟩, fun role hrole => ⟨?_,
    hnumbered.instancesOf_eq_flatMap hrole, hnumbered.instancesOf_eq_iff hrole⟩, hmissing, ?_⟩
  · have hstored := Surroundings.find?_of_save_frail hsaved
    rw [hd] at hstored ⊢
    exact hstored
  · rw [ClusterDescriptor.groups_restore hnumbered.expanded htree, List.mem_map]
    constructor
    · rintro ⟨_, -, ⟨⟩⟩
      rfl
    · rintro rfl
      exact ⟨role, d.topology.mem_rolesInOrder.2 hrole, rfl⟩
  · obtain ⟨env, params, hcomponent, -⟩ := hnumbered.components role hrole
    rw [ClusterDescriptor.replicas, hcomponent]
    rw [hd] at hcomponent
    obtain ⟨env, hasks⟩ := Plan.asks_of_component? hplan cluster now hcomponent
    exact ⟨env, params, hasks, rfl⟩
  · rw [hmissing]
    exact sum_weighted_eq_iff fun role hrole => (hnumbered.replicas_spec hrole).1

namespace Sample

def joint : Documents :=
  { topologies := Dict.ofList [("single",
      ⟨.of [("x,y", .of [])], by simp [RoleForest.Sorted, RoleForest.SortedBelow]⟩)]
    implementations := Dict.ofList [("standard",
      { topology := "single"
        roles := Dict.ofList [("x,y",
          { cloud := some "fake", region := some "r1", count := some 2 })] })]
    clouds := Dict.ofList [("fake", { client := "fake" })] }

end Sample

/-- The two instances of a role with a comma are read back as four names. -/
theorem joint_instances_read_back : ∃ d last,
    (Sample.surroundings.frail.configure "c" Sample.joint "standard" false).outcome
        { outside := { world := 0, books := .blank } } = (.ok d, last) ∧
      last.books.find? "c" = some d ∧
      d.instancesOf "x,y" = ["x", "y_0", "x", "y_1"] ∧
      d.instancesOf "x,y" ≠ (List.range (d.replicas "x,y")).map (instanceName "x,y") ∧
      d.replicas "x,y" = 2 ∧ d.missingInstances.length = 4 := by
  let run := (Sample.surroundings.frail.configure "c" Sample.joint "standard" false).outcome
    { outside := { world := 0, books := .blank } }
  have hplayed : (run.1.map fun d => (d.topology.roles, d.replicas "x,y")) = .ok (["x,y"], 2) := by
    cbv
  obtain ⟨d, hd, hfixed⟩ := Fallible.map_eq_ok.1 hplayed
  obtain ⟨hroles, hreplicas⟩ := Prod.mk.inj hfixed
  have hrun : run = (.ok d, run.2) := Prod.ext hd rfl
  obtain ⟨hstored, -, hread, hmissing, -⟩ := instances_read_back_iff hrun
  obtain ⟨-, hcut, hwhole⟩ := hread "x,y" (by simp [hroles])
  refine ⟨d, _, hrun, hstored, ?_, fun hsame => hwhole.1 hsame (by decide), hreplicas, ?_⟩
  · rw [hcut, hreplicas]
    cbv
  · rw [hmissing, hroles, List.map_singleton, hreplicas]
    cbv

end BenchCluster
