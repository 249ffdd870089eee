import BenchCluster.Orchestrator.Allocate
import BenchCluster.Proofs.Cluster.Descriptor
import BenchCluster.Proofs.Fallible

/-! # What becomes of the missing instances

Every missing instance has one provision, under its own name, and a launch is requested in the
environment of its role.
-/

namespace BenchCluster

def Provision.name : Provision → String
  | .external m => m.name
  | .lacking name => name
  | .launch r => r.name

/-- The provisions are external machines, instances without hosts, and launches. -/
theorem Provision.map_name_perm (provisions : List Provision) : (provisions.map name).Perm
    ((provisions.filterMap machine?).map Machine.name ++ provisions.filterMap lacking? ++
      (provisions.filterMap request?).map LaunchRequest.name) := by
  induction provisions with
  | nil => exact .refl _
  | cons p rest ih =>
    cases p with
    | external m => exact ih.cons m.name
    | lacking n =>
      refine (ih.cons n).trans ?_
      change (n :: (_ ++ _ ++ _)).Perm (_ ++ n :: _ ++ _)
      rw [List.append_assoc, List.append_assoc]
      exact List.perm_middle.symm
    | launch r =>
      refine (ih.cons r.name).trans ?_
      exact List.perm_middle.symm

namespace External

theorem machine?_eq_some {r : LaunchRequest} {m : Machine} (h : machine? r = some m) :
    m.name = r.name ∧ m.environment = r.environment.name ∧ m.managed = false := by
  rw [machine?] at h
  split at h
  · cases h
  · cases h
    exact ⟨rfl, rfl, rfl⟩

theorem provisioned_of_machine? {r : LaunchRequest} {m : Machine} (h : machine? r = some m) :
    m.provisioned = false := by
  rw [machine?] at h
  split at h
  · cases h
  · cases h
    rfl

theorem exists_machine?_iff {r : LaunchRequest} :
    (∃ m, machine? r = some m) ↔ r.params.hosts ≠ [] := by
  constructor
  · rintro ⟨m, hm⟩ hnone
    rw [machine?, hnone] at hm
    cases hm
  · intro h
    have hindex : r.index % r.params.hosts.length < r.params.hosts.length :=
      Nat.mod_lt _ (List.length_pos_iff.2 h)
    rw [machine?, List.getElem?_eq_getElem hindex]
    exact ⟨_, rfl⟩

end External

namespace ClusterDescriptor

variable {d : ClusterDescriptor} {cluster name role : String}

/-- A request has the index of its instance among those of the role. -/
theorem getElem?_index (h : (name, role) ∈ d.instances) (env : Environment)
    (params : ComponentParams) :
    (d.instancesOf role)[(d.launchRequest cluster name role env params).index]? = some name := by
  rw [mem_instances_iff] at h
  have hsome : ((d.instancesOf role).findIdx? fun n => n = name).isSome = true :=
    List.findIdx?_isSome.trans (List.any_eq_true.2 ⟨name, h, by simp⟩)
  obtain ⟨i, hi⟩ := Option.isSome_iff_exists.1 hsome
  obtain ⟨hlt, hname, -⟩ := List.findIdx?_eq_some_iff_getElem.1 hi
  rw [launchRequest, hi, Option.getD_some, List.getElem?_eq_getElem hlt, Option.some.injEq]
  exact of_decide_eq_true hname

theorem provision_eq_ok {p : Provision} (h : d.provision cluster name role = .ok p) :
    ∃ env params, d.component? role = some (env, params) ∧
      ((params.managed = true ∧ p = .launch (d.launchRequest cluster name role env params)) ∨
        (params.managed = false ∧
          ((∃ m, External.machine? (d.launchRequest cluster name role env params) = some m ∧
              p = .external m) ∨
            (External.machine? (d.launchRequest cluster name role env params) = none ∧
              p = .lacking name)))) := by
  rw [provision] at h
  cases hcomponent : d.component? role with
  | none =>
    rw [hcomponent] at h
    cases h
  | some c =>
    obtain ⟨env, params⟩ := c
    simp only [hcomponent] at h
    refine ⟨env, params, rfl, ?_⟩
    by_cases hmanaged : params.managed
    · rw [if_pos hmanaged] at h
      cases h
      exact .inl ⟨hmanaged, rfl⟩
    · rw [if_neg hmanaged] at h
      rw [Bool.not_eq_true] at hmanaged
      right
      refine ⟨hmanaged, ?_⟩
      cases hm : External.machine? (d.launchRequest cluster name role env params) with
      | none =>
        rw [hm] at h
        cases h
        exact .inr ⟨rfl, rfl⟩
      | some m =>
        rw [hm] at h
        cases h
        exact .inl ⟨m, rfl, rfl⟩

theorem exists_provision {env : Environment} {params : ComponentParams}
    (h : d.component? role = some (env, params)) : ∃ p, d.provision cluster name role = .ok p := by
  rw [provision, h]
  by_cases hmanaged : params.managed
  · exact ⟨_, if_pos hmanaged⟩
  · simp only [if_neg hmanaged]
    cases External.machine? (d.launchRequest cluster name role env params) with
    | none => exact ⟨_, rfl⟩
    | some m => exact ⟨_, rfl⟩

theorem name_of_provision {p : Provision} (h : d.provision cluster name role = .ok p) :
    p.name = name := by
  obtain ⟨env, params, -, ⟨-, rfl⟩ | ⟨-, ⟨m, hm, rfl⟩ | ⟨-, rfl⟩⟩⟩ := provision_eq_ok h
  · rfl
  · exact (External.machine?_eq_some hm).1
  · rfl

/-- A requested launch is for a managed missing instance. -/
theorem provision_eq_launch {r : LaunchRequest}
    (h : d.provision cluster name role = .ok (.launch r)) :
    ∃ env params, d.component? role = some (env, params) ∧ params.managed = true ∧
      r = d.launchRequest cluster name role env params := by
  obtain ⟨env, params, hcomponent, ⟨hmanaged, heq⟩ | ⟨-, ⟨m, -, heq⟩ | ⟨-, heq⟩⟩⟩ :=
    provision_eq_ok h
  · cases heq
    exact ⟨env, params, hcomponent, hmanaged, rfl⟩
  · cases heq
  · cases heq

theorem provision_eq_external {m : Machine}
    (h : d.provision cluster name role = .ok (.external m)) :
    ∃ env params, d.component? role = some (env, params) ∧ params.managed = false ∧
      External.machine? (d.launchRequest cluster name role env params) = some m := by
  obtain ⟨env, params, hcomponent, ⟨-, heq⟩ | ⟨hmanaged, ⟨n, hn, heq⟩ | ⟨-, heq⟩⟩⟩ :=
    provision_eq_ok h
  · cases heq
  · cases heq
    exact ⟨env, params, hcomponent, hmanaged, hn⟩
  · cases heq

variable {provisions : List Provision}

theorem map_name_provisions (h : d.provisions cluster = .ok provisions) :
    provisions.map Provision.name = d.missingInstances.map Prod.fst := by
  have hall := Fallible.mapM_eq_ok.1 h
  clear h
  generalize d.missingInstances = missing at hall
  induction hall with
  | nil => rfl
  | cons hp _ ih => rw [List.map_cons, List.map_cons, name_of_provision hp, ih]

theorem nodup_missingInstances (h : (d.instances.map Prod.fst).Nodup) :
    (d.missingInstances.map Prod.fst).Nodup :=
  h.sublist (List.filter_sublist.map Prod.fst)

theorem mem_provisions (h : d.provisions cluster = .ok provisions) {p : Provision}
    (hp : p ∈ provisions) : ∃ role, (p.name, role) ∈ d.missingInstances ∧
      d.provision cluster p.name role = .ok p := by
  obtain ⟨⟨name, role⟩, hmem, hprovision⟩ := Fallible.exists_of_mem_mapM h p hp
  have hname := name_of_provision hprovision
  subst hname
  exact ⟨role, hmem, hprovision⟩

theorem exists_mem_provisions (h : d.provisions cluster = .ok provisions)
    (hmem : (name, role) ∈ d.missingInstances) :
    ∃ p ∈ provisions, d.provision cluster name role = .ok p :=
  Fallible.exists_of_mapM_eq_ok h (name, role) hmem

theorem exists_provisions
    (h : ∀ name role, (name, role) ∈ d.missingInstances →
      ∃ env params, d.component? role = some (env, params)) :
    ∃ provisions, d.provisions cluster = .ok provisions := by
  apply Fallible.exists_mapM_eq_ok
  rintro ⟨name, role⟩ hmem
  obtain ⟨env, params, hcomponent⟩ := h name role hmem
  exact exists_provision hcomponent

theorem mem_requests {r : LaunchRequest} :
    r ∈ provisions.filterMap Provision.request? ↔ .launch r ∈ provisions := by
  rw [List.mem_filterMap]
  constructor
  · rintro ⟨p, hp, hr⟩
    cases p with
    | external m => cases hr
    | lacking name => cases hr
    | launch r' =>
      cases hr
      exact hp
  · intro h
    exact ⟨_, h, rfl⟩

theorem environment_of_request (h : d.provisions cluster = .ok provisions) {r : LaunchRequest}
    (hr : r ∈ provisions.filterMap Provision.request?) : r.environment ∈ d.environments := by
  obtain ⟨role, -, hprovision⟩ := mem_provisions h (mem_requests.1 hr)
  obtain ⟨env, params, hcomponent, -, hr⟩ := provision_eq_launch hprovision
  rw [hr]
  exact component?_eq_some hcomponent

/-- Volumes are requested for every spec in the environments that need them, where there is none. -/
theorem mem_missingVolumes {launches : List LaunchRequest} {r : StorageRequest} :
    r ∈ d.missingVolumes cluster launches ↔ r.cluster = cluster ∧
      (r.environment ∈ d.environments ∧ d.needsVolumes launches r.environment = true) ∧
        r.spec ∈ d.volumeSpecs ∧ d.hasVolume r.environment r.spec = false := by
  simp only [missingVolumes, List.mem_flatMap, List.mem_map, List.mem_filter, Bool.not_eq_true']
  constructor
  · rintro ⟨env, henv, spec, hspec, rfl⟩
    exact ⟨rfl, henv, hspec⟩
  · rintro ⟨rfl, henv, hspec⟩
    exact ⟨_, henv, _, hspec, rfl⟩

theorem environment_of_missingVolume {launches : List LaunchRequest} {r : StorageRequest}
    (hr : r ∈ d.missingVolumes cluster launches) : r.environment ∈ d.environments :=
  (mem_missingVolumes.1 hr).2.1.1

end ClusterDescriptor

end BenchCluster
