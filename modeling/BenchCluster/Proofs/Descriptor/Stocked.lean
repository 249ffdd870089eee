import BenchCluster.Proofs.Descriptor.Allocated
import BenchCluster.Proofs.Descriptor.Cleaned
import BenchCluster.Proofs.Descriptor.Started
import BenchCluster.Proofs.Journal.Answers

/-! # Environments are stocked with volumes

A volume is recognised by its environment and its name. No descriptor has two of them in one place,
and where a complete cluster has provisioned members, no volume of the plan is missing.
-/

namespace BenchCluster

/-- Where a volume is: its environment and its name. -/
def Volume.place (v : Volume) : String × String := (v.environment, v.name)

def StorageRequest.place (r : StorageRequest) : String × String :=
  (r.environment.name, r.spec.name)

structure Plan.Distinct (p : Plan) : Prop where
  environments : (p.environments.map Environment.name).Nodup
  specs : (p.sharedStorage.map VolumeSpec.name).Nodup

instance : DecidablePred Plan.Distinct := fun p =>
  decidable_of_iff ((p.environments.map Environment.name).Nodup ∧
      (p.sharedStorage.map VolumeSpec.name).Nodup)
    ⟨fun h => ⟨h.1, h.2⟩, fun h => ⟨h.environments, h.specs⟩⟩

/-- Whether a machine that has been started is provisioned only if it was before. -/
def OutsideCall.keepsProvision : OutsideCall → Bool
  | .startMachine _ m (.ok started) => m.provisioned || !started.provisioned
  | _ => true

namespace ClusterDescriptor

/-- No two volumes are in one place, and a complete cluster has all volumes of its plan in the
environments of its provisioned members. -/
structure Stocked (d : ClusterDescriptor) : Prop where
  environments : (d.environments.map Environment.name).Nodup
  specs : (d.volumeSpecs.map VolumeSpec.name).Nodup
  places : (d.sharedStorage.map Volume.place).Nodup
  supplied : d.mayHaveRoles = true → ∀ env ∈ d.environments,
    (d.membersIn env.name).any Machine.provisioned = true → ∀ spec ∈ d.volumeSpecs,
      (env.name, spec.name) ∈ d.sharedStorage.map Volume.place

theorem any_membersIn_iff {d : ClusterDescriptor} {env : String} :
    (d.membersIn env).any Machine.provisioned = true ↔ ∃ key m, d.members.find? key = some m ∧
      m.environment = env ∧ m.provisioned = true := by
  simp only [membersIn, List.any_eq_true, List.mem_filter, Dict.mem_values_iff, decide_eq_true_iff]
  constructor
  · rintro ⟨m, ⟨⟨key, hkey⟩, henv⟩, hm⟩
    exact ⟨key, m, hkey, henv, hm⟩
  · rintro ⟨key, m, hkey, henv, hm⟩
    exact ⟨m, ⟨⟨key, hkey⟩, henv⟩, hm⟩

theorem hasVolume_iff {d : ClusterDescriptor} {env : Environment} {spec : VolumeSpec} :
    d.hasVolume env spec = true ↔ (env.name, spec.name) ∈ d.sharedStorage.map Volume.place := by
  simp [hasVolume, Volume.place]

theorem place_of_missingVolume {d : ClusterDescriptor} {cluster : String}
    {launches : List LaunchRequest} {r : StorageRequest}
    (hr : r ∈ d.missingVolumes cluster launches) : r.place ∉ d.sharedStorage.map Volume.place := by
  intro hplace
  have hnone := (mem_missingVolumes.1 hr).2.2.2
  rw [hasVolume_iff.2 hplace] at hnone
  cases hnone

theorem nodup_missingVolumes {d : ClusterDescriptor}
    (henvironments : (d.environments.map Environment.name).Nodup)
    (hspecs : (d.volumeSpecs.map VolumeSpec.name).Nodup) (cluster : String)
    (launches : List LaunchRequest) :
    ((d.missingVolumes cluster launches).map StorageRequest.place).Nodup := by
  rw [missingVolumes, List.map_flatMap, List.nodup_flatMap]
  constructor
  · intro env _
    have hkept := hspecs.sublist (List.filter_sublist (p := fun spec => !d.hasVolume env spec)
      |>.map VolumeSpec.name)
    have hplaces := hkept.map (Prod.mk_right_injective env.name)
    rwa [List.map_map] at hplaces ⊢
  · have hnames := List.pairwise_map.1 (henvironments.sublist
      (List.filter_sublist (p := d.needsVolumes launches) |>.map Environment.name))
    refine hnames.imp fun {env env'} hne => ?_
    intro place hplace hplace'
    simp only [List.mem_map] at hplace hplace'
    obtain ⟨-, ⟨spec, -, rfl⟩, rfl⟩ := hplace
    obtain ⟨-, ⟨spec', -, rfl⟩, heq⟩ := hplace'
    exact hne (congrArg Prod.fst heq).symm

end ClusterDescriptor

/-! ## After an allocation -/

namespace Allocating

variable {cluster : String} {d : ClusterDescriptor} {a : Allocating cluster d}

theorem place_of_value? (hfaithful : ∀ e ∈ a.entries, e.call.Faithful)
    {x : Attempt StorageRequest Volume} (hx : x ∈ a.volumes) {v : Volume}
    (hv : x.value? = some v) : v.place = x.request.place := by
  have hentry := hfaithful _ (List.mem_append_right _
    (Errand.entry_mem hx (Attempt.value?_eq_some.1 hv)))
  exact Prod.ext hentry.2 hentry.1

theorem map_place_newVolumes_sublist (hfaithful : ∀ e ∈ a.entries, e.call.Faithful) :
    (a.newVolumes.map Volume.place).Sublist
      ((d.missingVolumes cluster a.requests).map StorageRequest.place) := by
  have hplaces : a.newVolumes.map Volume.place =
      a.volumes.filterMap fun x => x.value?.map fun _ => x.request.place := by
    rw [newVolumes, List.map_filterMap]
    refine List.filterMap_congr fun x hx => ?_
    cases hv : x.value? with
    | none => rfl
    | some v => simp [place_of_value? hfaithful hx hv]
  rw [hplaces, requests, ← a.volumes_served.requests_eq, List.map_map]
  refine Errand.filterMap_sublist_map fun x place hplace => ?_
  obtain ⟨v, -, rfl⟩ := Option.map_eq_some_iff.1 hplace
  rfl

theorem value?_of_failed_isEmpty (h : a.allocation.failed.isEmpty = true)
    {x : Attempt StorageRequest Volume} (hx : x ∈ a.volumes) : ∃ v, x.value? = some v := by
  have hperm := a.failed_perm
  rw [List.isEmpty_iff.1 h, List.nil_perm, List.append_eq_nil_iff, uncreatedLabels,
    List.map_eq_nil_iff, List.filter_eq_nil_iff] at hperm
  exact Option.ne_none_iff_exists'.1 (by simpa using hperm.2 x hx)

/-- Where there are provisioned members after an allocation, it has seen to the volumes. -/
theorem needsVolumes_of_provisioned (hfaithful : ∀ e ∈ a.entries, e.call.Faithful)
    {env : Environment}
    (h : (a.descriptor.membersIn env.name).any Machine.provisioned = true) :
    d.needsVolumes a.requests env = true := by
  obtain ⟨key, m, hm, henv, hprovisioned⟩ := ClusterDescriptor.any_membersIn_iff.1 h
  rw [ClusterDescriptor.needsVolumes, Bool.or_eq_true, ClusterDescriptor.any_membersIn_iff]
  rcases a.find?_members hm with hold | ⟨hnew, rfl⟩
  · exact .inr ⟨key, m, hold, henv, hprovisioned⟩
  · left
    rcases a.mem_machines.1 hnew with hexternal | ⟨x, hx, hmachine⟩
    · obtain ⟨role, -, hprovision⟩ := ClusterDescriptor.mem_provisions a.provisions_eq hexternal
      obtain ⟨_, params, -, -, hmachine⟩ := ClusterDescriptor.provision_eq_external hprovision
      rw [External.provisioned_of_machine? hmachine] at hprovisioned
      cases hprovisioned
    · obtain ⟨answered, hvalue, rfl⟩ := Attempt.machine?_eq_some.1 hmachine
      have hentry := hfaithful _ (List.mem_append_left _
        (Errand.entry_mem hx (Attempt.value?_eq_some.1 hvalue)))
      refine List.any_eq_true.2 ⟨x.request, a.launches_served.request_mem hx, ?_⟩
      rw [decide_eq_true_iff, ← hentry.2]
      exact henv

end Allocating

namespace ClusterDescriptor.Stocked

variable {d : ClusterDescriptor} {cluster : String}

theorem configured {p : Plan} (h : p.Distinct) (names : Dict String) (now : Timestamp) :
    (p.descriptor cluster names now).Stocked where
  environments := h.environments
  specs := h.specs
  places := List.nodup_nil
  supplied := by rintro ⟨⟩

theorem allocated (h : d.Stocked) (a : Allocating cluster d)
    (hfaithful : ∀ e ∈ a.entries, e.call.Faithful) : a.descriptor.Stocked where
  environments := h.environments
  specs := h.specs
  places := by
    have hrequested := nodup_missingVolumes h.environments h.specs cluster a.requests
    have hsub := Allocating.map_place_newVolumes_sublist hfaithful
    rw [(a.sharedStorage_perm.map Volume.place).nodup_iff, List.map_append, List.nodup_append]
    refine ⟨h.places, hrequested.sublist hsub, fun old hold new hnew => ?_⟩
    rintro rfl
    obtain ⟨r, hr, rfl⟩ := List.mem_map.1 (hsub.subset hnew)
    exact place_of_missingVolume hr hold
  supplied := by
    intro hcomplete env henv hmembers spec hspec
    have hneeds := Allocating.needsVolumes_of_provisioned hfaithful hmembers
    rw [(a.sharedStorage_perm.map Volume.place).mem_iff, List.map_append, List.mem_append]
    by_cases hfailed : a.allocation.failed.isEmpty
    · cases hvolume : d.hasVolume env spec with
      | true => exact .inl (hasVolume_iff.1 hvolume)
      | false =>
        right
        have hr : (⟨cluster, env, spec⟩ : StorageRequest) ∈
            d.missingVolumes cluster a.requests :=
          mem_missingVolumes.2 ⟨rfl, ⟨henv, hneeds⟩, hspec, hvolume⟩
        rw [Allocating.requests, ← a.volumes_served.requests_eq] at hr
        obtain ⟨x, hx, hrequest⟩ := List.mem_map.1 hr
        obtain ⟨v, hv⟩ := Allocating.value?_of_failed_isEmpty hfailed hx
        have hplace := Allocating.place_of_value? hfaithful hx hv
        rw [hrequest] at hplace
        exact List.mem_map.2 ⟨v, List.mem_filterMap.2 ⟨x, hx, hv⟩, hplace⟩
    · rw [mayHaveRoles, a.state_descriptor, if_neg hfailed] at hcomplete
      cases hcomplete

theorem moved (h : d.Stocked) (hcomplete : d.mayHaveRoles = true)
    (target : Option ConnectionTarget) (state : ClusterState) :
    { d with connectionTarget := target, state := state }.Stocked where
  environments := h.environments
  specs := h.specs
  places := h.places
  supplied := fun _ => h.supplied hcomplete

theorem started (h : d.Stocked) (x : Starting d) (hfaithful : ∀ e ∈ x.entries, e.call.Faithful)
    (hkeeps : ∀ e ∈ x.entries, e.call.keepsProvision = true) : x.descriptor.Stocked where
  environments := h.environments
  specs := h.specs
  places := h.places
  supplied := by
    intro hcomplete env henv hmembers
    apply h.supplied hcomplete env henv
    obtain ⟨key, m, hm, hplace, hprovisioned⟩ := any_membersIn_iff.1 hmembers
    rw [any_membersIn_iff]
    rcases x.find?_members hm with hold | ⟨y, hy, -, hvalue⟩
    · exact ⟨key, m, hold, hplace, hprovisioned⟩
    · have hentry := Errand.entry_mem (e := Errand.starting) hy (Attempt.value?_eq_some.1 hvalue)
      obtain ⟨hmember, -⟩ := List.mem_filter.1 (x.served.request_mem hy)
      obtain ⟨key', hkey'⟩ := Dict.mem_values_iff.1 hmember
      refine ⟨key', y.request, hkey', ?_, ?_⟩
      · rw [← hplace]
        exact (hfaithful _ hentry).2.symm
      · have hkept := hkeeps _ hentry
        simpa [OutsideCall.keepsProvision, Errand.starting, hprovisioned] using hkept

theorem cleaned (h : d.Stocked) (c : Cleaning d) : { c.left with state := .failed }.Stocked where
  environments := h.environments
  specs := h.specs
  places := h.places.sublist (List.filter_sublist.map Volume.place)
  supplied := by rintro ⟨⟩

end ClusterDescriptor.Stocked

end BenchCluster
