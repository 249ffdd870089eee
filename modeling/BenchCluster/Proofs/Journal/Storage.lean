import Mathlib
import BenchCluster.Proofs.Descriptor.Stocked
import BenchCluster.Proofs.Journal.Recorded

/-! # Shared storage exists once per environment

A volume is asked for only where the stored descriptor has none, and every descriptor that is stored
is stocked, however many allocations and cleanups have failed before.
-/

namespace BenchCluster

def Request.plan? : Request → Option Plan
  | .configure documents implementation _ => (documents.plan implementation).toOption
  | .all documents implementation _ => (documents.plan implementation).toOption
  | _ => none

theorem Request.plan?_of_mem_stages {request stage : Request} (h : stage ∈ request.stages)
    {p : Plan} (hp : p ∈ stage.plan?) : p ∈ request.plan? := by
  cases request with
  | all documents implementation force =>
    simp only [stages, List.mem_cons, List.not_mem_nil, or_false] at h
    rcases h with rfl | rfl | rfl | rfl
    · exact hp
    · cases hp
    · cases hp
    · cases hp
  | _ => exact List.mem_singleton.1 h ▸ hp

/-- A volume that is asked for is not in the descriptor that is stored for its cluster, and a
descriptor that is being stored is stocked. -/
def OutsideCall.Sparing (stored : Dict ClusterDescriptor) : OutsideCall → Prop
  | .createVolume _ r _ =>
    ∀ d, stored.find? r.cluster = some d → r.place ∉ d.sharedStorage.map Volume.place
  | .saved d => d.Stocked
  | _ => True

theorem OutsideCall.sparing_of_isLasting {c : OutsideCall} (h : c.isLasting = false)
    (stored : Dict ClusterDescriptor) : c.Sparing stored := by
  cases c <;> simp_all [isLasting, Sparing]

namespace Books

/-- Every call was sparing with what was stored when it was made. -/
def Sparing (b : Books) : Prop :=
  ∀ before e, before ++ [e] <+: b.journal → e.call.Sparing (recorded before)

namespace Sparing

variable {b : Books}

theorem concat {b' : Books} (hb : b.Sparing) {e : JournalEntry}
    (hjournal : b'.journal = b.journal ++ [e]) (he : e.call.Sparing (recorded b.journal)) :
    b'.Sparing := by
  intro before x hpart
  rw [hjournal, List.prefix_concat_iff] at hpart
  rcases hpart with heq | hpart
  · obtain ⟨rfl, hx⟩ := List.append_inj' heq rfl
    rw [List.singleton_inj] at hx
    rwa [hx]
  · exact hb before x hpart

theorem enter {entries : List JournalEntry} (hb : b.Sparing)
    (hwrite : ∀ e ∈ entries, e.call.isWrite = false)
    (hsparing : ∀ e ∈ entries, e.call.Sparing (recorded b.journal)) :
    (b.enter entries).Sparing := by
  induction entries using List.reverseRecOn with
  | nil => rwa [enter_nil]
  | append_singleton entries e ih =>
    rw [List.forall_mem_append] at hwrite hsparing
    rw [← enter_enter]
    refine (ih hwrite.1 hsparing.1).concat rfl ?_
    rw [journal_enter, recorded_append hwrite.1]
    exact hsparing.2 e List.mem_cons_self

theorem enter_quiet {entries : List JournalEntry} (hb : b.Sparing)
    (h : ∀ e ∈ entries, e.call.isLasting = false) : (b.enter entries).Sparing :=
  hb.enter (fun e he => OutsideCall.isWrite_of_isLasting (h e he))
    fun e he => OutsideCall.sparing_of_isLasting (h e he) _

theorem enter_inert {entries : List JournalEntry} (hb : b.Sparing)
    (h : ∀ e ∈ entries, e.call.isInert = true) : (b.enter entries).Sparing :=
  hb.enter_quiet fun e he => OutsideCall.isLasting_of_isInert (h e he)

theorem put (hb : b.Sparing) (late : Bool) {d : ClusterDescriptor} (hd : d.Stocked) :
    (b.put late d).Sparing :=
  hb.concat (journal_put b late d) hd

theorem drop (hb : b.Sparing) (late : Bool) (cluster : String) : (b.drop late cluster).Sparing :=
  hb.concat (journal_drop b late cluster) trivial

theorem stocked (hb : b.Sparing) {before : List JournalEntry} (hbefore : before <+: b.journal)
    {cluster : String} {d : ClusterDescriptor} (hd : (recorded before).find? cluster = some d) :
    d.Stocked := by
  obtain ⟨earlier, e, hpart, he⟩ := exists_saved_of_recorded hd
  have hsparing := hb earlier e (hpart.trans hbefore)
  rwa [he] at hsparing

end Sparing

end Books

/-- An allocation asks only for volumes that its descriptor does not have. -/
theorem Allocating.sparing_of_mem_entries {cluster : String} {d : ClusterDescriptor}
    (a : Allocating cluster d) {stored : Dict ClusterDescriptor}
    (hstored : stored.find? cluster = some d) : ∀ e ∈ a.entries, e.call.Sparing stored := by
  intro e he
  rcases List.mem_append.1 he with he | he
  · obtain ⟨x, -, r, -, rfl⟩ := Errand.mem_flatMap_entries he
    trivial
  · obtain ⟨x, hx, r, -, rfl⟩ := Errand.mem_flatMap_entries he
    have hrequest := a.volumes_served.request_mem hx
    intro d' hd'
    rw [(ClusterDescriptor.mem_missingVolumes.1 hrequest).1, hstored, Option.some.injEq] at hd'
    rw [← hd']
    exact ClusterDescriptor.place_of_missingVolume hrequest

namespace Effect

variable {cluster : String} {request : Request} {b b' : Books}
  {answer : Except OrchestratorError (Option ClusterDescriptor)}

/-- An operation is sparing if its plan has distinct names and clouds answer faithfully and keep
what is provisioned. -/
theorem sparing (h : Effect cluster b request answer b') (hb : b.Sparing) (hrecorded : b.Recorded)
    (hplan : ∀ p ∈ request.plan?, p.Distinct) (hfaithful : ∀ e ∈ b'.journal, e.call.Faithful)
    (hkeeps : ∀ e ∈ b'.journal, e.call.keepsProvision = true) : b'.Sparing := by
  have hstocked : ∀ {operation : Operation} {d : ClusterDescriptor},
      b.Loaded cluster operation d → d.Stocked := by
    intro operation d hloaded
    apply hb.stocked (List.prefix_refl _)
    rw [← hrecorded]
    exact hloaded.stored
  -- Only an allocation asks for volumes; all other calls are sparing by themselves.
  have hasked : ∀ {d : ClusterDescriptor} {force : Bool} (a : Allocating cluster d),
      b.Loaded cluster (.allocate force) d → (b.enter a.entries).Sparing := by
    intro d force a hloaded
    apply hb.enter a.isWrite_of_mem_entries
    apply a.sparing_of_mem_entries
    rw [← hrecorded]
    exact hloaded.stored
  cases h with
  | refused refusal unaccepted => exact hb
  | failed mishap nothing => exact hb.enter_quiet nothing
  | configured valid inert accepted planned expanded =>
    refine (hb.enter_inert inert).put _ (.configured (hplan _ ?_) _ _)
    rw [Request.plan?, planned]
    rfl
  | lost loaded a mishap => exact hasked a loaded
  | allocated loaded a =>
    exact (hasked a loaded).put _ ((hstocked loaded).allocated a fun e he =>
      hfaithful e (by simp [he]))
  | made loaded inert => exact hb.enter_inert inert
  | installed loaded inert =>
    have hcomplete := ClusterState.allows_install_iff.1 loaded.allowed
    exact (hb.enter_inert inert).put _ ((hstocked loaded).moved
      (by simp [ClusterDescriptor.mayHaveRoles, hcomplete]) _ _)
  | @stopped d _ _ loaded inert =>
    have hcomplete := ClusterState.allows_stop_iff.1 loaded.allowed
    exact (hb.enter_inert inert).put _ ((hstocked loaded).moved
      (by simp [ClusterDescriptor.mayHaveRoles, hcomplete]) d.connectionTarget _)
  | woken loaded x failures =>
    exact (hb.enter_quiet (isLasting_of_starting x)).put _ ((hstocked loaded).started x
      (fun e he => hfaithful e (by simp [he])) fun e he => hkeeps e (by simp [he]))
  | started loaded x inert =>
    have hcomplete := ClusterState.allows_start_iff.1 loaded.allowed
    have hrisen := (hstocked loaded).started x (fun e he => hfaithful e (by simp [he]))
      fun e he => hkeeps e (by simp [he])
    refine (hb.enter_quiet (isLasting_of_waking x inert)).put _
      (hrisen.moved ?_ x.descriptor.connectionTarget _)
    simp [ClusterDescriptor.mayHaveRoles, Starting.descriptor, ClusterDescriptor.withStarted,
      hcomplete]
  | cleaned loaded roles c =>
    have hentries := hb.enter_quiet (isLasting_of_cleaning roles c)
    rw [Cleaning.settle]
    split
    · exact hentries.drop _ _
    · exact hentries.put _ ((hstocked loaded).cleaned c)

end Effect

/-! ## Every run -/

/-- Every call of a run is sparing. -/
theorem Books.sparing_afterVentures (turns : List Turn)
    (hplans : ∀ t ∈ turns, ∀ p ∈ t.request.plan?, p.Distinct)
    (hfaithful : ∀ e ∈ (afterVentures turns).journal, e.call.Faithful)
    (hkeeps : ∀ e ∈ (afterVentures turns).journal, e.call.keepsProvision = true) :
    (afterVentures turns).Sparing := by
  refine (afterVentures_induction (P := fun b => b.Named ∧ b.Recorded ∧
    ((∀ e ∈ b.journal, e.call.Faithful) → (∀ e ∈ b.journal, e.call.keepsProvision = true) →
      b.Sparing)) turns ?_ ?_).2.2 hfaithful hkeeps
  · refine ⟨named_blank, rfl, fun _ _ before e hpart => ?_⟩
    exact absurd (List.prefix_nil.1 hpart) (by simp)
  · rintro t ht request hrequest answer b b' ⟨hnamed, hrecorded, hb⟩ h
    refine ⟨h.named hnamed, h.recorded hrecorded, fun hfaithful hkeeps => ?_⟩
    have hgrows := (h.extendsBooks fun d hd => (hnamed _ d hd).1).journal_grows
    exact h.sparing (hb (fun e he => hfaithful e (hgrows.subset he))
        fun e he => hkeeps e (hgrows.subset he)) hrecorded
      (fun p hp => hplans t ht p (Request.plan?_of_mem_stages hrequest hp)) hfaithful hkeeps

/-- At every moment of a run, that is after a first part of its journal, no descriptor that is
stored then has two volumes of one name in one environment, and a complete cluster has every volume
once in each environment with provisioned members. If the next call is for a volume, the descriptor
does not have it. This takes plans with distinct names, faithful clouds, and starts that bring back
provisioned machines only where there were some. -/
theorem volumes_once_per_environment (turns : List Turn)
    (hplans : ∀ t ∈ turns, ∀ p ∈ t.request.plan?, p.Distinct)
    (hfaithful : ∀ e ∈ (Books.afterVentures turns).journal, e.call.Faithful)
    (hkeeps : ∀ e ∈ (Books.afterVentures turns).journal, e.call.keepsProvision = true)
    {before after : List JournalEntry}
    (hmoment : (Books.afterVentures turns).journal = before ++ after) {cluster : String}
    {d : ClusterDescriptor} (hd : (recorded before).find? cluster = some d) :
    (d.sharedStorage.map Volume.place).Nodup ∧
      (d.state = .allocated ∨ d.state = .ready ∨ d.state = .down → ∀ env ∈ d.environments,
        (d.membersIn env.name).any Machine.provisioned = true → ∀ spec ∈ d.volumeSpecs,
          (d.sharedStorage.map Volume.place).count (env.name, spec.name) = 1) ∧
      ∀ e ∈ after.head?, ∀ place r answer, e.call = .createVolume place r answer →
        r.cluster = cluster → r.place ∉ d.sharedStorage.map Volume.place := by
  have hsparing := Books.sparing_afterVentures turns hplans hfaithful hkeeps
  rw [Books.Sparing, hmoment] at hsparing
  have hstocked : d.Stocked :=
    Books.Sparing.stocked (b := ⟨∅, before ++ after⟩) hsparing (List.prefix_append _ _) hd
  refine ⟨hstocked.places, fun hstate env henv hmembers spec hspec => ?_,
    fun e he place r answer hcall hcluster => ?_⟩
  · have hcomplete : d.mayHaveRoles = true := by
      simpa [ClusterDescriptor.mayHaveRoles, or_assoc] using hstate
    exact List.count_eq_one_of_mem hstocked.places
      (hstocked.supplied hcomplete env henv hmembers spec hspec)
  · cases after with
    | nil => cases he
    | cons x rest =>
      rw [List.head?_cons, Option.mem_some_iff] at he
      subst he
      have hnext := hsparing before x
        ((List.prefix_append_right_inj _).2 ⟨rest, rfl⟩)
      rw [hcall] at hnext
      exact hnext d (hcluster ▸ hd)

namespace Sample

/-- Surroundings with a cloud that has no volumes, and whose machines are provisioned only once they
have been started. -/
def lazy : Surroundings Nat :=
  let drowsy : Cloud Nat :=
    { cloud with
      launchInstance := fun r =>
        return .ok (some { r.machine "i-1" with publicAddress := some "h1" })
      startInstance := fun m => return .ok { m with provisioned := true }
      launchStorage := fun _ => return .error (.unsupported "fake" "storage") }
  let idle : Role Nat :=
    { name := "db"
      configure := return .ok ()
      install := return .ok none
      clean := return .ok ()
      start := return .ok ()
      stop := return .ok () }
  { steady with
    clouds := Dict.ofList [("fake", fun _ _ _ => .ok drowsy)]
    roles := Dict.ofList [("db", fun _ => .ok idle)] }

def lazyTurns : List Turn :=
  [.configure documents "standard" false, .allocate false, .allocate true, .install, .stop,
    .start].map fun request => lazy.turn { outside := 0 } "c" request

def plansDistinct (turns : List Turn) : Bool :=
  turns.all fun t => t.request.plan?.all fun p => decide p.Distinct

theorem plansDistinct_iff {turns : List Turn} : plansDistinct turns = true ↔
    ∀ t ∈ turns, ∀ p ∈ t.request.plan?, p.Distinct := by
  simp only [plansDistinct, List.all_eq_true, Option.all_eq_true, decide_eq_true_iff]
  rfl

end Sample

/-- The volume that two allocations have asked for in vain comes behind the others, once. -/
theorem sample_volume_once : ∃ d,
    (recorded (Books.afterVentures ((Sample.setbacks Sample.steady).take 4)).journal).find? "c" =
        some d ∧
      d.state = .allocated ∧ d.members.keys = ["db_0", "db_1", "db_2", "db_3"] ∧
      d.sharedStorage.map Volume.name = ["logs", "spare", "data"] ∧
      ∀ spec ∈ d.volumeSpecs,
        (d.sharedStorage.map Volume.place).count ("fake-r1", spec.name) = 1 := by
  let turns := (Sample.setbacks Sample.steady).take 4
  have hplayed : (Sample.plansDistinct turns,
      (Books.afterVentures turns).journal.all fun e => decide e.call.Faithful,
      (Books.afterVentures turns).journal.all fun e => e.call.keepsProvision,
      ((recorded (Books.afterVentures turns).journal).find? "c").map fun d =>
        (d.state, d.members.keys, d.sharedStorage.map Volume.name, d.environments,
          (d.membersIn "fake-r1").any Machine.provisioned)) =
      (true, true, true, some (.allocated, ["db_0", "db_1", "db_2", "db_3"],
        ["logs", "spare", "data"], [.ofRegion "fake" "fake" "r1"], true)) := by
    cbv
  simp only [Prod.mk.injEq, Sample.plansDistinct_iff, List.all_eq_true, decide_eq_true_iff,
    Option.map_eq_some_iff] at hplayed
  obtain ⟨hplans, hfaithful, hkeeps, d, hd, hstate, hkeys, hnames, henvironments, hmembers⟩ :=
    hplayed
  have honce := (volumes_once_per_environment turns hplans hfaithful hkeeps
    (List.append_nil _).symm hd).2.1 (.inl hstate) (.ofRegion "fake" "fake" "r1")
    (by simp [henvironments]) hmembers
  exact ⟨d, hd, hstate, hkeys, hnames, honce⟩

/-- If the first start is what makes a machine provisioned, a cluster is ready without volumes:
those of the first allocation have failed, and the second one has not asked for them. -/
theorem volume_missing_after_start :
    (∀ t ∈ Sample.lazyTurns, ∀ p ∈ t.request.plan?, p.Distinct) ∧
      (∀ e ∈ (Books.afterVentures Sample.lazyTurns).journal, e.call.Faithful) ∧
        ∃ d, (Books.afterVentures Sample.lazyTurns).find? "c" = some d ∧ d.state = .ready ∧
          ∃ env ∈ d.environments, (d.membersIn env.name).any Machine.provisioned = true ∧
            ∃ spec ∈ d.volumeSpecs,
              (d.sharedStorage.map Volume.place).count (env.name, spec.name) = 0 := by
  have hplayed : (Sample.plansDistinct Sample.lazyTurns,
      (Books.afterVentures Sample.lazyTurns).journal.all fun e => decide e.call.Faithful,
      ((Books.afterVentures Sample.lazyTurns).find? "c").map fun d =>
        (d.state, d.environments, d.volumeSpecs, d.sharedStorage,
          (d.membersIn "fake-r1").any Machine.provisioned)) =
      (true, true, some (.ready, [.ofRegion "fake" "fake" "r1"],
        [{ name := "data", sizeGb := 1 }], [], true)) := by
    cbv
  simp only [Prod.mk.injEq, Sample.plansDistinct_iff, List.all_eq_true, decide_eq_true_iff,
    Option.map_eq_some_iff] at hplayed
  obtain ⟨hplans, hfaithful, d, hd, hstate, henvironments, hspecs, hstorage, hmembers⟩ := hplayed
  refine ⟨hplans, hfaithful, d, hd, hstate, .ofRegion "fake" "fake" "r1",
    by simp [henvironments], hmembers, { name := "data", sizeGb := 1 }, by simp [hspecs], ?_⟩
  rw [hstorage]
  rfl

end BenchCluster
