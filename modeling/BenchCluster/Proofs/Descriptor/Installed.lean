import Mathlib
import BenchCluster.Proofs.Cluster.Target
import BenchCluster.Proofs.Descriptor.Allocated
import BenchCluster.Proofs.Journal.Recorded

/-! # When stored descriptors show a target

A target is stored when a cluster is installed, and taken back only when the cluster is configured
again or forgotten. A cleanup that falls short and the allocations after it leave it as it is.
-/

namespace BenchCluster

/-- The target a cluster has been installed with, after one more call. -/
def OutsideCall.retarget (cluster : String) (before : Option ConnectionTarget) :
    OutsideCall → Option ConnectionTarget
  | .saved d =>
    if d.clusterName = cluster then
      match d.state with
      | .ready => d.connectionTarget
      | .notReady => none
      | _ => before
    else before
  | .deleted other => if other = cluster then none else before
  | _ => before

/-- The target that a cluster has been installed with since it was last configured, according to a
journal. -/
def installedTarget (cluster : String) (journal : List JournalEntry) : Option ConnectionTarget :=
  journal.foldl (fun before x => x.call.retarget cluster before) none

variable {cluster : String} {journal entries : List JournalEntry}

theorem installedTarget_concat (cluster : String) (journal : List JournalEntry) (x : JournalEntry) :
    installedTarget cluster (journal ++ [x]) =
      x.call.retarget cluster (installedTarget cluster journal) := by
  simp [installedTarget]

theorem OutsideCall.retarget_of_not_isWrite {c : OutsideCall} (h : c.isWrite = false)
    (cluster : String) (before : Option ConnectionTarget) : c.retarget cluster before = before := by
  cases c with
  | saved d => cases h
  | deleted other => cases h
  | _ => rfl

theorem installedTarget_append (h : ∀ x ∈ entries, x.call.isWrite = false) :
    installedTarget cluster (journal ++ entries) = installedTarget cluster journal := by
  induction entries using List.reverseRecOn with
  | nil => rw [List.append_nil]
  | append_singleton entries x ih =>
    rw [← List.append_assoc, installedTarget_concat,
      OutsideCall.retarget_of_not_isWrite (h x (by simp))]
    exact ih fun y hy => h y (List.mem_append_left _ hy)

namespace ClusterDescriptor

/-- The descriptor shows a target, which is there while it is ready or down and not before it has
been installed. -/
structure Shows (d : ClusterDescriptor) (target : Option ConnectionTarget) : Prop where
  same : d.connectionTarget = target
  installed : d.state = .ready ∨ d.state = .down → target.isSome = true
  vacant : d.state = .notReady → target = none

variable {d : ClusterDescriptor} {target : Option ConnectionTarget}

/-- A descriptor shows a target while it is ready or down, and otherwise if it was left over. -/
theorem Shows.isSome_iff (h : d.Shows target) : d.connectionTarget.isSome = true ↔
    (d.state = .ready ∨ d.state = .down) ∨
      (d.state = .allocated ∨ d.state = .failed) ∧ target.isSome = true := by
  rw [h.same]
  cases hstate : d.state with
  | notReady => simp [h.vacant hstate]
  | allocated => simp
  | ready => simp [h.installed (.inl hstate)]
  | down => simp [h.installed (.inr hstate)]
  | failed => simp

end ClusterDescriptor

namespace Books

def Shown (b : Books) : Prop :=
  b.Every fun cluster d => d.Shows (installedTarget cluster b.journal)

namespace Shown

variable {b : Books} {d : ClusterDescriptor}

theorem enter (hb : b.Shown) (h : ∀ x ∈ entries, x.call.isWrite = false) :
    (b.enter entries).Shown := by
  intro cluster d hd
  rw [journal_enter, installedTarget_append h]
  exact hb cluster d hd

theorem put (hb : b.Shown) (late : Bool) (hd : d.Shows
    ((OutsideCall.saved d).retarget d.clusterName (installedTarget d.clusterName b.journal))) :
    (b.put late d).Shown := by
  intro cluster stored hstored
  rw [journal_put, installedTarget_concat]
  rw [find?_put] at hstored
  by_cases hname : d.clusterName = cluster
  · rw [if_pos hname, Option.some.injEq] at hstored
    rwa [← hname, ← hstored]
  · rw [if_neg hname] at hstored
    rw [OutsideCall.retarget, if_neg hname]
    exact hb cluster stored hstored

theorem drop (hb : b.Shown) (late : Bool) (cluster : String) : (b.drop late cluster).Shown := by
  intro other stored hstored
  rw [journal_drop, installedTarget_concat, OutsideCall.retarget]
  rw [find?_drop] at hstored
  by_cases hname : cluster = other
  · rw [if_pos hname] at hstored
    cases hstored
  · rw [if_neg hname] at hstored ⊢
    exact hb other stored hstored

theorem put_ready (hb : b.Shown) (late : Bool) (hready : d.state = .ready)
    (htarget : d.connectionTarget.isSome = true) : (b.put late d).Shown := by
  refine hb.put late ?_
  simp only [OutsideCall.retarget, if_pos, hready]
  exact ⟨rfl, fun _ => htarget, fun h => by rw [hready] at h; cases h⟩

theorem put_vacant (hb : b.Shown) (late : Bool) (hstate : d.state = .notReady)
    (htarget : d.connectionTarget = none) : (b.put late d).Shown := by
  refine hb.put late ?_
  simp only [OutsideCall.retarget, if_pos, hstate]
  exact ⟨htarget, fun h => by simp [hstate] at h, fun _ => rfl⟩

theorem put_kept {before : ClusterDescriptor} (hb : b.Shown) (late : Bool)
    (hbefore : b.find? d.clusterName = some before)
    (hsame : d.connectionTarget = before.connectionTarget)
    (hready : d.state ≠ .ready) (hvacant : d.state ≠ .notReady)
    (hdown : d.state = .down → before.state = .ready ∨ before.state = .down) :
    (b.put late d).Shown := by
  have hshows := hb d.clusterName before hbefore
  refine hb.put late ?_
  have hretarget : (OutsideCall.saved d).retarget d.clusterName
      (installedTarget d.clusterName b.journal) = installedTarget d.clusterName b.journal := by
    rw [OutsideCall.retarget, if_pos rfl]
    split
    · exact absurd ‹_› hready
    · exact absurd ‹_› hvacant
    · rfl
  rw [hretarget]
  refine ⟨hsame.trans hshows.same, ?_, fun h => absurd h hvacant⟩
  rintro (h | h)
  · exact absurd h hready
  · exact hshows.installed (hdown h)

end Shown

end Books

/-- Every operation keeps the targets that are shown. -/
theorem Effect.shown {request : Request} {b b' : Books}
    {answer : Except OrchestratorError (Option ClusterDescriptor)}
    (h : Effect cluster b request answer b') (hnamed : b.Named) (hb : b.Shown) : b'.Shown := by
  have hinert : ∀ {entries : List JournalEntry}, (∀ x ∈ entries, x.call.isInert = true) →
      (b.enter entries).Shown :=
    fun h => hb.enter fun x hx => OutsideCall.isWrite_of_isInert (h x hx)
  have hquiet : ∀ {entries : List JournalEntry}, (∀ x ∈ entries, x.call.isLasting = false) →
      (b.enter entries).Shown :=
    fun h => hb.enter fun x hx => OutsideCall.isWrite_of_isLasting (h x hx)
  -- A loaded descriptor bears the name of the cluster that it is stored for.
  have hstored : ∀ {d : ClusterDescriptor} {operation : Operation}, b.Loaded cluster operation d →
      b.find? d.clusterName = some d ∧ d.Shows (installedTarget cluster b.journal) := by
    intro d operation loaded
    rw [(hnamed _ _ loaded.stored).1]
    exact ⟨loaded.stored, hb _ _ loaded.stored⟩
  cases h with
  | refused refusal unaccepted => exact hb
  | failed mishap nothing => exact hquiet nothing
  | configured valid inert accepted planned expanded => exact (hinert inert).put_vacant _ rfl rfl
  | lost loaded a mishap => exact hb.enter a.isWrite_of_mem_entries
  | @allocated d force late loaded a =>
    have hstate : a.descriptor.state = .allocated ∨ a.descriptor.state = .failed := by
      rw [a.state_descriptor]
      split <;> simp
    refine (hb.enter a.isWrite_of_mem_entries).put_kept late (hstored loaded).1 rfl ?_ ?_ ?_
    · rcases hstate with h | h <;> simp [h]
    · rcases hstate with h | h <;> simp [h]
    · rcases hstate with h | h <;> simp [h]
  | made loaded inert => exact hinert inert
  | installed loaded inert => exact (hinert inert).put_ready _ rfl rfl
  | stopped loaded inert =>
    have hready := ClusterState.allows_stop_iff.1 loaded.allowed
    exact (hinert inert).put_kept _ (hstored loaded).1 rfl (by simp) (by simp) fun _ => .inl hready
  | woken loaded x failures =>
    have hdown := ClusterState.allows_start_iff.1 loaded.allowed
    have hstate : x.descriptor.state = .down := hdown
    exact (hquiet (isLasting_of_starting x)).put_kept _ (hstored loaded).1 rfl (by simp [hstate])
      (by simp [hstate]) fun _ => .inr hdown
  | started loaded x inert =>
    have hdown := ClusterState.allows_start_iff.1 loaded.allowed
    obtain ⟨-, hshows⟩ := hstored loaded
    refine (hquiet (isLasting_of_waking x inert)).put_ready _ rfl ?_
    exact (congrArg Option.isSome hshows.same).trans (hshows.installed (.inr hdown))
  | cleaned loaded roles c =>
    have hentries := hquiet (isLasting_of_cleaning roles c)
    rw [Cleaning.settle]
    split
    · exact hentries.drop _ _
    · exact hentries.put_kept _ (hstored loaded).1 rfl (by simp) (by simp) (by simp)

theorem Books.shown_afterVentures (turns : List Turn) : (afterVentures turns).Shown := by
  refine (afterVentures_induction (P := fun b => b.Named ∧ b.Shown) turns
    ⟨named_blank, every_blank _⟩ ?_).2
  intro t _ request _ answer b b' hb h
  exact ⟨h.named hb.1, h.shown hb.1 hb.2⟩

/-- Whatever has run and failed, a stored descriptor has the target that its cluster has been
installed with since it was last configured. It is there while the cluster is ready or down, not
before it has been installed, and it stays in clusters that are failed or allocated again after a
cleanup that has fallen short. -/
theorem target_kept_since_installed (turns : List Turn) {d : ClusterDescriptor}
    (hd : (Books.afterVentures turns).find? cluster = some d) :
    let installed := installedTarget cluster (Books.afterVentures turns).journal
    d.connectionTarget = installed ∧ (d.connectionTarget.isSome = true ↔
      (d.state = .ready ∨ d.state = .down) ∨
        (d.state = .allocated ∨ d.state = .failed) ∧ installed.isSome = true) := by
  intro installed
  have hshows := Books.shown_afterVentures turns cluster d hd
  exact ⟨hshows.same, hshows.isSome_iff⟩

namespace Sample

/-- Surroundings with a cloud that gives each machine an address of its own and keeps the first
volume it has been asked to destroy. -/
def stubborn : Surroundings Nat :=
  let keeping : Cloud Nat :=
    { cloud with
      launchInstance := fun r inv =>
        (.ok (some { r.machine (toString inv.outside) with
            publicAddress := some (toString inv.outside), provisioned := true }),
          { inv with outside := inv.outside + 1 })
      destroyStorage := fun _ => return .error (.commandFailed "destroy" (some 1) "busy") }
  { steady with
    clouds := Dict.ofList [("fake", fun _ _ _ => .ok keeping)]
    roles := RoleRegistry.builtin steady.executor }

def storedBackendDocuments : Documents :=
  { topologies := Dict.ofList [("single", template)]
    implementations := Dict.ofList [("standard",
      { topology := "single"
        sharedStorage := [{ name := "data", sizeGb := 1 }]
        roles := Dict.ofList [("db",
          { cloud := some "fake", region := some "r1", implementation := some "backend" })] })]
    clouds := Dict.ofList [("fake", { client := "fake" })] }

def reallocatedTurns : List Turn :=
  [stubborn.turn { outside := 1 } "c" (.configure storedBackendDocuments "standard" false),
    stubborn.turn { outside := 1 } "c" (.allocate false),
    stubborn.turn { outside := 3 } "c" .install,
    stubborn.turn { outside := 3 } "c" .clean,
    stubborn.turn { outside := 7 } "c" (.allocate true)]

end Sample

/-- The target names the machine that has been terminated, in a cluster that is not installed. -/
theorem sample_target_left_over : ∃ d target,
    (Books.afterVentures Sample.reallocatedTurns).find? "c" = some d ∧ d.state = .allocated ∧
      d.connectionTarget = some target ∧ target.hosts = ["1"] ∧ ¬ d.Reaches "1" ∧
      installedTarget "c" (Books.afterVentures Sample.reallocatedTurns).journal = some target := by
  have hplayed : ((Books.afterVentures Sample.reallocatedTurns).find? "c").map (fun d =>
        (d.state, d.connectionTarget.map ConnectionTarget.hosts,
          d.members.values.map Machine.hostAddress?)) =
      some (.allocated, some ["1"], [some "7"]) := by
    cbv
  simp only [Option.map_eq_some_iff, Prod.mk.injEq] at hplayed
  obtain ⟨d, hd, hallocated, ⟨target, htarget, hhosts⟩, hmembers⟩ := hplayed
  obtain ⟨hinstalled, -⟩ := target_kept_since_installed Sample.reallocatedTurns hd
  have hgone : ¬ d.Reaches "1" := by
    rintro ⟨name, m, hm, hhost⟩
    have hmem := List.mem_map_of_mem (f := Machine.hostAddress?) (Dict.mem_values_iff.2 ⟨name, hm⟩)
    rw [hmembers, hhost] at hmem
    exact absurd hmem (by decide)
  exact ⟨d, target, hd, hallocated, htarget, hhosts, hgone, hinstalled.symm.trans htarget⟩

end BenchCluster
