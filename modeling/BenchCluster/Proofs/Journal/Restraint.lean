import Mathlib
import BenchCluster.Proofs.Descriptor.Started
import BenchCluster.Proofs.Journal.Course

/-! # What operations leave alone

An operation that fails leaves the stored descriptors as they were, unless it has stored what it has
come to: the machines and volumes of an allocation, what a cleanup could not remove, or the machines
that a start has brought up. Whatever is stored, only the descriptor of the cluster is written to,
and only a configuration changes what a configuration fixes.
-/

namespace BenchCluster

/-- Whether an operation that fails with an error leaves the stored descriptors as they were. -/
def Request.isUndoneBy (e : OrchestratorError) : Request → Bool
  | .configure .. => true
  | .allocate _ => match e with | .allocationFailed .. => false | _ => true
  | .make => true
  | .install => true
  | .stop => true
  | .start => false
  | .clean => match e with | .cleanupFailed .. => false | _ => true
  | .all .. => false

def Request.isPlanning : Request → Bool
  | .configure .. => true
  | .all .. => true
  | _ => false

namespace ClusterDescriptor

/-- The two descriptors differ in the state, the members, the connection target and the volumes at
most. -/
def SamePlan (d after : ClusterDescriptor) : Prop :=
  after = { d with
    state := after.state, members := after.members
    connectionTarget := after.connectionTarget, sharedStorage := after.sharedStorage }

/-- Every member is listed under the name of its machine. -/
def Keyed (d : ClusterDescriptor) : Prop :=
  ∀ key m, d.members.find? key = some m → m.name = key

end ClusterDescriptor

theorem Starting.keys_members {d : ClusterDescriptor} (x : Starting d) (h : d.Keyed) :
    x.descriptor.members.keys = d.members.keys := by
  refine Dict.keys_eq_of_mem_iff fun key => ?_
  rw [x.contains_members, or_iff_right_iff_imp]
  rintro ⟨a, ha, rfl, -⟩
  obtain ⟨hvalue, -⟩ := List.mem_filter.1 (x.served.request_mem ha)
  obtain ⟨key, hkey⟩ := Dict.mem_values_iff.1 hvalue
  rw [Dict.contains_iff, h key _ hkey]
  exact ⟨_, hkey⟩

namespace Effect

variable {cluster : String} {request : Request} {b b' : Books}

/-- An operation that is undone by its error leaves the stored descriptors as they were. -/
theorem descriptors_of_undone {e : OrchestratorError}
    (h : Effect cluster b request (.error e) b') (hundone : request.isUndoneBy e = true) :
    b'.descriptors = b.descriptors := by
  generalize hanswer : Except.error e = answer at h
  cases h with
  | refused refusal unaccepted => rfl
  | failed mishap nothing => rfl
  | configured valid inert accepted planned expanded => cases hanswer
  | lost loaded a mishap => rfl
  | allocated loaded a =>
    rw [Allocating.eq_of_answer_eq_error hanswer.symm] at hundone
    cases hundone
  | made loaded inert => rfl
  | installed loaded inert => cases hanswer
  | stopped loaded inert => cases hanswer
  | woken loaded x failures => cases hundone
  | started loaded x inert => cases hundone
  | cleaned loaded roles c =>
    rw [Cleaning.eq_of_answer_eq_error hanswer.symm] at hundone
    cases hundone

/-- A start that fails leaves the stored descriptors as they were, or has written machines of
members. -/
theorem descriptors_of_failed_start {e : OrchestratorError}
    (h : Effect cluster b .start (.error e) b') :
    b'.descriptors = b.descriptors ∨ ∃ d members, b.find? cluster = some d ∧
      b'.descriptors = b.descriptors.insert d.clusterName { d with members := members } ∧
      (d.Keyed → members.keys = d.members.keys) := by
  generalize hanswer : Except.error e = answer at h
  cases h with
  | refused refusal unaccepted => exact .inl rfl
  | failed mishap nothing => exact .inl rfl
  | woken loaded x failures =>
    exact .inr ⟨_, x.descriptor.members, loaded.stored, rfl, x.keys_members⟩
  | started loaded x inert => cases hanswer

/-- What is stored for the cluster after an operation that makes no plan was stored before, up to
what such an operation may change. -/
theorem samePlan {answer : Except OrchestratorError (Option ClusterDescriptor)}
    (h : Effect cluster b request answer b') (hplanning : request.isPlanning = false)
    {after : ClusterDescriptor} (hafter : b'.find? cluster = some after) :
    ∃ d, b.find? cluster = some d ∧ d.SamePlan after := by
  have hput : ∀ {operation : Operation} {d new : ClusterDescriptor} {entries : List JournalEntry}
      {late : Bool}, b.Loaded cluster operation d → d.SamePlan new →
      ((b.enter entries).put late new).find? cluster = some after →
      ∃ d, b.find? cluster = some d ∧ d.SamePlan after := by
    intro operation d new entries late loaded hsame hfind
    rw [Books.find?_put] at hfind
    by_cases hname : new.clusterName = cluster
    · rw [if_pos hname, Option.some.injEq] at hfind
      exact ⟨d, loaded.stored, hfind ▸ hsame⟩
    · rw [if_neg hname] at hfind
      exact ⟨after, hfind, rfl⟩
  cases h with
  | refused refusal unaccepted => exact ⟨after, hafter, rfl⟩
  | failed mishap nothing => exact ⟨after, hafter, rfl⟩
  | configured valid inert accepted planned expanded => cases hplanning
  | lost loaded a mishap => exact ⟨after, hafter, rfl⟩
  | allocated loaded a => exact hput loaded (by rfl) hafter
  | made loaded inert => exact ⟨after, hafter, rfl⟩
  | installed loaded inert => exact hput loaded (by rfl) hafter
  | stopped loaded inert => exact hput loaded (by rfl) hafter
  | woken loaded x failures => exact hput loaded (by rfl) hafter
  | started loaded x inert => exact hput loaded (by rfl) hafter
  | cleaned loaded roles c =>
    rw [Cleaning.settle] at hafter
    split at hafter
    · rw [Books.find?_drop, if_pos rfl] at hafter
      cases hafter
    · exact hput loaded (by rfl) hafter

end Effect

theorem Books.Extends.clusterName {cluster : String} {b b' : Books} (h : b.Extends cluster b')
    (hname : ∀ d, b.find? cluster = some d → d.clusterName = cluster) :
    ∀ d, b'.find? cluster = some d → d.clusterName = cluster := by
  intro d hd
  cases h with
  | enter entries => exact hname d hd
  | put entries late name valid =>
    rw [find?_put, if_pos name, Option.some.injEq] at hd
    rwa [← hd]
  | drop entries late =>
    rw [find?_drop, if_pos rfl] at hd
    cases hd

/-! ## Every invocation -/

theorem Course.effect {cluster : String} {request : Request} {b b' : Books}
    {answer : Except OrchestratorError (Option ClusterDescriptor)}
    (h : Course cluster request.stages answer b b') (hsingle : request.stages = [request]) :
    Effect cluster b request answer b' := by
  rw [hsingle] at h
  cases h with
  | last step => exact step
  | broken step => exact step
  | next step others => cases others

namespace Turn

variable {t : Turn} {b : Books}

/-- An invocation leaves the descriptors of other clusters as they are, if that of its own cluster is
stored under its name. -/
theorem find?_venture_of_ne (hname : ∀ d, b.find? t.cluster = some d → d.clusterName = t.cluster)
    {other : String} (hother : t.cluster ≠ other) : (t.venture b).2.find? other = b.find? other := by
  refine ((t.course b).keeps (P := fun x =>
    (∀ d, x.find? t.cluster = some d → d.clusterName = t.cluster) ∧
      x.find? other = b.find? other) ⟨hname, rfl⟩ ?_).2
  intro request _ answer x y hx step
  have hextends := step.extendsBooks hx.1
  exact ⟨hextends.clusterName hx.1, (hextends.find?_of_ne hother).trans hx.2⟩

/-- What is stored for its cluster after an invocation that makes no plan was stored before, up to
what operations may change. -/
theorem samePlan_venture (hplanning : t.request.isPlanning = false) {d : ClusterDescriptor}
    (hd : (t.venture b).2.find? t.cluster = some d) :
    ∃ before, b.find? t.cluster = some before ∧ before.SamePlan d := by
  have hsingle : t.request.stages = [t.request] := by
    cases hrequest : t.request <;> simp_all [Request.stages, Request.isPlanning]
  exact ((t.course b).effect hsingle).samePlan hplanning hd

/-- An invocation makes another plan for a cluster: it plans it, and is not a configuration that
fails. -/
def Replans (t : Turn) (cluster : String) (b : Books) : Prop :=
  t.cluster = cluster ∧ t.request.isPlanning = true ∧
    (t.request.stages = [t.request] → (t.venture b).1.isOk = true)

theorem samePlan_of_not_replans (hnamed : b.Named) {cluster : String}
    (h : ¬ t.Replans cluster b) {d : ClusterDescriptor}
    (hd : (t.venture b).2.find? cluster = some d) :
    ∃ before, b.find? cluster = some before ∧ before.SamePlan d := by
  by_cases hcluster : t.cluster = cluster
  · subst hcluster
    cases hplanning : t.request.isPlanning with
    | false => exact samePlan_venture hplanning hd
    | true =>
      rw [Replans, not_and, not_and, Classical.not_imp] at h
      obtain ⟨hsingle, hfailed⟩ := h rfl hplanning
      have heffect := (t.course b).effect hsingle
      have hundone : ∀ e, t.request.isUndoneBy e = true := by
        intro e
        cases hrequest : t.request <;> simp_all [Request.stages, Request.isPlanning,
          Request.isUndoneBy]
      cases hanswer : (t.venture b).1 with
      | ok answer =>
        rw [hanswer] at hfailed
        exact absurd rfl hfailed
      | error e =>
        rw [hanswer] at heffect
        rw [Books.find?, heffect.descriptors_of_undone (hundone e)] at hd
        exact ⟨d, hd, rfl⟩
  · rw [find?_venture_of_ne (fun d hd => (hnamed _ d hd).1) hcluster] at hd
    exact ⟨d, hd, rfl⟩

end Turn

/-- Whatever is stored and whatever fails, an operation that fails leaves the stored descriptors as
they were, unless its error says otherwise; a start that fails changes machines of members of its
cluster at most. The descriptors of other clusters stay as they are if that of the cluster is stored
under its name. Only a configuration changes what is fixed by one. -/
theorem failures_leave_descriptors (b : Books) (t : Turn) :
    let answer := (t.venture b).1
    let after := (t.venture b).2
    (∀ e, answer = .error e → t.request.isUndoneBy e = true →
      after.descriptors = b.descriptors) ∧
    (∀ e, answer = .error e → t.request = .start →
      after.descriptors = b.descriptors ∨ ∃ d members, b.find? t.cluster = some d ∧
        after.descriptors = b.descriptors.insert d.clusterName { d with members := members } ∧
        (d.Keyed → members.keys = d.members.keys)) ∧
    ((∀ d, b.find? t.cluster = some d → d.clusterName = t.cluster) →
      ∀ other, t.cluster ≠ other → after.find? other = b.find? other) ∧
    (t.request.isPlanning = false → ∀ d, after.find? t.cluster = some d →
      ∃ before, b.find? t.cluster = some before ∧ before.SamePlan d) := by
  intro answer after
  have hcourse : Course t.cluster t.request.stages answer b after := t.course b
  have hsingle : ∀ {e : OrchestratorError}, t.request.isUndoneBy e = true →
      t.request.stages = [t.request] := by
    intro e h
    cases hrequest : t.request <;> simp_all [Request.stages, Request.isUndoneBy]
  refine ⟨fun e he hundone => ?_, fun e he hstart => ?_,
    fun hname other hother => Turn.find?_venture_of_ne hname hother,
    fun hplanning d hd => Turn.samePlan_venture hplanning hd⟩
  · have heffect := hcourse.effect (hsingle hundone)
    rw [he] at heffect
    exact heffect.descriptors_of_undone hundone
  · rw [he, hstart] at hcourse
    exact (Course.effect hcourse rfl).descriptors_of_failed_start

namespace Sample

/-- Surroundings with a cloud that does not start machines named `y`. -/
def reluctant : Surroundings Nat :=
  let sleepy : Cloud Nat :=
    { cloud with
      startInstance := fun m =>
        return if m.name = "y" then .error (.unsupported "fake" "busy") else .ok m }
  { steady with clouds := Dict.ofList [("fake", fun _ _ _ => .ok sleepy)] }

def bare (name : String) (state : ClusterState) : ClusterDescriptor :=
  { ClusterDescriptor.fresh name "standard" "empty" default default with state := state }

def machine (name : String) : Machine :=
  { id := name, name := name, role := "db", implementation := "driver", environment := "fake-r1"
    managed := true, provisioned := true, ephemeral := false }

/-- The descriptor of a cluster is stored under the name of another one as well. -/
def misfiled : Books :=
  { descriptors := Dict.ofList
      [("bench", bare "other" .allocated), ("other", bare "other" .allocated)] }

/-- A member of a cluster that is down is stored under a name that is not that of its machine. -/
def mislabelled : Books :=
  { descriptors := Dict.ofList [("bench", { bare "bench" .down with
      environments := [.ofRegion "fake" "fake" "r1"]
      members := Dict.ofList [("k", machine "x"), ("y", machine "y")] })] }

end Sample

/-- Installing a cluster changes the state of another one whose descriptor is stored under its name;
a start that fails adds a member where one is not stored under the name of its machine. -/
theorem trusted_content_changes :
    let installing := Sample.reluctant.turn { outside := 0 } "bench" .install
    let starting := Sample.reluctant.turn { outside := 0 } "bench" .start
    ((Sample.misfiled.find? "other").map ClusterDescriptor.state = some .allocated ∧
      ((installing.venture Sample.misfiled).2.find? "other").map ClusterDescriptor.state =
        some .ready) ∧
    (starting.venture Sample.mislabelled).1.isOk = false ∧
      (Sample.mislabelled.find? "bench").map (fun d => d.members.keys) = some ["k", "y"] ∧
      ((starting.venture Sample.mislabelled).2.find? "bench").map (fun d => d.members.keys) =
        some ["k", "x", "y"] := by
  have hinstalled :
      ((Sample.misfiled.find? "other").map ClusterDescriptor.state,
        (((Sample.reluctant.turn { outside := 0 } "bench" .install).venture
          Sample.misfiled).2.find? "other").map ClusterDescriptor.state) =
      (some .allocated, some .ready) := by
    cbv
  have hlisted : (Sample.mislabelled.find? "bench").map (fun d => d.members.keys) =
      some ["k", "y"] := by
    cbv
  have hstarted :
      let starting := (Sample.reluctant.turn { outside := 0 } "bench" .start).venture
        Sample.mislabelled
      (starting.1.isOk, (starting.2.find? "bench").map (fun d => d.members.keys)) =
        (false, some ["k", "x", "y"]) := by
    simp only [Turn.venture, Surroundings.turn, Surroundings.serve, Surroundings.start_eq,
      Surroundings.rise, isEmpty_failuresOf]
    -- what is said about the failed machine is long to compute and decides nothing
    generalize @failuresOf Machine = messages
    cbv
  simp only [Prod.mk.injEq] at hinstalled hstarted
  exact ⟨hinstalled, hstarted.1, hlisted, hstarted.2⟩

end BenchCluster
