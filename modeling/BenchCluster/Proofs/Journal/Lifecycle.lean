import BenchCluster.Proofs.Cluster.Descriptor
import BenchCluster.Proofs.Descriptor.Allocated
import BenchCluster.Proofs.Journal.Course

/-! # The life of a cluster over whole runs

The stored state of a cluster moves along the edges of its lifecycle only, each of which belongs to
one answer of one operation. An operation that is refused leaves no trace.
-/

namespace BenchCluster

theorem ClusterState.allows_allocate_iff {state : ClusterState} {force : Bool} :
    state.allows (.allocate force) = true ↔
      state = .notReady ∨ force = true ∧ (state = .allocated ∨ state = .failed) := by
  cases state <;> simp [ClusterState.allows]

theorem ClusterDescriptor.isReplaceable_iff {d : ClusterDescriptor} : d.isReplaceable = true ↔
    d.state = .notReady ∧ d.members.isEmpty = true ∧ d.sharedStorage = [] := by
  simp [isReplaceable, and_assoc]

/-- How an operation moves the stored descriptor of its cluster between states, by its answer. -/
inductive Moves : Request → Except OrchestratorError (Option ClusterDescriptor) →
    Option ClusterDescriptor → Option ClusterDescriptor → Prop
  | configured {documents : Documents} {implementation : String} {force : Bool}
      {d : ClusterDescriptor} (new : d.state = .notReady) :
      Moves (.configure documents implementation force) (.ok (some d)) none (some d)
  | reconfigured {documents : Documents} {implementation : String} {old d : ClusterDescriptor}
      (before : old.state = .notReady) (members : old.members.isEmpty = true)
      (volumes : old.sharedStorage = []) (new : d.state = .notReady) :
      Moves (.configure documents implementation true) (.ok (some d)) (some old) (some d)
  | allocated {force : Bool} {old d : ClusterDescriptor}
      (before : old.state = .notReady ∨
        force = true ∧ (old.state = .allocated ∨ old.state = .failed))
      (new : d.state = .allocated) :
      Moves (.allocate force) (.ok (some d)) (some old) (some d)
  | fellShort {force : Bool} {old d : ClusterDescriptor} {cluster : String} {failed : List String}
      (before : old.state = .notReady ∨
        force = true ∧ (old.state = .allocated ∨ old.state = .failed))
      (new : d.state = .failed) :
      Moves (.allocate force) (.error (.allocationFailed cluster failed)) (some old) (some d)
  | made {d : ClusterDescriptor} : Moves .make (.ok (some d)) (some d) (some d)
  | installed {old d : ClusterDescriptor} (before : old.state = .allocated)
      (new : d.state = .ready) : Moves .install (.ok (some d)) (some old) (some d)
  | stopped {old d : ClusterDescriptor} (before : old.state = .ready) (new : d.state = .down) :
      Moves .stop (.ok (some d)) (some old) (some d)
  | started {old d : ClusterDescriptor} (before : old.state = .down) (new : d.state = .ready) :
      Moves .start (.ok (some d)) (some old) (some d)
  | cleaned {old : ClusterDescriptor} : Moves .clean (.ok none) (some old) none
  | remained {old d : ClusterDescriptor} {cluster : String} {remaining : List String}
      (new : d.state = .failed) :
      Moves .clean (.error (.cleanupFailed cluster remaining)) (some old) (some d)
  | stayed {request : Request} {e : OrchestratorError} {old d : Option ClusterDescriptor}
      (kind : e.isShortfall = false)
      (same : d.map ClusterDescriptor.state = old.map ClusterDescriptor.state) :
      Moves request (.error e) old d

namespace Effect

variable {cluster : String} {request : Request} {b b' : Books}
  {answer : Except OrchestratorError (Option ClusterDescriptor)}

/-- An operation moves the stored descriptor of its cluster as its answer says. -/
theorem moves (h : Effect cluster b request answer b') (hnamed : b.Named) :
    Moves request answer (b.find? cluster) (b'.find? cluster) := by
  have hput : ∀ {operation : Operation} {d after : ClusterDescriptor},
      b.Loaded cluster operation d → after.clusterName = d.clusterName →
      ∀ (entries : List JournalEntry) (late : Bool),
        ((b.enter entries).put late after).find? cluster = some after := by
    intro operation d after loaded hsame entries late
    rw [Books.find?_put, if_pos (hsame.trans (hnamed cluster d loaded.stored).1)]
  cases h with
  | refused refusal unaccepted =>
    exact .stayed (OrchestratorError.isShortfall_of_isRefusal refusal) rfl
  | failed mishap nothing => exact .stayed (OrchestratorError.isMishap_iff.1 mishap).2 rfl
  | configured valid inert accepted planned expanded =>
    rw [Books.find?_put, if_pos (by rfl)]
    -- What was there before is replaceable, and the user has insisted.
    cases hd : b.find? cluster with
    | none => exact .configured rfl
    | some old =>
      have hold := accepted old hd
      rw [Request.accepts, Bool.and_eq_true] at hold
      obtain ⟨hforce, hreplaceable⟩ := hold
      obtain ⟨hstate, hmembers, hvolumes⟩ := ClusterDescriptor.isReplaceable_iff.1 hreplaceable
      rw [hforce]
      exact .reconfigured hstate hmembers hvolumes rfl
  | lost loaded a mishap => exact .stayed (OrchestratorError.isMishap_iff.1 mishap).2 rfl
  | allocated loaded a =>
    rw [hput loaded (by rfl), loaded.stored, Allocating.answer]
    have hbefore := ClusterState.allows_allocate_iff.1 loaded.allowed
    by_cases hfailed : a.allocation.failed.isEmpty
    · rw [if_pos hfailed]
      exact .allocated hbefore (by rw [a.state_descriptor, if_pos hfailed])
    · rw [if_neg hfailed]
      exact .fellShort hbefore (by rw [a.state_descriptor, if_neg hfailed])
  | made loaded inert =>
    rw [Books.find?_enter, loaded.stored]
    exact .made
  | installed loaded inert =>
    rw [hput loaded (by rfl), loaded.stored]
    exact .installed (ClusterState.allows_install_iff.1 loaded.allowed) rfl
  | stopped loaded inert =>
    rw [hput loaded (by rfl), loaded.stored]
    exact .stopped (ClusterState.allows_stop_iff.1 loaded.allowed) rfl
  | woken loaded x failures =>
    rw [hput loaded (by rfl), loaded.stored]
    exact .stayed rfl rfl
  | started loaded x inert =>
    rw [hput loaded (by rfl), loaded.stored]
    exact .started (ClusterState.allows_start_iff.1 loaded.allowed) rfl
  | cleaned loaded roles c =>
    rw [loaded.stored, Cleaning.settle, Cleaning.answer]
    by_cases hempty : c.left.remaining.isEmpty
    · rw [if_pos hempty, if_pos hempty, Books.find?_drop, if_pos rfl]
      exact .cleaned
    · rw [if_neg hempty, if_neg hempty, hput loaded (by rfl)]
      exact .remained rfl

theorem of_refusal {e : OrchestratorError} (h : Effect cluster b request (.error e) b')
    (he : e.isRefusal = true) :
    b' = b ∧ ∀ d, b.find? cluster = some d → request.accepts d = false := by
  have hmishap : e.isMishap = true → False := by
    intro hmishap
    rw [(OrchestratorError.isMishap_iff.1 hmishap).1] at he
    cases he
  generalize hanswer : Except.error e = answer at h
  cases h with
  | refused refusal unaccepted => exact ⟨rfl, unaccepted⟩
  | failed mishap nothing =>
    cases hanswer
    exact (hmishap mishap).elim
  | configured valid inert accepted planned expanded => cases hanswer
  | lost loaded a mishap =>
    cases hanswer
    exact (hmishap mishap).elim
  | allocated loaded a =>
    rw [Allocating.eq_of_answer_eq_error hanswer.symm] at he
    cases he
  | made loaded inert => cases hanswer
  | installed loaded inert => cases hanswer
  | stopped loaded inert => cases hanswer
  | woken loaded x failures =>
    cases hanswer
    cases he
  | started loaded x inert => cases hanswer
  | cleaned loaded roles c =>
    rw [Cleaning.eq_of_answer_eq_error hanswer.symm] at he
    cases he

end Effect

/-! ## Refusals -/

namespace Moves

variable {old new : Option ClusterDescriptor} {d : Option ClusterDescriptor}

theorem state_of_configured {documents : Documents} {implementation : String} {force : Bool}
    (h : Moves (.configure documents implementation force) (.ok d) old new) :
    ∃ after, new = some after ∧ after.state = .notReady := by
  cases h with
  | configured hstate => exact ⟨_, rfl, hstate⟩
  | reconfigured before members volumes hstate => exact ⟨_, rfl, hstate⟩

theorem state_of_allocated {force : Bool} (h : Moves (.allocate force) (.ok d) old new) :
    ∃ after, new = some after ∧ after.state = .allocated := by
  cases h with
  | allocated before hstate => exact ⟨_, rfl, hstate⟩

theorem eq_of_made (h : Moves .make (.ok d) old new) : new = old := by
  cases h with
  | made => rfl

end Moves

namespace Course

variable {cluster : String} {b b' : Books} {e : OrchestratorError}

/-- Of the operations that bring a cluster up in one go only the first can be refused. -/
theorem of_refusal_all {documents : Documents} {implementation : String} {force : Bool}
    (h : Course cluster (Request.all documents implementation force).stages (.error e) b b')
    (hnamed : b.Named) (he : e.isRefusal = true) : b' = b := by
  have hallowed : ∀ {request : Request} {x y : Books} {d : ClusterDescriptor},
      x.find? cluster = some d → request.accepts d = true →
      ¬ Effect cluster x request (.error e) y := by
    intro request x y d hd haccepts step
    rw [(step.of_refusal he).2 d hd] at haccepts
    cases haccepts
  cases h with
  | broken step => exact (step.of_refusal he).1
  | next configuring others =>
    obtain ⟨d, hd, hstate⟩ := (configuring.moves hnamed).state_of_configured
    have hallocate : (Request.allocate false).accepts d = true := by
      simp [Request.accepts, hstate, ClusterState.allows]
    cases others with
    | broken step => exact absurd step (hallowed hd hallocate)
    | next allocating others =>
      have hnamed := configuring.named hnamed
      obtain ⟨d, hd, hstate⟩ := (allocating.moves hnamed).state_of_allocated
      have hmake : Request.make.accepts d = true := by
        simp [Request.accepts, hstate, ClusterState.allows]
      have hinstall : Request.install.accepts d = true := by
        simp [Request.accepts, hstate, ClusterState.allows]
      cases others with
      | broken step => exact absurd step (hallowed hd hmake)
      | next making others =>
        rw [← (making.moves (allocating.named hnamed)).eq_of_made] at hd
        cases others with
        | last step => exact absurd step (hallowed hd hinstall)
        | broken step => exact absurd step (hallowed hd hinstall)
        | next installing others => cases others

theorem of_refusal {request : Request} (h : Course cluster request.stages (.error e) b b')
    (hnamed : b.Named) (he : e.isRefusal = true) : b' = b := by
  cases request with
  | all documents implementation force => exact of_refusal_all h hnamed he
  | _ =>
    cases h with
    | last step => exact (step.of_refusal he).1
    | broken step => exact (step.of_refusal he).1
    | next step others => cases others

end Course

/-! ## Every run -/

/-- Whatever invocations have run and whatever has failed in them, the operations of the next one
move the stored descriptor of its cluster along the edges of the lifecycle only, those of other
clusters stay where they are, and if the invocation is refused nothing has been asked of clouds,
roles or hosts and nothing has been stored. -/
theorem lifecycle_followed (turns : List Turn) (t : Turn) :
    let before := Books.afterVentures turns
    let after := (t.venture before).2
    Sequenced Moves t.request.stages (t.venture before).1 (before.find? t.cluster)
        (after.find? t.cluster) ∧
      (∀ other, t.cluster ≠ other → after.find? other = before.find? other) ∧
      ∀ e, (t.venture before).1 = .error e → e.isRefusal = true →
        after.journal = before.journal ∧ after.descriptors = before.descriptors := by
  intro before after
  have hnamed : before.Named := Books.named_afterVentures turns
  have hcourse := t.course before
  refine ⟨?_, fun other hother => ?_, fun e he hrefusal => ?_⟩
  · refine hcourse.view (P := Books.Named) (fun b => b.find? t.cluster) hnamed ?_ ?_
    · exact fun _ _ _ _ hb step => step.named hb
    · exact fun _ _ _ _ hb step => step.moves hb
  · have hkept := hcourse.keeps
      (P := fun b => b.Named ∧ b.find? other = before.find? other) ⟨hnamed, rfl⟩ ?_
    · exact hkept.2
    · intro request _ answer b b' hb step
      have hextends := step.extendsBooks fun d hd => (hb.1 _ d hd).1
      exact ⟨step.named hb.1, (hextends.find?_of_ne hother).trans hb.2⟩
  · rw [he] at hcourse
    have hsame : after = before := hcourse.of_refusal hnamed hrefusal
    rw [hsame]
    exact ⟨rfl, rfl⟩

end BenchCluster
