import BenchCluster.Orchestrator.Configure
import BenchCluster.Proofs.Journal.Access

/-! # What a configuration enters in the books

A configuration asks clouds whether they run something already, and stores the descriptor of the
plan unless there is one that must not be replaced.
-/

namespace BenchCluster.Surroundings

variable {ω : Type} {s : Surroundings ω} {cluster : String} {inv : Invocation (Booked ω)}

theorem carries_checkIdle {R : Invocation (Booked ω) → Invocation (Booked ω) → Prop}
    [IsPreorder (Invocation (Booked ω)) R] {env : Environment}
    (hask : ∀ c : Cloud ω, Carries R ((s.bookCloud env c).isRunning cluster))
    (configs : Dict CloudConfig) : Carries R (s.booked.checkIdle cluster configs env).outcome := by
  refine Carries.bind_ofExcept fun cloud hcloud => ?_
  rw [buildCloud_booked, Fallible.map_eq_ok] at hcloud
  obtain ⟨c, -, rfl⟩ := hcloud
  refine Carries.work_bind (Carries.ofFallible (hask c)) fun running => ?_
  split
  · exact Carries.pure _
  · exact Carries.pure _

theorem enters_checkIdle (s : Surroundings ω) (cluster : String) (configs : Dict CloudConfig)
    (env : Environment) :
    Enters (fun c => c.isInert = true) (s.booked.checkIdle cluster configs env).outcome := by
  refine carries_checkIdle (R := Entered fun c => c.isInert = true) (fun c => ?_) configs
  exact Enters.journaled (P := fun c => c.isInert = true) fun _ => rfl

theorem contains_cases (cluster : String) (inv : Invocation (Booked ω)) :
    let asked := Work.ofFallible OrchestratorError.store
      (Action.outside (s.booked.store.contains cluster))
    (∃ e, asked.outcome inv = (.error e, inv)) ∨
      isValidClusterName cluster = true ∧
        asked.outcome inv = (.ok (inv.books.descriptors.contains cluster), inv) := by
  intro asked
  have houtcome : asked.outcome inv =
      ((s.bookStore.contains cluster inv.outside).1.mapError .store, inv) := rfl
  rw [houtcome]
  cases hv : isValidClusterName cluster with
  | false =>
    left
    exists .store (.invalidName cluster)
    simp [bookStore, hv, Except.mapError]
  | true => exact .inr ⟨rfl, by simp [bookStore, hv, Except.mapError]⟩

/-- A configuration is refused without effect if there is a descriptor, unless the user insists
and the descriptor may be replaced. -/
theorem checkVacant_cases (cluster : String) (force : Bool) (inv : Invocation (Booked ω)) :
    (∃ e, (s.booked.checkVacant cluster force).outcome inv = (.error e, inv)) ∨
      ((s.booked.checkVacant cluster force).outcome inv = (.ok (), inv) ∧
        isValidClusterName cluster = true ∧
        ∀ d, inv.books.find? cluster = some d → force = true ∧ d.isReplaceable = true) := by
  rw [checkVacant]
  rcases contains_cases (s := s) cluster inv with ⟨e, he⟩ | ⟨hvalid, hcontains⟩
  · exact .inl ⟨e, Work.bind_of_error he⟩
  rw [Work.bind_of_ok hcontains]
  cases hstored : inv.books.descriptors.contains cluster with
  | false =>
    right
    refine ⟨rfl, hvalid, fun d hd => ?_⟩
    rw [Dict.contains_eq_false_iff] at hstored
    change inv.books.descriptors.find? cluster = some d at hd
    rw [hstored] at hd
    cases hd
  | true =>
    obtain ⟨d, hd⟩ := Dict.contains_iff.1 hstored
    cases force with
    | false => exact .inl ⟨_, rfl⟩
    | true =>
      have hload := load_of_find? (s := s) hvalid hd
      cases hreplaceable : d.isReplaceable with
      | false =>
        left
        exists .holdsResources cluster d.state
        refine (Work.bind_of_ok hload).trans ?_
        simp only [hreplaceable]
        rfl
      | true =>
        right
        refine ⟨?_, hvalid, fun d' hd' => ?_⟩
        · refine (Work.bind_of_ok hload).trans ?_
          simp only [hreplaceable]
          rfl
        · change inv.books.descriptors.find? cluster = some d' at hd'
          rw [hd, Option.some.injEq] at hd'
          exact ⟨rfl, hd' ▸ hreplaceable⟩

/-- A configuration fails after questions at most, or it stores the descriptor of the plan where
there was none or one that may be replaced. -/
theorem configure_cases (cluster : String) (documents : Documents) (implementation : String)
    (force : Bool) (inv : Invocation (Booked ω)) :
    Failed (fun c => c.isInert = true) inv
        ((s.booked.configure cluster documents implementation force).outcome inv) ∨
      ∃ plan names now late after entries,
        isValidClusterName cluster = true ∧
        (∀ d, inv.books.find? cluster = some d → force = true ∧ d.isReplaceable = true) ∧
        documents.plan implementation = .ok plan ∧ plan.expand = .ok names ∧
        (∀ x ∈ entries, x.call.isInert = true) ∧
        (s.booked.configure cluster documents implementation force).outcome inv =
          (.ok (plan.descriptor cluster names now), after) ∧
        after.books = (inv.books.enter entries).put late (plan.descriptor cluster names now) := by
  rw [configure]
  have hgo := outcome_checkInterrupted s.booked inv
  by_cases hi : s.booked.interrupted inv.outside
  · rw [if_pos hi] at hgo
    exact .inl (.at_once (Work.bind_of_error hgo))
  rw [if_neg hi] at hgo
  rw [Work.bind_of_ok hgo]
  rcases checkVacant_cases (s := s) cluster force inv with ⟨e, he⟩ | ⟨hvacant, hvalid, hstored⟩
  · exact .inl (.at_once (Work.bind_of_error he))
  rw [Work.bind_of_ok hvacant]
  cases hplan : documents.plan implementation with
  | error e => exact .inl (.at_once rfl)
  | ok plan =>
    rw [Work.bind_ofExcept_of_ok rfl]
    cases hnames : plan.expand with
    | error e => exact .inl (.at_once rfl)
    | ok names =>
      rw [Work.bind_ofExcept_of_ok rfl]
      have hidle := Enters.work_forM (l := plan.environments)
        (enters_checkIdle s cluster documents.clouds)
      rcases Enters.bind_cases hidle _ inv with
        ⟨e, after, entries, hentries, houtcome, hafter⟩ |
        ⟨_, mid, entries, hentries, -, hmid, hrest⟩
      · exact .inl ⟨e, after, entries, hentries, houtcome, hafter⟩
      · right
        let d := plan.descriptor cluster names (s.now mid.outside.world)
        obtain ⟨late, after, hsave, hafter⟩ := save_outcome (s := s) (d := d) hvalid mid
        refine ⟨plan, names, s.now mid.outside.world, late, after, entries, hvalid, hstored, rfl,
          hnames, hentries, ?_, ?_⟩
        · rw [hrest, Work.bind_of_ok (Work.outcome_ofAction get mid)]
          exact (Work.bind_of_ok hsave).trans rfl
        · rw [hafter, hmid]

end BenchCluster.Surroundings
