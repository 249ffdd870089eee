import BenchCluster.Proofs.Descriptor.Shelved
import BenchCluster.Proofs.Journal.Course
import BenchCluster.Proofs.Journal.Unbegun

/-! # Nothing is lost when the user asks to stop

An invocation that finds the flag set does nothing. Wherever the flag is set later, no job and no
stretch of an operation is begun any more, jobs that were not begun have failed, and the stored
descriptor has what there was before and what has been obtained.
-/

namespace BenchCluster

variable {ω : Type}

/-- Clouds have answered with the names and environments that were asked for, and neither created
volumes nor instances of stored descriptors can be mistaken for others. -/
structure Unambiguous (journal : List JournalEntry) : Prop where
  faithful : ∀ x ∈ journal, x.call.Faithful
  volumes : DistinctVolumes journal
  instances : DistinctNames journal

theorem Unambiguous.of_longer {journal longer : List JournalEntry} (h : Unambiguous longer)
    (hp : journal <+: longer) : Unambiguous journal where
  faithful := fun x hx => h.faithful x (hp.subset hx)
  volumes := h.volumes.of_longer hp
  instances := h.instances.of_longer hp

/-- If the journal is unambiguous, the stored descriptors are consistent and their volumes can be
told apart. -/
def Books.Sound (b : Books) : Prop := Unambiguous b.journal → b.Consistent ∧ b.Shelved

theorem Change.sound {cluster : String} {b b' : Books} (h : Change cluster b b') (hnamed : b.Named)
    (hb : b.Sound) : b'.Sound := by
  intro hunambiguous
  obtain ⟨hall, hshelved⟩ :=
    hb (hunambiguous.of_longer (h.extendsBooks hnamed).journal_grows)
  exact ⟨h.consistent hall hunambiguous.faithful, h.shelved hshelved hunambiguous.volumes⟩

theorem Books.sound_after (turns : List Turn) :
    (Books.after turns).Named ∧ (Books.after turns).Sound :=
  after_induction turns (fun _ => ⟨every_blank _, every_blank _⟩)
    fun _ _ _ _ hnamed hb hchange => hchange.sound hnamed hb

namespace Turn

variable {b : Books}

theorem sound (t : Turn) (hnamed : b.Named) (hb : b.Sound) :
    (t.books b).Named ∧ (t.books b).Sound :=
  Books.after_turn (t.changes hnamed) hnamed hb fun _ _ hnamed hb hchange => hchange.sound hnamed hb

theorem journal_grows (t : Turn) (hnamed : b.Named) : b.journal <+: (t.books b).journal :=
  (Books.after_turn (P := fun b' => b.journal <+: b'.journal) (t.changes hnamed) hnamed
    (List.prefix_refl _) fun _ _ hnamed hp hchange =>
      hp.trans (hchange.extendsBooks hnamed).journal_grows).2

/-- A single operation is candid about its jobs and retains what there is. -/
theorem salvages (t : Turn) (hsingle : t.request.stages = [t.request]) (hnamed : b.Named)
    (hb : b.Sound) (h : Unambiguous (t.books b).journal) :
    Salvages t.cluster t.request (t.answer b) b (t.books b) := by
  obtain ⟨hall, hshelved⟩ := hb (h.of_longer (t.journal_grows hnamed))
  obtain ⟨World, s, start, cluster, request⟩ := t
  cases request with
  | configure documents implementation force =>
    rw [answer, books, play, Surroundings.serve, Work.outcome_some]
    exact s.salvages_configure cluster documents implementation force _
  | allocate force =>
    rw [books, play, Surroundings.serve, Work.outcome_some] at h
    rw [answer, books, play, Surroundings.serve, Work.outcome_some]
    exact s.salvages_allocate hnamed h.faithful h.instances
  | make =>
    rw [answer, books, play, Surroundings.serve, Work.outcome_some]
    exact s.salvages_make cluster _
  | install =>
    rw [answer, books, play, Surroundings.serve, Work.outcome_some]
    exact s.salvages_install hnamed
  | stop =>
    rw [answer, books, play, Surroundings.serve, Work.outcome_some]
    exact s.salvages_stop hnamed
  | start =>
    rw [answer, books, play, Surroundings.serve, Work.outcome_some]
    exact s.salvages_start hnamed hall
  | clean =>
    have hclean := @Surroundings.salvages_clean _ s cluster (start.withBooks b) hnamed hall
      fun d hd => (hshelved cluster d hd).distinct
    rw [answer, books, play, Surroundings.serve]
    -- A request to clean up answers no descriptor, but otherwise it is the cleanup.
    rcases Work.bind_cases (s.booked.clean cluster) (fun _ => return none) (start.withBooks b) with
      ⟨e, mid, hmid, houtcome⟩ | ⟨u, mid, hmid, houtcome⟩
    · rw [hmid] at hclean
      rw [houtcome]
      exact hclean
    · rw [hmid] at hclean
      rw [houtcome]
      exact hclean
  | all documents implementation force => cases hsingle

variable {t : Turn} {request : Request} {requests : List Request}
  {answer : Except OrchestratorError (Option ClusterDescriptor)} {b' : Books}

theorem Plays.sound (h : t.Plays request answer b b') (hnamed : b.Named) (hb : b.Sound) :
    b'.Named ∧ b'.Sound ∧ b.journal <+: b'.journal := by
  obtain ⟨start, hplay⟩ := h
  obtain ⟨-, rfl⟩ := Prod.mk.inj hplay
  obtain ⟨hnamed', hb'⟩ := Turn.sound _ hnamed hb
  exact ⟨hnamed', hb', journal_grows _ hnamed⟩

theorem Plays.salvages (h : t.Plays request answer b b') (hsingle : request.stages = [request])
    (hnamed : b.Named) (hb : b.Sound) (hunambiguous : Unambiguous b'.journal) :
    Salvages t.cluster request answer b b' := by
  obtain ⟨start, hplay⟩ := h
  obtain ⟨rfl, rfl⟩ := Prod.mk.inj hplay
  exact Turn.salvages _ hsingle hnamed hb hunambiguous

theorem salvages_of_plays (h : Sequenced t.Plays requests answer b b')
    (hsingle : ∀ request ∈ requests, request.stages = [request]) (hnamed : b.Named)
    (hb : b.Sound) (hunambiguous : Unambiguous b'.journal) :
    Sequenced (Salvages t.cluster) requests answer b b' := by
  induction h with
  | last step => exact .last (step.salvages (hsingle _ List.mem_cons_self) hnamed hb hunambiguous)
  | broken step =>
    exact .broken (step.salvages (hsingle _ List.mem_cons_self) hnamed hb hunambiguous)
  | @next request rest d answer x y z step others ih =>
    obtain ⟨hynamed, hy, -⟩ := step.sound hnamed hb
    -- the journal of the first operation is part of that of all of them
    obtain ⟨-, -, hgrows⟩ := others.keeps
      (P := fun b' => b'.Named ∧ b'.Sound ∧ y.journal <+: b'.journal)
      ⟨hynamed, hy, List.prefix_refl _⟩ fun request _ answer x x' ⟨hxnamed, hx, hp⟩ hstep =>
        (hstep.sound hxnamed hx).imp id (And.imp id hp.trans)
    exact .next
      (step.salvages (hsingle _ List.mem_cons_self) hnamed hb (hunambiguous.of_longer hgrows))
      (ih (fun request hrequest => hsingle request (List.mem_cons_of_mem _ hrequest)) hynamed hy
        hunambiguous)

end Turn

/-- Interrupts stop new work and lose nothing. An invocation that finds the flag set fails and
leaves the books as they are. Wherever in it the flag is set, and whether or not it stays so, the
calls made while it is set write to the store or go on with the stretch of the call before; none of
them is a job of a pool. An operation fails if one of its jobs was not begun, and names it if it has
come to its pools. The stored descriptor keeps the machines and volumes that were not begun to be
taken down, and has those that were launched and created. -/
theorem interrupts_lose_nothing (turns : List Turn) (t : Turn)
    (hunambiguous : Unambiguous (Books.after (turns ++ [t])).journal) :
    (t.surroundings.interrupted t.start.outside = true →
      ∃ e, t.answer (Books.after turns) = .error e ∧
        Books.after (turns ++ [t]) = Books.after turns) ∧
    ∃ calls, (Books.after (turns ++ [t])).journal = (Books.after turns).journal ++ calls ∧
      Heeded calls ∧
      (∀ x ∈ calls, ∀ job, x.call.job? = some job → x.late = false ∧ t.request.runs job = true) ∧
      Sequenced (Salvages t.cluster) t.request.stages (t.answer (Books.after turns))
        (Books.after turns) (Books.after (turns ++ [t])) := by
  obtain ⟨hnamed, hsound⟩ := Books.sound_after turns
  rw [Books.after_append] at hunambiguous ⊢
  refine ⟨fun hstop => ?_, ?_⟩
  · obtain ⟨e, he⟩ := @Surroundings.serve_of_interrupted _ t.surroundings t.cluster
      (t.start.withBooks (Books.after turns)) hstop t.request
    refine ⟨e, ?_, ?_⟩
    · rw [Turn.answer, Turn.play, he]
    · rw [Turn.books, Turn.play, he]
      rfl
  · obtain ⟨calls, hcalls, hjobs, hheeded⟩ := t.surroundings.heeds_serve t.cluster t.request
      (t.start.withBooks (Books.after turns))
    refine ⟨calls, hcalls, hheeded, fun x hx job hjob => ?_, ?_⟩
    · exact ⟨hheeded.late_of_job hx hjob, hjobs x hx job hjob⟩
    · exact Turn.salvages_of_plays (t.plays _) (fun request => Request.stages_of_mem) hnamed hsound
        hunambiguous

namespace Sample

/-- The surroundings in which the user asks to stop while the first machine is launched. -/
def halting : Surroundings Nat := { surroundings with interrupted := fun number => 0 < number }

def configured (documents : Documents) : List Turn :=
  [turn 0 (.configure documents "standard" false)]

def haltedAllocation : Turn := halting.turn { outside := 0 } "c" (.allocate false)

theorem played_haltedAllocation :
    (haltedAllocation.answer (Books.after (configured documents)),
      (Books.after (configured documents ++ [haltedAllocation])).journal.all fun x =>
        decide x.call.Faithful,
      createdVolumes (Books.after (configured documents ++ [haltedAllocation])).journal,
      (Books.after (configured documents ++ [haltedAllocation])).journal.filterMap fun x =>
        x.call.storedNames?) =
      (.error (.allocationFailed "c" ["fake-r1/data"]), true, [], [["db_0"], ["db_0"]]) := by
  cbv

def namesakes : Template :=
  ⟨.of [("x,y", .of []), ("x,z", .of [])], by
    simp only [RoleForest.Sorted, RoleForest.SortedBelow]
    decide⟩

def namesakeDocuments : Documents :=
  { documents with
    topologies := Dict.ofList [("namesakes", namesakes)]
    implementations := Dict.ofList [("standard",
      { topology := "namesakes"
        roles := Dict.ofList [("x,y", { cloud := some "fake", region := some "r1" }),
          ("x,z", { cloud := some "fake", region := some "r1" })] })] }

/-- The names of the jobs of the allocation that were not begun. -/
def unbegunNames (documents : Documents) : Option (List String) :=
  let before := Books.after (configured documents)
  let calls := (haltedAllocation.books before).journal.drop before.journal.length
  (before.find? "c").map fun d =>
    (((Request.allocate false).jobs "c" d).filter fun job =>
      calls.all fun x => x.call.job? ≠ some job).map PoolJob.label

theorem played_namesakes : (haltedAllocation.answer (Books.after (configured namesakeDocuments)),
      unbegunNames namesakeDocuments,
      (Books.after (configured namesakeDocuments ++ [haltedAllocation])).journal.all fun x =>
        decide x.call.Faithful,
      createdVolumes (Books.after (configured namesakeDocuments ++ [haltedAllocation])).journal) =
      (.error (.allocationFailed "c" ["y_0", "z_0"]), some ["y_0", "x", "z_0"], true, []) := by
  cbv

end Sample

/-- The user asks to stop while the machine is launched: the volume has failed, and the machine is
kept. -/
theorem sample_interrupt_loses_nothing :
    Sample.haltedAllocation.answer (Books.after (Sample.configured Sample.documents)) =
        .error (.allocationFailed "c" ["fake-r1/data"]) ∧
      Sequenced (Salvages "c") [.allocate false]
        (Sample.haltedAllocation.answer (Books.after (Sample.configured Sample.documents)))
        (Books.after (Sample.configured Sample.documents))
        (Books.after (Sample.configured Sample.documents ++ [Sample.haltedAllocation])) := by
  obtain ⟨hanswer, hplayed⟩ := Prod.mk.inj Sample.played_haltedAllocation
  obtain ⟨hall, hplayed⟩ := Prod.mk.inj hplayed
  obtain ⟨hvolumes, hnames⟩ := Prod.mk.inj hplayed
  have hunambiguous : Unambiguous
      (Books.after (Sample.configured Sample.documents ++ [Sample.haltedAllocation])).journal := by
    refine ⟨fun x hx => of_decide_eq_true (List.all_eq_true.1 hall x hx), ?_, ?_⟩
    · rw [DistinctVolumes, hvolumes]
      exact List.nodup_nil
    · rw [DistinctNames, hnames]
      decide
  obtain ⟨-, calls, -, -, -, hsalvages⟩ := interrupts_lose_nothing
    (Sample.configured Sample.documents) Sample.haltedAllocation hunambiguous
  exact ⟨hanswer, hsalvages⟩

/-- The user asks to stop while the first launch waits for its turn, and nothing is launched. -/
example : (Surroundings.turn { Sample.halting with meanwhile := Nat.succ } { outside := 0 } "c"
      (.allocate false)).answer (Books.after (Sample.configured Sample.documents)) =
    .error (.allocationFailed "c" ["db_0", "fake-r1/data"]) := by
  cbv

/-- Without distinct instance names a launch that was not begun need not be among the failures. -/
theorem namesake_launch_not_failed : ∃ d calls,
    (Books.after (Sample.configured Sample.namesakeDocuments)).find? "c" = some d ∧
      (Sample.haltedAllocation.books
          (Books.after (Sample.configured Sample.namesakeDocuments))).journal =
        (Books.after (Sample.configured Sample.namesakeDocuments)).journal ++ calls ∧
      (∀ x ∈ calls, x.call.Faithful) ∧
      (∃ job ∈ (Request.allocate false).jobs "c" d, (∀ x ∈ calls, x.call.job? ≠ some job) ∧
        job.label = "x") ∧
      Sample.haltedAllocation.answer (Books.after (Sample.configured Sample.namesakeDocuments)) =
        .error (.allocationFailed "c" ["y_0", "z_0"]) := by
  obtain ⟨hanswer, hplayed⟩ := Prod.mk.inj Sample.played_namesakes
  obtain ⟨hunbegun, hplayed⟩ := Prod.mk.inj hplayed
  obtain ⟨hall, -⟩ := Prod.mk.inj hplayed
  rw [Books.after_append] at hall
  obtain ⟨calls, hcalls⟩ := Sample.haltedAllocation.journal_grows
    (Books.named_after (Sample.configured Sample.namesakeDocuments))
  simp only [Sample.unbegunNames] at hunbegun
  obtain ⟨d, hd, hlabels⟩ := Option.map_eq_some_iff.1 hunbegun
  rw [← hcalls, List.drop_left] at hlabels
  have hx : "x" ∈ ["y_0", "x", "z_0"] := by decide
  rw [← hlabels] at hx
  obtain ⟨job, hjob, hlabel⟩ := List.mem_map.1 hx
  obtain ⟨hjob, hnone⟩ := List.mem_filter.1 hjob
  refine ⟨d, calls, hd, hcalls.symm, fun x hx => ?_, ⟨job, hjob, fun x hx => ?_, hlabel⟩, hanswer⟩
  · have hfaithful := List.all_eq_true.1 hall x
    rw [← hcalls] at hfaithful
    exact of_decide_eq_true (hfaithful (List.mem_append_right _ hx))
  · exact of_decide_eq_true (List.all_eq_true.1 hnone x hx)

end BenchCluster
