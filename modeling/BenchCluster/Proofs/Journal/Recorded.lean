import BenchCluster.Proofs.Journal.Course

/-! # What is stored according to a journal

The stored descriptors can be read off the journal of what has been stored and forgotten, at every
moment of a run and also when the store has failed in between.
-/

namespace BenchCluster

def OutsideCall.isWrite : OutsideCall → Bool
  | .saved _ => true
  | .deleted _ => true
  | _ => false

theorem OutsideCall.isWrite_of_isLasting {c : OutsideCall} (h : c.isLasting = false) :
    c.isWrite = false := by
  cases c <;> simp_all [isLasting, isWrite]

theorem OutsideCall.isWrite_of_isInert {c : OutsideCall} (h : c.isInert = true) :
    c.isWrite = false :=
  isWrite_of_isLasting (isLasting_of_isInert h)

def JournalEntry.apply (stored : Dict ClusterDescriptor) (e : JournalEntry) :
    Dict ClusterDescriptor :=
  match e.call with
  | .saved d => stored.insert d.clusterName d
  | .deleted cluster => stored.erase cluster
  | _ => stored

/-- The stored descriptors after all entries of a journal. -/
def recorded (journal : List JournalEntry) : Dict ClusterDescriptor :=
  journal.foldl JournalEntry.apply ∅

theorem recorded_concat (journal : List JournalEntry) (e : JournalEntry) :
    recorded (journal ++ [e]) = e.apply (recorded journal) := by
  simp [recorded]

theorem JournalEntry.apply_of_not_isWrite {e : JournalEntry} (h : e.call.isWrite = false)
    (stored : Dict ClusterDescriptor) : e.apply stored = stored := by
  obtain ⟨late, call⟩ := e
  cases call with
  | saved d => cases h
  | deleted cluster => cases h
  | _ => rfl

theorem recorded_append {entries : List JournalEntry} (h : ∀ e ∈ entries, e.call.isWrite = false)
    (journal : List JournalEntry) : recorded (journal ++ entries) = recorded journal := by
  induction entries using List.reverseRecOn with
  | nil => rw [List.append_nil]
  | append_singleton entries e ih =>
    rw [← List.append_assoc, recorded_concat, JournalEntry.apply_of_not_isWrite (h e (by simp))]
    exact ih fun x hx => h x (List.mem_append_left _ hx)

theorem exists_saved_of_recorded {journal : List JournalEntry} {cluster : String}
    {d : ClusterDescriptor} (h : (recorded journal).find? cluster = some d) :
    ∃ before e, before ++ [e] <+: journal ∧ e.call = .saved d := by
  induction journal using List.reverseRecOn with
  | nil => cases h
  | append_singleton journal e ih =>
    have hearlier : (recorded journal).find? cluster = some d →
        ∃ before x, before ++ [x] <+: journal ++ [e] ∧ x.call = .saved d := by
      intro hd
      obtain ⟨before, x, hpart, hx⟩ := ih hd
      exact ⟨before, x, hpart.trans (List.prefix_append _ _), hx⟩
    rw [recorded_concat, JournalEntry.apply] at h
    split at h
    · rename_i saved heq
      rw [Dict.find?_insert] at h
      split at h
      · rw [Option.some.injEq] at h
        exact ⟨journal, e, List.prefix_refl _, h ▸ heq⟩
      · exact hearlier h
    · rw [Dict.find?_erase] at h
      split at h
      · cases h
      · exact hearlier h
    · exact hearlier h

/-! ## Runs -/

namespace Books

def Recorded (b : Books) : Prop := b.descriptors = recorded b.journal

namespace Recorded

variable {b : Books}

theorem enter {entries : List JournalEntry} (hb : b.Recorded)
    (h : ∀ e ∈ entries, e.call.isWrite = false) : (b.enter entries).Recorded :=
  hb.trans (recorded_append h b.journal).symm

theorem put (hb : b.Recorded) (late : Bool) (d : ClusterDescriptor) : (b.put late d).Recorded := by
  rw [Recorded, journal_put, recorded_concat, ← hb]
  rfl

theorem drop (hb : b.Recorded) (late : Bool) (cluster : String) :
    (b.drop late cluster).Recorded := by
  rw [Recorded, journal_drop, recorded_concat, ← hb]
  rfl

end Recorded

end Books

theorem Allocating.isWrite_of_mem_entries {cluster : String} {d : ClusterDescriptor}
    (a : Allocating cluster d) : ∀ e ∈ a.entries, e.call.isWrite = false := by
  intro e he
  rcases List.mem_append.1 he with he | he
  · obtain ⟨x, -, r, -, rfl⟩ := Errand.mem_flatMap_entries he
    rfl
  · obtain ⟨x, -, r, -, rfl⟩ := Errand.mem_flatMap_entries he
    rfl

namespace Effect

variable {cluster : String} {request : Request} {b b' : Books}
  {answer : Except OrchestratorError (Option ClusterDescriptor)}

/-- What an operation stores and forgets it enters in the journal. -/
theorem recorded (h : Effect cluster b request answer b') (hb : b.Recorded) : b'.Recorded := by
  have hinert : ∀ {entries : List JournalEntry}, (∀ e ∈ entries, e.call.isInert = true) →
      (b.enter entries).Recorded :=
    fun h => hb.enter fun e he => OutsideCall.isWrite_of_isInert (h e he)
  have hquiet : ∀ {entries : List JournalEntry}, (∀ e ∈ entries, e.call.isLasting = false) →
      (b.enter entries).Recorded :=
    fun h => hb.enter fun e he => OutsideCall.isWrite_of_isLasting (h e he)
  cases h with
  | refused refusal unaccepted => exact hb
  | failed mishap nothing => exact hquiet nothing
  | configured valid inert accepted planned expanded => exact (hinert inert).put _ _
  | lost loaded a mishap => exact hb.enter a.isWrite_of_mem_entries
  | allocated loaded a => exact (hb.enter a.isWrite_of_mem_entries).put _ _
  | made loaded inert => exact hinert inert
  | installed loaded inert => exact (hinert inert).put _ _
  | stopped loaded inert => exact (hinert inert).put _ _
  | woken loaded x failures => exact (hquiet (isLasting_of_starting x)).put _ _
  | started loaded x inert => exact (hquiet (isLasting_of_waking x inert)).put _ _
  | cleaned loaded roles c =>
    have hentries := hquiet (isLasting_of_cleaning roles c)
    rw [Cleaning.settle]
    split
    · exact hentries.drop _ _
    · exact hentries.put _ _

end Effect

/-- After every run the stored descriptors are those that the journal says. -/
theorem Books.recorded_afterVentures (turns : List Turn) : (afterVentures turns).Recorded :=
  afterVentures_induction turns rfl fun _ _ _ _ _ _ _ hb h => h.recorded hb

end BenchCluster
