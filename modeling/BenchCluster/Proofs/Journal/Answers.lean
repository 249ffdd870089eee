import BenchCluster.Proofs.Journal.Ledger

/-! # Answers that can be relied on

What is asked of the answers of clouds in a journal: that they carry the names and environments of
the requests, or also that new machines and volumes have ids of their own.
-/

namespace BenchCluster

/-- A machine or volume that a cloud answers with carries the name and the environment that were
asked for. -/
def OutsideCall.Faithful : OutsideCall → Prop
  | .launch _ r (.ok (some m)) => m.name = r.name ∧ m.environment = r.environment.name
  | .startMachine _ m (.ok started) =>
    started.name = m.name ∧ started.environment = m.environment
  | .createVolume _ r (.ok v) => v.name = r.spec.name ∧ v.environment = r.environment.name
  | _ => True

instance : DecidablePred OutsideCall.Faithful
  | .launch _ r (.ok (some m)) =>
    inferInstanceAs (Decidable (m.name = r.name ∧ m.environment = r.environment.name))
  | .startMachine _ m (.ok started) =>
    inferInstanceAs (Decidable (started.name = m.name ∧ started.environment = m.environment))
  | .createVolume _ r (.ok v) =>
    inferInstanceAs (Decidable (v.name = r.spec.name ∧ v.environment = r.environment.name))
  | .launch _ _ (.ok none) => isTrue trivial
  | .launch _ _ (.error _) => isTrue trivial
  | .startMachine _ _ (.error _) => isTrue trivial
  | .createVolume _ _ (.error _) => isTrue trivial
  | .terminate .. => isTrue trivial
  | .stopMachine .. => isTrue trivial
  | .destroyVolume .. => isTrue trivial
  | .isRunning .. => isTrue trivial
  | .role .. => isTrue trivial
  | .exec .. => isTrue trivial
  | .copy .. => isTrue trivial
  | .saved _ => isTrue trivial
  | .deleted _ => isTrue trivial

/-- What an answer is relied on for after the calls of a journal. A launch answers with the machine
that was requested, under an id that no machine there is has; a start answers with the machine that
was to be started, but for its addresses; a volume has an id that no volume there is has. -/
def OutsideCall.HonestAfter (before : List JournalEntry) : OutsideCall → Prop
  | .launch _ r (.ok (some m)) =>
    m.name = r.name ∧ m.environment = r.environment.name ∧ m.managed = r.params.managed ∧
      m.provisioned = true ∧ m.id ∉ Ledger.machines.live before
  | .startMachine _ m (.ok started) =>
    started.id = m.id ∧ started.name = m.name ∧ started.environment = m.environment ∧
      started.managed = m.managed ∧ started.provisioned = m.provisioned
  | .createVolume _ r (.ok v) =>
    v.name = r.spec.name ∧ v.environment = r.environment.name ∧
      v.id ∉ (Ledger.volumes.live before).map Volume.id
  | _ => True

instance (before : List JournalEntry) : DecidablePred (OutsideCall.HonestAfter before)
  | .launch _ r (.ok (some m)) =>
    inferInstanceAs (Decidable (m.name = r.name ∧ m.environment = r.environment.name ∧
      m.managed = r.params.managed ∧ m.provisioned = true ∧ m.id ∉ Ledger.machines.live before))
  | .startMachine _ m (.ok started) =>
    inferInstanceAs (Decidable (started.id = m.id ∧ started.name = m.name ∧
      started.environment = m.environment ∧ started.managed = m.managed ∧
      started.provisioned = m.provisioned))
  | .createVolume _ r (.ok v) =>
    inferInstanceAs (Decidable (v.name = r.spec.name ∧ v.environment = r.environment.name ∧
      v.id ∉ (Ledger.volumes.live before).map Volume.id))
  | .launch _ _ (.ok none) => isTrue trivial
  | .launch _ _ (.error _) => isTrue trivial
  | .startMachine _ _ (.error _) => isTrue trivial
  | .createVolume _ _ (.error _) => isTrue trivial
  | .terminate .. => isTrue trivial
  | .stopMachine .. => isTrue trivial
  | .destroyVolume .. => isTrue trivial
  | .isRunning .. => isTrue trivial
  | .role .. => isTrue trivial
  | .exec .. => isTrue trivial
  | .copy .. => isTrue trivial
  | .saved _ => isTrue trivial
  | .deleted _ => isTrue trivial

/-- Whether every entry of a journal was honest after those before. -/
def honestFrom (before : List JournalEntry) : List JournalEntry → Bool
  | [] => true
  | e :: rest => decide (e.call.HonestAfter before) && honestFrom (before ++ [e]) rest

/-- Every answer in a journal was honest when it was given. -/
def Honest (journal : List JournalEntry) : Prop :=
  ∀ before e, before ++ [e] <+: journal → e.call.HonestAfter before

theorem honestFrom_iff {first journal : List JournalEntry} : honestFrom first journal = true ↔
    ∀ before e, before ++ [e] <+: journal → e.call.HonestAfter (first ++ before) := by
  induction journal generalizing first with
  | nil => simp [honestFrom]
  | cons x rest ih =>
    rw [honestFrom, Bool.and_eq_true, decide_eq_true_iff, ih]
    constructor
    · rintro ⟨hx, hrest⟩ before e hgrows
      cases before with
      | nil =>
        rw [List.nil_append, List.cons_prefix_cons] at hgrows
        rw [hgrows.1, List.append_nil]
        exact hx
      | cons y before =>
        rw [List.cons_append, List.cons_prefix_cons] at hgrows
        rw [hgrows.1, List.append_cons]
        exact hrest before e hgrows.2
    · intro h
      refine ⟨?_, fun before e hgrows => ?_⟩
      · have hx := h [] x (List.cons_prefix_cons.2 ⟨rfl, rest, rfl⟩)
        rwa [List.append_nil] at hx
      · have he := h (x :: before) e (List.cons_prefix_cons.2 ⟨rfl, hgrows⟩)
        rwa [List.append_cons] at he

theorem honest_iff {journal : List JournalEntry} :
    Honest journal ↔ honestFrom [] journal = true := by
  rw [honestFrom_iff]
  rfl

def OutsideCall.storedNames? : OutsideCall → Option (List String)
  | .saved d => some (d.instances.map Prod.fst)
  | _ => none

/-- The instance names of every descriptor that has been stored are distinct. -/
def DistinctNames (journal : List JournalEntry) : Prop :=
  ∀ names ∈ journal.filterMap fun e => e.call.storedNames?, names.Nodup

theorem DistinctNames.of_longer {journal longer : List JournalEntry} (h : DistinctNames longer)
    (hp : journal <+: longer) : DistinctNames journal :=
  fun names hnames => h names ((hp.filterMap _).subset hnames)

theorem DistinctNames.of_put {b : Books} {late : Bool} {d : ClusterDescriptor}
    (h : DistinctNames (b.put late d).journal) : (d.instances.map Prod.fst).Nodup := by
  apply h
  exact List.mem_filterMap.2 ⟨⟨late, .saved d⟩, by simp, rfl⟩

namespace Honest

variable {journal : List JournalEntry}

theorem of_longer {longer : List JournalEntry} (h : Honest longer) (hp : journal <+: longer) :
    Honest journal :=
  fun before e he => h before e (he.trans hp)

theorem of_mem (h : Honest journal) {e : JournalEntry} (he : e ∈ journal) :
    ∃ before, e.call.HonestAfter before := by
  obtain ⟨before, rest, rfl⟩ := List.append_of_mem he
  refine ⟨before, h before e ?_⟩
  rw [List.append_cons before e rest]
  exact List.prefix_append _ _

theorem faithful (h : Honest journal) : ∀ e ∈ journal, e.call.Faithful := by
  intro e he
  obtain ⟨before, hbefore⟩ := h.of_mem he
  unfold OutsideCall.Faithful
  split
  · rename_i heq
    rw [heq] at hbefore
    exact ⟨hbefore.1, hbefore.2.1⟩
  · rename_i heq
    rw [heq] at hbefore
    exact ⟨hbefore.2.1, hbefore.2.2.1⟩
  · rename_i heq
    rw [heq] at hbefore
    exact ⟨hbefore.1, hbefore.2.1⟩
  · trivial

theorem nodup_machines (h : Honest journal) : (Ledger.machines.live journal).Nodup := by
  have hnew : ∀ before e, before ++ [e] <+: journal → ∀ a, Ledger.machines.gained e.call = some a →
      id a ∉ (Ledger.machines.live before).map id := by
    intro before e he a ha
    have hbefore := h before e he
    obtain ⟨env, r, m, hcall, rfl⟩ := Ledger.machines_gained ha
    rw [hcall] at hbefore
    rw [List.map_id]
    exact hbefore.2.2.2.2
  have hnodup := Ledger.machines.nodup_live id hnew
  rwa [List.map_id] at hnodup

theorem nodup_volumes (h : Honest journal) :
    ((Ledger.volumes.live journal).map Volume.id).Nodup := by
  refine Ledger.volumes.nodup_live Volume.id fun before e he a ha => ?_
  have hbefore := h before e he
  obtain ⟨env, r, hcall⟩ := Ledger.volumes_gained ha
  rw [hcall] at hbefore
  exact hbefore.2.2

end Honest

end BenchCluster
