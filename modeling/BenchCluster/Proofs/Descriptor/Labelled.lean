import BenchCluster.Proofs.Descriptor.Current
import BenchCluster.Proofs.Journal.Recorded

/-! # The names that members are stored under

Members are stored under the names of instances, and these are also the names of their machines, as
long as no start that is stored has been answered with a machine of another name. Launches may be
answered with any names.
-/

namespace BenchCluster

variable {ω : Type} {d : ClusterDescriptor}

/-- Every member is stored under the name of its machine, which is that of an instance. -/
def ClusterDescriptor.Labelled (d : ClusterDescriptor) : Prop :=
  ∀ key m, d.members.find? key = some m → m.name = key ∧ ∃ role, (key, role) ∈ d.instances

theorem ClusterDescriptor.Labelled.keyed (h : d.Labelled) : d.Keyed :=
  fun key m hm => (h key m hm).1

/-- An invocation stores something after an instance has been started under another name. -/
def Turn.Renames (t : Turn) (b : Books) : Prop :=
  ∃ calls, (t.venture b).2.journal = b.journal ++ calls ∧
    (∃ x ∈ calls, x.call.isWrite = true) ∧ ∃ x ∈ calls, x.call.keepsName = false

namespace Books

def Labelled (b : Books) : Prop := ∀ x ∈ b.journal, ∀ d, x.call = .saved d → d.Labelled

namespace Labelled

variable {b : Books}

theorem of_find? (hb : b.Labelled) (hrecorded : b.Recorded) {cluster : String}
    (hd : b.find? cluster = some d) : d.Labelled := by
  rw [find?, hrecorded] at hd
  obtain ⟨before, x, hpart, hx⟩ := exists_saved_of_recorded hd
  exact hb x (hpart.subset (by simp)) d hx

theorem enter (hb : b.Labelled) {entries : List JournalEntry}
    (h : ∀ x ∈ entries, x.call.isWrite = false) : (b.enter entries).Labelled := by
  intro x hx d hd
  rw [journal_enter, List.mem_append] at hx
  rcases hx with hx | hx
  · exact hb x hx d hd
  · have hquiet := h x hx
    rw [hd] at hquiet
    cases hquiet

theorem put (hb : b.Labelled) (late : Bool) (hd : d.Labelled) : (b.put late d).Labelled := by
  intro x hx d' hd'
  rw [journal_put, List.mem_append, List.mem_singleton] at hx
  rcases hx with hx | rfl
  · exact hb x hx d' hd'
  · cases hd'
    exact hd

theorem drop (hb : b.Labelled) (late : Bool) (cluster : String) :
    (b.drop late cluster).Labelled := by
  intro x hx d hd
  rw [journal_drop, List.mem_append, List.mem_singleton] at hx
  rcases hx with hx | rfl
  · exact hb x hx d hd
  · cases hd

end Labelled

end Books

/-! ## What operations keep -/

/-- An allocation adds members under the names of missing instances, whatever launches have
answered. -/
theorem Allocating.labelled {cluster : String} (a : Allocating cluster d) (hd : d.Labelled) :
    a.descriptor.Labelled := by
  intro key m hm
  rcases a.find?_members hm with hm | ⟨hnew, rfl⟩
  · exact hd key m hm
  · obtain ⟨role, hrole⟩ := a.missing_of_mem_machines hnew
    exact ⟨rfl, role, (ClusterDescriptor.mem_missingInstances_iff.1 hrole).1⟩

/-- What a start stores is labelled exactly if all machines that have come up have the names of
those that were to be started. -/
theorem Starting.labelled_iff (x : Starting d) (hd : d.Labelled) (state : ClusterState) :
    { x.descriptor with state := state }.Labelled ↔
      ∀ y ∈ x.entries, y.call.keepsName = true := by
  constructor
  · intro hlabelled y hy
    obtain ⟨a, ha, answer, hanswer, rfl⟩ := Errand.mem_flatMap_entries hy
    cases answer with
    | error e => rfl
    | ok up =>
      have hstarted : startedIn? (x.entries ++ []) a.request.name = some up :=
        (x.startedIn?_eq_some_iff hd.keyed (by simp)).2
          ⟨a, ha, rfl, Attempt.value?_eq_some.2 hanswer⟩
      have hmember : x.descriptor.members.find? a.request.name = some up := by
        rw [x.find?_members_eq hd.keyed (List.forall_mem_nil _), hstarted]
        rfl
      exact decide_eq_true (hlabelled a.request.name up hmember).1
  · intro hkeeps key m hm
    rcases x.find?_members hm with hm | ⟨a, ha, rfl, hvalue⟩
    · exact hd key m hm
    · have hname : m.name = a.request.name := of_decide_eq_true
        (hkeeps _ (Errand.entry_mem ha (Attempt.value?_eq_some.1 hvalue)))
      obtain ⟨hmember, -⟩ := List.mem_filter.1 (x.served.request_mem ha)
      obtain ⟨key, hkey⟩ := Dict.mem_values_iff.1 hmember
      obtain ⟨hsame, hinstance⟩ := hd key _ hkey
      rw [hsame] at hname ⊢
      exact ⟨hname, hinstance⟩

/-- All that is stored stays labelled, whatever is done besides starting a cluster. -/
theorem Effect.labelled {cluster : String} {request : Request} {b b' : Books}
    {answer : Except OrchestratorError (Option ClusterDescriptor)}
    (h : Effect cluster b request answer b') (hrequest : request ≠ .start) (hb : b.Labelled)
    (hrecorded : b.Recorded) : b'.Labelled := by
  have hinert : ∀ {entries : List JournalEntry}, (∀ x ∈ entries, x.call.isInert = true) →
      (b.enter entries).Labelled :=
    fun h => hb.enter fun x hx => OutsideCall.isWrite_of_isInert (h x hx)
  have hstored : ∀ {d : ClusterDescriptor}, b.find? cluster = some d → d.Labelled :=
    fun hd => hb.of_find? hrecorded hd
  cases h with
  | refused refusal unaccepted => exact hb
  | failed mishap nothing =>
    exact hb.enter fun x hx => OutsideCall.isWrite_of_isLasting (nothing x hx)
  | configured valid inert accepted planned expanded =>
    exact (hinert inert).put _ fun key m hm => by cases hm
  | lost loaded a mishap => exact hb.enter a.isWrite_of_mem_entries
  | allocated loaded a =>
    exact (hb.enter a.isWrite_of_mem_entries).put _ (a.labelled (hstored loaded.stored))
  | made loaded inert => exact hinert inert
  | installed loaded inert =>
    have hd := hstored loaded.stored
    exact (hinert inert).put _ hd
  | stopped loaded inert =>
    have hd := hstored loaded.stored
    exact (hinert inert).put _ hd
  | woken loaded x failures => exact absurd rfl hrequest
  | started loaded x inert => exact absurd rfl hrequest
  | cleaned loaded roles c =>
    have hentries := hb.enter fun x hx =>
      OutsideCall.isWrite_of_isLasting (isLasting_of_cleaning roles c x hx)
    rw [Cleaning.settle]
    split
    · exact hentries.drop _ _
    · refine hentries.put _ fun key m hm => ?_
      exact hstored loaded.stored key m (c.find?_members_left.1 hm).1

theorem venture_start_cases (s : Surroundings ω) (start : Invocation ω) (cluster : String)
    (b : Books) :
    let after := ((s.turn start cluster .start).venture b).2
    (∃ calls, after = b.enter calls ∧ ∀ y ∈ calls, y.call.isWrite = false) ∨
      ∃ (d : ClusterDescriptor) (x : Starting d) (steps : List JournalEntry) (late : Bool)
        (state : ClusterState), b.find? cluster = some d ∧ (∀ y ∈ steps, y.call.isRole = true) ∧
          after = (b.enter (x.entries ++ steps)).put late { x.descriptor with state := state } := by
  intro after
  have hafter : after = ((s.frail.start cluster).outcome (start.withBooks b)).2.books := by
    change ((s.frail.serve cluster .start).outcome (start.withBooks b)).2.books = _
    rw [Surroundings.serve, Work.outcome_some]
  rw [hafter]
  rcases Effect.start_frail_cases s cluster (start.withBooks b) with
    ⟨e, last, houtcome, hlast, -⟩ | ⟨d, x, mid, hloaded, hmid, houtcome⟩
  · rw [houtcome]
    exact .inl ⟨[], hlast.trans (Books.enter_nil b).symm, by simp⟩
  rw [houtcome]
  obtain ⟨last, steps, hsteps, hcases⟩ := Effect.rise_frail_cases s x mid
  rcases hcases with ⟨e, -, hrise, hlast⟩ | ⟨-, hrise, late, hlast⟩ | ⟨hrise, late, hlast⟩
  · rw [hrise, hlast, hmid, Books.enter_enter]
    refine .inl ⟨_, rfl, fun y hy => OutsideCall.isWrite_of_isLasting ?_⟩
    exact Effect.isLasting_of_waking x
      (fun y hy => OutsideCall.isInert_of_isRole (hsteps y hy)) y hy
  · rw [hrise, hlast, hmid]
    exact .inr ⟨d, x, [], late, x.descriptor.state, hloaded.stored, by simp,
      by rw [List.append_nil]; rfl⟩
  · rw [hrise, hlast, hmid, Books.enter_enter]
    exact .inr ⟨d, x, steps, late, .ready, hloaded.stored, hsteps, rfl⟩

/-- After a start all that has been stored is labelled exactly if it was before and the start does not
store machines of other names. -/
theorem Turn.labelled_start_iff {t : Turn} (hstart : t.request = .start) {b : Books}
    (hb : b.Labelled) (hrecorded : b.Recorded) :
    (t.venture b).2.Labelled ↔ ¬ t.Renames b := by
  obtain ⟨World, s, start, cluster, request⟩ := t
  cases hstart
  change ((s.turn start cluster .start).venture b).2.Labelled ↔
    ¬ (s.turn start cluster .start).Renames b
  rcases venture_start_cases s start cluster b with
    ⟨calls, hafter, hquiet⟩ | ⟨d, x, steps, late, state, hd, hsteps, hafter⟩
  · refine iff_of_true (hafter ▸ hb.enter hquiet) ?_
    rintro ⟨calls', hjournal, ⟨y, hy, hwrite⟩, -⟩
    rw [hafter, Books.journal_enter, List.append_cancel_left_eq] at hjournal
    rw [hquiet y (hjournal ▸ hy)] at hwrite
    cases hwrite
  · have hlabelled := hb.of_find? hrecorded hd
    have hsaved : ((s.turn start cluster .start).venture b).2.Labelled ↔
        { x.descriptor with state := state }.Labelled := by
      rw [hafter]
      refine ⟨fun h => h ⟨late, .saved { x.descriptor with state := state }⟩ (by simp) _ rfl,
        fun h => (hb.enter ?_).put _ h⟩
      exact fun y hy => OutsideCall.isWrite_of_isLasting (Effect.isLasting_of_waking x
        (fun y hy => OutsideCall.isInert_of_isRole (hsteps y hy)) y hy)
    have hnames : ¬ (s.turn start cluster .start).Renames b ↔
        ∀ y ∈ x.entries, y.call.keepsName = true := by
      rw [Turn.Renames, hafter, Books.journal_put, Books.journal_enter, List.append_assoc]
      constructor
      · intro hnot y hy
        by_contra hname
        exact hnot ⟨_, rfl, ⟨_, List.mem_append_right _ List.mem_cons_self, rfl⟩, y, by simp [hy],
          by simpa using hname⟩
      · rintro hkeeps ⟨calls, hcalls, -, y, hy, hname⟩
        rw [List.append_cancel_left_eq] at hcalls
        rw [← hcalls, List.mem_append, List.mem_append, List.mem_singleton] at hy
        rcases hy with (hy | hy) | rfl
        · exact absurd (hkeeps y hy) (by simp [hname])
        · have hrole := hsteps y hy
          cases hcall : y.call <;> simp_all [OutsideCall.isRole, OutsideCall.keepsName]
        · cases hname
    rw [hsaved, x.labelled_iff hlabelled, hnames]

/-! ## Every run -/

theorem Turn.journal_venture (t : Turn) {b : Books} (hb : b.Named) :
    b.journal <+: (t.venture b).2.journal := by
  refine ((t.course b).keeps (P := fun b' => b'.Named ∧ b.journal <+: b'.journal)
    ⟨hb, List.prefix_refl _⟩ ?_).2
  intro request _ answer x y hx heffect
  have hgrows := (heffect.extendsBooks fun d hd => (hx.1 t.cluster d hd).1).journal_grows
  exact ⟨heffect.named hx.1, hx.2.trans hgrows⟩

/-- One invocation keeps all that is stored labelled unless it is a start that renames. -/
theorem Turn.labelled_venture_iff (t : Turn) {b : Books} (hnamed : b.Named)
    (hrecorded : b.Recorded) :
    (t.venture b).2.Labelled ↔ b.Labelled ∧ (t.request = .start → ¬ t.Renames b) := by
  have hbefore : (t.venture b).2.Labelled → b.Labelled := fun h x hx =>
    h x ((t.journal_venture hnamed).subset hx)
  by_cases hstart : t.request = .start
  · constructor
    · exact fun h => ⟨hbefore h, fun _ => (labelled_start_iff hstart (hbefore h) hrecorded).1 h⟩
    · rintro ⟨hb, hrenames⟩
      exact (labelled_start_iff hstart hb hrecorded).2 (hrenames hstart)
  · refine ⟨fun h => ⟨hbefore h, fun h => absurd h hstart⟩, fun ⟨hb, _⟩ => ?_⟩
    refine ((t.course b).keeps (P := fun b' => b'.Labelled ∧ b'.Recorded) ⟨hb, hrecorded⟩ ?_).1
    intro stage hstage answer x y hx heffect
    have hother : stage ≠ .start := by
      rintro rfl
      cases hrequest : t.request <;> rw [hrequest] at hstage hstart <;>
        simp [Request.stages] at hstage hstart
    exact ⟨heffect.labelled hother hx.1 hx.2, heffect.recorded hx.2⟩

/-- Whatever clouds answer, all members ever stored are stored under the names of their machines,
which are those of instances, exactly if no start of the run has stored something after an instance
has come up under another name. -/
theorem members_labelled_iff (turns : List Turn) :
    (Books.afterVentures turns).Labelled ↔ ∀ before t, before ++ [t] <+: turns →
      t.request = .start → ¬ t.Renames (Books.afterVentures before) := by
  induction turns using List.reverseRecOn with
  | nil =>
    refine iff_of_true (fun x hx => by cases hx) fun before t hbegins => ?_
    simp at hbegins
  | append_singleton turns u ih =>
    rw [Books.afterVentures_concat, u.labelled_venture_iff (Books.named_afterVentures turns)
      (Books.recorded_afterVentures turns), ih]
    constructor
    · rintro ⟨hearlier, hlast⟩ before t hbegins
      rcases List.prefix_concat_iff.1 hbegins with heq | hbegins
      · obtain ⟨rfl, rfl⟩ := List.append_singleton_inj.1 heq
        exact hlast
      · exact hearlier before t hbegins
    · intro h
      exact ⟨fun before t hbegins => h before t (hbegins.trans (List.prefix_append _ _)),
        h turns u (List.prefix_refl _)⟩

namespace Sample

/-- Surroundings with a cloud that gives machines another name when it starts them. -/
def relabelling : Surroundings Nat :=
  let careless : Cloud Nat :=
    { cloud with
      launchInstance := fun r => return .ok (some { r.machine "i-1" with publicAddress := some "b" })
      startInstance := fun m => return .ok { m with name := "other" } }
  { steady with
    clouds := Dict.ofList [("fake", fun _ _ _ => .ok careless)]
    roles := RoleRegistry.builtin steady.executor }

def labelledTurns : List Turn :=
  [.configure backendDocuments "standard" false, .allocate false, .install, .stop].map
    fun request => relabelling.turn { outside := 0 } "c" request

def relabelledTurns : List Turn :=
  labelledTurns ++ [relabelling.turn { outside := 0 } "c" .start]

end Sample

/-- The member is stored with a machine of another name once it has been started. -/
theorem sample_member_relabelled : ¬ (Books.afterVentures Sample.relabelledTurns).Labelled ∧
    ∃ d m, (Books.afterVentures Sample.relabelledTurns).find? "c" = some d ∧
      d.members.find? "db_0" = some m ∧ m.name = "other" := by
  have hplayed : (((Books.afterVentures Sample.relabelledTurns).find? "c").map fun d =>
        (d.members.find? "db_0").map Machine.name,
      ((Books.afterVentures Sample.relabelledTurns).journal.drop
        (Books.afterVentures Sample.labelledTurns).journal.length).map fun x =>
          (x.call.isWrite, x.call.keepsName)) =
      (some (some "other"), [(false, false), (false, true), (true, true)]) := by
    cbv
  simp only [Prod.mk.injEq, Option.map_eq_some_iff] at hplayed
  obtain ⟨⟨d, hd, m, hm, hname⟩, hcalls⟩ := hplayed
  refine ⟨fun hlabelled => ?_, d, m, hd, hm, hname⟩
  let t := Sample.relabelling.turn { outside := 0 } "c" .start
  have hafter := Books.afterVentures_concat Sample.labelledTurns t
  obtain ⟨calls, hjournal⟩ := t.journal_venture (Books.named_afterVentures Sample.labelledTurns)
  rw [Sample.relabelledTurns, hafter, ← hjournal, List.drop_left] at hcalls
  -- The start, the start of the role, and what is stored.
  obtain ⟨x, rest, rfl, hx, hrest⟩ := List.map_eq_cons_iff.1 hcalls
  obtain ⟨y, rest, rfl, -, hrest⟩ := List.map_eq_cons_iff.1 hrest
  obtain ⟨z, rest, rfl, hz, -⟩ := List.map_eq_cons_iff.1 hrest
  refine (members_labelled_iff Sample.relabelledTurns).1 hlabelled Sample.labelledTurns t
    (List.prefix_refl _) rfl ⟨_, hjournal.symm, ⟨z, by simp, congrArg Prod.fst hz⟩,
      x, by simp, congrArg Prod.snd hx⟩

end BenchCluster
