import BenchCluster.Proofs.Descriptor.Current
import BenchCluster.Proofs.Journal.FailFast

/-! # Stopping a cluster and starting it again

A start undoes a stop: it asks the clouds to start the machines that the stop has asked them to stop,
and if they come up as they were, the stored descriptor is the one from before the stop. The roles
are stopped before the first instance is, and started after the last one.
-/

namespace BenchCluster

variable {ω ρ α : Type} {s : Surroundings ω} {d : ClusterDescriptor} {cluster : String}
  {inv after : Invocation (Booked ω)}

/-- Whether a call answers with the machine it was asked for if it starts one. -/
def OutsideCall.keepsMachine : OutsideCall → Bool
  | .startMachine _ m (.ok up) => up = m
  | _ => true

theorem OutsideCall.keepsName_of_keepsMachine {c : OutsideCall} (h : c.keepsMachine = true) :
    c.keepsName = true := by
  cases c with
  | startMachine env m answer =>
    cases answer with
    | error e => rfl
    | ok up => exact decide_eq_true (congrArg Machine.name (of_decide_eq_true h))
  | _ => rfl

namespace ClusterDescriptor

/-- The calls make every role do a step, which has its answer, in the order of the roles. -/
def StepsRoles (d : ClusterDescriptor) (step : RoleStep) (calls : List JournalEntry) : Prop :=
  List.Forall₂ (fun role x => ∃ context, d.Runs context ∧ context.params.role = role ∧
    x.call = .role context step) d.topology.rolesInOrder calls

/-- The calls stop the instance of every managed machine that is not ephemeral with success, each
once and in its own environment. -/
def HaltsMachines (d : ClusterDescriptor) (calls : List JournalEntry) : Prop :=
  List.Forall₂ (fun m x => ∃ env ∈ d.environments, env.name = m.environment ∧
    x.call = .stopMachine env m (.ok ())) d.stoppableMachines calls

/-- The calls start these instances with success, each once and in its own environment. -/
def WakesMachines (d : ClusterDescriptor) (calls : List JournalEntry) : Prop :=
  List.Forall₂ (fun m x => ∃ env ∈ d.environments, env.name = m.environment ∧
    ∃ up, x.call = .startMachine env m (.ok up)) d.stoppableMachines calls

end ClusterDescriptor

/-! ## Pools and phases that have succeeded -/

/-- If no attempt of a pool has failed, each has made its call, in the order of the requests. -/
theorem Errand.Served.forall₂_entries {e : Errand ρ α} {environments : List Environment}
    {requests : List ρ} {attempts : List (Attempt ρ α)} {results : List (JobResult α)}
    (h : e.Served environments requests attempts results) (hall : failuresOf results = []) :
    List.Forall₂ (fun r x => ∃ env ∈ environments, env.name = e.place r ∧
      ∃ v, x.call = e.call env r (.ok v)) requests (attempts.flatMap e.entries) := by
  have hvalue := h.failuresOf_eq_nil_iff.1 hall
  have hlisted := h.listed
  rw [← h.requests_eq]
  clear h hall
  induction attempts with
  | nil => exact .nil
  | cons a rest ih =>
    obtain ⟨v, hv⟩ := hvalue a List.mem_cons_self
    obtain ⟨henv, hname⟩ := hlisted a List.mem_cons_self
    rw [List.map_cons, List.flatMap_cons, entries, Attempt.value?_eq_some.1 hv]
    exact .cons ⟨a.environment, henv, hname, v, rfl⟩
      (ih (fun b hb => hvalue b (List.mem_cons_of_mem _ hb))
        fun b hb => hlisted b (List.mem_cons_of_mem _ hb))

theorem Chore.Served.forall₂_entries {c : Chore α} {built : List (BuiltRole ω)}
    {reports : List (RoleReport ω α)} (h : c.Served built reports)
    (hall : Chore.Succeeded reports) :
    List.Forall₂ (fun b x => ∃ v, x.call = .role b.context (c.call (.ok v))) built
      (reports.map c.entry) := by
  rw [← h.done_eq, List.forall₂_map_left_iff, List.forall₂_map_right_iff, List.forall₂_same]
  intro r hr
  obtain ⟨v, hv⟩ := Fallible.isOk_iff.1 (hall r hr)
  exact ⟨v, by rw [Chore.entry, hv]⟩

def Chore.starting : Chore Unit := ⟨Role.start, .start, fun _ _ _ => rfl⟩

namespace Surroundings

/-- A phase that is passed has made every role do its step. -/
theorem stepsRoles_of_runPhase (c : Chore Unit) (phase : Phase) (hd : d.Numbered)
    {tree : TopologyTree} {roles : List (RoleEntry (Booked ω))}
    (hroles : s.booked.rolesOf d = .ok (tree, roles)) {u : Unit}
    (h : (runPhase phase c.step roles).outcome inv = (.ok u, after)) :
    ∃ calls, d.StepsRoles (c.call (.ok ())) calls ∧ after.books = inv.books.enter calls := by
  obtain ⟨-, built, rfl, hnames, hbuilds⟩ := rolesOf_booked hd hroles
  obtain ⟨reports, last, hserved, hlast, ⟨e, herror⟩ | ⟨hok, hall⟩⟩ :=
    Chore.runPhase_cases s c phase built inv
  · rw [herror] at h
    cases h
  rw [hok] at h
  cases h
  refine ⟨_, ?_, hlast⟩
  have hruns := runs_of_builds hnames hbuilds
  rw [ClusterDescriptor.StepsRoles, ← hnames, List.forall₂_map_left_iff]
  refine ((List.forall₂_and_left _ _).2 ⟨hruns, hserved.forall₂_entries hall⟩).imp ?_
  rintro b x ⟨hb, ⟨⟩, hcall⟩
  exact ⟨b.context, hb, rfl, hcall⟩

theorem stepsRoles_of_restRoles (hd : d.Numbered) {u : Unit}
    (h : (s.booked.restRoles d).outcome inv = (.ok u, after)) :
    ∃ calls, d.StepsRoles (.stop (.ok ())) calls ∧ after.books = inv.books.enter calls := by
  obtain ⟨⟨tree, roles⟩, hroles, h⟩ := Work.ok_of_ofExcept h
  obtain ⟨_, last, hphase, hgo⟩ := Work.exists_of_bind_ok h
  obtain rfl := eq_of_checkInterrupted hgo
  exact stepsRoles_of_runPhase .stopping .stop hd hroles hphase

theorem haltsMachines_of_haltMachines {u : Unit}
    (h : (s.booked.haltMachines d).outcome inv = (.ok u, after)) :
    ∃ calls, d.HaltsMachines calls ∧ after.books = inv.books.enter calls := by
  rcases haltMachines_cases s d inv with
    ⟨e, herror⟩ | ⟨attempts, results, last, hserved, houtcome, hlast⟩
  · rw [herror] at h
    cases h
  rw [houtcome] at h
  by_cases hfailures : failuresOf results = []
  · rw [if_pos hfailures] at h
    cases h
    refine ⟨_, (hserved.forall₂_entries hfailures).imp ?_, hlast⟩
    rintro m x ⟨env, henv, hname, ⟨⟩, hcall⟩
    exact ⟨env, henv, hname, hcall⟩
  · rw [if_neg hfailures] at h
    cases h

/-- A stop that succeeds has stopped the roles of a ready cluster, then its instances, and has stored
the descriptor with another state. -/
theorem calls_of_stop (hb : inv.books.Every fun _ d => d.Numbered) {stored : ClusterDescriptor}
    (h : (s.frail.stop cluster).outcome inv = (.ok stored, after)) :
    ∃ d, inv.books.Loaded cluster .stop d ∧ stored = { d with state := .down } ∧
      ∃ rests halts late, d.StepsRoles (.stop (.ok ())) rests ∧ d.HaltsMachines halts ∧
        after.books = (inv.books.enter (rests ++ halts)).put late stored := by
  rw [stop_eq] at h
  obtain ⟨d, mid, hload, h⟩ := Work.exists_of_bind_ok h
  rcases s.loadFor_frail_cases cluster .stop inv with
    ⟨e, failed, herror, -⟩ | ⟨d', loaded, hloaded, hok, hbooks⟩
  · rw [herror] at hload
    cases hload
  rw [hok] at hload
  cases hload
  obtain ⟨_, halted, hdown, h⟩ := Work.exists_of_bind_ok h
  change (s.booked.bringDown d).outcome mid = _ at hdown
  rw [bringDown_eq] at hdown
  obtain ⟨_, rested, hrest, hhalt⟩ := Work.exists_of_bind_ok hdown
  obtain ⟨rests, hrests, hrested⟩ := stepsRoles_of_restRoles (hb _ _ hloaded.stored) hrest
  obtain ⟨halts, hhalts, hhalted⟩ := haltsMachines_of_haltMachines hhalt
  obtain ⟨_, last, hsave, hpure⟩ := Work.exists_of_bind_ok h
  cases hpure
  obtain ⟨late, hlast⟩ := books_of_save_frail hsave
  refine ⟨d, hloaded, rfl, rests, halts, late, hrests, hhalts, ?_⟩
  rw [hlast, hhalted, hrested, hbooks, Books.enter_enter]

theorem stepsRoles_of_wakeRoles (hd : d.Numbered) {u : Unit}
    (h : (s.booked.wakeRoles d).outcome inv = (.ok u, after)) :
    ∃ calls, d.StepsRoles (.start (.ok ())) calls ∧ after.books = inv.books.enter calls := by
  obtain ⟨_, mid, hgo, hrest⟩ := Work.exists_of_bind_ok h
  obtain rfl := eq_of_checkInterrupted hgo
  obtain ⟨⟨tree, roles⟩, hroles, hphase⟩ := Work.ok_of_ofExcept hrest
  exact stepsRoles_of_runPhase .starting .start hd hroles hphase

theorem calls_of_rise (hd : d.Numbered) {failures : List String} {stored : ClusterDescriptor}
    (h : (s.frail.rise d failures).outcome inv = (.ok stored, after)) :
    failures = [] ∧ stored = { d with state := .ready } ∧
      ∃ calls late, d.StepsRoles (.start (.ok ())) calls ∧
        after.books = (inv.books.enter calls).put late stored := by
  rw [rise] at h
  by_cases hfailures : failures = []
  · rw [if_neg (by simp [hfailures])] at h
    obtain ⟨_, mid, hwake, h⟩ := Work.exists_of_bind_ok h
    obtain ⟨calls, hcalls, hmid⟩ := stepsRoles_of_wakeRoles (s := s) hd hwake
    obtain ⟨_, last, hsave, hpure⟩ := Work.exists_of_bind_ok h
    cases hpure
    obtain ⟨late, hlast⟩ := books_of_save_frail hsave
    exact ⟨hfailures, rfl, calls, late, hcalls, by rw [hlast, hmid]⟩
  · rw [if_pos (by simpa using hfailures)] at h
    obtain ⟨_, mid, -, hthrow⟩ := Work.exists_of_bind_ok h
    cases hthrow

/-- A start that succeeds has started the instances, then the roles, and has stored the machines that
have come up. -/
theorem calls_of_start (hb : inv.books.Every fun _ d => d.Numbered) {stored : ClusterDescriptor}
    (h : (s.frail.start cluster).outcome inv = (.ok stored, after)) :
    ∃ d, inv.books.Loaded cluster .start d ∧ ∃ x : Starting d,
      stored = { x.descriptor with state := .ready } ∧ ∃ wakes late,
        d.WakesMachines x.entries ∧ d.StepsRoles (.start (.ok ())) wakes ∧
        after.books = (inv.books.enter (x.entries ++ wakes)).put late stored := by
  rcases Effect.start_frail_cases s cluster inv with
    ⟨e, failed, herror, -⟩ | ⟨d, x, mid, hloaded, hmid, houtcome⟩
  · rw [herror] at h
    cases h
  rw [houtcome] at h
  have hd : x.descriptor.Numbered :=
    ClusterDescriptor.SamePlan.numbered rfl (hb _ _ hloaded.stored)
  obtain ⟨hfailures, hstored, wakes, late, hwakes, hafter⟩ := calls_of_rise hd h
  refine ⟨d, hloaded, x, hstored, wakes, late, x.served.forall₂_entries hfailures, hwakes, ?_⟩
  rw [hafter, hmid, Books.enter_enter]

end Surroundings

/-! ## What a stop and a start make of a descriptor -/

/-- Starts that answer with the machines they were asked for change nothing. -/
theorem Starting.descriptor_eq (x : Starting d) (hd : d.Keyed)
    (hkeeps : ∀ y ∈ x.entries, y.call.keepsMachine = true) : x.descriptor = d := by
  have hmember : ∀ key m, x.descriptor.members.find? key = some m →
      d.members.find? key = some m := by
    intro key m hm
    rcases x.find?_members hm with hm | ⟨a, ha, rfl, hvalue⟩
    · exact hm
    have hentry := Errand.entry_mem (e := Errand.starting) ha (Attempt.value?_eq_some.1 hvalue)
    obtain rfl : m = a.request := of_decide_eq_true (hkeeps _ hentry)
    obtain ⟨hlisted, -⟩ := List.mem_filter.1 (x.served.request_mem ha)
    obtain ⟨key, hkey⟩ := Dict.mem_values_iff.1 hlisted
    rwa [hd key _ hkey]
  have hmembers : x.descriptor.members = d.members := by
    refine Dict.ext_find? fun key => ?_
    cases hm : x.descriptor.members.find? key with
    | some m => exact (hmember key m hm).symm
    | none =>
      refine (Dict.contains_eq_false_iff.1 (Bool.eq_false_iff.2 fun hcontains => ?_)).symm
      obtain ⟨m, hm'⟩ := Dict.contains_iff.1 (x.contains_members.2 (.inr hcontains))
      rw [hm] at hm'
      cases hm'
  change { d with members := x.descriptor.members } = d
  rw [hmembers]

theorem Work.exists_of_some {x : Work ω α} {inv : Invocation ω}
    (h : ((x >>= fun a => return some a).outcome inv).1.isOk = true) :
    ∃ a last, x.outcome inv = (.ok a, last) ∧
      ((x >>= fun a => return some a).outcome inv).2 = last := by
  rw [Work.outcome_some] at h ⊢
  rcases hx : x.outcome inv with ⟨e | a, last⟩
  · rw [hx] at h
    cases h
  · exact ⟨a, last, rfl, rfl⟩

namespace Turn

variable {t : Turn} {b : Books}

theorem calls_of_stop (hrequest : t.request = .stop) (hb : b.Every fun _ d => d.Numbered)
    (hd : b.find? t.cluster = some d) (h : (t.venture b).1.isOk = true) :
    d.state = .ready ∧ ∃ rests halts late, d.StepsRoles (.stop (.ok ())) rests ∧
      d.HaltsMachines halts ∧
      (t.venture b).2 = (b.enter (rests ++ halts)).put late { d with state := .down } := by
  obtain ⟨World, s, start, cluster, request⟩ := t
  obtain rfl : request = .stop := hrequest
  obtain ⟨stored, last, hstop, hserved⟩ := Work.exists_of_some h
  obtain ⟨d', hloaded, rfl, rests, halts, late, hrests, hhalts, hlast⟩ :=
    Surroundings.calls_of_stop hb hstop
  obtain rfl : d = d' := Option.some.inj (hd.symm.trans hloaded.stored)
  refine ⟨ClusterState.allows_stop_iff.1 hloaded.allowed, rests, halts, late, hrests, hhalts, ?_⟩
  exact (congrArg Invocation.books hserved).trans hlast

theorem calls_of_start (hrequest : t.request = .start) (hb : b.Every fun _ d => d.Numbered)
    (hd : b.find? t.cluster = some d) (h : (t.venture b).1.isOk = true) :
    ∃ x : Starting d, ∃ wakes late, d.WakesMachines x.entries ∧
      d.StepsRoles (.start (.ok ())) wakes ∧ (t.venture b).2 =
        (b.enter (x.entries ++ wakes)).put late { x.descriptor with state := .ready } := by
  obtain ⟨World, s, start, cluster, request⟩ := t
  obtain rfl : request = .start := hrequest
  obtain ⟨stored, last, hstart, hserved⟩ := Work.exists_of_some h
  obtain ⟨d', hloaded, x, rfl, wakes, late, hups, hwakes, hlast⟩ :=
    Surroundings.calls_of_start hb hstart
  obtain rfl : d = d' := Option.some.inj (hd.symm.trans hloaded.stored)
  refine ⟨x, wakes, late, hups, hwakes, ?_⟩
  exact (congrArg Invocation.books hserved).trans hlast

end Turn

/-- A start undoes a stop. If a cluster is stopped and then started, both with success, it has been
ready before. The stop has stopped its roles, then the instances of its managed machines that are not
ephemeral, each once; the start has started the instances of the same machines, then the roles. If
starts have kept the names of machines so far, and those of this one have answered with the machines
they were asked for, then the descriptor is what it was. -/
theorem start_undoes_stop (turns : List Turn) {t u : Turn} {cluster : String}
    (ht : t.cluster = cluster ∧ t.request = .stop) (hu : u.cluster = cluster ∧ u.request = .start)
    (hd : (Books.afterVentures turns).find? cluster = some d)
    (hstopped : (t.venture (Books.afterVentures turns)).1.isOk = true)
    (hstarted : (u.venture (Books.afterVentures (turns ++ [t]))).1.isOk = true) :
    d.state = .ready ∧ ∃ rests halts ups wakes late late' after,
      (Books.afterVentures (turns ++ [t])).journal = (Books.afterVentures turns).journal ++
        (rests ++ halts ++ [⟨late, .saved { d with state := .down }⟩]) ∧
      (Books.afterVentures (turns ++ [t, u])).journal =
        (Books.afterVentures (turns ++ [t])).journal ++
          (ups ++ wakes ++ [⟨late', .saved after⟩]) ∧
      (Books.afterVentures (turns ++ [t, u])).find? cluster = some after ∧
      d.StepsRoles (.stop (.ok ())) rests ∧ d.HaltsMachines halts ∧
      d.WakesMachines ups ∧ d.StepsRoles (.start (.ok ())) wakes ∧
      ((∀ x ∈ (Books.afterVentures turns).journal, x.call.keepsName = true) →
        (d.stoppableMachines.map Machine.name).Nodup ∧
          ((∀ x ∈ ups, x.call.keepsMachine = true) → after = d)) := by
  obtain ⟨rfl, hstop⟩ := ht
  obtain ⟨hcluster, hstart⟩ := hu
  have hname : d.clusterName = t.cluster :=
    (Books.named_afterVentures turns t.cluster d hd).1
  obtain ⟨hready, rests, halts, late, hrests, hhalts, hdown⟩ :=
    t.calls_of_stop hstop (Books.numbered_afterVentures turns) hd hstopped
  have hmid := (Books.afterVentures_concat turns t).trans hdown
  have hstored : (Books.afterVentures (turns ++ [t])).find? t.cluster =
      some { d with state := .down } := by
    rw [hmid, Books.find?_put, if_pos hname]
  obtain ⟨x, wakes, late', hups, hwakes, hup⟩ :=
    u.calls_of_start hstart (Books.numbered_afterVentures (turns ++ [t])) (hcluster ▸ hstored)
      hstarted
  have hlast : Books.afterVentures (turns ++ [t, u]) =
      (u.venture (Books.afterVentures (turns ++ [t]))).2 := by
    rw [← Books.afterVentures_concat, List.append_assoc, List.cons_append, List.nil_append]
  refine ⟨hready, rests, halts, x.entries, wakes, late, late', { x.descriptor with state := .ready },
    ?_, ?_, ?_, hrests, hhalts, hups, hwakes, fun hnames => ?_⟩
  · rw [hmid, Books.journal_put, Books.journal_enter, List.append_assoc]
  · rw [hlast, hup, Books.journal_put, Books.journal_enter, List.append_assoc]
  · rw [hlast, hup, Books.find?_put]
    exact if_pos hname
  · have hkeyed : d.Keyed := Books.keyed_afterVentures turns hnames t.cluster d hd
    refine ⟨hkeyed.nodup_stoppableMachines, fun hkeeps => ?_⟩
    rw [x.descriptor_eq hkeyed hkeeps, ← hready]

namespace Sample

def trio : Template :=
  ⟨.of [("kept", .of []), ("outer", .of []), ("scratch", .of [])], by
    simp only [RoleForest.Sorted, RoleForest.SortedBelow]
    decide⟩

/-- Documents for a machine that is stopped, one that exists already and an ephemeral one. -/
def trioDocuments : Documents :=
  { topologies := Dict.ofList [("trio", trio)]
    implementations := Dict.ofList [("standard",
      { topology := "trio"
        defaults :=
          { cloud := some "fake", region := some "r1", implementation := some "driver"
            parameters := Dict.ofList [("stop", "halt")] }
        roles := Dict.ofList [("kept", {}),
          ("outer", { managed := some false, hosts := some ["h0"] }),
          ("scratch", { ephemeral := some true })] })]
    clouds := Dict.ofList [("fake", { client := "fake" })] }

def trioTurns : List Turn :=
  [.configure trioDocuments "standard" false, .allocate false, .install].map fun request =>
    obedient.turn { outside := 0 } "c" request

def trioStop : Turn := obedient.turn { outside := 0 } "c" .stop

def trioStart : Turn := obedient.turn { outside := 0 } "c" .start

end Sample

/-- Only one of three machines is stopped and started, and the descriptor is what it was. -/
theorem trio_stopped_and_started : ∃ d halts ups,
    (Books.afterVentures Sample.trioTurns).find? "c" = some d ∧ d.state = .ready ∧
      d.members.keys = ["kept_0", "outer_0", "scratch_0"] ∧
      d.stoppableMachines.map Machine.name = ["kept_0"] ∧
      d.HaltsMachines halts ∧ d.WakesMachines ups ∧
      (Books.afterVentures (Sample.trioTurns ++ [Sample.trioStop, Sample.trioStart])).find? "c" =
        some d := by
  have hplayed : (((Books.afterVentures Sample.trioTurns).find? "c").map fun d =>
        (d.members.keys, d.stoppableMachines.map Machine.name),
      (Sample.trioStop.venture (Books.afterVentures Sample.trioTurns)).1.isOk,
      (Sample.trioStart.venture
        (Books.afterVentures (Sample.trioTurns ++ [Sample.trioStop]))).1.isOk,
      (Books.afterVentures (Sample.trioTurns ++
        [Sample.trioStop, Sample.trioStart])).journal.all fun x => x.call.keepsMachine) =
      (some (["kept_0", "outer_0", "scratch_0"], ["kept_0"]), true, true, true) := by
    cbv
  simp only [Prod.mk.injEq, Option.map_eq_some_iff] at hplayed
  obtain ⟨⟨d, hd, hkeys, hstoppable⟩, hstopped, hstarted, hkeeps⟩ := hplayed
  have hstop : Sample.trioStop.cluster = "c" ∧ Sample.trioStop.request = .stop := ⟨rfl, rfl⟩
  have hstart : Sample.trioStart.cluster = "c" ∧ Sample.trioStart.request = .start := ⟨rfl, rfl⟩
  obtain ⟨hready, rests, halts, ups, wakes, late, late', after, hdown, hup, hafter, -, hhalts, hups,
    -, hsame⟩ := start_undoes_stop Sample.trioTurns hstop hstart hd hstopped hstarted
  rw [hup, hdown] at hkeeps
  simp only [List.all_append, Bool.and_eq_true, List.all_eq_true] at hkeeps
  obtain ⟨⟨hbefore, -⟩, ⟨hkept, -⟩, -⟩ := hkeeps
  obtain rfl := (hsame fun x hx => OutsideCall.keepsName_of_keepsMachine (hbefore x hx)).2 hkept
  exact ⟨after, halts, ups, hd, hready, hkeys, hstoppable, hhalts, hups, hafter⟩

end BenchCluster
