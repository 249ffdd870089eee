import BenchCluster.Proofs.Journal.Run
import BenchCluster.Proofs.Orchestrator.Mishap

/-! # Books kept in a store that may fail

Booked surroundings in which an access to the store fails whenever the store of the surroundings
does, and otherwise reads or writes the books. A file that cannot be read counts as there. What an
operation does apart from the store is what it does in booked surroundings.
-/

namespace BenchCluster

variable {ω α β : Type}

namespace Surroundings

/-- Goes on only if an access to the store has succeeded. -/
def guarded (access : StateM ω (Except StoreError β))
    (rest : β → StateM (Booked ω) (Except StoreError α)) :
    StateM (Booked ω) (Except StoreError α) := fun b =>
  match access b.world with
  | (.error e, world) => (.error e, { b with world := world })
  | (.ok x, world) => rest x { b with world := world }

def frailStore (s : Surroundings ω) : StoreAccess (Booked ω) :=
  { contains := fun cluster => guarded (s.store.contains cluster) fun present b =>
      let (answer, after) := s.bookStore.contains cluster b
      (answer.map fun stored => stored || present, after)
    load := fun cluster => guarded (s.store.load cluster) fun _ => s.bookStore.load cluster
    save := fun d => guarded (s.store.save d) fun _ => s.bookStore.save d
    delete := fun cluster => guarded (s.store.delete cluster) fun _ => s.bookStore.delete cluster }

/-- The surroundings with books of all that happens in them, and a store that may fail. -/
def frail (s : Surroundings ω) : Surroundings (Booked ω) := { s.booked with store := s.frailStore }

theorem acquire_frail (s : Surroundings ω) (cluster : String) (d : ClusterDescriptor) :
    s.frail.acquire cluster d = s.booked.acquire cluster d := rfl

theorem raze_frail (s : Surroundings ω) (d : ClusterDescriptor) :
    s.frail.raze d = s.booked.raze d := rfl

theorem cleanInstalled_frail (s : Surroundings ω) (d : ClusterDescriptor) :
    s.frail.cleanInstalled d = s.booked.cleanInstalled d := rfl

theorem cloudsFor_frail (s : Surroundings ω) (environments : List Environment) :
    s.frail.cloudsFor environments = s.booked.cloudsFor environments := rfl

variable {s : Surroundings ω} {inv : Invocation (Booked ω)}

/-! ## Accesses to the store -/

theorem access_of_error {access : StateM (Booked ω) (Except StoreError α)} {e : StoreError}
    (h : access inv.outside = (.error e, inv.outside)) :
    (Work.ofFallible OrchestratorError.store (Action.outside access)).outcome inv =
      (.error (.store e), inv) := by
  change ((access inv.outside).1.mapError OrchestratorError.store,
    { inv with outside := (access inv.outside).2 }) = _
  rw [h]
  rfl

/-- An access to the store fails, or it goes on in a world in which it has been made. -/
theorem guarded_cases (access : StateM ω (Except StoreError β))
    (rest : β → StateM (Booked ω) (Except StoreError α)) (inv : Invocation (Booked ω)) :
    let work := Work.ofFallible OrchestratorError.store (Action.outside (guarded access rest))
    (∃ e after, work.outcome inv = (.error (.store e), after) ∧ after.books = inv.books) ∨
      ∃ x mid, mid.books = inv.books ∧ work.outcome inv =
        (Work.ofFallible OrchestratorError.store (Action.outside (rest x))).outcome mid := by
  intro work
  have hwork : work.outcome inv = (((guarded access rest) inv.outside).1.mapError .store,
    { inv with outside := ((guarded access rest) inv.outside).2 }) := rfl
  rw [guarded] at hwork
  rcases haccess : access inv.outside.world with ⟨e | x, world⟩
  · rw [haccess] at hwork
    exact .inl ⟨e, _, hwork, rfl⟩
  · rw [haccess] at hwork
    exact .inr ⟨x, { inv with outside := { inv.outside with world := world } }, rfl, hwork⟩

theorem load_frail_cases (s : Surroundings ω) (cluster : String) (inv : Invocation (Booked ω)) :
    (∃ e after, (s.frail.load cluster).outcome inv = (.error (.store e), after) ∧
        after.books = inv.books) ∨
      ∃ d after, inv.books.find? cluster = some d ∧ isValidClusterName cluster = true ∧
        (s.frail.load cluster).outcome inv = (.ok d, after) ∧ after.books = inv.books := by
  rcases guarded_cases (s.store.load cluster) (fun _ => s.bookStore.load cluster) inv with
    hfailed | ⟨-, mid, hmid, houtcome⟩
  · exact .inl hfailed
  · change (s.frail.load cluster).outcome inv =
      ((s.bookStore.load cluster mid.outside).1.mapError .store, mid) at houtcome
    rw [houtcome, ← hmid]
    cases hv : isValidClusterName cluster with
    | false => exact .inl ⟨.invalidName cluster, mid, by simp [bookStore, hv, Except.mapError]⟩
    | true =>
      cases hd : mid.books.find? cluster with
      | none => exact .inl ⟨.notFound cluster, mid, by simp [bookStore, hv, hd, Except.mapError]⟩
      | some d => exact .inr ⟨d, mid, rfl, rfl, by simp [bookStore, hv, hd, Except.mapError]⟩

theorem save_frail_cases (s : Surroundings ω) (d : ClusterDescriptor)
    (inv : Invocation (Booked ω)) :
    (∃ e after, (s.frail.save d).outcome inv = (.error (.store e), after) ∧
        after.books = inv.books) ∨
      ∃ late after, (s.frail.save d).outcome inv = (.ok (), after) ∧
        isValidClusterName d.clusterName = true ∧ after.books = inv.books.put late d := by
  rcases guarded_cases (s.store.save d) (fun _ => s.bookStore.save d) inv with
    hfailed | ⟨-, mid, hmid, houtcome⟩
  · exact .inl hfailed
  · change (s.frail.save d).outcome inv = (s.booked.save d).outcome mid at houtcome
    rw [houtcome, ← hmid]
    cases hv : isValidClusterName d.clusterName with
    | false =>
      have hinvalid : s.bookStore.save d mid.outside =
          (.error (.invalidName d.clusterName), mid.outside) := by simp [bookStore, hv]
      exact .inl ⟨_, mid, access_of_error hinvalid, rfl⟩
    | true =>
      obtain ⟨late, after, hsave, hafter⟩ := save_outcome (s := s) hv mid
      exact .inr ⟨late, after, hsave, rfl, hafter⟩

theorem books_of_save_frail {s : Surroundings ω} {d : ClusterDescriptor}
    {inv last : Invocation (Booked ω)} (h : (s.frail.save d).outcome inv = (.ok (), last)) :
    ∃ late, last.books = inv.books.put late d := by
  rcases s.save_frail_cases d inv with ⟨e, failed, hfailed, -⟩ | ⟨late, stored, hok, -, hbooks⟩
  · rw [hfailed] at h
    cases h
  · rw [hok] at h
    cases h
    exact ⟨late, hbooks⟩

theorem find?_of_save_frail {s : Surroundings ω} {d : ClusterDescriptor}
    {inv last : Invocation (Booked ω)} (h : (s.frail.save d).outcome inv = (.ok (), last)) :
    last.books.find? d.clusterName = some d := by
  obtain ⟨late, hbooks⟩ := books_of_save_frail h
  rw [hbooks, Books.find?_put]
  exact if_pos rfl

theorem delete_frail_cases (s : Surroundings ω) (cluster : String) (inv : Invocation (Booked ω)) :
    let work := Work.ofFallible OrchestratorError.store
      (Action.outside (s.frail.store.delete cluster))
    (∃ e after, work.outcome inv = (.error (.store e), after) ∧ after.books = inv.books) ∨
      ∃ late after, work.outcome inv = (.ok (), after) ∧
        after.books = inv.books.drop late cluster := by
  intro work
  rcases guarded_cases (s.store.delete cluster) (fun _ => s.bookStore.delete cluster) inv with
    hfailed | ⟨-, mid, hmid, houtcome⟩
  · exact .inl hfailed
  · change work.outcome inv = (Work.ofFallible OrchestratorError.store
      (Action.outside (s.booked.store.delete cluster))).outcome mid at houtcome
    rw [houtcome, ← hmid]
    cases hv : isValidClusterName cluster with
    | false =>
      have hinvalid : s.bookStore.delete cluster mid.outside =
          (.error (.invalidName cluster), mid.outside) := by simp [bookStore, hv]
      exact .inl ⟨_, mid, access_of_error hinvalid, rfl⟩
    | true =>
      obtain ⟨late, after, hdelete, hafter⟩ := delete_outcome (s := s) hv mid
      exact .inr ⟨late, after, hdelete, hafter⟩

theorem contains_frail_cases (s : Surroundings ω) (cluster : String)
    (inv : Invocation (Booked ω)) :
    let asked := Work.ofFallible OrchestratorError.store
      (Action.outside (s.frail.store.contains cluster))
    (∃ e after, asked.outcome inv = (.error (.store e), after) ∧ after.books = inv.books) ∨
      ∃ present after, asked.outcome inv = (.ok present, after) ∧ after.books = inv.books ∧
        isValidClusterName cluster = true ∧
        (present = false → inv.books.find? cluster = none) := by
  intro asked
  rcases guarded_cases (s.store.contains cluster) (fun present b =>
      let (answer, after) := s.bookStore.contains cluster b
      (answer.map fun stored => stored || present, after)) inv with
    hfailed | ⟨present, mid, hmid, houtcome⟩
  · exact .inl hfailed
  · change asked.outcome inv = (((s.bookStore.contains cluster mid.outside).1.map
      fun stored => stored || present).mapError .store, mid) at houtcome
    rw [houtcome, ← hmid]
    cases hv : isValidClusterName cluster with
    | false =>
      exact .inl ⟨.invalidName cluster, mid, by simp [bookStore, hv, Except.mapError, Except.map]⟩
    | true =>
      right
      refine ⟨mid.books.descriptors.contains cluster || present, mid, ?_, rfl, rfl, fun h => ?_⟩
      · simp [bookStore, hv, Except.mapError, Except.map]
      · rw [Bool.or_eq_false_iff] at h
        exact Dict.contains_eq_false_iff.1 h.1

end Surroundings

/-- The descriptor that an operation on a cluster finds, in a state that allows it. -/
structure Books.Loaded (b : Books) (cluster : String) (operation : Operation)
    (d : ClusterDescriptor) : Prop where
  stored : b.find? cluster = some d
  allowed : d.state.allows operation = true
  valid : isValidClusterName cluster = true

namespace Surroundings

/-- A descriptor is loaded for an operation if its state allows it, unless the store fails or the
user has asked to stop. -/
theorem loadFor_frail_cases (s : Surroundings ω) (cluster : String) (operation : Operation)
    (inv : Invocation (Booked ω)) :
    (∃ e after, (s.frail.loadFor cluster operation).outcome inv = (.error e, after) ∧
        after.books = inv.books ∧ (e.isMishap = true ∨ e.isRefusal = true ∧
          ∀ d, inv.books.find? cluster = some d → d.state.allows operation = false)) ∨
      ∃ d after, inv.books.Loaded cluster operation d ∧
        (s.frail.loadFor cluster operation).outcome inv = (.ok d, after) ∧
        after.books = inv.books := by
  rw [loadFor]
  rcases load_frail_cases s cluster inv with
    ⟨e, after, hload, hafter⟩ | ⟨d, mid, hd, hvalid, hload, hmid⟩
  · exact .inl ⟨_, after, Work.bind_of_error hload, hafter, .inl rfl⟩
  rw [Work.bind_of_ok hload]
  have hcheck := Work.outcome_ofExcept (ω := Booked ω) .transition
    (d.state.check cluster operation) mid
  cases hallows : d.state.allows operation with
  | false =>
    left
    rw [ClusterState.check, if_neg (by simp [hallows])] at hcheck ⊢
    refine ⟨_, mid, Work.bind_of_error hcheck, hmid, .inr ⟨rfl, fun d' hd' => ?_⟩⟩
    rw [hd, Option.some.injEq] at hd'
    rwa [← hd']
  | true =>
    rw [(ClusterState.check_eq_ok_iff _ _ _).2 hallows] at hcheck ⊢
    rw [Work.bind_of_ok hcheck]
    have hstop := outcome_checkInterrupted s.frail mid
    by_cases hi : s.frail.interrupted mid.outside
    · rw [if_pos hi] at hstop
      exact .inl ⟨_, mid, Work.bind_of_error hstop, hmid, .inl rfl⟩
    · rw [if_neg hi] at hstop
      exact .inr ⟨d, mid, ⟨hd, hallows, hvalid⟩, Work.bind_of_ok hstop, hmid⟩

end Surroundings

/-! ## Mishaps -/

/-- The work fails by a mishap after calls of one kind, and leaves the stored descriptors alone. -/
def Mishap (P : OutsideCall → Prop) (inv : Invocation (Booked ω))
    (outcome : Except OrchestratorError α × Invocation (Booked ω)) : Prop :=
  ∃ e after entries, e.isMishap = true ∧ (∀ y ∈ entries, P y.call) ∧ outcome = (.error e, after) ∧
    after.books = inv.books.enter entries

namespace Mishap

variable {P : OutsideCall → Prop} {inv : Invocation (Booked ω)}

/-- The first part of a piece of work ends it by a mishap, or the rest goes on from its books. -/
theorem or_bind {x : Work (Booked ω) α} (hx : Enters P x.outcome) (hm : x.OnlyMishaps)
    (f : α → Work (Booked ω) β) (inv : Invocation (Booked ω)) :
    Mishap P inv ((x >>= f).outcome inv) ∨
      ∃ a mid entries, (∀ y ∈ entries, P y.call) ∧ mid.books = inv.books.enter entries ∧
        (x >>= f).outcome inv = (f a).outcome mid := by
  obtain ⟨entries, hentries, hbooks⟩ := hx inv
  rcases Work.bind_cases x f inv with ⟨e, mid, hmid, houtcome⟩ | ⟨a, mid, hmid, houtcome⟩
  · have hmishap := hm inv
    rw [hmid] at hbooks hmishap
    exact .inl ⟨e, mid, entries, hmishap e rfl, hentries, houtcome, hbooks⟩
  · rw [hmid] at hbooks
    exact .inr ⟨a, mid, entries, hentries, hbooks, houtcome⟩

/-- Work that ends with storing a descriptor and answering with it ends by a mishap, or does so. -/
theorem or_stored (s : Surroundings ω) {x : Work (Booked ω) α} (hx : Enters P x.outcome)
    (hm : x.OnlyMishaps) (result : α → ClusterDescriptor) (inv : Invocation (Booked ω)) :
    let work := x >>= fun a => s.frail.save (result a) >>= fun _ => return result a
    Mishap P inv (work.outcome inv) ∨
      ∃ a late after entries, (∀ y ∈ entries, P y.call) ∧
        work.outcome inv = (.ok (result a), after) ∧
        isValidClusterName (result a).clusterName = true ∧
        after.books = (inv.books.enter entries).put late (result a) := by
  intro work
  rcases or_bind hx hm (fun a => s.frail.save (result a) >>= fun _ => return result a) inv with
    hmishap | ⟨a, mid, entries, hentries, hmid, houtcome⟩
  · exact .inl hmishap
  · change work.outcome inv = _ at houtcome
    rw [houtcome]
    rcases s.save_frail_cases (result a) mid with ⟨e, after, hsave, hafter⟩ |
      ⟨late, after, hsave, hvalid, hafter⟩
    · exact .inl ⟨_, after, entries, rfl, hentries, Work.bind_of_error hsave, hafter.trans hmid⟩
    · exact .inr ⟨a, late, after, entries, hentries, Work.bind_of_ok hsave, hvalid,
        by rw [hafter, hmid]⟩

end Mishap

end BenchCluster
