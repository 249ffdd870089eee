import BenchCluster.Proofs.Descriptor.Consistent

/-! # What a cleanup forgets

A cleanup attempts to terminate every owned member and to destroy every volume. It tells machines
apart by their names and volumes by their ids, and so it forgets exactly what has been torn down if
and only if none of these has been taken for another.
-/

namespace BenchCluster

namespace ClusterDescriptor

structure Placed (d : ClusterDescriptor) : Prop where
  machines : ∀ m ∈ d.ownedMachines, ∃ env ∈ d.environments, env.name = m.environment
  volumes : ∀ v ∈ d.sharedStorage, ∃ env ∈ d.environments, env.name = v.environment

theorem Consistent.placed {d : ClusterDescriptor} {cluster : String} (h : d.Consistent cluster) :
    d.Placed :=
  ⟨fun _ hm => h.environment_of_owned hm, h.volumes⟩

end ClusterDescriptor

/-- The attempts of a cleanup: at terminating owned members, with their keys, and at destroying
volumes. -/
structure Teardown where
  machines : List (String × Attempt Machine Unit)
  volumes : List (Attempt Volume Unit)

namespace Teardown

def entries (t : Teardown) : List JournalEntry :=
  (t.machines.map Prod.snd).flatMap Errand.terminating.entries ++
    t.volumes.flatMap Errand.destroying.entries

def Succeeded (t : Teardown) : Prop :=
  (∀ x ∈ t.machines, x.2.value?.isSome = true) ∧ ∀ x ∈ t.volumes, x.value?.isSome = true

/-- A descriptor has exactly the members and volumes whose own attempts have not succeeded, the
volumes in their order. -/
structure Rest (t : Teardown) (left : ClusterDescriptor) : Prop where
  members : ∀ key m, left.members.find? key = some m ↔
    ∃ x, (key, x) ∈ t.machines ∧ x.request = m ∧ x.value? = none
  sharedStorage : left.sharedStorage =
    (t.volumes.filter fun x => x.value?.isNone).map Attempt.request

/-- A machine has been terminated under the key of a member exactly if it was the one of this
member, and no volume that has been destroyed has the id of one that has not. -/
structure Distinguished (t : Teardown) : Prop where
  machines : ∀ x ∈ t.machines,
    (∃ y ∈ t.machines, y.2.request.name = x.1 ∧ y.2.value?.isSome = true) ↔
      x.2.value?.isSome = true
  volumes : ∀ x ∈ t.volumes, ∀ y ∈ t.volumes, x.value? = none → y.value?.isSome = true →
    y.request.id ≠ x.request.id

/-- The attempts are those of a cleanup of a descriptor: one for every owned member and one for
every volume, in their order. -/
structure Covers (t : Teardown) (d : ClusterDescriptor) : Prop where
  machines : t.machines.map (fun x => (x.1, x.2.request)) = d.ownedEntries
  volumes : t.volumes.map Attempt.request = d.sharedStorage

namespace Covers

variable {t : Teardown} {d : ClusterDescriptor}

theorem nodup_keys (h : t.Covers d) : (t.machines.map Prod.fst).Nodup := by
  have hkeys := d.nodup_ownedEntries
  rw [← h.machines, List.map_map] at hkeys
  exact hkeys

theorem mem_ownedEntries (h : t.Covers d) {key : String} {m : Machine} :
    (key, m) ∈ d.ownedEntries ↔ ∃ x, (key, x) ∈ t.machines ∧ x.request = m := by
  rw [← h.machines, List.mem_map]
  constructor
  · rintro ⟨⟨key, x⟩, hx, heq⟩
    cases heq
    exact ⟨x, hx, rfl⟩
  · rintro ⟨x, hx, rfl⟩
    exact ⟨(key, x), hx, rfl⟩

end Covers

end Teardown

/-- What a cleanup with these attempts leaves of a descriptor: the owned members under whose keys
nothing has been terminated, and the volumes with whose ids nothing has been destroyed. -/
structure Teardown.Leaves (t : Teardown) (d left : ClusterDescriptor) : Prop
    extends t.Covers d where
  members : ∀ key m, left.members.find? key = some m ↔
    (∃ x, (key, x) ∈ t.machines ∧ x.request = m) ∧
      ¬ ∃ y ∈ t.machines, y.2.request.name = key ∧ y.2.value?.isSome = true
  sharedStorage : left.sharedStorage =
    d.sharedStorage.filter fun v => t.volumes.all fun y => y.value?.isNone || y.request.id ≠ v.id
  /-- This is exactly the rest if and only if nothing has been taken for something else. -/
  rest_iff : t.Rest left ↔ t.Distinguished
  emptied : t.Rest left → (left.remaining = [] ↔ t.Succeeded)
  frame : left = { d with members := left.members, sharedStorage := left.sharedStorage }

theorem map_filter_eq_iff {α β : Type} {l : List α} {f : α → β} {p q : α → Bool}
    (h : ∀ x ∈ l, p x = true → q x = true) :
    (l.filter p).map f = (l.filter q).map f ↔ ∀ x ∈ l, q x = true → p x = true := by
  have hsub : l.filter p = (l.filter q).filter p := by
    rw [List.filter_filter]
    refine List.filter_congr fun x hx => ?_
    cases hp : p x with
    | false => rfl
    | true => rw [h x hx hp, Bool.true_and]
  constructor
  · intro heq x hx hq
    have hlength : (l.filter p).length = (l.filter q).length := by
      have hlengths := congrArg List.length heq
      rwa [List.length_map, List.length_map] at hlengths
    rw [hsub] at hlength
    have hsame := List.filter_sublist.eq_of_length hlength
    exact List.filter_eq_self.1 hsame x (List.mem_filter.2 ⟨hx, hq⟩)
  · intro hall
    congr 1
    refine List.filter_congr fun x hx => ?_
    exact Bool.eq_iff_iff.2 ⟨h x hx, hall x hx⟩

namespace Cleaning

variable {d : ClusterDescriptor} (c : Cleaning d)

def teardown : Teardown := ⟨(d.ownedEntries.map Prod.fst).zip c.terminations, c.destructions⟩

theorem map_snd_machines : c.teardown.machines.map Prod.snd = c.terminations := by
  have hlength : c.terminations.length = d.ownedEntries.length := by
    have hrequests := congrArg List.length c.terminations_served.requests_eq
    rw [← d.map_snd_ownedEntries, List.length_map, List.length_map] at hrequests
    exact hrequests
  exact List.map_snd_zip (by rw [List.length_map, hlength])

theorem entries_teardown : c.teardown.entries = c.entries := by
  rw [Teardown.entries, map_snd_machines]
  rfl

theorem covers : c.teardown.Covers d where
  machines := by
    have hzip : c.teardown.machines.map (fun x => (x.1, x.2.request)) =
        (d.ownedEntries.map Prod.fst).zip (c.terminations.map Attempt.request) := by
      rw [List.zip_map_right]
      rfl
    rw [hzip, c.terminations_served.requests_eq, ← d.map_snd_ownedEntries, List.zip_map']
    exact List.map_id _
  volumes := c.destructions_served.requests_eq

theorem exists_termination_iff {key : String} :
    (∃ x ∈ c.terminations, x.request.name = key ∧ x.value?.isSome = true) ↔
      ∃ y ∈ c.teardown.machines, y.2.request.name = key ∧ y.2.value?.isSome = true := by
  rw [← c.map_snd_machines]
  constructor
  · rintro ⟨x, hx, hname, hvalue⟩
    obtain ⟨y, hy, rfl⟩ := List.mem_map.1 hx
    exact ⟨y, hy, hname, hvalue⟩
  · rintro ⟨y, hy, hname, hvalue⟩
    exact ⟨y.2, List.mem_map_of_mem hy, hname, hvalue⟩

/-- What is left of the members, by what has been terminated under their keys. -/
theorem find?_left_iff {key : String} {m : Machine} : c.left.members.find? key = some m ↔
    (∃ x, (key, x) ∈ c.teardown.machines ∧ x.request = m) ∧
      ¬ ∃ y ∈ c.teardown.machines, y.2.request.name = key ∧ y.2.value?.isSome = true := by
  rw [c.find?_members_left, ← c.exists_termination_iff, ← and_assoc,
    ← ClusterDescriptor.mem_ownedEntries, c.covers.mem_ownedEntries]

theorem sharedStorage_left : c.left.sharedStorage =
    (c.destructions.filter fun x => !(succeededNames c.destroyed).contains x.request.id).map
      Attempt.request := by
  change d.sharedStorage.filter (fun v => !(succeededNames c.destroyed).contains v.id) = _
  rw [← c.destructions_served.requests_eq, List.filter_map]
  rfl

theorem members_rest_iff :
    (∀ key m, c.left.members.find? key = some m ↔
      ∃ x, (key, x) ∈ c.teardown.machines ∧ x.request = m ∧ x.value? = none) ↔
    ∀ x ∈ c.teardown.machines,
      (∃ y ∈ c.teardown.machines, y.2.request.name = x.1 ∧ y.2.value?.isSome = true) ↔
        x.2.value?.isSome = true := by
  constructor
  · rintro hrest ⟨key, x⟩ hx
    have hleft := (hrest key x.request).symm.trans c.find?_left_iff
    cases hvalue : x.value? with
    | none =>
      have hkept := (hleft.1 ⟨x, hx, rfl, hvalue⟩).2
      exact iff_of_false hkept (by simp)
    | some u =>
      refine iff_of_true ?_ (by simp)
      by_contra hkept
      obtain ⟨x', hx', -, hnone⟩ := hleft.2 ⟨⟨x, hx, rfl⟩, hkept⟩
      have hsame := List.inj_on_of_nodup_map c.covers.nodup_keys hx hx' rfl
      cases hsame
      rw [hvalue] at hnone
      cases hnone
  · intro hall key m
    rw [c.find?_left_iff]
    constructor
    · rintro ⟨⟨x, hx, hm⟩, hkept⟩
      refine ⟨x, hx, hm, ?_⟩
      rw [hall _ hx] at hkept
      exact Option.not_isSome_iff_eq_none.1 hkept
    · rintro ⟨x, hx, hm, hnone⟩
      refine ⟨⟨x, hx, hm⟩, ?_⟩
      rw [hall _ hx, hnone]
      exact Bool.false_ne_true

theorem volumes_rest_iff :
    (c.left.sharedStorage =
      (c.destructions.filter fun x => x.value?.isNone).map Attempt.request) ↔
    ∀ x ∈ c.destructions, ∀ y ∈ c.destructions, x.value? = none → y.value?.isSome = true →
      y.request.id ≠ x.request.id := by
  have hstrict : ∀ x ∈ c.destructions,
      (!(succeededNames c.destroyed).contains x.request.id) = true → x.value?.isNone = true := by
    intro x hx hkept
    cases hvalue : x.value? with
    | none => rfl
    | some u =>
      have hdestroyed := c.mem_destroyed.2 ⟨x, hx, rfl, by rw [hvalue]; rfl⟩
      simp [hdestroyed] at hkept
  rw [c.sharedStorage_left, map_filter_eq_iff hstrict]
  refine forall₂_congr fun x hx => ?_
  rw [Bool.not_eq_true', ← Bool.not_eq_true, List.contains_iff_mem, c.mem_destroyed,
    Option.isNone_iff_eq_none]
  constructor
  · intro h y hy hnone hvalue hid
    exact h hnone ⟨y, hy, hid, hvalue⟩
  · rintro h hnone ⟨y, hy, hid, hvalue⟩
    exact h y hy hnone hvalue hid

end Cleaning

/-- If exactly the rest is left, then nothing is left if and only if everything has succeeded. -/
theorem Teardown.Rest.remaining_eq_nil_iff {t : Teardown} {left : ClusterDescriptor}
    (h : t.Rest left) : left.remaining = [] ↔ t.Succeeded := by
  rw [← List.isEmpty_iff, ClusterDescriptor.remaining_isEmpty, Dict.isEmpty_iff]
  refine and_congr ?_ ?_
  · constructor
    · rintro hempty ⟨key, x⟩ hx
      rw [← Option.ne_none_iff_isSome]
      intro hnone
      have hleft := (h.members key x.request).2 ⟨x, hx, rfl, hnone⟩
      rw [hempty key] at hleft
      cases hleft
    · intro hall key
      cases hleft : left.members.find? key with
      | none => rfl
      | some m =>
        obtain ⟨x, hx, -, hnone⟩ := (h.members key m).1 hleft
        have hvalue := hall _ hx
        rw [hnone] at hvalue
        cases hvalue
  · rw [h.sharedStorage, List.map_eq_nil_iff, List.filter_eq_nil_iff]
    refine forall₂_congr fun x _ => ?_
    cases x.value? <;> simp

/-- A cleanup leaves what its attempts say. -/
theorem Cleaning.leaves {d : ClusterDescriptor} (c : Cleaning d) : c.teardown.Leaves d c.left where
  toCovers := c.covers
  members := fun _ _ => c.find?_left_iff
  sharedStorage := by
    refine List.filter_congr fun v _ => ?_
    rw [Bool.eq_iff_iff, Bool.not_eq_true', ← Bool.not_eq_true, List.contains_iff_mem,
      c.mem_destroyed, List.all_eq_true]
    constructor
    · intro h y hy
      cases hvalue : y.value? with
      | none => simp
      | some u =>
        have hid : y.request.id ≠ v.id := fun hid => h ⟨y, hy, hid, by rw [hvalue]; rfl⟩
        simp [hid]
    · rintro h ⟨y, hy, hid, hvalue⟩
      have hkept := h y hy
      obtain ⟨u, hu⟩ := Option.isSome_iff_exists.1 hvalue
      simp [hu, hid] at hkept
  rest_iff :=
    ⟨fun h => ⟨c.members_rest_iff.1 h.members, c.volumes_rest_iff.1 h.sharedStorage⟩,
      fun h => ⟨c.members_rest_iff.2 h.machines, c.volumes_rest_iff.2 h.volumes⟩⟩
  emptied := fun h => h.remaining_eq_nil_iff
  frame := rfl

/-- The attempts at the machines of a consistent descriptor are never taken for one another. -/
theorem ClusterDescriptor.Consistent.distinguished_iff {d : ClusterDescriptor} {cluster : String}
    (h : d.Consistent cluster) {t : Teardown} (ht : t.Covers d) :
    t.Distinguished ↔ ∀ x ∈ t.volumes, ∀ y ∈ t.volumes, x.value? = none →
      y.value?.isSome = true → y.request.id ≠ x.request.id := by
  have hname : ∀ x ∈ t.machines, x.2.request.name = x.1 := by
    rintro ⟨key, x⟩ hx
    have hentry := ht.mem_ownedEntries.2 ⟨x, hx, rfl⟩
    exact (h.members key _ (mem_ownedEntries.1 hentry).1).1
  refine ⟨fun hall => hall.volumes, fun hvolumes => ⟨fun x hx => ?_, hvolumes⟩⟩
  constructor
  · rintro ⟨y, hy, hkey, hvalue⟩
    rw [hname y hy] at hkey
    have hsame := List.inj_on_of_nodup_map ht.nodup_keys hy hx hkey
    rwa [← hsame]
  · intro hvalue
    exact ⟨x, hx, hname x hx, hvalue⟩

/-! ## Every cleanup -/

/-- A cleanup that has gone through, on books with a descriptor: after steps of roles come the
attempts, and then what is left is stored, or the cluster is forgotten if nothing is. -/
structure Turn.TearsDown (turn : Turn) (b : Books) (d : ClusterDescriptor)
    (steps : List JournalEntry) (t : Teardown) (left : ClusterDescriptor) : Prop where
  role : ∀ e ∈ steps, e.call.isRole = true
  leaves : t.Leaves d left
  books : ∃ late, turn.books b =
    if left.remaining = [] then (b.enter (steps ++ t.entries)).drop late turn.cluster
    else (b.enter (steps ++ t.entries)).put late { left with state := .failed }
  answer : turn.answer b =
    if left.remaining = [] then .ok none
    else .error (.cleanupFailed turn.cluster left.remaining)

namespace Surroundings

variable {ω : Type} {s : Surroundings ω} {start : Invocation ω} {b : Books} {cluster : String}
  {d : ClusterDescriptor}

theorem play_clean {answer : Except OrchestratorError Unit} {after : Invocation (Booked ω)}
    (h : (s.booked.clean cluster).outcome (start.withBooks b) = (answer, after)) :
    (s.turn start cluster .clean).play b = (answer.map fun _ => none, after.books) := by
  change ((s.booked.clean cluster >>= fun _ => return none).outcome
    (start.withBooks b)).map id Invocation.books = _
  cases answer with
  | error e =>
    rw [Work.bind_of_error h]
    rfl
  | ok u =>
    rw [Work.bind_of_ok h]
    rfl

theorem tearsDown_of_cleaning (c : Cleaning d) {steps : List JournalEntry} {late : Bool}
    {after : Invocation (Booked ω)} (hsteps : ∀ e ∈ steps, e.call.isRole = true)
    (houtcome : (s.booked.clean cluster).outcome (start.withBooks b) = (c.answer cluster, after))
    (hafter : after.books = c.settle cluster late (b.enter (steps ++ c.entries))) :
    (s.turn start cluster .clean).TearsDown b d steps c.teardown c.left where
  role := hsteps
  leaves := c.leaves
  books := by
    refine ⟨late, ?_⟩
    rw [Turn.books, play_clean houtcome, hafter, c.entries_teardown]
    simp only [Cleaning.settle, List.isEmpty_iff]
    rfl
  answer := by
    rw [Turn.answer, play_clean houtcome, Cleaning.answer]
    simp only [List.isEmpty_iff]
    by_cases hempty : c.left.remaining = []
    · rw [if_pos hempty, if_pos hempty]
      rfl
    · rw [if_neg hempty, if_neg hempty]
      rfl

/-- A cleanup that gets past its checks goes through if all its machines and volumes are in listed
environments; otherwise it may fail and leave the stored descriptors as they are. -/
theorem clean_tearsDown (hnamed : b.Named) (hd : b.find? cluster = some d)
    (hallowed : d.state.allows .clean = true) (hgo : s.interrupted start.outside = false)
    {clouds : Dict (Cloud ω)} (hclouds : s.cloudsFor d.environments = .ok clouds) :
    (¬ d.Placed ∧ (∃ e, (s.turn start cluster .clean).answer b = .error e) ∧
        ((s.turn start cluster .clean).books b).descriptors = b.descriptors) ∨
      ∃ steps t left, (s.turn start cluster .clean).TearsDown b d steps t left := by
  by_cases hplaced : d.Placed
  · right
    obtain ⟨hname, hvalid⟩ := hnamed cluster d hd
    obtain ⟨booked, hbooked⟩ := cloudsFor_booked hclouds
    have hload : (s.booked.loadFor cluster .clean).outcome (start.withBooks b) =
        (.ok d, start.withBooks b) := loadFor_of_allowed hvalid hd hallowed hgo
    obtain ⟨steps, c, late, after, hsteps, houtcome, hafter⟩ :=
      clean_outcome hload hname hvalid hbooked hplaced.machines hplaced.volumes
    exact ⟨steps, c.teardown, c.left, tearsDown_of_cleaning c hsteps houtcome hafter⟩
  · have hrefused : ∀ {e entries after},
        (s.booked.clean cluster).outcome (start.withBooks b) = (.error e, after) →
          after.books = b.enter entries →
          (∃ e, (s.turn start cluster .clean).answer b = .error e) ∧
            ((s.turn start cluster .clean).books b).descriptors = b.descriptors := by
      intro e entries after houtcome hafter
      have hbooks : after.books.descriptors = b.descriptors := by
        rw [hafter]
        rfl
      rw [Turn.answer, Turn.books, play_clean houtcome]
      exact ⟨⟨e, rfl⟩, hbooks⟩
    rcases @clean_cases _ s cluster (start.withBooks b) hnamed with
      ⟨e, after, steps, -, houtcome, hafter⟩ | ⟨d', steps, hd', hsteps, hcases⟩
    · exact .inl ⟨hplaced, hrefused houtcome hafter⟩
    · cases hd.symm.trans hd'
      rcases hcases with ⟨-, e, after, terminations, houtcome, hafter⟩ |
        ⟨c, late, after, houtcome, hafter⟩
      · exact .inl ⟨hplaced, hrefused houtcome hafter⟩
      · exact .inr ⟨steps, c.teardown, c.left, tearsDown_of_cleaning c hsteps houtcome hafter⟩

end Surroundings

/-- Whatever has happened before and however the clouds answer, a cleanup that is allowed, not
interrupted beforehand and has clients for its environments tears the cluster down. If clouds have
answered faithfully so far, it leaves exactly what has not been torn down unless a volume that has
been destroyed has the id of one that has not. -/
theorem cleanup_forgets (turns : List Turn) {cluster : String} {d : ClusterDescriptor}
    (hd : (Books.after turns).find? cluster = some d) {ω : Type} (s : Surroundings ω)
    (start : Invocation ω) (hallowed : d.state.allows .clean = true)
    (hgo : s.interrupted start.outside = false) {clouds : Dict (Cloud ω)}
    (hclouds : s.cloudsFor d.environments = .ok clouds) :
    ((∀ e ∈ (Books.after turns).journal, e.call.Faithful) → d.Placed ∧
      ∀ t : Teardown, t.Covers d → (t.Distinguished ↔ ∀ x ∈ t.volumes, ∀ y ∈ t.volumes,
        x.value? = none → y.value?.isSome = true → y.request.id ≠ x.request.id)) ∧
    ((¬ d.Placed ∧ (∃ e, (s.turn start cluster .clean).answer (Books.after turns) = .error e) ∧
        ((s.turn start cluster .clean).books (Books.after turns)).descriptors =
          (Books.after turns).descriptors) ∨
      ∃ steps t left,
        (s.turn start cluster .clean).TearsDown (Books.after turns) d steps t left) := by
  refine ⟨fun hfaithful => ?_, ?_⟩
  · have hconsistent := Books.consistent_after turns hfaithful cluster d hd
    exact ⟨hconsistent.placed, fun t ht => hconsistent.distinguished_iff ht⟩
  · exact Surroundings.clean_tearsDown (Books.named_after turns) hd hallowed hgo hclouds

namespace Sample

/-- Surroundings whose cloud gives every volume the same id, and fails to destroy one as long as the
counter is at zero. -/
def careless : Surroundings Nat :=
  let carelessCloud : Cloud Nat :=
    { cloud with
      launchStorage := fun r inv =>
        (.ok { id := "v", name := r.spec.name, environment := r.environment.name
               sizeGb := r.spec.sizeGb, shared := true }, inv)
      destroyStorage := fun _ inv =>
        (if inv.outside = 0 then .error (.unsupported "fake" "busy") else .ok (),
          { inv with outside := inv.outside + 1 }) }
  { surroundings with clouds := Dict.ofList [("fake", fun _ _ _ => .ok carelessCloud)] }

def pair : Template :=
  ⟨.of [("a", .of []), ("b", .of [])], by
    simp only [RoleForest.Sorted, RoleForest.SortedBelow]
    decide⟩

def scattered : Documents :=
  { documents with
    topologies := Dict.ofList [("pair", pair)]
    implementations := Dict.ofList [("standard",
      { topology := "pair"
        sharedStorage := [{ name := "data", sizeGb := 1 }]
        roles := Dict.ofList [("a", { cloud := some "fake", region := some "r1" }),
          ("b", { cloud := some "fake", region := some "r2" })] })] }

def carelessTurns : List Turn :=
  [careless.turn { outside := 0 } "c" (.configure scattered "standard" false),
    careless.turn { outside := 0 } "c" (.allocate false)]

def carelessClean : Turn := careless.turn { outside := 0 } "c" .clean

theorem exists_careless : ∃ d, (Books.after carelessTurns).find? "c" = some d ∧
    d.state = .allocated ∧ ∃ clouds, careless.cloudsFor d.environments = .ok clouds := by
  have hstored : ((Books.after carelessTurns).find? "c").map
      (fun d => (d.state, (careless.cloudsFor d.environments).isOk)) =
        some (.allocated, true) := by cbv
  obtain ⟨d, hd, hpair⟩ := Option.map_eq_some_iff.1 hstored
  obtain ⟨hstate, hbuilt⟩ := Prod.mk.inj hpair
  cases hclouds : careless.cloudsFor d.environments with
  | error e =>
    rw [hclouds] at hbuilt
    cases hbuilt
  | ok clouds => exact ⟨d, hd, hstate, clouds, hclouds⟩

theorem played_carelessClean : (carelessClean.answer (Books.after carelessTurns),
    (Ledger.volumes.live (carelessClean.books (Books.after carelessTurns)).journal).map
      Volume.environment) = (.ok none, ["fake-r1"]) := by
  cbv

end Sample

/-- The first of two volumes with one id could not be destroyed, and the cluster is forgotten. -/
theorem careless_cleanup_forgets : ∃ d steps t left,
    (Books.after Sample.carelessTurns).find? "c" = some d ∧
      Sample.carelessClean.TearsDown (Books.after Sample.carelessTurns) d steps t left ∧
      Sample.carelessClean.answer (Books.after Sample.carelessTurns) = .ok none ∧
      (Ledger.volumes.live (Sample.carelessClean.books
        (Books.after Sample.carelessTurns)).journal).map Volume.environment = ["fake-r1"] := by
  obtain ⟨d, hd, hstate, clouds, hclouds⟩ := Sample.exists_careless
  obtain ⟨hanswer, hlive⟩ := Prod.mk.inj Sample.played_carelessClean
  have hallowed : d.state.allows .clean = true := by
    rw [hstate]
    decide
  rcases (cleanup_forgets Sample.carelessTurns hd Sample.careless { outside := 0 } hallowed rfl
    hclouds).2 with ⟨-, ⟨e, he⟩, -⟩ | ⟨steps, t, left, htears⟩
  · cases hanswer.symm.trans he
  · exact ⟨d, steps, t, left, hd, htears, hanswer, hlive⟩

end BenchCluster
