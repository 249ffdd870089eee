import Mathlib.Data.Int.CardIntervalMod
import BenchCluster.Proofs.Config.Layered
import BenchCluster.Proofs.Descriptor.Installed
import BenchCluster.Proofs.Descriptor.Labelled
import BenchCluster.Proofs.Descriptor.ReadBack
import BenchCluster.Proofs.Journal.Assigned

/-! # Hosts that are taken in turn

The instances of a role that is not managed get the hosts of the role in turn, without any cloud
being asked. The turn of an instance is its number, so it gets the same host again whenever it is
dropped and allocated anew, whichever other instances are missing then.
-/

namespace BenchCluster

variable {ω : Type} {d : ClusterDescriptor} {role cluster : String} {env : Environment}
  {params : ComponentParams}

namespace ClusterDescriptor

/-- No role of the topology has a comma in its name. -/
def Plain (d : ClusterDescriptor) : Prop := ∀ role ∈ d.topology.roles, ',' ∉ role.toList

structure Unmanaged (d : ClusterDescriptor) (role : String) (env : Environment)
    (params : ComponentParams) : Prop where
  listed : role ∈ d.topology.roles
  component : d.component? role = some (env, params)
  unmanaged : params.managed = false

/-- Roles that are not managed have hosts. -/
def Provided (d : ClusterDescriptor) : Prop :=
  ∀ role env params, d.Unmanaged role env params → params.hosts ≠ []

/-- The machine of a replica that the hosts of its role give in turn. -/
def externalMachine? (d : ClusterDescriptor) (role : String) (env : Environment)
    (params : ComponentParams) (i : Nat) : Option Machine :=
  External.machine?
    { cluster := d.clusterName, name := instanceName role i, index := i
      environment := env, params := params }

/-- The members under the replicas of roles that are not managed are those that the hosts give in
turn. -/
def Rotated (d : ClusterDescriptor) : Prop :=
  d.Plain → ∀ role env params, d.Unmanaged role env params → ∀ i m,
    d.members.find? (instanceName role i) = some m → d.externalMachine? role env params i = some m

theorem externalMachine?_eq_some {i : Nat} {m : Machine}
    (h : d.externalMachine? role env params i = some m) :
    m.publicAddress = params.hosts[i % params.hosts.length]? ∧ m.managed = false ∧
      m.provisioned = false := by
  rw [externalMachine?, External.machine?] at h
  split at h
  · cases h
  · rename_i address haddress
    cases h
    exact ⟨haddress.symm, rfl, rfl⟩

theorem Plain.instancesOf_eq (h : d.Plain) (hd : d.Numbered) (hrole : role ∈ d.topology.roles) :
    d.instancesOf role = (List.range (d.replicas role)).map (instanceName role) :=
  (hd.instancesOf_eq_iff hrole).2 (h role hrole)

theorem Planned.listed_of_instance (hd : d.Planned) {name owner : String}
    (h : (name, owner) ∈ d.instances) : owner ∈ d.topology.roles := by
  have hname := mem_instances_iff.1 h
  rw [← hd.roles, Dict.mem_keys_iff, Dict.contains_iff]
  cases hfind : d.topologyMap.find? owner with
  | some names => exact ⟨names, rfl⟩
  | none =>
    rw [instancesOf, hfind] at hname
    cases hname

/-- In a plain topology a replica is an instance of its own role only. -/
theorem Plain.owner_of_replica (h : d.Plain) (hd : d.Numbered) {owner : String} {i : Nat}
    (hinstance : (instanceName role i, owner) ∈ d.instances) : owner = role := by
  have howner := hd.listed_of_instance hinstance
  have hname := mem_instances_iff.1 hinstance
  rw [h.instancesOf_eq hd howner] at hname
  obtain ⟨j, -, hj⟩ := List.mem_map.1 hname
  exact (instanceName_injective hj).1

theorem Plain.index_launchRequest (h : d.Plain) (hd : d.Numbered) {i : Nat}
    (hinstance : (instanceName role i, role) ∈ d.instances) (env : Environment)
    (params : ComponentParams) :
    (d.launchRequest cluster (instanceName role i) role env params).index = i := by
  have hindex : (d.instancesOf role)[(d.launchRequest cluster (instanceName role i) role env
      params).index]? = some (instanceName role i) := getElem?_index hinstance env params
  rw [h.instancesOf_eq hd (hd.listed_of_instance hinstance), List.getElem?_map,
    Option.map_eq_some_iff] at hindex
  obtain ⟨j, hj, hname⟩ := hindex
  obtain ⟨hlt, rfl⟩ := List.getElem?_eq_some_iff.1 hj
  rw [List.getElem_range] at hname
  exact (instanceName_injective hname).2

/-- What becomes of a missing replica of a role that is not managed. -/
theorem Plain.provision_replica (h : d.Plain) (hd : d.Numbered)
    (hrole : d.Unmanaged role env params) {i : Nat} {owner : String} {p : Provision}
    (hmissing : (instanceName role i, owner) ∈ d.missingInstances)
    (hp : d.provision cluster (instanceName role i) owner = .ok p) :
    p.request? = none ∧ p.machine? = d.externalMachine? role env params i := by
  obtain ⟨hinstance, -⟩ := mem_missingInstances_iff.1 hmissing
  obtain rfl := h.owner_of_replica hd hinstance
  have hindex : (d.launchRequest cluster (instanceName owner i) owner env params).index = i :=
    h.index_launchRequest hd hinstance env params
  have hsame : External.machine? (d.launchRequest cluster (instanceName owner i) owner env params) =
      d.externalMachine? owner env params i := by
    rw [externalMachine?, External.machine?, External.machine?, hindex]
    rfl
  obtain ⟨env', params', hcomponent, hcases⟩ := provision_eq_ok hp
  rw [hrole.component, Option.some.injEq, Prod.mk.injEq] at hcomponent
  obtain ⟨rfl, rfl⟩ := hcomponent
  rcases hcases with ⟨hmanaged, -⟩ | ⟨-, ⟨m, hm, rfl⟩ | ⟨hnone, rfl⟩⟩
  · rw [hrole.unmanaged] at hmanaged
    cases hmanaged
  · exact ⟨rfl, by rw [← hsame, hm]; rfl⟩
  · exact ⟨rfl, by rw [← hsame, hnone]; rfl⟩

theorem Rotated.of_members {after : ClusterDescriptor} (hd : d.Rotated) (hsame : d.SamePlan after)
    (hmembers : ∀ key m, after.members.find? key = some m → d.members.find? key = some m) :
    after.Rotated := by
  intro hplain role env params hrole i m hm
  have hmember := hmembers _ _ hm
  rw [SamePlan] at hsame
  rw [hsame] at hplain hrole ⊢
  exact hd hplain role env params ⟨hrole.listed, hrole.component, hrole.unmanaged⟩ i m hmember

end ClusterDescriptor

/-! ## What operations keep -/

/-- An allocation gives a missing replica the machine of its turn, and does not launch it. -/
theorem Allocating.rotated (a : Allocating cluster d) (hd : d.Numbered) (h : d.Rotated) :
    a.descriptor.Rotated := by
  intro hplain role env params hrole i m hm
  rcases a.find?_members hm with hm | ⟨hnew, hname⟩
  · exact h hplain role env params ⟨hrole.listed, hrole.component, hrole.unmanaged⟩ i m hm
  · have hplain' : d.Plain := hplain
    have hrole' : d.Unmanaged role env params :=
      ⟨hrole.listed, hrole.component, hrole.unmanaged⟩
    rcases a.mem_machines.1 hnew with hexternal | ⟨x, hx, hlaunched⟩
    · obtain ⟨owner, hmissing, hp⟩ := ClusterDescriptor.mem_provisions a.provisions_eq hexternal
      rw [show (Provision.external m).name = instanceName role i from hname] at hmissing hp
      exact (hplain'.provision_replica hd hrole' hmissing hp).2.symm
    · obtain ⟨m', -, rfl⟩ := Attempt.machine?_eq_some.1 hlaunched
      have hrequest := ClusterDescriptor.mem_requests.1 (a.launches_served.request_mem hx)
      obtain ⟨owner, hmissing, hp⟩ := ClusterDescriptor.mem_provisions a.provisions_eq hrequest
      rw [show (Provision.launch x.request).name = instanceName role i from hname] at hmissing hp
      cases (hplain'.provision_replica hd hrole' hmissing hp).1

theorem Starting.rotated (x : Starting d) (hkeyed : d.Keyed) (h : d.Rotated) :
    x.descriptor.Rotated := by
  intro hplain role env params hrole i m hm
  have hrole' : d.Unmanaged role env params := ⟨hrole.listed, hrole.component, hrole.unmanaged⟩
  rcases x.find?_members hm with hm | ⟨a, ha, hname, -⟩
  · exact h hplain role env params hrole' i m hm
  · obtain ⟨hvalue, hstoppable⟩ := List.mem_filter.1 (x.served.request_mem ha)
    obtain ⟨key, hkey⟩ := Dict.mem_values_iff.1 hvalue
    have hmember : d.members.find? (instanceName role i) = some a.request := by
      rw [← hname, hkeyed key _ hkey]
      exact hkey
    obtain ⟨-, hmanaged, -⟩ := ClusterDescriptor.externalMachine?_eq_some
      (h hplain role env params hrole' i _ hmember)
    rw [Machine.isStoppable, hmanaged] at hstoppable
    cases hstoppable

theorem Effect.rotated {request : Request} {b b' : Books}
    {answer : Except OrchestratorError (Option ClusterDescriptor)}
    (h : Effect cluster b request answer b') (hnumbered : b.Every fun _ d => d.Numbered)
    (hkeyed : request = .start → b.Every fun _ d => d.Keyed)
    (hall : b.Every fun _ d => d.Rotated) : b'.Every fun _ d => d.Rotated := by
  have hput : ∀ {d : ClusterDescriptor} {late : Bool} (entries : List JournalEntry), d.Rotated →
      ((b.enter entries).put late d).Every fun _ d => d.Rotated := by
    intro d late entries hd
    exact Books.Every.put (b := b.enter entries) hall _ hd
  cases h with
  | refused refusal unaccepted => exact hall
  | failed mishap nothing => exact hall
  | configured valid inert accepted planned expanded =>
    exact hput _ fun _ _ _ _ _ _ _ hm => by cases hm
  | lost loaded a mishap => exact hall
  | allocated loaded a =>
    exact hput _ (a.rotated (hnumbered _ _ loaded.stored) (hall _ _ loaded.stored))
  | made loaded inert => exact hall
  | installed loaded inert =>
    have hd := hall _ _ loaded.stored
    exact hput _ (hd.of_members rfl fun _ _ hm => hm)
  | stopped loaded inert =>
    have hd := hall _ _ loaded.stored
    exact hput _ (hd.of_members rfl fun _ _ hm => hm)
  | woken loaded x failures =>
    exact hput _ (x.rotated (hkeyed rfl _ _ loaded.stored) (hall _ _ loaded.stored))
  | started loaded x inert =>
    have hd := x.rotated (hkeyed rfl _ _ loaded.stored) (hall _ _ loaded.stored)
    exact hput _ (hd.of_members rfl fun _ _ hm => hm)
  | cleaned loaded roles c =>
    have hd := hall _ _ loaded.stored
    rw [Cleaning.settle]
    split
    · exact Books.Every.drop (b := b.enter _) hall _ _
    · exact hput _ (hd.of_members rfl fun _ _ hm => (c.find?_members_left.1 hm).1)

theorem Plan.provided_descriptor {documents : Documents} {implementation : String} {p : Plan}
    (hplan : documents.plan implementation = .ok p) (names : Dict String) (now : Timestamp) :
    (p.descriptor cluster names now).Provided := by
  intro role env params hrole
  obtain ⟨_, config, topology, overrides, cloud, -, -, -, -, -, -, hparams, -⟩ :=
    Plan.asks_of_component? hplan cluster now hrole.component
  obtain ⟨-, -, hmanaged | hhosts⟩ :=
    (Documents.componentParams_eq_ok_iff (.single _)).1 hparams
  · rw [hrole.unmanaged] at hmanaged
    cases hmanaged
  · exact hhosts

theorem Effect.provided {request : Request} {b b' : Books}
    {answer : Except OrchestratorError (Option ClusterDescriptor)}
    (h : Effect cluster b request answer b') (hall : b.Every fun _ d => d.Provided) :
    b'.Every fun _ d => d.Provided := by
  refine h.every_of_samePlan (fun d after hsame hd => ?_)
    (fun _ _ p names _ now hplan _ => p.provided_descriptor hplan names now) hall
  rw [ClusterDescriptor.SamePlan] at hsame
  rw [hsame]
  exact fun role env params hrole =>
    hd role env params ⟨hrole.listed, hrole.component, hrole.unmanaged⟩

/-! ## What clouds are asked for -/

def PoolJob.instance? : PoolJob → Option String
  | .launch r => some r.name
  | .terminate m => some m.name
  | .stop m => some m.name
  | .start m => some m.name
  | .create _ => none
  | .destroy _ => none

theorem ClusterDescriptor.Unmanaged.name_ne (hrole : d.Unmanaged role env params)
    (hplain : d.Plain) (hkeyed : d.Keyed) (hrotated : d.Rotated) {m : Machine}
    (hm : m ∈ d.members.values) (hmanaged : m.managed = true) (i : Nat) :
    m.name ≠ instanceName role i := by
  intro hname
  obtain ⟨key, hkey⟩ := Dict.mem_values_iff.1 hm
  rw [← hkeyed key m hkey, hname] at hkey
  obtain ⟨-, hunmanaged, -⟩ := externalMachine?_eq_some
    (hrotated hplain role env params hrole i m hkey)
  rw [hmanaged] at hunmanaged
  cases hunmanaged

theorem ClusterDescriptor.Unmanaged.instance?_ne (hrole : d.Unmanaged role env params)
    (hplain : d.Plain) (hd : d.Numbered) (hkeyed : d.Keyed) (hrotated : d.Rotated)
    {request : Request} {job : PoolJob} (hjob : job ∈ request.jobs cluster d) (i : Nat) :
    job.instance? ≠ some (instanceName role i) := by
  have hstoppable : ∀ m ∈ d.stoppableMachines, m.name ≠ instanceName role i := by
    intro m hm
    obtain ⟨hm, hstoppable⟩ := List.mem_filter.1 hm
    exact hrole.name_ne hplain hkeyed hrotated hm (Bool.and_eq_true_iff.1 hstoppable).1 i
  intro hsome
  cases request with
  | configure documents implementation force => cases hjob
  | allocate force =>
    rcases List.mem_append.1 hjob with hjob | hjob
    · obtain ⟨r, hr, rfl⟩ := List.mem_map.1 hjob
      rw [wantedLaunches] at hr
      split at hr
      · rename_i provisions hprovisions
        obtain ⟨owner, hmissing, hp⟩ :=
          mem_provisions hprovisions (mem_requests.1 hr)
        rw [show (Provision.launch r).name = instanceName role i from Option.some.inj hsome]
          at hmissing hp
        cases (hplain.provision_replica hd hrole hmissing hp).1
      · cases hr
    · obtain ⟨r, -, rfl⟩ := List.mem_map.1 hjob
      cases hsome
  | make => cases hjob
  | install => cases hjob
  | stop =>
    obtain ⟨m, hm, rfl⟩ := List.mem_map.1 hjob
    exact hstoppable m hm (Option.some.inj hsome)
  | start =>
    obtain ⟨m, hm, rfl⟩ := List.mem_map.1 hjob
    exact hstoppable m hm (Option.some.inj hsome)
  | clean =>
    rcases List.mem_append.1 hjob with hjob | hjob
    · obtain ⟨m, hm, rfl⟩ := List.mem_map.1 hjob
      obtain ⟨hm, howned⟩ := List.mem_filter.1 hm
      exact hrole.name_ne hplain hkeyed hrotated hm (Bool.and_eq_true_iff.1 howned).1 i
        (Option.some.inj hsome)
    · obtain ⟨v, -, rfl⟩ := List.mem_map.1 hjob
      cases hsome
  | all documents implementation force => cases hjob

/-! ## How often each host is used -/

/-- The replicas of a role whose turn falls on a place among its hosts. -/
def ComponentParams.turns (params : ComponentParams) (place : Nat) : List Nat :=
  (List.range params.count.toNat).filter fun i => i % params.hosts.length = place

/-- The turns are spread evenly over the hosts. -/
theorem ComponentParams.length_turns (params : ComponentParams) {place : Nat}
    (hplace : place < params.hosts.length) :
    (params.turns place).length = params.count.toNat / params.hosts.length ∨
      (params.turns place).length =
        (params.count.toNat + params.hosts.length - 1) / params.hosts.length := by
  have hpos : 0 < params.hosts.length := Nat.zero_lt_of_lt hplace
  have hcount : (params.turns place).length =
      params.count.toNat.count (· ≡ place [MOD params.hosts.length]) := by
    rw [turns, Nat.count, List.countP_eq_length_filter]
    congr 1
    refine List.filter_congr fun i _ => decide_eq_decide.2 ?_
    change _ ↔ i % params.hosts.length = place % params.hosts.length
    rw [Nat.mod_eq_of_lt hplace]
  rw [hcount, Nat.count_modEq_card _ hpos]
  generalize params.count.toNat = n, params.hosts.length = h at hpos ⊢
  split
  · -- The turns left over after the last full round reach this place.
    right
    rename_i hleft
    have hfull := Nat.div_add_mod n h
    have hshort := Nat.mod_lt n hpos
    have hround : n + h - 1 = (n % h - 1) + h * (n / h + 1) := by
      rw [Nat.mul_add, Nat.mul_one]
      omega
    have hrest : (n % h - 1) / h = 0 := Nat.div_eq_of_lt (by omega)
    rw [hround, Nat.add_mul_div_left _ _ hpos, hrest, Nat.zero_add]
  · exact .inl rfl

/-! ## Every run -/

namespace Books

theorem labelled_afterVentures (turns : List Turn) (hnames : ∀ before t, before ++ [t] <+: turns →
    t.request = .start → ¬ t.Renames (afterVentures before)) : (afterVentures turns).Labelled := by
  induction turns using List.reverseRecOn with
  | nil => exact fun x hx => by cases hx
  | append_singleton turns t ih =>
    rw [afterVentures_concat, t.labelled_venture_iff (named_afterVentures turns)
      (recorded_afterVentures turns)]
    exact ⟨ih fun before u hbegins => hnames before u (hbegins.trans (List.prefix_append _ _)),
      hnames turns t (List.prefix_refl _)⟩

theorem keyed_of_labelled {b : Books} (h : b.Labelled) (hrecorded : b.Recorded) :
    b.Every fun _ d => d.Keyed :=
  fun _ _ hd => (h.of_find? hrecorded hd).keyed

theorem provided_afterVentures (turns : List Turn) :
    (afterVentures turns).Every fun _ d => d.Provided :=
  afterVentures_induction turns (every_blank _) fun _ _ _ _ _ _ _ hb heffect => heffect.provided hb

end Books

/-- One invocation leaves nothing out of turn, if a start finds members under the names of their
machines. -/
theorem Turn.rotated_venture (t : Turn) {b : Books} (hnumbered : b.Every fun _ d => d.Numbered)
    (hkeyed : b.Every fun _ d => d.Keyed) (hall : b.Every fun _ d => d.Rotated) :
    (t.venture b).2.Every fun _ d => d.Rotated := by
  by_cases hstart : t.request = .start
  · obtain ⟨World, s, start, cluster, request⟩ := t
    cases hstart
    have hsingle : Request.stages .start = [.start] := rfl
    exact (Effect.serve s cluster hsingle (start.withBooks b)).rotated hnumbered (fun _ => hkeyed)
      hall
  · refine ((t.course b).keeps (P := fun b' => (b'.Every fun _ d => d.Numbered) ∧
      b'.Every fun _ d => d.Rotated) ⟨hnumbered, hall⟩ ?_).2
    intro stage hstage answer x y hx heffect
    refine ⟨heffect.numbered hx.1, heffect.rotated hx.1 (fun h => ?_) hx.2⟩
    subst h
    cases hrequest : t.request <;> rw [hrequest] at hstage hstart <;>
      simp [Request.stages] at hstage hstart

theorem Books.rotated_afterVentures (turns : List Turn)
    (hnames : ∀ before t, before ++ [t] <+: turns → t.request = .start →
      ¬ t.Renames (afterVentures before)) :
    (afterVentures turns).Every fun _ d => d.Rotated := by
  induction turns using List.reverseRecOn with
  | nil => exact every_blank _
  | append_singleton turns t ih =>
    have hearlier : ∀ before u, before ++ [u] <+: turns → u.request = .start →
        ¬ u.Renames (afterVentures before) :=
      fun before u hbegins => hnames before u (hbegins.trans (List.prefix_append _ _))
    rw [afterVentures_concat]
    exact t.rotated_venture (numbered_afterVentures turns)
      (keyed_of_labelled (labelled_afterVentures turns hearlier) (recorded_afterVentures turns))
      (ih hearlier)

/-- The replicas of a role that is not managed take its hosts in turn over every run, whatever has
been dropped and allocated again: each has its own machine whenever it is a member, the hosts are
used equally often up to one once all are members, and no cloud is ever asked for any of them. Starts
may run in between as long as they do not give machines other names. -/
theorem external_hosts_rotate (turns : List Turn)
    (hnames : ∀ before t, before ++ [t] <+: turns → t.request = .start →
      ¬ t.Renames (Books.afterVentures before)) {cluster : String} {d : ClusterDescriptor}
    (hd : (Books.afterVentures turns).find? cluster = some d) (hplain : d.Plain) {role : String}
    {env : Environment} {params : ComponentParams} (hrole : d.Unmanaged role env params) :
    params.hosts ≠ [] ∧
    (∀ i m, d.members.find? (instanceName role i) = some m →
      d.externalMachine? role env params i = some m ∧
        m.publicAddress = params.hosts[i % params.hosts.length]? ∧ m.managed = false ∧
        m.provisioned = false) ∧
    (∀ place < params.hosts.length,
      ((params.turns place).length = params.count.toNat / params.hosts.length ∨
        (params.turns place).length =
          (params.count.toNat + params.hosts.length - 1) / params.hosts.length) ∧
      ((∀ i < params.count.toNat, d.members.contains (instanceName role i) = true) →
        (∀ i ∈ params.turns place, ∃ m, d.members.find? (instanceName role i) = some m ∧
          m.publicAddress = params.hosts[place]?) ∧
        (params.hosts.Nodup → params.turns place = (List.range params.count.toNat).filter fun i =>
          (d.members.find? (instanceName role i)).bind Machine.publicAddress =
            params.hosts[place]?))) ∧
    ∀ t : Turn, t.cluster = cluster → t.request.stages = [t.request] →
      ∃ calls, (t.venture (Books.afterVentures turns)).2.journal =
          (Books.afterVentures turns).journal ++ calls ∧
        ∀ x ∈ calls, ∀ job, x.call.job? = some job →
          ∀ i, job.instance? ≠ some (instanceName role i) := by
  have hnumbered := Books.numbered_afterVentures turns cluster d hd
  have hrotated := Books.rotated_afterVentures turns hnames cluster d hd
  have hkeyed := Books.keyed_of_labelled (Books.labelled_afterVentures turns hnames)
    (Books.recorded_afterVentures turns) cluster d hd
  have hmember : ∀ i m, d.members.find? (instanceName role i) = some m →
      d.externalMachine? role env params i = some m ∧
        m.publicAddress = params.hosts[i % params.hosts.length]? ∧ m.managed = false ∧
        m.provisioned = false := by
    intro i m hm
    have hmachine := hrotated hplain role env params hrole i m hm
    exact ⟨hmachine, ClusterDescriptor.externalMachine?_eq_some hmachine⟩
  refine ⟨Books.provided_afterVentures turns cluster d hd role env params hrole, hmember,
    fun place hplace => ⟨params.length_turns hplace, fun hall => ⟨fun i hi => ?_, fun hdistinct => ?_⟩⟩,
    fun t ht hsingle => ?_⟩
  · obtain ⟨hi, hturn⟩ := List.mem_filter.1 hi
    obtain ⟨m, hm⟩ := Dict.contains_iff.1 (hall i (List.mem_range.1 hi))
    refine ⟨m, hm, ?_⟩
    rw [(hmember i m hm).2.1, of_decide_eq_true hturn]
  -- With distinct hosts the address tells whose turn it was.
  · refine List.filter_congr fun i hi => ?_
    obtain ⟨m, hm⟩ := Dict.contains_iff.1 (hall i (List.mem_range.1 hi))
    rw [hm, Option.bind_some, (hmember i m hm).2.1]
    refine decide_eq_decide.2 ⟨fun hturn => by rw [hturn], fun hsame => ?_⟩
    exact (List.getElem?_inj (Nat.mod_lt i (Nat.zero_lt_of_lt hplace)) hdistinct).1 hsame
  · obtain ⟨calls, hjournal, hcalls⟩ := t.jobs_of_venture hsingle (Books.afterVentures turns)
    refine ⟨calls, hjournal, fun x hx job hjob i => ?_⟩
    obtain ⟨d', hd', hmeant⟩ := hcalls x hx job hjob
    rw [ht, hd, Option.some.injEq] at hd'
    subst hd'
    exact hrole.instance?_ne hplain hnumbered hkeyed hrotated hmeant i

namespace Sample

def mixedDocuments : Documents :=
  { topologies := Dict.ofList [("sides", sides)]
    implementations := Dict.ofList [("standard",
      { topology := "sides"
        sharedStorage := [{ name := "data", sizeGb := 1 }]
        defaults := { cloud := some "fake", region := some "r1" }
        roles := Dict.ofList [("left",
          { count := some 3, managed := some false, hosts := some ["h0", "h1"] }),
          ("right", {})] })]
    clouds := Dict.ofList [("fake", { client := "fake" })] }

/-- The cluster is allocated, cleaned up but for its volume, and allocated again. -/
def mixedTurns : List Turn :=
  [stubborn.turn { outside := 1 } "c" (.configure mixedDocuments "standard" false),
    stubborn.turn { outside := 1 } "c" (.allocate false),
    stubborn.turn { outside := 3 } "c" .clean,
    stubborn.turn { outside := 7 } "c" (.allocate true)]

end Sample

/-- Each replica has got its host back; the first one is used twice. -/
theorem mixed_hosts_rotate : ∃ d params m,
    (Books.afterVentures Sample.mixedTurns).find? "c" = some d ∧ d.state = .allocated ∧
      (d.component? "left").map Prod.snd = some params ∧
      d.members.find? "left_2" = some m ∧ m.publicAddress = some "h0" ∧ m.managed = false ∧
      (params.turns 0).length = 2 ∧
      ∀ i ∈ params.turns 0, ∃ m, d.members.find? (instanceName "left" i) = some m ∧
        m.publicAddress = some "h0" := by
  have hplayed : ((Books.afterVentures Sample.mixedTurns).find? "c").map (fun d =>
        (d.state, d.topology.roles, (d.component? "left").map fun c =>
          (c.2.managed, c.2.count.toNat, c.2.hosts, c.2.turns 0),
          d.members.contains "left_2", (List.range 3).all fun i =>
            d.members.contains (instanceName "left" i))) =
      some (.allocated, ["left", "right"], some (false, 3, ["h0", "h1"], [0, 2]), true, true) := by
    cbv
  simp only [Option.map_eq_some_iff, Prod.mk.injEq] at hplayed
  obtain ⟨d, hd, hstate, hroles, ⟨⟨env, params⟩, hcomponent, hmanaged, hcount, hhosts, hturns⟩,
    hlast, hall⟩ := hplayed
  have hplain : d.Plain := by
    rw [ClusterDescriptor.Plain, hroles]
    decide
  have hrole : d.Unmanaged "left" env params := ⟨by rw [hroles]; decide, hcomponent, hmanaged⟩
  have hnostart : ∀ before t, before ++ [t] <+: Sample.mixedTurns → t.request = .start →
      ¬ t.Renames (Books.afterVentures before) := by
    intro before t hbegins hstart
    have hmem : t ∈ Sample.mixedTurns := hbegins.subset (by simp)
    simp only [Sample.mixedTurns, List.mem_cons, List.not_mem_nil, or_false] at hmem
    rcases hmem with rfl | rfl | rfl | rfl <;> cases hstart
  obtain ⟨-, hmember, hplaces, -⟩ :=
    external_hosts_rotate Sample.mixedTurns hnostart hd hplain hrole
  obtain ⟨m, hm⟩ := Dict.contains_iff.1 hlast
  have hname : instanceName "left" 2 = "left_2" := by decide
  obtain ⟨-, haddress, hunmanaged, -⟩ := hmember 2 m (by rw [hname]; exact hm)
  rw [hhosts] at haddress hplaces
  rw [hcount] at hplaces
  obtain ⟨-, hused⟩ := hplaces 0 (by decide)
  have hcontains : ∀ i < 3, d.members.contains (instanceName "left" i) = true :=
    fun i hi => List.all_eq_true.1 hall i (List.mem_range.2 hi)
  exact ⟨d, params, m, hd, hstate, by rw [hcomponent]; rfl, hm, haddress, hunmanaged,
    by rw [hturns]; rfl, (hused hcontains).1⟩

end BenchCluster
