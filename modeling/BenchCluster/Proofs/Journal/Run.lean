import Mathlib.Logic.Relation
import BenchCluster.Proofs.Journal.Allocate
import BenchCluster.Proofs.Journal.Clean
import BenchCluster.Proofs.Journal.Configure
import BenchCluster.Proofs.Journal.Install
import BenchCluster.Proofs.Journal.Power

/-! # Runs of invocations

Any number of invocations, each in a world of its own, work on the same books. All that one of them
does to the books is a sequence of changes of nine kinds.
-/

namespace BenchCluster

variable {ω α β : Type}

/-- What an invocation is asked to do with a cluster. -/
inductive Request
  | configure (documents : Documents) (implementation : String) (force : Bool)
  | allocate (force : Bool)
  | make
  | install
  | stop
  | start
  | clean
  | all (documents : Documents) (implementation : String) (force : Bool)

/-- The work of a request; a cleanup leaves no descriptor to answer with. -/
def Surroundings.serve (s : Surroundings ω) (cluster : String) :
    Request → Work ω (Option ClusterDescriptor)
  | .configure documents implementation force => do
    let d ← s.configure cluster documents implementation force
    return some d
  | .allocate force => do
    let d ← s.allocate cluster force
    return some d
  | .make => do
    let d ← s.make cluster
    return some d
  | .install => do
    let d ← s.install cluster
    return some d
  | .stop => do
    let d ← s.stop cluster
    return some d
  | .start => do
    let d ← s.start cluster
    return some d
  | .clean => do
    s.clean cluster
    return none
  | .all documents implementation force => do
    let d ← s.all cluster documents implementation force
    return some d

/-- An invocation: the surroundings it runs in, the world it finds, and what it is asked to do. -/
structure Turn where
  World : Type
  surroundings : Surroundings World
  start : Invocation World
  cluster : String
  request : Request

def Invocation.withBooks (start : Invocation ω) (b : Books) : Invocation (Booked ω) :=
  { metrics := start.metrics, outside := { world := start.outside, books := b } }

namespace Turn

def play (t : Turn) (b : Books) : Except OrchestratorError (Option ClusterDescriptor) × Books :=
  let (answer, after) :=
    (t.surroundings.booked.serve t.cluster t.request).outcome (t.start.withBooks b)
  (answer, after.books)

def answer (t : Turn) (b : Books) : Except OrchestratorError (Option ClusterDescriptor) :=
  (t.play b).1

def books (t : Turn) (b : Books) : Books := (t.play b).2

end Turn

def Surroundings.turn (s : Surroundings ω) (start : Invocation ω) (cluster : String)
    (request : Request) : Turn :=
  { World := ω, surroundings := s, start := start, cluster := cluster, request := request }

/-- The books after invocations, starting from blank ones. -/
def Books.after (turns : List Turn) : Books := turns.foldl (fun b t => t.books b) .blank

/-- The later books have more entries; besides, the descriptor of one cluster has been stored or
forgotten at most. -/
inductive Books.Extends (cluster : String) (b : Books) : Books → Prop
  | enter (entries : List JournalEntry) : Extends cluster b (b.enter entries)
  | put (entries : List JournalEntry) (late : Bool) {d : ClusterDescriptor}
      (name : d.clusterName = cluster) (valid : isValidClusterName cluster = true) :
      Extends cluster b ((b.enter entries).put late d)
  | drop (entries : List JournalEntry) (late : Bool) :
      Extends cluster b ((b.enter entries).drop late cluster)

namespace Books.Extends

variable {cluster : String} {b b' : Books}

theorem of_put {late : Bool} {d : ClusterDescriptor} (name : d.clusterName = cluster)
    (valid : isValidClusterName cluster = true) : b.Extends cluster (b.put late d) := by
  have h : b.Extends cluster ((b.enter []).put late d) := .put [] late name valid
  rwa [Books.enter_nil] at h

theorem named (h : b.Extends cluster b') (hb : b.Named) : b'.Named := by
  cases h with
  | enter entries => exact hb
  | put entries late name valid =>
    subst name
    exact Books.Every.put (b := b.enter entries) hb late ⟨rfl, valid⟩
  | drop entries late => exact Books.Every.drop (b := b.enter entries) hb late cluster

theorem find?_of_ne (h : b.Extends cluster b') {other : String} (hne : cluster ≠ other) :
    b'.find? other = b.find? other := by
  cases h with
  | enter entries => rfl
  | put entries late name valid =>
    rw [Books.find?_put, if_neg (fun e => hne (name.symm.trans e)), Books.find?_enter]
  | drop entries late => rw [Books.find?_drop, if_neg hne, Books.find?_enter]

theorem journal_grows (h : b.Extends cluster b') : b.journal <+: b'.journal := by
  cases h with
  | enter entries => exact List.prefix_append _ _
  | put entries late name valid =>
    rw [Books.journal_put, Books.journal_enter, List.append_assoc]
    exact List.prefix_append _ _
  | drop entries late =>
    rw [Books.journal_drop, Books.journal_enter, List.append_assoc]
    exact List.prefix_append _ _

end Books.Extends

/-- One change of the books in the course of an operation on a cluster. -/
inductive Change (cluster : String) : Books → Books → Prop
  /-- Questions, calls of roles and hosts, stops and starts are entered. -/
  | noted {b : Books} {entries : List JournalEntry}
      (inert : ∀ e ∈ entries, e.call.isInert = true) : Change cluster b (b.enter entries)
  /-- The descriptor of a plan is stored where there was none or one without resources. -/
  | configured {b : Books} {documents : Documents} {implementation : String} {plan : Plan}
      {names : Dict String} {now : Timestamp} {late : Bool}
      (valid : isValidClusterName cluster = true)
      (vacant : ∀ d, b.find? cluster = some d → d.isReplaceable = true)
      (planned : documents.plan implementation = .ok plan) (expanded : plan.expand = .ok names) :
      Change cluster b (b.put late (plan.descriptor cluster names now))
  /-- Launches and volumes are attempted and what they have brought is stored. -/
  | allocated {b : Books} {d : ClusterDescriptor} {force late : Bool}
      (stored : b.find? cluster = some d) (allowed : d.state.allows (.allocate force) = true)
      (a : Allocating cluster d) :
      Change cluster b ((b.enter a.entries).put late a.descriptor)
  /-- The cluster is installed. -/
  | installed {b : Books} {d : ClusterDescriptor} {target : ConnectionTarget} {late : Bool}
      (stored : b.find? cluster = some d) (allowed : d.state.allows .install = true) :
      Change cluster b (b.put late { d with connectionTarget := some target, state := .ready })
  /-- The cluster is stopped. -/
  | stopped {b : Books} {d : ClusterDescriptor} {late : Bool}
      (stored : b.find? cluster = some d) (allowed : d.state.allows .stop = true) :
      Change cluster b (b.put late { d with state := .down })
  /-- Instances have been started, but not all of them. -/
  | woken {b : Books} {d : ClusterDescriptor} {steps : List JournalEntry} {late : Bool}
      (stored : b.find? cluster = some d) (allowed : d.state.allows .start = true)
      (x : Starting d) (inert : ∀ e ∈ steps, e.call.isInert = true)
      (failed : failuresOf x.results ≠ []) :
      Change cluster b ((b.enter (x.entries ++ steps)).put late x.descriptor)
  /-- The cluster is started. -/
  | started {b : Books} {d : ClusterDescriptor} {steps : List JournalEntry} {late : Bool}
      (stored : b.find? cluster = some d) (allowed : d.state.allows .start = true)
      (x : Starting d) (inert : ∀ e ∈ steps, e.call.isInert = true)
      (succeeded : failuresOf x.results = []) :
      Change cluster b
        ((b.enter (x.entries ++ steps)).put late { x.descriptor with state := .ready })
  /-- The cluster is torn down, and forgotten if nothing is left. -/
  | cleaned {b : Books} {d : ClusterDescriptor} {late : Bool} (stored : b.find? cluster = some d)
      (c : Cleaning d) : Change cluster b (c.settle cluster late (b.enter c.entries))
  /-- Machines have been terminated, but a volume is in an environment that is not listed. -/
  | abandoned {b : Books} {d : ClusterDescriptor} {v : Volume}
      {terminations : List (Attempt Machine Unit)} (stored : b.find? cluster = some d)
      (volume : v ∈ d.sharedStorage)
      (unlisted : ∀ env ∈ d.environments, env.name ≠ v.environment) :
      Change cluster b (b.enter (terminations.flatMap Errand.terminating.entries))

namespace Change

variable {cluster : String} {b b' : Books}

/-- A change adds to the books and writes to the descriptor of its cluster at most. -/
theorem extendsBooks (h : Change cluster b b') (hb : b.Named) : b.Extends cluster b' := by
  cases h with
  | noted inert => exact .enter _
  | configured valid vacant planned expanded => exact .of_put rfl valid
  | allocated stored allowed a =>
    obtain ⟨hname, hvalid⟩ := hb _ _ stored
    apply Books.Extends.put
    · exact hname
    · exact hvalid
  | installed stored allowed =>
    obtain ⟨hname, hvalid⟩ := hb _ _ stored
    exact .of_put hname hvalid
  | stopped stored allowed =>
    obtain ⟨hname, hvalid⟩ := hb _ _ stored
    exact .of_put hname hvalid
  | woken stored allowed x inert failed =>
    obtain ⟨hname, hvalid⟩ := hb _ _ stored
    apply Books.Extends.put
    · exact hname
    · exact hvalid
  | started stored allowed x inert succeeded =>
    obtain ⟨hname, hvalid⟩ := hb _ _ stored
    apply Books.Extends.put
    · exact hname
    · exact hvalid
  | cleaned stored c =>
    obtain ⟨hname, hvalid⟩ := hb _ _ stored
    rw [Cleaning.settle]
    split
    · exact .drop _ _
    · apply Books.Extends.put
      · exact hname
      · exact hvalid
  | abandoned stored volume unlisted => exact .enter _

end Change

/-! ## Operations as sequences of changes -/

/-- All that the work does to the books is a sequence of changes of a cluster. -/
def Changes (cluster : String) (x : Work (Booked ω) α) : Prop :=
  ∀ inv : Invocation (Booked ω), inv.books.Named →
    Relation.ReflTransGen (Change cluster) inv.books (x.outcome inv).2.books

namespace Changes

variable {cluster : String} {s : Surroundings ω}

theorem named_of_steps {b b' : Books} (h : Relation.ReflTransGen (Change cluster) b b')
    (hb : b.Named) : b'.Named := by
  induction h with
  | refl => exact hb
  | tail _ hstep ih => exact (hstep.extendsBooks ih).named ih

theorem bind {x : Work (Booked ω) α} {f : α → Work (Booked ω) β} (hx : Changes cluster x)
    (hf : ∀ a, Changes cluster (f a)) : Changes cluster (x >>= f) := by
  intro inv hnamed
  have hfirst := hx inv hnamed
  rcases Work.bind_cases x f inv with ⟨e, mid, hmid, houtcome⟩ | ⟨a, mid, hmid, houtcome⟩
  · rw [hmid] at hfirst
    rw [houtcome]
    exact hfirst
  · rw [hmid] at hfirst
    rw [houtcome]
    exact hfirst.trans (hf a mid (named_of_steps hfirst hnamed))

theorem pure (a : α) : Changes (ω := ω) cluster (Pure.pure a : Work (Booked ω) α) :=
  fun _ _ => .refl

theorem of_enters {x : Work (Booked ω) α} (h : Enters (fun c => c.isInert = true) x.outcome) :
    Changes cluster x := by
  intro inv _
  obtain ⟨entries, hentries, hbooks⟩ := h inv
  rw [hbooks]
  exact .single (.noted hentries)

theorem of_failed {inv : Invocation (Booked ω)} {x : Work (Booked ω) α}
    (h : Failed (fun c => c.isInert = true) inv (x.outcome inv)) :
    Relation.ReflTransGen (Change cluster) inv.books (x.outcome inv).2.books := by
  obtain ⟨e, after, entries, hentries, houtcome, hafter⟩ := h
  rw [houtcome, hafter]
  exact .single (.noted hentries)

theorem configure (documents : Documents) (implementation : String) (force : Bool) :
    Changes cluster (s.booked.configure cluster documents implementation force) := by
  intro inv _
  rcases Surroundings.configure_cases (s := s) cluster documents implementation force inv with
    hfailed | ⟨plan, names, now, late, after, entries, hvalid, hvacant, hplan, hnames, hentries,
      houtcome, hafter⟩
  · exact of_failed hfailed
  · rw [houtcome, hafter]
    exact (Relation.ReflTransGen.single (.noted hentries)).tail
      (.configured hvalid (fun d hd => (hvacant d hd).2) hplan hnames)

theorem allocate (force : Bool) : Changes cluster (s.booked.allocate cluster force) := by
  intro inv hnamed
  rcases @Surroundings.allocate_cases _ s cluster force inv hnamed with
    ⟨e, he⟩ | ⟨d, hd, hallows, a, late, after, houtcome, hafter⟩
  · rw [he]
  · rw [houtcome, hafter]
    exact .single (.allocated hd hallows a)

theorem make : Changes cluster (s.booked.make cluster) :=
  of_enters (Surroundings.enters_make s cluster)

theorem install : Changes cluster (s.booked.install cluster) := by
  intro inv hnamed
  rcases @Surroundings.install_cases _ s cluster inv hnamed with
    hfailed | ⟨d, target, late, after, entries, hd, hallows, hentries, houtcome, hafter⟩
  · exact of_failed hfailed
  · rw [houtcome, hafter]
    exact (Relation.ReflTransGen.single (.noted hentries)).tail (.installed hd hallows)

theorem stop : Changes cluster (s.booked.stop cluster) := by
  intro inv hnamed
  rcases @Surroundings.stop_cases _ s cluster inv hnamed with
    hfailed | ⟨d, late, after, entries, hd, hallows, hentries, houtcome, hafter⟩
  · exact of_failed hfailed
  · rw [houtcome, hafter]
    exact (Relation.ReflTransGen.single (.noted hentries)).tail (.stopped hd hallows)

theorem start : Changes cluster (s.booked.start cluster) := by
  intro inv hnamed
  rcases @Surroundings.start_cases _ s cluster inv hnamed with
    hfailed | ⟨d, x, late, after, steps, hd, hallows, hsteps,
      ⟨hfailures, houtcome, hafter⟩ | ⟨hfailures, houtcome, hafter⟩⟩
  · exact of_failed hfailed
  · rw [houtcome, hafter]
    exact .single (.woken hd hallows x hsteps hfailures)
  · rw [houtcome, hafter]
    exact .single (.started hd hallows x hsteps hfailures)

theorem clean : Changes cluster (s.booked.clean cluster) := by
  intro inv hnamed
  rcases @Surroundings.clean_cases _ s cluster inv hnamed with
    ⟨e, after, steps, hsteps, houtcome, hafter⟩ | ⟨d, steps, hd, hsteps, hcases⟩
  · rw [houtcome, hafter]
    exact .single (.noted fun x hx => OutsideCall.isInert_of_isRole (hsteps x hx))
  have hnoted : Change cluster inv.books (inv.books.enter steps) :=
    .noted fun x hx => OutsideCall.isInert_of_isRole (hsteps x hx)
  rcases hcases with ⟨⟨v, hv, hunlisted⟩, e, after, terminations, houtcome, hafter⟩ |
    ⟨c, late, after, houtcome, hafter⟩
  · rw [houtcome, hafter, ← Books.enter_enter]
    exact (Relation.ReflTransGen.single hnoted).tail (.abandoned hd hv hunlisted)
  · rw [houtcome, hafter, ← Books.enter_enter]
    exact (Relation.ReflTransGen.single hnoted).tail
      (Change.cleaned (b := inv.books.enter steps) hd c)

/-- Every request is served by changes. -/
theorem serve (request : Request) : Changes cluster (s.booked.serve cluster request) := by
  cases request with
  | configure documents implementation force =>
    exact bind (configure documents implementation force) fun _ => pure _
  | allocate force => exact bind (allocate force) fun _ => pure _
  | make => exact bind make fun _ => pure _
  | install => exact bind install fun _ => pure _
  | stop => exact bind stop fun _ => pure _
  | start => exact bind start fun _ => pure _
  | clean => exact bind clean fun _ => pure _
  | all documents implementation force =>
    refine bind ?_ fun _ => pure _
    exact bind (configure documents implementation force) fun _ =>
      bind (allocate false) fun _ => bind make fun _ => install

end Changes

/-- An invocation changes the books of its cluster only. -/
theorem Turn.changes (t : Turn) {b : Books} (hb : b.Named) :
    Relation.ReflTransGen (Change t.cluster) b (t.books b) :=
  Changes.serve (s := t.surroundings) t.request (t.start.withBooks b) hb

/-! ## Runs -/

namespace Books

theorem after_append (turns : List Turn) (t : Turn) :
    Books.after (turns ++ [t]) = t.books (Books.after turns) := by
  rw [Books.after, List.foldl_append]
  rfl

theorem named_blank : blank.Named := by
  intro cluster d hd
  cases hd

theorem after_turn {P : Books → Prop} {cluster : String} {b b' : Books}
    (h : Relation.ReflTransGen (Change cluster) b b') (hnamed : b.Named) (hP : P b)
    (hchange : ∀ b b', b.Named → P b → Change cluster b b' → P b') : b'.Named ∧ P b' := by
  induction h with
  | refl => exact ⟨hnamed, hP⟩
  | tail _ hstep ih =>
    exact ⟨(hstep.extendsBooks ih.1).named ih.1, hchange _ _ ih.1 ih.2 hstep⟩

/-- What holds of blank books and is kept by changes holds after every run. -/
theorem after_induction {P : Books → Prop} (turns : List Turn) (hblank : P blank)
    (hchange : ∀ t ∈ turns, ∀ b b', b.Named → P b → Change t.cluster b b' → P b') :
    (Books.after turns).Named ∧ P (Books.after turns) := by
  have hrun : ∀ turns' ⊆ turns, ∀ b : Books, b.Named → P b →
      (turns'.foldl (fun b t => t.books b) b).Named ∧ P (turns'.foldl (fun b t => t.books b) b) := by
    intro turns' hsub
    induction turns' with
    | nil => exact fun b hnamed hP => ⟨hnamed, hP⟩
    | cons t rest ih =>
      intro b hnamed hP
      have hturn := after_turn (t.changes hnamed) hnamed hP (hchange t (hsub List.mem_cons_self))
      exact ih (fun u hu => hsub (List.mem_cons_of_mem _ hu)) _ hturn.1 hturn.2
  exact hrun turns (List.Subset.refl _) blank named_blank hblank

theorem named_after (turns : List Turn) : (Books.after turns).Named :=
  (after_induction (P := fun _ => True) turns trivial fun _ _ _ _ _ _ _ => trivial).1

end Books

/-! ## Small clusters

Clusters for concrete runs, in a cloud that never fails or is busy for some names. The world is a
counter that ids are taken from.
-/

namespace Sample

def cloud : Cloud Nat :=
  { launchInstance := fun r inv =>
      (.ok (some { r.machine (toString inv.outside) with provisioned := true }),
        { inv with outside := inv.outside + 1 })
    terminateInstance := fun _ => return .ok ()
    startInstance := fun m => return .ok m
    stopInstance := fun _ => return .ok ()
    launchStorage := fun r inv =>
      (.ok { id := toString inv.outside, name := r.spec.name, environment := r.environment.name
             sizeGb := r.spec.sizeGb, shared := true },
        { inv with outside := inv.outside + 1 })
    destroyStorage := fun _ => return .ok ()
    isRunning := fun _ => return .ok false }

def surroundings : Surroundings Nat :=
  { store :=
      { contains := fun _ => return .ok false
        load := fun cluster => return .error (.notFound cluster)
        save := fun _ => return .ok ()
        delete := fun _ => return .ok () }
    interrupted := fun _ => false
    now := fun _ => default
    settings := {}
    cloudConfigs := Dict.ofList [("fake", { client := "fake" })]
    clouds := Dict.ofList [("fake", fun _ _ _ => .ok cloud)]
    roles := ∅
    executor :=
      { transport :=
          { exec := fun _ _ _ _ => return .hanging
            copy := fun _ _ _ _ => return .hanging } } }

def template : Template :=
  ⟨.of [("db", .of [])], by simp [RoleForest.Sorted, RoleForest.SortedBelow]⟩

def documents : Documents :=
  { topologies := Dict.ofList [("single", template)]
    implementations := Dict.ofList [("standard",
      { topology := "single"
        sharedStorage := [{ name := "data", sizeGb := 1 }]
        roles := Dict.ofList [("db", { cloud := some "fake", region := some "r1" })] })]
    clouds := Dict.ofList [("fake", { client := "fake" })] }

def turn (number : Nat) (request : Request) : Turn :=
  surroundings.turn { outside := number } "c" request

def wide : Documents :=
  { documents with
    implementations := Dict.ofList [("standard",
      { topology := "single"
        sharedStorage := [{ name := "data", sizeGb := 1 }, { name := "logs", sizeGb := 2 },
          { name := "spare", sizeGb := 3 }]
        roles := Dict.ofList
          [("db", { cloud := some "fake", region := some "r1", count := some 4 })] })] }

/-- Surroundings whose cloud does nothing for the instances and volumes of some names. -/
def busy (s : Surroundings Nat) (names : List String) : Surroundings Nat :=
  let unlessBusy {α : Type} (name : String) (act : Action Nat (Except CloudError α)) :
      Action Nat (Except CloudError α) :=
    if names.contains name then return .error (.unsupported "fake" name) else act
  let busyCloud : Cloud Nat :=
    { cloud with
      launchInstance := fun r => unlessBusy r.name (cloud.launchInstance r)
      terminateInstance := fun m => unlessBusy m.name (cloud.terminateInstance m)
      launchStorage := fun r => unlessBusy r.spec.name (cloud.launchStorage r)
      destroyStorage := fun v => unlessBusy v.name (cloud.destroyStorage v) }
  { s with clouds := Dict.ofList [("fake", fun _ _ _ => .ok busyCloud)] }

/-- The cluster is configured, and allocated in three goes, since the cloud is busy in the first two
of them. It is cleaned up as far as the cloud is not busy again. -/
def setbacks (s : Surroundings Nat) : List Turn :=
  [s.turn { outside := 0 } "c" (.configure wide "standard" false),
    (busy s ["db_1", "db_3", "data"]).turn { outside := 0 } "c" (.allocate false),
    (busy s ["db_3", "data"]).turn { outside := 10 } "c" (.allocate true),
    s.turn { outside := 20 } "c" (.allocate true),
    (busy s ["db_1", "db_2", "data", "logs"]).turn { outside := 30 } "c" .clean]

end Sample

end BenchCluster
