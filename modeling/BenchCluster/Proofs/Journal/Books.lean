import BenchCluster.Orchestrator.Run

/-! # Books of what invocations do

Surroundings whose store is a table that never fails to be read or written, and whose clouds,
roles and hosts are those of other surroundings with every call and its answer entered in a
journal. What an operation does to descriptors, machines and volumes can be read off its books.
-/

namespace BenchCluster

/-- A step of a role, with its answer. -/
inductive RoleStep
  | configure (answer : Except RoleError Unit)
  | install (answer : Except RoleError (Option ConnectionTarget))
  | clean (answer : Except RoleError Unit)
  | start (answer : Except RoleError Unit)
  | stop (answer : Except RoleError Unit)
  | postInstall (target : ConnectionTarget) (answer : Except RoleError ConnectionTarget)

/-- What an operation does outside. A call of a cloud has the environment whose client was asked,
and the answer. -/
inductive OutsideCall
  | launch (environment : Environment) (request : LaunchRequest)
      (answer : Except CloudError (Option Machine))
  | terminate (environment : Environment) (machine : Machine) (answer : Except CloudError Unit)
  | startMachine (environment : Environment) (machine : Machine)
      (answer : Except CloudError Machine)
  | stopMachine (environment : Environment) (machine : Machine) (answer : Except CloudError Unit)
  | createVolume (environment : Environment) (request : StorageRequest)
      (answer : Except CloudError Volume)
  | destroyVolume (environment : Environment) (volume : Volume) (answer : Except CloudError Unit)
  | isRunning (environment : Environment) (cluster : String) (answer : Except CloudError Bool)
  | role (context : RoleContext) (step : RoleStep)
  | exec (host : Host) (script : String) (elevated : Bool)
      (reply : Reply (Except TransportError CommandOutput))
  | copy (host : Host) (source target : String) (reply : Reply (Except TransportError Unit))
  | saved (descriptor : ClusterDescriptor)
  | deleted (cluster : String)

/-- Whether a call neither launches nor terminates machines, neither creates nor destroys volumes,
and does not write to the store. -/
def OutsideCall.isInert : OutsideCall → Bool
  | .launch .. => false
  | .terminate .. => false
  | .createVolume .. => false
  | .destroyVolume .. => false
  | .saved _ => false
  | .deleted _ => false
  | _ => true

def OutsideCall.isRole : OutsideCall → Bool
  | .role .. => true
  | _ => false

theorem OutsideCall.isInert_of_isRole {c : OutsideCall} (h : c.isRole = true) :
    c.isInert = true := by
  cases c with
  | role context step => rfl
  | _ => cases h

/-- An entry of a journal: a call, and whether the user had asked to stop before it. -/
structure JournalEntry where
  late : Bool
  call : OutsideCall

/-- The stored descriptors, and all that has been done so far, in order. -/
structure Books where
  descriptors : Dict ClusterDescriptor := ∅
  journal : List JournalEntry := []

instance : Inhabited Books := ⟨{}⟩

namespace Books

def blank : Books := {}

def find? (b : Books) (cluster : String) : Option ClusterDescriptor := b.descriptors.find? cluster

def enter (b : Books) (entries : List JournalEntry) : Books :=
  { b with journal := b.journal ++ entries }

def put (b : Books) (late : Bool) (d : ClusterDescriptor) : Books :=
  { descriptors := b.descriptors.insert d.clusterName d
    journal := b.journal ++ [⟨late, .saved d⟩] }

def drop (b : Books) (late : Bool) (cluster : String) : Books :=
  { descriptors := b.descriptors.erase cluster
    journal := b.journal ++ [⟨late, .deleted cluster⟩] }

@[simp] theorem enter_nil (b : Books) : b.enter [] = b := by simp [enter]

@[simp] theorem enter_enter (b : Books) (first second : List JournalEntry) :
    (b.enter first).enter second = b.enter (first ++ second) := by
  simp [enter]

@[simp] theorem journal_enter (b : Books) (entries : List JournalEntry) :
    (b.enter entries).journal = b.journal ++ entries := rfl

@[simp] theorem find?_enter (b : Books) (entries : List JournalEntry) (cluster : String) :
    (b.enter entries).find? cluster = b.find? cluster := rfl

@[simp] theorem journal_put (b : Books) (late : Bool) (d : ClusterDescriptor) :
    (b.put late d).journal = b.journal ++ [⟨late, .saved d⟩] := rfl

theorem find?_put (b : Books) (late : Bool) (d : ClusterDescriptor) (cluster : String) :
    (b.put late d).find? cluster = if d.clusterName = cluster then some d else b.find? cluster :=
  Dict.find?_insert _ _ _ _

@[simp] theorem journal_drop (b : Books) (late : Bool) (cluster : String) :
    (b.drop late cluster).journal = b.journal ++ [⟨late, .deleted cluster⟩] := rfl

theorem find?_drop (b : Books) (late : Bool) (cluster other : String) :
    (b.drop late cluster).find? other = if cluster = other then none else b.find? other :=
  Dict.find?_erase _ _ _

end Books

/-- A world outside, with the books that are kept of it. -/
structure Booked (ω : Type) where
  world : ω
  books : Books

abbrev Invocation.books {ω : Type} (inv : Invocation (Booked ω)) : Books := inv.outside.books

namespace Surroundings

variable {ω α : Type}

/-- Runs a computation on the world outside and enters it in the journal. -/
def journaled (s : Surroundings ω) (entry : α → OutsideCall) (act : Action ω α) :
    Action (Booked ω) α := fun inv =>
  let (a, after) := act { metrics := inv.metrics, outside := inv.outside.world }
  let entries := [⟨s.interrupted inv.outside.world, entry a⟩]
  (a, { metrics := after.metrics
        outside := { world := after.outside, books := inv.books.enter entries } })

def journaledOutside (s : Surroundings ω) (entry : α → OutsideCall) (act : StateM ω α) :
    StateM (Booked ω) α := fun b =>
  let (a, after) := act b.world
  (a, { world := after, books := b.books.enter [⟨s.interrupted b.world, entry a⟩] })

def bookCloud (s : Surroundings ω) (env : Environment) (cloud : Cloud ω) : Cloud (Booked ω) :=
  { launchInstance := fun r => s.journaled (.launch env r) (cloud.launchInstance r)
    terminateInstance := fun m => s.journaled (.terminate env m) (cloud.terminateInstance m)
    startInstance := fun m => s.journaled (.startMachine env m) (cloud.startInstance m)
    stopInstance := fun m => s.journaled (.stopMachine env m) (cloud.stopInstance m)
    launchStorage := fun r => s.journaled (.createVolume env r) (cloud.launchStorage r)
    destroyStorage := fun v => s.journaled (.destroyVolume env v) (cloud.destroyStorage v)
    isRunning := fun cluster => s.journaled (.isRunning env cluster) (cloud.isRunning cluster) }

def bookRole (s : Surroundings ω) (context : RoleContext) (role : Role ω) : Role (Booked ω) :=
  { name := role.name
    configure := s.journaled (fun a => .role context (.configure a)) role.configure
    install := s.journaled (fun a => .role context (.install a)) role.install
    clean := s.journaled (fun a => .role context (.clean a)) role.clean
    start := s.journaled (fun a => .role context (.start a)) role.start
    stop := s.journaled (fun a => .role context (.stop a)) role.stop
    proxy := role.proxy.map fun postInstall target =>
      s.journaled (fun a => .role context (.postInstall target a)) (postInstall target) }

def bookTransport (s : Surroundings ω) (t : Transport ω) : Transport (Booked ω) :=
  { exec := fun host script elevated limit =>
      s.journaledOutside (.exec host script elevated) (t.exec host script elevated limit)
    copy := fun host source target limit =>
      s.journaledOutside (.copy host source target) (t.copy host source target limit) }

/-- A store that keeps its descriptors in the books. -/
def bookStore (s : Surroundings ω) : StoreAccess (Booked ω) :=
  { contains := fun cluster b =>
      (if isValidClusterName cluster then .ok (b.books.descriptors.contains cluster)
        else .error (.invalidName cluster), b)
    load := fun cluster b =>
      (if isValidClusterName cluster then
          match b.books.find? cluster with
          | some d => .ok d
          | none => .error (.notFound cluster)
        else .error (.invalidName cluster), b)
    save := fun d b =>
      if isValidClusterName d.clusterName then
        (.ok (), { b with books := b.books.put (s.interrupted b.world) d })
      else (.error (.invalidName d.clusterName), b)
    delete := fun cluster b =>
      if isValidClusterName cluster then
        (.ok (), { b with books := b.books.drop (s.interrupted b.world) cluster })
      else (.error (.invalidName cluster), b) }

/-- The surroundings with books of all that happens in them. -/
def booked (s : Surroundings ω) : Surroundings (Booked ω) :=
  { store := s.bookStore
    interrupted := fun b => s.interrupted b.world
    meanwhile := fun b => { b with world := s.meanwhile b.world }
    now := fun b => s.now b.world
    settings := s.settings
    cloudConfigs := s.cloudConfigs
    clouds := s.clouds.map fun make env config settings =>
      (make env config settings).map (s.bookCloud env)
    roles := s.roles.map fun make context => (make context).map (s.bookRole context)
    executor := { transport := s.bookTransport s.executor.transport, draws := s.executor.draws }
    defaultPort := s.defaultPort
    arrival := s.arrival }

end Surroundings

end BenchCluster
