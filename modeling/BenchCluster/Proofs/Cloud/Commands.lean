import BenchCluster.Cloud.Command
import BenchCluster.Proofs.Dict
import BenchCluster.Proofs.Fallible
import BenchCluster.Proofs.Retry.Exact

/-! # What commands are told

The client of an environment runs one command for whatever it is asked, again and again if need
be. The placeholders of the command stand for the values of the request, then for the parameters
of the role, and then for those of the environment. So the parameters of a role cannot change what
a request says, but they can send the launch of an instance to another place than the commands that
start, stop and terminate it.
-/

namespace BenchCluster

variable {ω : Type}

/-- The programs over a world that also keeps a list of their calls. -/
def Programs.listed (programs : Programs ω) : Programs (ω × List ProgramCall) where
  run call limit := fun w =>
    let (reply, world) := programs.run call limit w.1
    (reply, world, w.2 ++ [call])

def ProgramCall.shell (command : String) : ProgramCall := ⟨"sh", ["-c", command], none⟩

def LaunchRequest.values (r : LaunchRequest) : List (String × String) :=
  [("cluster", r.cluster), ("name", r.name), ("role", r.params.role),
    ("index", toString r.index), ("instance_type", r.params.instanceType.getD ""),
    ("image", r.params.image.getD ""), ("user", r.params.user.getD "")]

namespace CommandCloud

/-- What the client of an environment can be asked for. -/
inductive Task
  | launch (r : LaunchRequest)
  | terminate (m : Machine)
  | start (m : Machine)
  | stop (m : Machine)
  | launchStorage (r : StorageRequest)
  | destroyStorage (v : Volume)
  | isRunning (cluster : String)

namespace Task

def call : Task → Call
  | launch _ => .launch
  | terminate _ => .terminate
  | start _ => .start
  | stop _ => .stop
  | launchStorage _ => .launchStorage
  | destroyStorage _ => .destroyStorage
  | isRunning _ => .isRunning

def ask (cloud : Cloud ω) : Task → Action ω Unit
  | launch r => discard (cloud.launchInstance r)
  | terminate m => discard (cloud.terminateInstance m)
  | start m => discard (cloud.startInstance m)
  | stop m => discard (cloud.stopInstance m)
  | launchStorage r => discard (cloud.launchStorage r)
  | destroyStorage v => discard (cloud.destroyStorage v)
  | isRunning cluster => discard (cloud.isRunning cluster)

def vars (c : CommandCloud) : Task → Vars
  | launch r => c.launchVars r
  | terminate m | start m | stop m => c.machineVars m
  | launchStorage r => c.storageVars r
  | destroyStorage v => c.volumeVars v
  | isRunning cluster => withVars c.baseVars [("cluster", cluster)]

/-- What a task says of itself, by placeholders. -/
def values : Task → List (String × String)
  | launch r => r.values
  | terminate m | start m | stop m => [("id", m.id), ("name", m.name), ("role", m.role)]
  | launchStorage r =>
    [("cluster", r.cluster), ("volume", r.spec.name), ("size_gb", toString r.spec.sizeGb.toNat),
      ("mount", r.spec.mount.getD "")]
  | destroyStorage v => [("id", v.id), ("volume", v.name)]
  | isRunning cluster => [("cluster", cluster)]

/-- The parameters of the role that a task is for; only launches know them. -/
def parameters : Task → Dict String
  | launch r => r.params.parameters
  | _ => ∅

end Task

/-- What there is to say of an environment, by placeholders. -/
def placeValues (c : CommandCloud) : List (String × String) :=
  [("cloud", c.environment.cloud), ("region", c.environment.region),
    ("environment", c.environment.name)]

variable {c : CommandCloud} {programs : Programs ω} {draws : Draws}

/-! ## The commands that are run -/

/-- A run of a list of steps each of which adds the same entry to a list. -/
theorem entries_mapM {σ β γ ι : Type} (entries : σ → List γ) {op : ι → StateM σ β} {entry : γ}
    (h : ∀ i s, entries (op i s).2 = entries s ++ [entry]) (l : List ι) (s : σ) :
    entries (l.mapM op s).2 = entries s ++ List.replicate l.length entry := by
  induction l generalizing s with
  | nil => exact (List.append_nil _).symm
  | cons i rest ih =>
    rw [List.mapM_cons]
    change entries (rest.mapM op (op i s).2).2 = _
    rw [ih, h, List.length_cons, List.replicate_succ, List.append_assoc, List.singleton_append]

theorem calls_invokeOnce (call : Call) (command : String)
    (inv : Invocation (ω × List ProgramCall)) :
    (c.invokeOnce programs.listed call command inv).2.outside.2 =
      inv.outside.2 ++ [.shell command] := by
  simp only [invokeOnce, bind, StateT.bind, Action.count, Action.outside, Programs.listed]
  rw [← ProgramCall.shell]
  obtain ⟨reply, world⟩ := programs.run (.shell command) c.timeout inv.outside.1
  dsimp only
  cases c.resultOf call (reply.within c.timeout) <;> rfl

theorem calls_invoke_of_some {call : Call} {vars : Vars} {template : String}
    (h : c.commands.find? call.key = some template) (inv : Invocation (ω × List ProgramCall)) :
    ∃ n, 0 < n ∧ n ≤ c.retry.attemptCount ∧
      (c.invoke programs.listed draws call vars inv).2.outside.2 =
        inv.outside.2 ++ List.replicate n (.shell (vars.render template)) := by
  have hexact := retry_exact c.retry draws CloudError.isTransient
    (fun _ => c.invokeOnce programs.listed call (vars.render template)) inv
  have hinvoke : (c.invoke programs.listed draws call vars inv).2 =
      (BenchCluster.retry c.retry draws CloudError.isTransient
        (fun _ => c.invokeOnce programs.listed call (vars.render template)) inv).2 := by
    rw [invoke, h]
    rfl
  rw [hinvoke]
  -- Retrying is so many runs of the one command in a row, and each run adds its call to the list.
  generalize BenchCluster.retry c.retry draws CloudError.isTransient
    (fun _ => c.invokeOnce programs.listed call (vars.render template)) inv = tried at hexact
  obtain ⟨r, after⟩ := tried
  obtain ⟨hexact, hcalls⟩ := hexact
  have honce (_ : Nat) (s : Invocation (ω × List ProgramCall)) :
      (c.invokeOnce programs.listed call (vars.render template) s).2.outside.2 =
        s.outside.2 ++ [.shell (vars.render template)] := calls_invokeOnce call _ s
  have hentries := entries_mapM (fun inv : Invocation _ => inv.outside.2) honce
    (List.range r.calls) inv
  rw [hcalls, List.length_range] at hentries
  exact ⟨r.calls, hexact.calls_pos, hexact.calls_le, hentries⟩

theorem invoke_of_none {call : Call} (h : c.commands.find? call.key = none) (vars : Vars)
    (inv : Invocation ω) : (c.invoke programs draws call vars inv).2 = inv := by
  rw [invoke, h]
  rfl

namespace Task

/-- The command that a task has a shell run, if one is configured for it. -/
def command? (c : CommandCloud) (task : Task) : Option String :=
  (c.commands.find? task.call.key).map (task.vars c).render

def calls (c : CommandCloud) (programs : Programs ω) (draws : Draws) (inv : Invocation ω)
    (task : Task) : List ProgramCall :=
  (task.ask (c.toCloud programs.listed draws) ⟨inv.metrics, inv.outside, []⟩).2.outside.2

theorem ask_eq_invoke {task : Task} (h : c.commands.contains task.call.key = true)
    (inv : Invocation ω) :
    (task.ask (c.toCloud programs draws) inv).2 =
      (c.invoke programs draws task.call (task.vars c) inv).2 := by
  cases task with
  | isRunning cluster =>
    have hasked : c.commands.contains Call.isRunning.key = true := h
    simp only [ask, toCloud, hasked, if_true]
    rfl
  | _ => rfl

theorem ask_of_none {task : Task} (h : c.commands.find? task.call.key = none)
    (inv : Invocation ω) : (task.ask (c.toCloud programs draws) inv).2 = inv := by
  cases task with
  | isRunning cluster =>
    have hnot : c.commands.contains Call.isRunning.key = false := by
      rw [Dict.contains, show c.commands.find? Call.isRunning.key = none from h]
      rfl
    simp only [ask, toCloud, hnot, Bool.false_eq_true, if_false]
    rfl
  | _ => exact invoke_of_none h _ inv

theorem calls_eq_replicate {task : Task} {command : String} (h : task.command? c = some command)
    (inv : Invocation ω) :
    ∃ n, 0 < n ∧ n ≤ c.retry.attemptCount ∧
      task.calls c programs draws inv = List.replicate n (.shell command) := by
  obtain ⟨template, htemplate, rfl⟩ := Option.map_eq_some_iff.1 h
  have hcontains : c.commands.contains task.call.key = true := by
    rw [Dict.contains, htemplate]
    rfl
  rw [calls, ask_eq_invoke hcontains]
  exact calls_invoke_of_some htemplate _

theorem calls_eq_nil {task : Task} (h : task.command? c = none) (inv : Invocation ω) :
    task.calls c programs draws inv = [] := by
  rw [calls, ask_of_none (Option.map_eq_none_iff.1 h)]

end Task

/-! ## The values of the placeholders -/

theorem find?_withVars (vars : Vars) (more : List (String × String)) (key : String) :
    (withVars vars more).find? key = ((Dict.ofList more).find? key <|> vars.find? key) := by
  induction more using List.reverseRecOn with
  | nil => rfl
  | append_singleton more e ih =>
    have hwith : withVars vars (more ++ [e]) = (withVars vars more).insert e.1 e.2 := by
      simp [withVars]
    have hlist : Dict.ofList (more ++ [e]) = (Dict.ofList more).insert e.1 e.2 := by
      simp [Dict.ofList]
    rw [hwith, hlist, Dict.find?_insert, Dict.find?_insert, ih]
    split <;> rfl

/-- What a task says of itself comes first, then come the parameters of its role, and last what
there is to say of the environment. -/
theorem Task.find?_vars (task : Task) (key : String) :
    (task.vars c).find? key = ((Dict.ofList task.values).find? key <|>
      task.parameters.find? key <|> (Dict.ofList c.placeValues).find? key) := by
  cases task with
  | launch r =>
    change (withVars (Dict.union c.baseVars r.params.parameters) r.values).find? key = _
    rw [find?_withVars, Dict.find?_union]
    rfl
  | _ => exact find?_withVars _ _ _

theorem Task.nodup_values (task : Task) : (task.values.map Prod.fst).Nodup := by
  cases task <;> simp [values, LaunchRequest.values]

theorem Task.find?_vars_of_mem {task : Task} {e : String × String} (h : e ∈ task.values) :
    (task.vars c).find? e.1 = some e.2 := by
  have hfound : (Dict.ofList task.values).find? e.1 = some e.2 :=
    Dict.find?_foldl_insert_of_mem (f := Prod.fst) (g := Prod.snd) task.nodup_values h
  rw [find?_vars, hfound]
  rfl

theorem Task.place_not_mem_values (task : Task) :
    ∀ e ∈ c.placeValues, e.1 ∉ task.values.map Prod.fst := by
  cases task <;> simp [placeValues, values, LaunchRequest.values]

theorem find?_placeValues :
    ∀ e ∈ c.placeValues, (Dict.ofList c.placeValues).find? e.1 = some e.2 := fun _ he =>
  Dict.find?_foldl_insert_of_mem (f := Prod.fst) (g := Prod.snd) (by simp [placeValues]) he

/-- Only the parameters of its role can send a task to another place than its environment. -/
theorem Task.find?_vars_of_place (task : Task) {e : String × String} (h : e ∈ c.placeValues) :
    (task.vars c).find? e.1 = some ((task.parameters.find? e.1).getD e.2) := by
  have hother : (Dict.ofList task.values).find? e.1 = none :=
    Dict.find?_foldl_insert_of_not_mem (f := Prod.fst) (g := Prod.snd)
      (task.place_not_mem_values e h)
  rw [find?_vars, hother, find?_placeValues e h]
  cases task.parameters.find? e.1 <;> rfl

theorem find?_machineVars_of_launched {r : LaunchRequest} {printed : String} {m : Machine}
    (h : c.launched r printed = .ok (some m)) :
    ∀ key ∈ ["name", "role"], (c.machineVars m).find? key = (c.launchVars r).find? key := by
  have hsame : m.name = r.name ∧ m.role = r.params.role := by
    rw [launched] at h
    split at h
    · cases h
    · obtain ⟨o, -, ho⟩ := Fallible.bind_eq_ok.1 h
      cases ho
      exact ⟨rfl, rfl⟩
  have hmachine : ∀ e ∈ [("name", m.name), ("role", m.role)],
      (c.machineVars m).find? e.1 = some e.2 := fun e he =>
    Task.find?_vars_of_mem (show e ∈ (Task.start m).values from List.mem_cons_of_mem _ he)
  have hlaunch : ∀ e ∈ r.values, (c.launchVars r).find? e.1 = some e.2 := fun e he =>
    Task.find?_vars_of_mem (show e ∈ (Task.launch r).values from he)
  rw [hsame.1, hsame.2] at hmachine
  intro key hkey
  simp only [List.mem_cons, List.not_mem_nil, or_false] at hkey
  rcases hkey with rfl | rfl
  · rw [hmachine ("name", r.name) (by simp),
      hlaunch ("name", r.name) (by simp [LaunchRequest.values])]
  · rw [hmachine ("role", r.params.role) (by simp),
      hlaunch ("role", r.params.role) (by simp [LaunchRequest.values])]

/-- Every task runs its command with its values in it, and nothing else. What a task says of itself
is not changed by parameters, and the machine that a launch yields has the name and the role that
the launch was told. All tasks act at the place of the environment, but a launch acts at the one
that the parameters of its role name: it agrees with the others exactly if they name no other. -/
theorem launch_agrees_iff (c : CommandCloud) (programs : Programs ω) (draws : Draws)
    (r : LaunchRequest) :
    (∀ (task : Task) (inv : Invocation ω),
      (∀ command ∈ task.command? c, ∃ n, 0 < n ∧ n ≤ c.retry.attemptCount ∧
        task.calls c programs draws inv = List.replicate n (.shell command)) ∧
      (task.command? c = none → task.calls c programs draws inv = [])) ∧
    (∀ task : Task, ∀ e ∈ task.values, (task.vars c).find? e.1 = some e.2) ∧
    (∀ printed m, c.launched r printed = .ok (some m) →
      ∀ key ∈ ["name", "role"], (c.machineVars m).find? key = (c.launchVars r).find? key) ∧
    (∀ task : Task, (∀ r', task ≠ .launch r') →
      ∀ e ∈ c.placeValues, (task.vars c).find? e.1 = some e.2) ∧
    (∀ e ∈ c.placeValues,
      (c.launchVars r).find? e.1 = some ((r.params.parameters.find? e.1).getD e.2)) ∧
    ((∀ e ∈ c.placeValues, (c.launchVars r).find? e.1 = some e.2) ↔
      ∀ e ∈ c.placeValues, ∀ value ∈ r.params.parameters.find? e.1, value = e.2) := by
  have hplace := fun (task : Task) e (he : e ∈ c.placeValues) => task.find?_vars_of_place he
  refine ⟨fun task inv => ⟨fun command hcommand => Task.calls_eq_replicate hcommand inv,
      fun hnone => Task.calls_eq_nil hnone inv⟩,
    fun task e he => Task.find?_vars_of_mem he,
    fun printed m hm => find?_machineVars_of_launched hm, fun task hother e he => ?_,
    hplace (.launch r), ?_⟩
  · rw [hplace task e he]
    cases task with
    | launch r' => exact absurd rfl (hother r')
    | _ => rfl
  · refine forall₂_congr fun e he => ?_
    change (Task.vars c (.launch r)).find? e.1 = _ ↔ _
    rw [hplace (.launch r) e he]
    change some ((r.params.parameters.find? e.1).getD e.2) = some e.2 ↔ _
    cases r.params.parameters.find? e.1 <;> simp

def sample : CommandCloud :=
  { environment := .ofRegion "provider" client "us"
    commands := Dict.ofList [("launch", "up \x7bname\x7d in \x7bregion\x7d"),
      ("terminate", "down \x7bname\x7d in \x7bregion\x7d")]
    timeout := .ofMillis 1000
    retry := .once }

/-- A request for a role whose parameters have the names of other placeholders. -/
def sampleRequest : LaunchRequest :=
  { cluster := "demo", name := "db_0", index := 0, environment := sample.environment
    params :=
      { role := "db", implementation := "postgres", count := 1, cloud := "provider", region := "us"
        managed := true, ephemeral := false
        parameters := Dict.ofList [("name", "other"), ("region", "eu")] } }

def samplePrograms : Programs Unit where
  run _ _ w := (.ended .zero (some ⟨some 0, Text.encode "\x7b\"id\": \"i-1\"\x7d", []⟩), w)

def sampleMachine : Machine := { sampleRequest.machine "i-1" with provisioned := true }

theorem sample_launches_elsewhere :
    ((sample.toCloud samplePrograms .zero).launchInstance sampleRequest ⟨{}, ()⟩).1 =
        .ok (some sampleMachine) ∧
      Task.calls sample samplePrograms .zero ⟨{}, ()⟩ (.launch sampleRequest) =
        [.shell "up db_0 in eu"] ∧
      Task.calls sample samplePrograms .zero ⟨{}, ()⟩ (.terminate sampleMachine) =
        [.shell "down db_0 in us"] ∧
      (sample.machineVars sampleMachine).find? "name" =
        (sample.launchVars sampleRequest).find? "name" ∧
      ¬∀ e ∈ sample.placeValues, (sample.launchVars sampleRequest).find? e.1 = some e.2 := by
  obtain ⟨hruns, -, hsame, -, -, hagree⟩ :=
    launch_agrees_iff sample samplePrograms .zero sampleRequest
  have honce {task : Task} {command : String} (h : task.command? sample = some command) :
      Task.calls sample samplePrograms .zero ⟨{}, ()⟩ task = [.shell command] := by
    obtain ⟨n, hpos, hle, hcalls⟩ := (hruns task ⟨{}, ()⟩).1 command h
    obtain rfl : n = 1 := Nat.le_antisymm hle hpos
    exact hcalls
  have hprinted : sample.launched sampleRequest "\x7b\"id\": \"i-1\"\x7d" =
      .ok (some sampleMachine) := by
    decide +kernel
  refine ⟨by decide +kernel, honce (by decide +kernel), honce (by decide +kernel),
    hsame _ _ hprinted "name" (by simp), fun hall => ?_⟩
  exact absurd (hagree.1 hall ("region", "us") (by decide) "eu" (by decide)) (by decide)

end CommandCloud

end BenchCluster
