/-! # Command-line arguments

Reading the arguments of one run. Options may stand before the command and behind it; where both
set one, the later counts. The first fault decides what is wrong.
-/

namespace BenchCluster.CommandLine

/-- What a run is asked to do. -/
inductive Command
  | configure (cluster implementation : String) (force : Bool)
  | all (cluster implementation : String) (force : Bool)
  | allocate (cluster : String) (force : Bool)
  | make (cluster : String)
  | install (cluster : String)
  | clean (cluster : String)
  | start (cluster : String)
  | stop (cluster : String)
  | status (cluster : Option String)
  deriving DecidableEq, Repr

structure Arguments where
  configDir : Option String
  stateDir : Option String
  verbose : Bool
  command : Command
  deriving DecidableEq, Repr

/-- The reasons for which a run stops at its arguments. -/
inductive Usage
  | displayHelp
  | displayVersion
  | displayHelpOnMissingArgumentOrSubcommand
  | missingSubcommand
  | invalidSubcommand
  | unknownArgument
  | invalidValue
  | argumentConflict
  | tooManyValues
  | missingRequiredArgument
  deriving DecidableEq, Repr

def Usage.exitStatus : Usage → Nat
  | .displayHelp => 0
  | .displayVersion => 0
  | _ => 2

inductive ValueOption
  | configDir
  | stateDir
  | implementation
  deriving DecidableEq, Repr

inductive Flag
  | verbose
  | force
  | help
  | version
  deriving DecidableEq, Repr

inductive CommandName
  | configure
  | all
  | allocate
  | make
  | install
  | clean
  | start
  | stop
  | status
  deriving DecidableEq, Repr

def commandNames : List (String × CommandName) :=
  [("configure", .configure), ("allocate", .allocate), ("make", .make), ("install", .install),
    ("clean", .clean), ("all", .all), ("start", .start), ("stop", .stop), ("status", .status)]

def helpName : String := "help"

/-- Where options stand: before the command, or behind it. -/
inductive Level
  | top
  | command (name : CommandName)
  deriving DecidableEq, Repr

namespace Level

def takesImplementation : Level → Bool
  | .command .configure => true
  | .command .all => true
  | _ => false

def takesForce : Level → Bool
  | .command .allocate => true
  | l => l.takesImplementation

def longValue? (l : Level) : String → Option ValueOption
  | "config-dir" => some .configDir
  | "state-dir" => some .stateDir
  | "implementation" => if l.takesImplementation then some .implementation else none
  | _ => none

def longFlag? (l : Level) : String → Option Flag
  | "verbose" => some .verbose
  | "help" => some .help
  | "version" => if l = .top then some .version else none
  | "force" => if l.takesForce then some .force else none
  | _ => none

def shortValue? (l : Level) (c : Char) : Option ValueOption :=
  if c = 'i' && l.takesImplementation then some .implementation else none

def shortFlag? (l : Level) (c : Char) : Option Flag :=
  if c = 'v' then some .verbose
  else if c = 'h' then some .help
  else if c = 'V' && decide (l = .top) then some .version
  else none

end Level

/-- What has been read on one level. An option whose value has not been settled yet is pending. -/
structure Scan where
  values : List (ValueOption × String) := []
  flags : List Flag := []
  positional : Option String := none
  pending : Option (ValueOption × Option String) := none
  deriving Repr

namespace Scan

/-- Sets an option, which may be set once. -/
def store (s : Scan) (o : ValueOption) (value : String) : Except Usage Scan :=
  if (s.values.lookup o).isSome then .error .argumentConflict
  else .ok { s with values := (o, value) :: s.values }

def settle (s : Scan) : Except Usage Scan :=
  match s.pending with
  | none => .ok s
  | some (_, none) => .error .invalidValue
  | some (o, some value) => { s with pending := none }.store o value

def meetFlag (s : Scan) (flag : Flag) : Except Usage Scan := do
  let s ← s.settle
  match flag with
  | .help => throw .displayHelp
  | .version => throw .displayVersion
  | _ =>
    if s.flags.contains flag then throw .argumentConflict
    else return { s with flags := flag :: s.flags }

/-- Meets an option with a value. One that is attached sets it at once; one that follows is settled
with what comes next. -/
def meetOption (s : Scan) (o : ValueOption) (attached : Option String) : Except Usage Scan := do
  let s ← s.settle
  match attached with
  | some value => s.store o value
  | none => return { s with pending := some (o, none) }

def isWaiting (s : Scan) : Bool :=
  match s.pending with
  | some (_, none) => true
  | _ => false

def giveValue (s : Scan) (value : String) : Scan :=
  { s with pending := s.pending.map fun (o, _) => (o, some value) }

/-- Meets an argument that is no option, of which there may be one. -/
def meetPositional (s : Scan) (value : String) : Except Usage Scan :=
  if s.positional.isSome then .error .unknownArgument
  else do
    let s ← s.settle
    return { s with positional := some value }

def meetLong (s : Scan) (l : Level) (body : List Char) : Except Usage Scan :=
  let name := body.takeWhile (· ≠ '=')
  let attached := match body.drop name.length with
    | _ :: value => some (String.ofList value)
    | [] => none
  let name := String.ofList name
  match l.longValue? name with
  | some o => s.meetOption o attached
  | none =>
    match l.longFlag? name with
    | some flag => if attached.isSome then .error .tooManyValues else s.meetFlag flag
    | none => .error .unknownArgument

def meetShort (s : Scan) (l : Level) : List Char → Except Usage Scan
  | [] => .ok s
  | c :: rest =>
    match l.shortValue? c with
    | some o =>
      let attached := match rest with
        | [] => none
        | '=' :: value => some (String.ofList value)
        | value => some (String.ofList value)
      s.meetOption o attached
    | none =>
      match l.shortFlag? c with
      | some flag => do
        let s ← s.meetFlag flag
        s.meetShort l rest
      | none => .error .unknownArgument

end Scan

def readCommandLevel (l : Level) : Bool → Scan → List String → Except Usage Scan
  | _, s, [] => s.settle
  | true, s, a :: rest => do
    let s ← s.meetPositional a
    readCommandLevel l true s rest
  | false, s, a :: rest =>
    match a.toList with
    | ['-', '-'] => readCommandLevel l true s rest
    | '-' :: '-' :: body => do
      let s ← s.meetLong l body
      readCommandLevel l false s rest
    | '-' :: c :: body => do
      let s ← s.meetShort l (c :: body)
      readCommandLevel l false s rest
    | _ =>
      if s.isWaiting then readCommandLevel l false (s.giveValue a) rest
      else do
        let s ← s.meetPositional a
        readCommandLevel l false s rest

/-- What the arguments in front lead to. -/
inductive Front
  | ended (s : Scan)
  | command (s : Scan) (name : CommandName) (rest : List String)
  | help (rest : List String)

def readFront : Bool → Scan → List String → Except Usage Front
  | _, s, [] => .ok (.ended s)
  | true, _, a :: _ =>
    if (commandNames.lookup a).isSome || a = helpName then .error .unknownArgument
    else .error .invalidSubcommand
  | false, s, a :: rest =>
    let chars := a.toList
    if s.isWaiting && (chars.head? ≠ some '-' || chars.length = 1) then
      readFront false (s.giveValue a) rest
    else match commandNames.lookup a with
      | some name => .ok (.command s name rest)
      | none =>
        if a = helpName then .ok (.help rest)
        else match chars with
          | ['-', '-'] => readFront true s rest
          | '-' :: '-' :: body => do
            let s ← s.meetLong .top body
            readFront false s rest
          | '-' :: c :: body => do
            let s ← s.meetShort .top (c :: body)
            readFront false s rest
          | _ => .error .invalidSubcommand

def helpAnswer : List String → Usage
  | [] => .displayHelp
  | [name] =>
    if (commandNames.lookup name).isSome || name = helpName then .displayHelp
    else .invalidSubcommand
  | _ => .invalidSubcommand

def buildCommand (name : CommandName) (s : Scan) : Except Usage Command :=
  let force := s.flags.contains .force
  match name with
  | .status => .ok (.status s.positional)
  | _ =>
    match s.positional with
    | none => .error .missingRequiredArgument
    | some cluster =>
      let withImplementation (make : String → Command) : Except Usage Command :=
        match s.values.lookup .implementation with
        | some implementation => .ok (make implementation)
        | none => .error .missingRequiredArgument
      match name with
      | .configure => withImplementation fun i => .configure cluster i force
      | .all => withImplementation fun i => .all cluster i force
      | .allocate => .ok (.allocate cluster force)
      | .make => .ok (.make cluster)
      | .install => .ok (.install cluster)
      | .clean => .ok (.clean cluster)
      | .start => .ok (.start cluster)
      | .stop => .ok (.stop cluster)
      | .status => .ok (.status (some cluster))

/-- Reads the arguments of a run, without the name of the program. -/
def Arguments.read (arguments : List String) : Except Usage Arguments := do
  match ← readFront false {} arguments with
  | .help rest => throw (helpAnswer rest)
  | .ended s =>
    let s ← s.settle
    if s.values.isEmpty && s.flags.isEmpty then
      throw .displayHelpOnMissingArgumentOrSubcommand
    else throw .missingSubcommand
  | .command top name rest =>
    let inner ← readCommandLevel (.command name) false {} rest
    let command ← buildCommand name inner
    let top ← top.settle
    let value (o : ValueOption) : Option String := inner.values.lookup o <|> top.values.lookup o
    return {
      configDir := value .configDir
      stateDir := value .stateDir
      verbose := inner.flags.contains .verbose || top.flags.contains .verbose
      command := command }

end BenchCluster.CommandLine
