import BenchCluster.Rehearsal.Shell.Arithmetic
import BenchCluster.Rehearsal.Shell.Script
import BenchCluster.Rehearsal.Shell.Utility
import BenchCluster.Program

/-! # Running scripts

The evaluator of the small shell. Time passes only while a script sleeps. A script that would sleep
past its deadline is given up where it stands: the files stay as they are, and what it has printed
is lost.
-/

namespace BenchCluster.Rehearsal.Shell

def programDirectory : String := "bin"

/-- The fields that have been put together from the parts of a word. -/
structure Fields where
  done : List String := []
  current : Option String := none

namespace Fields

def add (f : Fields) (s : String) : Fields := { f with current := some (f.current.getD "" ++ s) }

def close (f : Fields) : Fields :=
  match f.current with
  | some s => { done := f.done ++ [s], current := none }
  | none => f

/-- Adds fields of which the first belongs to the one that is being put together. -/
def addAll (f : Fields) : List String → Fields
  | [] => f
  | [s] => f.add s
  | s :: rest => addAll (f.add s).close rest

def isSeparator (c : Char) : Bool := c = ' ' || c = '\t' || c = '\n'

def addSplit (f : Fields) (s : String) : Fields :=
  let chars := s.toList
  let pieces := ((chars.map fun c => if isSeparator c then ' ' else c).splitOn ' ').filter
    fun piece => !piece.isEmpty
  let f := if (chars.head?.map isSeparator).getD false then f.close else f
  let f := f.addAll (pieces.map String.ofList)
  if (chars.getLast?.map isSeparator).getD false then f.close else f

/-- Adds a text that is split at blanks unless it stands in quotes. -/
def addResult (f : Fields) (quoted : Bool) (s : String) : Fields :=
  if quoted then f.add s else f.addSplit s

def finish (f : Fields) : List String := f.close.done

end Fields

def assignment? : Word → Option (String × Word)
  | .text s false :: rest =>
    let name := s.toList.takeWhile isNameChar
    match s.toList.drop name.length with
    | '=' :: value =>
      if name.isEmpty || (name.head?.map Char.isDigit).getD false then none
      else some (String.ofList name, .text (String.ofList value) true :: rest)
    | _ => none
  | _ => none

def builtin? (name : String) : Option (List String → Machine → Machine) :=
  match name with
  | ":" => some fun _ m => m.withStatus 0
  | "true" => some fun _ m => m.withStatus 0
  | "false" => some fun _ m => m.withStatus 1
  | "echo" => some echo
  | "printf" => some printf
  | "test" => some test
  | "[" => some fun arguments m =>
      if arguments.getLast? = some "]" then test arguments.dropLast m else m.withStatus 2
  | "export" => some fun arguments m =>
      arguments.foldl (fun m a =>
        match (a.toList.splitOn '=').map String.ofList with
        | name :: value :: more =>
          { m with bindings := m.bindings.insert name ("=".intercalate (value :: more)) }
        | _ => m) (m.withStatus 0)
  | "unset" => some fun arguments m =>
      { m with bindings := arguments.foldl Dict.erase m.bindings, status := 0 }
  | "wait" => some fun _ m => m.withStatus 0
  | "set" => some setOptions
  | "cd" => some fun _ m => m.withStatus 0
  | "shift" => some fun arguments m =>
      let count := ((arguments.head?.bind String.toNat?).getD 1)
      { m with arguments := m.arguments.drop count, status := 0 }
  | "read" => some fun arguments m =>
      let all := m.peek 0
      let line := all.takeWhile (· ≠ 10)
      let m := m.drop 0 (line.length + 1)
      let status := if line.length < all.length then 0 else 1
      match arguments.filter fun a => a ≠ "-r" with
      | name :: _ =>
        let value := Text.trim (Text.decodeLossy line)
        { m with bindings := m.bindings.insert name value, status := status }
      | [] => m.withStatus status
  | _ => none

def utility? (name : String) : Option (List String → Machine → Machine) :=
  match name with
  | "cat" => some cat
  | "head" => some head
  | "tail" => some tail
  | "seq" => some seq
  | "tee" => some tee
  | "tr" => some tr
  | "wc" => some wc
  | "grep" => some grep
  | "touch" => some (onFiles touchFile false)
  | "mkdir" => some fun arguments m =>
      onFiles (if arguments.contains "-p" then FileTree.makeDirectory else makeNewDirectory) false
        arguments m
  | "cp" => some copyFile
  | "mv" => some moveFile
  | "ls" => some ls
  | "rm" => some fun arguments m =>
      onFiles FileTree.removeFile (arguments.contains "-f") arguments m
  | _ => none

/-- A program of the rehearsal: the text of its script, without the line that names the shell. -/
def program? (m : Machine) (name : String) : Option String :=
  match m.files.look (joinPath programDirectory name) with
  | .ok (.file content true) =>
    let text := Text.decodeLossy content
    if "#!".toList.isPrefixOf text.toList then
      some (String.ofList (text.toList.dropWhile (· ≠ '\n')))
    else some text
  | _ => none

def knows (m : Machine) (name : String) : Bool :=
  (builtin? name).isSome || (program? m name).isSome || (!m.bare && (utility? name).isSome)

/-- Whether a text fits a pattern with stars and question marks. A backslash takes the meaning from
what follows it. -/
def fits : Nat → List Char → List Char → Bool
  | 0, _, _ => false
  | _ + 1, [], text => text.isEmpty
  | fuel + 1, '*' :: pattern, [] => fits fuel pattern []
  | fuel + 1, '*' :: pattern, c :: text =>
    fits fuel pattern (c :: text) || fits fuel ('*' :: pattern) text
  | fuel + 1, '?' :: pattern, _ :: text => fits fuel pattern text
  | fuel + 1, '\\' :: p :: pattern, c :: text => p = c && fits fuel pattern text
  | fuel + 1, p :: pattern, c :: text => p = c && fits fuel pattern text
  | _ + 1, _ :: _, [] => false

def Part.isQuoted : Part → Bool
  | .text _ quoted => quoted
  | .variable _ quoted => quoted
  | .output _ quoted => quoted
  | .arithmetic _ quoted => quoted
  | .fallback _ _ _ quoted => quoted

def killedStatus : Nat := 137

/-- What a `kill` command is aimed at: the shell itself, unless it only asks whether that runs. -/
def killsSelf (arguments : List String) : Bool :=
  arguments.contains Machine.processId && !arguments.contains "-0"

mutual

def run : Nat → Command → Machine → Flow × Machine
  | 0, _, m => (.stuck, m)
  | fuel + 1, command, m =>
    match command with
    | .nothing => (.next, m)
    | .simple words =>
      match runSimple fuel words m with
      | (.next, m) => m.settle
      | ended => ended
    | .redirected c redirects =>
      match openAll fuel redirects m with
      | (.next, some after) =>
        match c with
        | .simple ([.text "exec" false] :: []) => (.next, after.withStatus 0)
        | _ =>
          let (flow, m') := run fuel c after
          (flow, { m' with channels := m.channels })
      | (.next, none) => ((m.emitText 2 "sh: 1: cannot open file\n").withStatus 2).settle
      | (flow, _) => (flow, m)
    | .sequence first second =>
      match run fuel first m with
      | (.next, m) => run fuel second m
      | ended => ended
    | .both first second =>
      match runTested fuel first m with
      | (.next, m) => if m.status = 0 then run fuel second m else (.next, m)
      | ended => ended
    | .either first second =>
      match runTested fuel first m with
      | (.next, m) => if m.status = 0 then (.next, m) else run fuel second m
      | ended => ended
    | .negated c =>
      match runTested fuel c m with
      | (.next, m) => (.next, m.withStatus (if m.status = 0 then 1 else 0))
      | ended => ended
    | .pipe first second =>
      let (index, m1) := m.newBuffer
      let (flow, m2) := runChild fuel first (m1.connect 1 (.buffer index))
      match flow with
      | .next =>
        let (source, m3) := m2.newInput (m2.printed index)
        let (flow, m4) := runChild fuel second
          (({ m3 with channels := m.channels }).connect 0 (.input source))
        match flow with
        | .next => { m4 with channels := m.channels }.settle
        | flow => (flow, { m4 with channels := m.channels })
      | flow => (flow, m2)
    | .isolated c =>
      match runChild fuel c m with
      | (.next, m') => { m' with channels := m.channels }.settle
      | (flow, m') => (flow, { m' with channels := m.channels })
    | .conditional test yes no =>
      match runTested fuel test m with
      | (.next, m) =>
        if m.status = 0 then run fuel yes m
        else run fuel no (m.withStatus 0)
      | ended => ended
    | .repeated whileTrue test body =>
      match runTested fuel test m with
      | (.next, m) =>
        if (m.status = 0) = whileTrue then
          match run fuel body m with
          | (.next, m) => run fuel (.repeated whileTrue test body) m
          | ended => ended
        else (.next, m.withStatus 0)
      | ended => ended
    | .choice word patterns yes no =>
      match expandAll fuel [word] m with
      | (.next, fields, m) =>
        match fitsAny fuel patterns (" ".intercalate fields).toList m with
        | (.next, found, m) => run fuel (if found then yes else no) (m.withStatus 0)
        | (flow, _, m) => (flow, m)
      | (flow, _, m) => (flow, m)
    | .each name words body =>
      match expandAll fuel words m with
      | (.next, values, m) => runEach fuel name values body m
      | (flow, _, m) => (flow, m)

def runTested : Nat → Command → Machine → Flow × Machine
  | 0, _, m => (.stuck, m)
  | fuel + 1, c, m =>
    let (flow, m') := run fuel c { m with tested := true }
    (flow, { m' with tested := m.tested })

def runEach : Nat → String → List String → Command → Machine → Flow × Machine
  | 0, _, _, _, m => (.stuck, m)
  | _ + 1, _, [], _, m => (.next, m)
  | fuel + 1, name, value :: rest, body, m =>
    match run fuel body { m with bindings := m.bindings.insert name value } with
    | (.next, m) => runEach fuel name rest body m
    | ended => ended

/-- Runs a command in a shell of its own, whose variables and end do not matter outside. -/
def runChild : Nat → Command → Machine → Flow × Machine
  | 0, _, m => (.stuck, m)
  | fuel + 1, c, m =>
    let (flow, m') := run fuel c m
    (if flow = .left then .next else flow, m'.returnTo m)

def runScript : Nat → String → List String → Machine → Flow × Machine
  | 0, _, _, m => (.stuck, m)
  | fuel + 1, source, arguments, m =>
    match read? source with
    | none => (.next, (m.emitText 2 "sh: 1: Syntax error\n").withStatus 2)
    | some c =>
      let started :=
        { m with arguments := arguments, status := 0, strict := false, tested := false }
      match run fuel c started with
      | (.stuck, m') => (.stuck, m')
      | (.killed, m') =>
        (.next, { m'.returnTo m with channels := m.channels, status := killedStatus })
      | (_, m') => (.next, { m'.returnTo m with channels := m.channels })

def runSimple : Nat → List Word → Machine → Flow × Machine
  | 0, _, m => (.stuck, m)
  | fuel + 1, words, m =>
    match words with
    | [] => (.next, m)
    | word :: rest =>
      match assignment? word with
      | some (name, value) =>
        match expandAll fuel [value] (m.withStatus 0) with
        | (.next, values, m) =>
          let assigned := { m with bindings := m.bindings.insert name ("".intercalate values) }
          if rest.isEmpty then (.next, assigned)
          else
            let (flow, after) := runSimple fuel rest assigned
            if (rest.all fun word => (assignment? word).isSome) then (flow, after)
            else (flow, { after with bindings := match m.bindings.find? name with
              | some old => after.bindings.insert name old
              | none => after.bindings.erase name })
        | (flow, _, m) => (flow, m)
      | none =>
        match expandAll fuel (word :: rest) m with
        | (.next, [], m) => (.next, m)
        | (.next, name :: arguments, m) => call fuel name arguments m
        | (flow, _, m) => (flow, m)

def call : Nat → String → List String → Machine → Flow × Machine
  | 0, _, _, m => (.stuck, m)
  | fuel + 1, name, arguments, m =>
    if name = "exit" then
      (.left, m.withStatus (match arguments with
        | a :: _ => (a.toNat?.getD 2) % 256
        | [] => m.status))
    else if name = "kill" then
      if killsSelf arguments then (.killed, m) else (.next, m.withStatus 0)
    else if name = "command" && arguments.head? = some "-v" then
      let found := (arguments.drop 1).filter (knows m)
      let m := found.foldl (fun m name => m.emitText 1 (name ++ "\n")) m
      (.next, m.withStatus (if found.isEmpty then 127 else 0))
    else if name = "eval" then
      match read? (" ".intercalate arguments) with
      | some c => run fuel c (m.withStatus 0)
      | none => (.left, (m.emitText 2 "sh: 1: Syntax error\n").withStatus 2)
    else if name = "exec" then
      match arguments with
      | [] => (.next, m)
      | name :: arguments =>
        match call fuel name arguments m with
        | (.next, m) => (.left, m)
        | ended => ended
    else match builtin? name with
      | some act => (.next, act arguments m)
      | none =>
        match program? m name with
        | some source => runScript fuel source arguments m
        | none =>
          if m.bare then notFound name m
          else if name = "sleep" then sleep arguments m
          else if name = "sh" || name = "bash" then
            match arguments with
            | "-c" :: source :: rest => runScript fuel source (rest.drop 1) m
            | _ =>
              let (source, m) := m.readAll 0
              runScript fuel (Text.decodeLossy source) [] m
          else match utility? name with
            | some act => (.next, act arguments m)
            | none => notFound name m

def notFound (name : String) (m : Machine) : Flow × Machine :=
  (.next, (m.emitText 2 s!"sh: 1: {name}: not found\n").withStatus 127)

def expandAll : Nat → List Word → Machine → Flow × List String × Machine
  | 0, _, m => (.stuck, [], m)
  | _ + 1, [], m => (.next, [], m)
  | fuel + 1, word :: rest, m =>
    match expand fuel {} word m with
    | (.next, fields, m) =>
      match expandAll fuel rest m with
      | (.next, more, m) => (.next, fields.finish ++ more, m)
      | ended => ended
    | (flow, _, m) => (flow, [], m)

def expand : Nat → Fields → Word → Machine → Flow × Fields × Machine
  | 0, fields, _, m => (.stuck, fields, m)
  | _ + 1, fields, [], m => (.next, fields, m)
  | fuel + 1, fields, part :: rest, m =>
    match part with
    | .text s _ => expand fuel (fields.add s) rest m
    | .variable "@" true => expand fuel (fields.addAll m.arguments) rest m
    | .variable name quoted => expand fuel (fields.addResult quoted (m.value name)) rest m
    | .arithmetic source quoted =>
      match expandText fuel source m with
      | (.next, text, m) =>
        match evaluate? (fun name => ((m.value name).toInt?).getD 0) text with
        | some n => expand fuel (fields.addResult quoted (toString n)) rest m
        | none => (.left, fields, (m.emitText 2 "sh: 1: arithmetic expression\n").withStatus 2)
      | (flow, _, m) => (flow, fields, m)
    | .fallback name emptyCounts source quoted =>
      match m.value? name with
      | some s =>
        if s = "" && emptyCounts then
          match expandText fuel source m with
          | (.next, text, m) => expand fuel (fields.addResult quoted text) rest m
          | (flow, _, m) => (flow, fields, m)
        else expand fuel (fields.addResult quoted s) rest m
      | none =>
        match expandText fuel source m with
        | (.next, text, m) => expand fuel (fields.addResult quoted text) rest m
        | (flow, _, m) => (flow, fields, m)
    | .output source quoted =>
      match read? source with
      | none => (.next, fields, (m.emitText 2 "sh: 1: Syntax error\n").withStatus 2)
      | some c =>
        let (index, m1) := m.newBuffer
        let (flow, m2) := runChild fuel c (m1.connect 1 (.buffer index))
        let m3 := { m2 with channels := m.channels }
        match flow with
        | .next =>
          let chars := (Text.decodeLossy (m3.printed index)).toList
          let s := String.ofList (chars.reverse.dropWhile (· = '\n')).reverse
          expand fuel (fields.addResult quoted s) rest m3
        | flow => (flow, fields, m3)

def expandPattern : Nat → Word → Machine → Flow × List Char × Machine
  | 0, _, m => (.stuck, [], m)
  | _ + 1, [], m => (.next, [], m)
  | fuel + 1, part :: rest, m =>
    match expand fuel {} [part] m with
    | (.next, fields, m) =>
      let chars := (" ".intercalate fields.finish).toList
      let chars := if part.isQuoted then chars.flatMap fun c => ['\\', c] else chars
      match expandPattern fuel rest m with
      | (.next, more, m) => (.next, chars ++ more, m)
      | ended => ended
    | (flow, _, m) => (flow, [], m)

def fitsAny : Nat → List Word → List Char → Machine → Flow × Bool × Machine
  | 0, _, _, m => (.stuck, false, m)
  | _ + 1, [], _, m => (.next, false, m)
  | fuel + 1, pattern :: rest, text, m =>
    match expandPattern fuel pattern m with
    | (.next, chars, m) =>
      if fits (2 * (chars.length + text.length) + 2) chars text then (.next, true, m)
      else fitsAny fuel rest text m
    | (flow, _, m) => (flow, false, m)

def expandText : Nat → String → Machine → Flow × String × Machine
  | 0, _, m => (.stuck, "", m)
  | fuel + 1, source, m =>
    let chars := source.toList ++ ['"']
    match doubleQuoted (2 * chars.length) chars with
    | some (parts, _) =>
      match expand fuel {} parts m with
      | (.next, fields, m) => (.next, "".intercalate fields.finish, m)
      | (flow, _, m) => (flow, "", m)
    | none => (.next, source, m)

/-- Opens redirections one after the other; nothing if a file cannot be opened. -/
def openAll : Nat → List Redirect → Machine → Flow × Option Machine
  | 0, _, m => (.stuck, some m)
  | _ + 1, [], m => (.next, some m)
  | fuel + 1, r :: rest, m =>
    match r.target with
    | .close => openAll fuel rest (m.connect r.fd .closed)
    | .duplicate fd => openAll fuel rest (m.connect r.fd (m.channel fd))
    | .read word =>
      match expandAll fuel [word] m with
      | (.next, fields, m) =>
        let path := "".intercalate fields
        if path = "/dev/null" then
          let (index, m) := m.newInput []
          openAll fuel rest (m.connect r.fd (.input index))
        else match m.files.readBytes path with
          | .ok content =>
            let (index, m) := m.newInput content
            openAll fuel rest (m.connect r.fd (.input index))
          | .error _ => (.next, none)
      | (flow, _, _) => (flow, none)
    | .write word =>
      match expandAll fuel [word] m with
      | (.next, fields, m) =>
        let path := "".intercalate fields
        if path = "/dev/null" then openAll fuel rest (m.connect r.fd .null)
        else match m.files.writeBytes path [] with
          | .ok files => openAll fuel rest ({ m with files := files }.connect r.fd (.file path))
          | .error _ => (.next, none)
      | (flow, _, _) => (flow, none)
    | .append word =>
      match expandAll fuel [word] m with
      | (.next, fields, m) =>
        let path := "".intercalate fields
        if path = "/dev/null" then openAll fuel rest (m.connect r.fd .null)
        else match touchFile m.files path with
          | .ok files => openAll fuel rest ({ m with files := files }.connect r.fd (.file path))
          | .error _ => (.next, none)
      | (flow, _, _) => (flow, none)

end

def stepLimit : Nat := 100000

def startMachine (files : FileTree) (bindings : Dict String) (bare : Bool) (limit : Duration)
    (c : ProgramCall) : Machine :=
  { files := files, bindings := bindings, arguments := c.arguments
    buffers := [[], []], inputs := [c.input.getD []]
    channels := [(0, .input 0), (1, .buffer 0), (2, .buffer 1)]
    deadline := limit, bare := bare }

/-- The script that a program call runs, with its arguments, if the program can be found. -/
def scriptOf? (m : Machine) (c : ProgramCall) : Option (String × List String) :=
  match program? m c.program with
  | some source => some (source, c.arguments)
  | none =>
    if m.bare || c.program ≠ "sh" then none
    else match c.arguments with
      | ["-c", source] => some (source, [])
      | _ => none

def callProgram (files : FileTree) (bindings : Dict String) (bare : Bool) (limit : Duration)
    (c : ProgramCall) : Reply (Option ProgramOutput) × FileTree :=
  let m := startMachine files bindings bare limit c
  match scriptOf? m c with
  | none => (.ended .zero none, files)
  | some (source, arguments) =>
    match read? source with
    | none =>
      let stderr := Text.encode "sh: 1: Syntax error\n"
      (.ended .zero (some { exitStatus := some 2, stderr := stderr }), files)
    | some command =>
      let (flow, m) := run stepLimit command { m with arguments := arguments }
      let output (status : Option Int) : Option ProgramOutput :=
        some { exitStatus := status, stdout := m.printed 0, stderr := m.printed 1 }
      match flow with
      | .stuck => (.hanging, m.files)
      | .killed => (.ended m.elapsed (output none), m.files)
      | _ => (.ended m.elapsed (output (some m.status)), m.files)

end BenchCluster.Rehearsal.Shell
