import BenchCluster.Rehearsal.Shell.Machine

/-! # Utilities

The commands that a script may use without running another script. Each gets its arguments and
the state of the shell, and answers with the state afterwards, in which its status is set.
-/

namespace BenchCluster.Rehearsal.Shell

def octal (width : Nat) (chars : List Char) : Nat × List Char :=
  let digits := (chars.take width).takeWhile fun c => '0' ≤ c && c ≤ '7'
  (digits.foldl (fun n c => n * 8 + (c.toNat - '0'.toNat)) 0, chars.drop digits.length)

def controlOf (c : Char) : Option UInt8 :=
  match c with
  | 'a' => some 7
  | 'b' => some 8
  | 'f' => some 12
  | 'n' => some 10
  | 'r' => some 13
  | 't' => some 9
  | 'v' => some 11
  | '\\' => some 92
  | _ => none

def bytesOf (c : Char) : List UInt8 := Text.encode (String.ofList [c])

/-- What `echo` makes of a text; says whether it goes on behind it. -/
def echoBytes : Nat → List Char → List UInt8 × Bool
  | 0, _ => ([], true)
  | _ + 1, [] => ([], true)
  | fuel + 1, '\\' :: c :: rest =>
    if c = 'c' then ([], false)
    else if c = '0' then
      let (n, rest) := octal 3 rest
      let (bytes, more) := echoBytes fuel rest
      (n.toUInt8 :: bytes, more)
    else match controlOf c with
      | some b =>
        let (bytes, more) := echoBytes fuel rest
        (b :: bytes, more)
      | none =>
        let (bytes, more) := echoBytes fuel rest
        (92 :: bytesOf c ++ bytes, more)
  | fuel + 1, c :: rest =>
    let (bytes, more) := echoBytes fuel rest
    (bytesOf c ++ bytes, more)

def echo (arguments : List String) (m : Machine) : Machine :=
  let (line, words) := match arguments with
    | "-n" :: rest => (false, rest)
    | words => (true, words)
  let chars := (" ".intercalate words).toList
  let (bytes, more) := echoBytes (chars.length + 1) chars
  let (ok, m) := m.emit 1 (if line && more then bytes ++ [10] else bytes)
  m.withStatus (if ok then 0 else 1)

structure Format where
  left : Bool
  zeros : Bool
  width : Nat
  precision : Option Nat
  letter : Char

namespace Format

def number (chars : List Char) : Nat × List Char :=
  let digits := chars.takeWhile Char.isDigit
  (((String.ofList digits).toNat?).getD 0, chars.drop digits.length)

def read? (chars : List Char) : Option (Format × List Char) :=
  let signs := chars.takeWhile fun c => c = '-' || c = '0' || c = '+' || c = ' ' || c = '#'
  let (width, rest) := number (chars.drop signs.length)
  let (precision, rest) := match rest with
    | '.' :: rest => ((some (number rest).1), (number rest).2)
    | rest => (none, rest)
  match rest with
  | c :: rest => some (⟨signs.contains '-', signs.contains '0', width, precision, c⟩, rest)
  | [] => none

def render (f : Format) (argument : Option String) : String :=
  let isNumber := f.letter = 'd' || f.letter = 'i' || f.letter = 'u'
  let body := argument.getD (if isNumber then "0" else "")
  let body := if isNumber then body else match f.precision with
    | some n => String.ofList (body.toList.take n)
    | none => body
  let missing := f.width - body.length
  if f.left then body ++ String.ofList (List.replicate missing ' ')
  else String.ofList (List.replicate missing (if f.zeros && isNumber then '0' else ' ')) ++ body

end Format

/-- One pass of `printf` over its format: what is printed, the arguments left, and whether any has
been used. -/
def formatOnce : Nat → List Char → List String → Bool → List UInt8 × List String × Bool
  | 0, _, arguments, used => ([], arguments, used)
  | _ + 1, [], arguments, used => ([], arguments, used)
  | fuel + 1, '%' :: '%' :: rest, arguments, used =>
    let (bytes, left, used) := formatOnce fuel rest arguments used
    (37 :: bytes, left, used)
  | fuel + 1, '%' :: rest, arguments, used =>
    match Format.read? rest with
    | some (format, rest) =>
      let (bytes, left, _) := formatOnce fuel rest (arguments.drop 1) true
      (Text.encode (format.render arguments.head?) ++ bytes, left, true)
    | none => ([37], arguments, used)
  | fuel + 1, '\\' :: c :: rest, arguments, used =>
    if '0' ≤ c && c ≤ '7' then
      let (n, rest) := octal 3 (c :: rest)
      let (bytes, left, used) := formatOnce fuel rest arguments used
      (n.toUInt8 :: bytes, left, used)
    else
      let (bytes, left, used) := formatOnce fuel rest arguments used
      match controlOf c with
      | some b => (b :: bytes, left, used)
      | none => (92 :: bytesOf c ++ bytes, left, used)
  | fuel + 1, c :: rest, arguments, used =>
    let (bytes, left, used) := formatOnce fuel rest arguments used
    (bytesOf c ++ bytes, left, used)

def formatAll : Nat → List Char → List String → List UInt8
  | 0, _, _ => []
  | fuel + 1, format, arguments =>
    let (bytes, left, used) := formatOnce (format.length + 1) format arguments false
    if used && !left.isEmpty then bytes ++ formatAll fuel format left else bytes

def printf (arguments : List String) (m : Machine) : Machine :=
  match arguments with
  | [] => m.withStatus 2
  | format :: rest =>
    let (ok, m) := m.emit 1 (formatAll (rest.length + 1) format.toList rest)
    m.withStatus (if ok then 0 else 1)

def compareNumbers (test : Int → Int → Bool) (a b : String) : Option Bool :=
  match (Text.trim a).toInt?, (Text.trim b).toInt? with
  | some x, some y => some (test x y)
  | _, _ => none

/-- The answer of a test without connectives; nothing if its arguments make no sense. -/
def simpleTest (m : Machine) : List String → Option Bool
  | [] => some false
  | ["!", a] => some (decide (a = ""))
  | [a] => some (decide (a ≠ ""))
  | "!" :: rest => (simpleTest m rest).map not
  | ["-n", a] => some (decide (a ≠ ""))
  | ["-z", a] => some (decide (a = ""))
  | ["-e", a] => some (m.files.pathExists a)
  | ["-f", a] => some (match m.files.look a with | .ok (.file _ _) => true | _ => false)
  | ["-d", a] => some (match m.files.look a with | .ok .directory => true | _ => false)
  | ["-x", a] =>
    some (match m.files.look a with | .ok (.file _ x) => x | .ok _ => true | _ => false)
  | ["-s", a] => some (match m.files.look a with | .ok (.file c _) => !c.isEmpty | _ => false)
  | [a, "=", b] => some (decide (a = b))
  | [a, "!=", b] => some (decide (a ≠ b))
  | [a, "-eq", b] => compareNumbers (fun x y => decide (x = y)) a b
  | [a, "-ne", b] => compareNumbers (fun x y => decide (x ≠ y)) a b
  | [a, "-lt", b] => compareNumbers (fun x y => decide (x < y)) a b
  | [a, "-le", b] => compareNumbers (fun x y => decide (x ≤ y)) a b
  | [a, "-gt", b] => compareNumbers (fun x y => decide (x > y)) a b
  | [a, "-ge", b] => compareNumbers (fun x y => decide (x ≥ y)) a b
  | _ => none

def splitWords (word : String) (l : List String) : List (List String) :=
  (l.splitBy fun _ b => b ≠ word).map fun part =>
    if part.head? = some word then part.drop 1 else part

/-- The answer of a test, in which "and" ties closer than "or". -/
def testAnswer (m : Machine) (arguments : List String) : Option Bool := do
  if arguments.length ≤ 4 then simpleTest m arguments
  else
    let answers ← (splitWords "-o" arguments).mapM fun part => do
      let answers ← (splitWords "-a" part).mapM (simpleTest m)
      return answers.all id
    return answers.any id

def test (arguments : List String) (m : Machine) : Machine :=
  match testAnswer m arguments with
  | some true => m.withStatus 0
  | some false => m.withStatus 1
  | none => (m.emitText 2 "sh: 1: test: bad operand\n").withStatus 2

/-- What the named files hold, or all that is left to be read. -/
def sources (name : String) (paths : List String) (m : Machine) : List UInt8 × Machine :=
  if paths.isEmpty then m.readAll 0
  else paths.foldl (fun (bytes, m) path =>
    if path = "-" then
      let (more, m) := m.readAll 0
      (bytes ++ more, m)
    else match m.files.readBytes path with
      | .ok content => (bytes ++ content, m)
      | .error _ =>
        (bytes, (m.emitText 2 s!"{name}: {path}: No such file or directory\n").withStatus 1))
    ([], m)

def cat (arguments : List String) (m : Machine) : Machine :=
  let (bytes, m) := sources "cat" arguments (m.withStatus 0)
  (m.emit 1 bytes).2

def byteLines : List UInt8 → List (List UInt8)
  | [] => []
  | b :: rest =>
    if b = 10 then [b] :: byteLines rest
    else match byteLines rest with
      | [] => [[b]]
      | line :: lines => (b :: line) :: lines

/-- How much of a text is wanted, in bytes or lines, and of which files. -/
def extent (arguments : List String) : Bool × Nat × List String :=
  let number (s : String) : Nat := (s.toNat?).getD 10
  match arguments with
  | "-c" :: n :: rest => (true, number n, rest)
  | "-n" :: n :: rest => (false, number n, rest)
  | a :: rest =>
    match a.toList with
    | '-' :: 'c' :: n => (true, number (String.ofList n), rest)
    | '-' :: 'n' :: n => (false, number (String.ofList n), rest)
    | '-' :: n => (false, number (String.ofList n), rest)
    | _ => (false, 10, arguments)
  | [] => (false, 10, [])

/-- Prints the beginning of a text; of what is read, bytes that are not wanted are left. -/
def head (arguments : List String) (m : Machine) : Machine :=
  let (bytes?, count, paths) := extent arguments
  if bytes? && paths.isEmpty then
    let shown := (m.peek 0).take count
    (((m.drop 0 count).withStatus 0).emit 1 shown).2
  else
    let (all, m) := sources "head" paths (m.withStatus 0)
    let shown := if bytes? then all.take count else ((byteLines all).take count).flatten
    (m.emit 1 shown).2

def lastOf {α : Type} (count : Nat) (l : List α) : List α := l.drop (l.length - count)

def tail (arguments : List String) (m : Machine) : Machine :=
  let (bytes?, count, paths) := extent arguments
  let (all, m) := sources "tail" paths (m.withStatus 0)
  let shown := if bytes? then lastOf count all else (lastOf count (byteLines all)).flatten
  (m.emit 1 shown).2

def seq (arguments : List String) (m : Machine) : Machine :=
  let lines (first last : Nat) : Machine :=
    (List.range' first (last + 1 - first)).foldl (fun m n => m.emitText 1 (toString n ++ "\n"))
      (m.withStatus 0)
  match arguments.map String.toNat? with
  | [some last] => lines 1 last
  | [some first, some last] => lines first last
  | _ => m.withStatus 1

def tee (arguments : List String) (m : Machine) : Machine :=
  let (all, m) := m.readAll 0
  let append := arguments.contains "-a"
  let m := (arguments.filter (· ≠ "-a")).foldl (fun m path =>
    let old := if append then (m.files.readBytes path).toOption.getD [] else []
    match m.files.writeBytes path (old ++ all) with
    | .ok files => { m with files := files }
    | .error _ => m.withStatus 1) (m.withStatus 0)
  (m.emit 1 all).2

def characterSet : List Char → List Char
  | a :: '-' :: b :: rest =>
    (List.range' a.toNat (b.toNat + 1 - a.toNat)).map Char.ofNat ++ characterSet rest
  | '\\' :: 'n' :: rest => '\n' :: characterSet rest
  | c :: rest => c :: characterSet rest
  | [] => []

def tr (arguments : List String) (m : Machine) : Machine :=
  let (all, m) := m.readAll 0
  let text := (Text.decodeLossy all).toList
  match arguments with
  | ["-d", set] =>
    let gone := characterSet set.toList
    (m.withStatus 0).emitText 1 (String.ofList (text.filter fun c => !gone.contains c))
  | [source, target] =>
    let sources := characterSet source.toList
    let targets := characterSet target.toList
    let change (c : Char) : Char :=
      match sources.findIdx? (· = c) with
      | some i => targets.getD i (targets.getLastD c)
      | none => c
    (m.withStatus 0).emitText 1 (String.ofList (text.map change))
  | _ => m.withStatus 1

def countWords (bytes : List UInt8) : Nat :=
  let isBlank (b : UInt8) : Bool := b = 32 || (9 ≤ b && b ≤ 13)
  (bytes.foldl (fun (n, inside) b =>
    if isBlank b then (n, false) else if inside then (n, true) else (n + 1, true)) (0, false)).1

def wc (arguments : List String) (m : Machine) : Machine :=
  let paths := arguments.filter fun a => a.toList.head? ≠ some '-'
  let (all, m) := sources "wc" paths (m.withStatus 0)
  let n := if arguments.contains "-c" then all.length
    else if arguments.contains "-w" then countWords all
    else all.count 10
  let names := if paths.isEmpty then "" else " " ++ " ".intercalate paths
  m.emitText 1 (toString n ++ names ++ "\n")

/-- Whether a line holds a pattern, which may be tied to the beginning or the end. -/
def matchesLine (pattern line : List Char) : Bool :=
  let start := pattern.head? = some '^'
  let body := if start then pattern.drop 1 else pattern
  let stop := body.getLast? = some '$'
  let body := if stop then body.dropLast else body
  if start && stop then line == body
  else if start then body.isPrefixOf line
  else if stop then body.reverse.isPrefixOf line.reverse
  else Text.occursIn body line

def grep (arguments : List String) (m : Machine) : Machine :=
  let isOption (a : String) : Bool := a.toList.head? = some '-' && 1 < a.length
  let options := (arguments.takeWhile isOption).flatMap String.toList
  match arguments.dropWhile isOption with
  | [] => m.withStatus 2
  | pattern :: paths =>
    let (all, m) := sources "grep" paths (m.withStatus 0)
    let found := (byteLines all).filter fun line =>
      matchesLine pattern.toList ((Text.decodeLossy line).toList.filter (· ≠ '\n')) !=
        options.contains 'v'
    let m :=
      if options.contains 'q' then m
      else if options.contains 'c' then m.emitText 1 (toString found.length ++ "\n")
      else (m.emit 1 found.flatten).2
    m.withStatus (if found.isEmpty then 1 else 0)

def setOptions : List String → Machine → Machine
  | [], m => m.withStatus 0
  | "--" :: rest, m => { m with arguments := rest, status := 0 }
  | a :: rest, m =>
    match a.toList with
    | '-' :: letters => setOptions rest { m with strict := m.strict || letters.contains 'e' }
    | '+' :: letters => setOptions rest { m with strict := m.strict && !letters.contains 'e' }
    | _ => { m with arguments := a :: rest, status := 0 }

/-- Lets time pass; nothing if that goes past the deadline. -/
def sleep (arguments : List String) (m : Machine) : Flow × Machine :=
  match arguments with
  | [a] =>
    let milliseconds : Option Nat := match a.splitOn "." with
      | [whole] => whole.toNat?.map (· * 1000)
      | [whole, fraction] =>
        let digits := (fraction ++ "000").toList.take 3
        match (if whole = "" then some 0 else whole.toNat?), (String.ofList digits).toNat? with
        | some w, some f => some (w * 1000 + f)
        | _, _ => none
      | _ => none
    match milliseconds with
    | some n =>
      let elapsed := m.elapsed + .ofMillis n
      if m.deadline < elapsed then (.stuck, m)
      else (.next, { m with elapsed := elapsed, status := 0 })
    | none => if a = "infinity" then (.stuck, m) else (.next, m.withStatus 1)
  | _ => (.next, m.withStatus 1)

def onFiles (change : FileTree → String → Except FileError FileTree) (lenient : Bool)
    (arguments : List String) (m : Machine) : Machine :=
  (arguments.filter fun a => a.toList.head? ≠ some '-').foldl (fun m path =>
    match change m.files path with
    | .ok files => { m with files := files }
    | .error _ => if lenient then m else m.withStatus 1) (m.withStatus 0)

def makeNewDirectory (files : FileTree) (path : String) : Except FileError FileTree :=
  if files.pathExists path then .error .alreadyExists
  else if files.pathExists (FileTree.parentOf path) || FileTree.parentOf path = "" then
    files.makeDirectory path
  else .error .notFound

def copyFile (arguments : List String) (m : Machine) : Machine :=
  match arguments with
  | [source, target] =>
    match (m.files.readBytes source).bind (m.files.writeBytes target) with
    | .ok files => { m with files := files, status := 0 }
    | .error _ => m.withStatus 1
  | _ => m.withStatus 1

def moveFile (arguments : List String) (m : Machine) : Machine :=
  let m := copyFile arguments m
  match m.files.removeFile (arguments.headD "") with
  | .ok files => if m.status = 0 then { m with files := files } else m
  | .error _ => m

def ls (arguments : List String) (m : Machine) : Machine :=
  let paths := if arguments.isEmpty then ["."] else arguments
  paths.foldl (fun m path =>
    match m.files.list path with
    | .ok names =>
      let shown := (names.filter fun n => n.toList.head? ≠ some '.').mergeSort
        fun a b => decide (a ≤ b)
      m.emitText 1 (String.join (shown.map (· ++ "\n")))
    | .error _ =>
      if m.files.pathExists path then m.emitText 1 (path ++ "\n") else m.withStatus 2)
    (m.withStatus 0)

def touchFile (files : FileTree) (path : String) : Except FileError FileTree :=
  if files.pathExists path then .ok files else files.writeBytes path []

end BenchCluster.Rehearsal.Shell
