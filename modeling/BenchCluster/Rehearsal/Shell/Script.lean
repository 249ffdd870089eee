/-! # Shell scripts

The commands of a small shell, and their reader. A command substitution is kept as the text
between its brackets, to be read when it is run.
-/

namespace BenchCluster.Rehearsal.Shell

/-- A part of a word. What is quoted is not split at blanks. -/
inductive Part
  | text (s : String) (quoted : Bool)
  | variable (name : String) (quoted : Bool)
  | output (source : String) (quoted : Bool)
  | arithmetic (source : String) (quoted : Bool)
  /-- The value of a variable, or a text where it is not set or, if that counts, empty. -/
  | fallback (name : String) (emptyCounts : Bool) (source : String) (quoted : Bool)
  deriving DecidableEq, Repr, Inhabited

abbrev Word := List Part

inductive Redirection
  | read (path : Word)
  | write (path : Word)
  | append (path : Word)
  | duplicate (fd : Nat)
  | close
  deriving DecidableEq, Repr

structure Redirect where
  fd : Nat
  target : Redirection
  deriving DecidableEq, Repr

/-- A command. -/
inductive Command
  | nothing
  | simple (words : List Word)
  | redirected (command : Command) (redirects : List Redirect)
  | sequence (first second : Command)
  | both (first second : Command)
  | either (first second : Command)
  | negated (command : Command)
  | pipe (first second : Command)
  | isolated (command : Command)
  | conditional (test yes no : Command)
  | repeated (whileTrue : Bool) (test body : Command)
  /-- The first command if the word fits one of the patterns, otherwise the second. -/
  | choice (word : Word) (patterns : List Word) (yes no : Command)
  | each (name : String) (words : List Word) (body : Command)
  deriving Repr, Inhabited

/-! ## Words -/

def endsWord (c : Char) : Bool :=
  c = ' ' || c = '\t' || c = '\n' || c = ';' || c = '&' || c = '|' || c = '<' || c = '>' ||
    c = '(' || c = ')'

def isNameChar (c : Char) : Bool := c.isAlphanum || c = '_'

/-- Splits off the text up to the bracket that closes a substitution. -/
def closing : Nat → Nat → List Char → List Char → Option (List Char × List Char)
  | 0, _, _, _ => none
  | _ + 1, _, _, [] => none
  | fuel + 1, depth, acc, c :: rest =>
    if c = ')' then
      match depth with
      | 0 => some (acc.reverse, rest)
      | depth + 1 => closing fuel depth (c :: acc) rest
    else if c = '(' then closing fuel (depth + 1) (c :: acc) rest
    else if c = '\'' then
      let body := rest.takeWhile (· ≠ '\'')
      match rest.drop body.length with
      | q :: after => closing fuel depth (q :: (body.reverse ++ c :: acc)) after
      | [] => none
    else if c = '\\' then
      match rest with
      | d :: after => closing fuel depth (d :: c :: acc) after
      | [] => none
    else closing fuel depth (c :: acc) rest

def bracedPart (body : List Char) (quoted : Bool) : Part :=
  let name := body.takeWhile isNameChar
  match body.drop name.length with
  | ':' :: '-' :: text => .fallback (String.ofList name) true (String.ofList text) quoted
  | '-' :: text => .fallback (String.ofList name) false (String.ofList text) quoted
  | _ => .variable (String.ofList body) quoted

def backquoted (chars : List Char) : Option (List Char × List Char) :=
  let body := chars.takeWhile (· ≠ '\x60')
  match chars.drop body.length with
  | _ :: rest => some (body, rest)
  | [] => none

def expansion (quoted : Bool) (chars : List Char) : Option (Part × List Char) :=
  match chars with
  | '(' :: '(' :: rest =>
    match closing (rest.length + 1) 0 [] rest with
    | some (source, ')' :: rest) => some (.arithmetic (String.ofList source) quoted, rest)
    | _ => none
  | '(' :: rest =>
    (closing (rest.length + 1) 0 [] rest).map fun (source, rest) =>
      (.output (String.ofList source) quoted, rest)
  | '\x7b' :: rest =>
    let body := rest.takeWhile (· ≠ '\x7d')
    match rest.drop body.length with
    | _ :: after => some (bracedPart body quoted, after)
    | [] => none
  | c :: rest =>
    if c.isDigit || c = '@' || c = '*' || c = '#' || c = '?' || c = '$' then
      some (.variable (String.ofList [c]) quoted, rest)
    else if isNameChar c then
      let name := chars.takeWhile isNameChar
      some (.variable (String.ofList name) quoted, chars.drop name.length)
    else some (.text "$" quoted, chars)
  | [] => some (.text "$" quoted, [])

def doubleQuoted : Nat → List Char → Option (List Part × List Char)
  | 0, _ => none
  | _ + 1, [] => none
  | fuel + 1, c :: rest =>
    if c = '"' then some ([], rest)
    else if c = '$' then do
      let (part, rest) ← expansion true rest
      let (parts, rest) ← doubleQuoted fuel rest
      return (part :: parts, rest)
    else if c = '\x60' then do
      let (source, rest) ← backquoted rest
      let (parts, rest) ← doubleQuoted fuel rest
      return (.output (String.ofList source) true :: parts, rest)
    else if c = '\\' then
      match rest with
      | d :: after => do
        let (parts, rest) ← doubleQuoted fuel after
        if d = '$' || d = '"' || d = '\\' || d = '\x60' then
          return (.text (String.ofList [d]) true :: parts, rest)
        else if d = '\n' then return (parts, rest)
        else return (.text (String.ofList [c, d]) true :: parts, rest)
      | [] => none
    else do
      let body := (c :: rest).takeWhile fun c => c ≠ '"' && c ≠ '$' && c ≠ '\\' && c ≠ '\x60'
      let (parts, rest) ← doubleQuoted fuel ((c :: rest).drop body.length)
      return (.text (String.ofList body) true :: parts, rest)

def wordParts : Nat → List Char → Option (List Part × List Char)
  | 0, _ => none
  | _ + 1, [] => some ([], [])
  | fuel + 1, c :: rest =>
    if endsWord c then some ([], c :: rest)
    else if c = '\'' then
      let body := rest.takeWhile (· ≠ '\'')
      match rest.drop body.length with
      | _ :: after => do
        let (parts, rest) ← wordParts fuel after
        return (.text (String.ofList body) true :: parts, rest)
      | [] => none
    else if c = '"' then do
      let (quoted, rest) ← doubleQuoted fuel rest
      let (parts, rest) ← wordParts fuel rest
      -- What is quoted is a part of the word even if it is empty.
      return (if quoted.isEmpty then .text "" true :: parts else quoted ++ parts, rest)
    else if c = '$' then do
      let (part, rest) ← expansion false rest
      let (parts, rest) ← wordParts fuel rest
      return (part :: parts, rest)
    else if c = '\x60' then do
      let (source, rest) ← backquoted rest
      let (parts, rest) ← wordParts fuel rest
      return (.output (String.ofList source) false :: parts, rest)
    else if c = '\\' then
      match rest with
      | '\n' :: after => wordParts fuel after
      | d :: after => do
        let (parts, rest) ← wordParts fuel after
        return (.text (String.ofList [d]) true :: parts, rest)
      | [] => some ([.text "\\" true], [])
    else do
      let body := (c :: rest).takeWhile fun c =>
        !endsWord c && c ≠ '\'' && c ≠ '"' && c ≠ '$' && c ≠ '\\' && c ≠ '\x60'
      let (parts, rest) ← wordParts fuel ((c :: rest).drop body.length)
      return (.text (String.ofList body) false :: parts, rest)

def skipSpaces (chars : List Char) : List Char :=
  match chars.dropWhile fun c => c = ' ' || c = '\t' with
  | '#' :: rest => rest.dropWhile (· ≠ '\n')
  | '\\' :: '\n' :: rest => rest.dropWhile fun c => c = ' ' || c = '\t'
  | rest => rest

def skipLines : Nat → List Char → List Char
  | 0, chars => chars
  | fuel + 1, chars =>
    match skipSpaces chars with
    | '\n' :: rest => skipLines fuel rest
    | rest => rest

/-! ## Commands -/

def redirect? (chars : List Char) : Option (Option (Redirect × List Char)) :=
  let digits := chars.takeWhile Char.isDigit
  let fd (standard : Nat) : Nat := ((String.ofList digits).toNat?).getD standard
  let target (fd : Nat) (make : Word → Redirection) (rest : List Char) :
      Option (Option (Redirect × List Char)) := do
    let (word, rest) ← wordParts (rest.length + 1) (skipSpaces rest)
    if word.isEmpty then none else return some (⟨fd, make word⟩, rest)
  let copy (fd : Nat) (rest : List Char) : Option (Option (Redirect × List Char)) :=
    match rest with
    | '-' :: rest => some (some (⟨fd, .close⟩, rest))
    | c :: rest =>
      if c.isDigit then some (some (⟨fd, .duplicate (c.toNat - '0'.toNat)⟩, rest)) else none
    | [] => none
  match chars.drop digits.length with
  | '>' :: '>' :: rest => target (fd 1) .append rest
  | '>' :: '&' :: rest => copy (fd 1) rest
  | '>' :: '|' :: rest => target (fd 1) .write rest
  | '>' :: rest => target (fd 1) .write rest
  | '<' :: '&' :: rest => copy (fd 0) rest
  | '<' :: rest => target (fd 0) .read rest
  | _ => some none

def simpleParts : Nat → List Char → Option ((List Word × List Redirect) × List Char)
  | 0, _ => none
  | fuel + 1, chars => do
    let chars := skipSpaces chars
    match ← redirect? chars with
    | some (r, rest) =>
      let ((words, redirects), rest) ← simpleParts fuel rest
      return ((words, r :: redirects), rest)
    | none =>
      let (word, rest) ← wordParts (chars.length + 1) chars
      if word.isEmpty then return (([], []), chars)
      else
        let ((words, redirects), rest) ← simpleParts fuel rest
        return ((word :: words, redirects), rest)

def trailing : Nat → List Char → Option (List Redirect × List Char)
  | 0, _ => none
  | fuel + 1, chars => do
    match ← redirect? (skipSpaces chars) with
    | some (r, rest) =>
      let (redirects, rest) ← trailing fuel rest
      return (r :: redirects, rest)
    | none => return ([], chars)

def bareWord (chars : List Char) : String × List Char :=
  let word := chars.takeWhile fun c => !endsWord c
  (String.ofList word, chars.drop word.length)

def closers : List String := ["then", "elif", "else", "fi", "do", "done", "esac", "\x7d"]

def expectWord (word : String) (chars : List Char) : Option (List Char) :=
  let (found, rest) := bareWord (skipLines (chars.length + 1) chars)
  if found = word then some rest else none

def casePatterns : Nat → List Char → Option (List Word × List Char)
  | 0, _ => none
  | fuel + 1, chars => do
    let (word, rest) ← wordParts (chars.length + 1) (skipSpaces chars)
    match skipSpaces rest with
    | ')' :: rest => return ([word], rest)
    | '|' :: rest =>
      let (words, rest) ← casePatterns fuel rest
      return (word :: words, rest)
    | _ => none

def endsList (chars : List Char) : Bool :=
  chars.isEmpty || chars.head? = some ')' || ";;".toList.isPrefixOf chars ||
    closers.contains (bareWord chars).1

def withRedirects (c : Command) (redirects : List Redirect) : Command :=
  if redirects.isEmpty then c else .redirected c redirects

mutual

/-- Reads a list of commands, up to a word or a bracket that closes it. -/
def readList : Nat → List Char → Option (Command × List Char)
  | 0, _ => none
  | fuel + 1, chars =>
    let chars := skipLines (chars.length + 1) chars
    if endsList chars then some (.nothing, chars)
    else do
      let (first, rest) ← readChain fuel chars
      match skipSpaces rest with
      | ';' :: ';' :: rest => return (first, ';' :: ';' :: rest)
      | ';' :: rest =>
        let (more, rest) ← readList fuel rest
        return (.sequence first more, rest)
      | '\n' :: rest =>
        let (more, rest) ← readList fuel rest
        return (.sequence first more, rest)
      | '&' :: rest =>
        let (more, rest) ← readList fuel rest
        return (.sequence first more, rest)
      | rest => return (first, rest)

/-- Reads commands joined by what decides whether the next one runs. -/
def readChain : Nat → List Char → Option (Command × List Char)
  | 0, _ => none
  | fuel + 1, chars => do
    let (first, rest) ← readPipe fuel chars
    readMore fuel first rest

def readMore : Nat → Command → List Char → Option (Command × List Char)
  | 0, _, _ => none
  | fuel + 1, first, chars =>
    match skipSpaces chars with
    | '&' :: '&' :: rest => do
      let (second, rest) ← readPipe fuel (skipLines (rest.length + 1) rest)
      readMore fuel (.both first second) rest
    | '|' :: '|' :: rest => do
      let (second, rest) ← readPipe fuel (skipLines (rest.length + 1) rest)
      readMore fuel (.either first second) rest
    | rest => some (first, rest)

def readPipe : Nat → List Char → Option (Command × List Char)
  | 0, _ => none
  | fuel + 1, chars => do
    let (word, after) := bareWord (skipSpaces chars)
    if word = "!" then
      let (c, rest) ← readPipe fuel after
      return (.negated c, rest)
    else
      let (first, rest) ← readCommand fuel (skipSpaces chars)
      match skipSpaces rest with
      | '|' :: '|' :: rest => return (first, '|' :: '|' :: rest)
      | '|' :: rest =>
        let (second, rest) ← readPipe fuel (skipLines (rest.length + 1) rest)
        return (.pipe first second, rest)
      | rest => return (first, rest)

def readConditional : Nat → List Char → Option (Command × List Char)
  | 0, _ => none
  | fuel + 1, chars => do
    let (test, rest) ← readList fuel chars
    let rest ← expectWord "then" rest
    let (yes, rest) ← readList fuel rest
    let (word, rest) := bareWord (skipLines (rest.length + 1) rest)
    if word = "elif" then
      let (no, rest) ← readConditional fuel rest
      return (.conditional test yes no, rest)
    else if word = "else" then
      let (no, rest) ← readList fuel rest
      let rest ← expectWord "fi" rest
      return (.conditional test yes no, rest)
    else if word = "fi" then return (.conditional test yes .nothing, rest)
    else none

def readCases : Nat → Word → List Char → Option (Command × List Char)
  | 0, _, _ => none
  | fuel + 1, word, chars => do
    let chars := skipLines (chars.length + 1) chars
    let (found, rest) := bareWord chars
    if found = "esac" then return (.nothing, rest)
    else
      let chars := match chars with | '(' :: rest => rest | _ => chars
      let (patterns, rest) ← casePatterns (chars.length + 1) chars
      let (yes, rest) ← readList fuel rest
      let rest := match skipLines (rest.length + 1) rest with
        | ';' :: ';' :: rest => rest
        | rest => rest
      let (no, rest) ← readCases fuel word rest
      return (.choice word patterns yes no, rest)

def readCommand : Nat → List Char → Option (Command × List Char)
  | 0, _ => none
  | fuel + 1, chars => do
    let (word, after) := bareWord chars
    let finish (c : Command) (rest : List Char) : Option (Command × List Char) := do
      let (redirects, rest) ← trailing (rest.length + 1) rest
      return (withRedirects c redirects, rest)
    if word = "if" then
      let (c, rest) ← readConditional fuel after
      finish c rest
    else if word = "while" || word = "until" then
      let (test, rest) ← readList fuel after
      let rest ← expectWord "do" rest
      let (body, rest) ← readList fuel rest
      let rest ← expectWord "done" rest
      finish (.repeated (decide (word = "while")) test body) rest
    else if word = "for" then
      let (name, rest) := bareWord (skipSpaces after)
      let ((words, _), rest) ← match expectWord "in" rest with
        | some rest => simpleParts (rest.length + 1) rest
        | none => some (([[.variable "@" true]], []), rest)
      let rest := match skipSpaces rest with | ';' :: rest => rest | rest => rest
      let rest ← expectWord "do" rest
      let (body, rest) ← readList fuel rest
      let rest ← expectWord "done" rest
      finish (.each name words body) rest
    else if word = "case" then
      let (subject, rest) ← wordParts (after.length + 1) (skipSpaces after)
      let rest ← expectWord "in" rest
      let (c, rest) ← readCases fuel subject rest
      finish c rest
    else if word = "\x7b" then
      let (c, rest) ← readList fuel after
      let rest ← expectWord "\x7d" rest
      finish c rest
    else match chars with
      | '(' :: rest =>
        let (c, rest) ← readList fuel rest
        match skipLines (rest.length + 1) rest with
        | ')' :: rest => finish (.isolated c) rest
        | _ => none
      | _ =>
        let ((words, redirects), rest) ← simpleParts (chars.length + 1) chars
        if words.isEmpty && redirects.isEmpty then none
        else return (withRedirects (.simple words) redirects, rest)

end

def read? (source : String) : Option Command :=
  let chars := source.toList
  match readList (4 * chars.length + 8) chars with
  | some (c, rest) => if (skipLines (rest.length + 1) rest).isEmpty then some c else none
  | none => none

end BenchCluster.Rehearsal.Shell
