import PrototypeScan.Shell.Command

/-!
Words and operators of shell scripts. Quotes and backslashes are read here, parameters are named but not
put in.
-/
namespace PrototypeScan.Shell

inductive Token where
  | word (w : Word)
  | operator (text : String)
  /-- an arrow and the stream it is for -/
  | arrow (stream : Nat) (text : String)
  | document (contents : Word)
  deriving DecidableEq, Repr

def isBlank (c : Char) : Bool := c = ' ' || c = '\t'

/-- Characters that end a word where they are not quoted. -/
def isBoundary (c : Char) : Bool := isBlank c || "\n;&|<>()".toList.contains c

def isNameChar (c : Char) : Bool := c.isAlphanum || c = '_'

/-- What follows a dollar sign: a parameter, or nothing of that kind. -/
def parameter? : List Char → Option (String × List Char)
  | [] => none
  | c :: rest =>
    if c = '\x7b' then
      match rest.dropWhile (· ≠ '\x7d') with
      | _ :: after => some (String.ofList (rest.takeWhile (· ≠ '\x7d')), after)
      | [] => none
    else if c.isDigit || "@*#?$!".toList.contains c then some (String.singleton c, rest)
    else if isNameChar c then
      some (String.ofList ((c :: rest).takeWhile isNameChar), rest.dropWhile isNameChar)
    else none

/-- Reads text in double quotes, behind the opening one. -/
def doubleQuoted? : Nat → Word → List Char → Option (Word × List Char)
  | 0, _, _ => none
  | fuel + 1, before, cs => match cs with
    | [] => none
    | '"' :: rest => some (before, rest)
    | '\\' :: c :: rest =>
      if c = '\n' then doubleQuoted? fuel before rest
      else if "$\"\\\x60".toList.contains c then
        doubleQuoted? fuel (before ++ [.text true [c]]) rest
      else doubleQuoted? fuel (before ++ [.text true ['\\', c]]) rest
    | '$' :: rest => match parameter? rest with
      | some (name, rest) => doubleQuoted? fuel (before ++ [.parameter true name]) rest
      | none => doubleQuoted? fuel (before ++ [.text true ['$']]) rest
    | _ =>
      let isPlain (c : Char) : Bool := c ≠ '"' && c ≠ '\\' && c ≠ '$'
      let plain := cs.takeWhile isPlain
      if plain.isEmpty then none
      else doubleQuoted? fuel (before ++ [.text true plain]) (cs.dropWhile isPlain)

/-- Reads a word up to its end. -/
def word? : Nat → Word → List Char → Option (Word × List Char)
  | 0, _, _ => none
  | fuel + 1, before, cs => match cs with
    | [] => some (before, [])
    | c :: rest =>
      if isBoundary c then some (before, cs)
      else match c with
        | '\'' => match rest.dropWhile (· ≠ '\'') with
          | _ :: after =>
            word? fuel (before ++ [.text true (rest.takeWhile (· ≠ '\''))]) after
          | [] => none
        | '"' => do
          let (inner, rest) ← doubleQuoted? (rest.length + 1) [.text true []] rest
          word? fuel (before ++ inner) rest
        | '\\' => match rest with
          | [] => some (before ++ [.text true ['\\']], [])
          | '\n' :: rest => word? fuel before rest
          | c :: rest => word? fuel (before ++ [.text true [c]]) rest
        | '$' => match parameter? rest with
          | some (name, rest) => word? fuel (before ++ [.parameter false name]) rest
          | none => word? fuel (before ++ [.text false ['$']]) rest
        | c => word? fuel (before ++ [.text false [c]]) rest

/-- The text of a word without parameters. -/
def literal (w : Word) : List Char :=
  w.flatMap fun
    | .text _ cs => cs
    | .parameter _ name => '$' :: name.toList

/-- Cuts a text behind its first line. -/
def splitLine (cs : List Char) : List Char × List Char :=
  (cs.takeWhile (· ≠ '\n'), (cs.dropWhile (· ≠ '\n')).drop 1)

/-- The lines up to the one that is equal to `mark`, and what follows that one. -/
def linesUpTo (mark : List Char) : Nat → List Char → List Char × List Char
  | 0, cs => ([], cs)
  | fuel + 1, cs => match cs with
    | [] => ([], [])
    | _ =>
      let (line, rest) := splitLine cs
      if line = mark then ([], rest)
      else
        let (more, after) := linesUpTo mark fuel rest
        (line ++ '\n' :: more, after)

/-- The contents of a document in a script: as they stand if the mark is quoted, and otherwise with
parameters. -/
def documentWord (quoted : Bool) (body : List Char) : Word :=
  if quoted then [.text true body]
  else
    let isQuote (c : Char) : Bool := c = '"'
    let safe := body.flatMap fun c => if isQuote c then ['\\', c] else [c]
    match doubleQuoted? (2 * safe.length + 2) [] (safe ++ ['"']) with
    | some (w, _) => w
    | none => [.text true body]

/-- Operators of two characters and of one. -/
def operator? : List Char → Option (String × List Char)
  | '&' :: '&' :: cs => some ("&&", cs)
  | '|' :: '|' :: cs => some ("||", cs)
  | ';' :: ';' :: cs => some (";;", cs)
  | c :: cs => if "\n;&|()".toList.contains c then some (String.singleton c, cs) else none
  | [] => none

def arrow? : List Char → Option (String × List Char)
  | '>' :: '>' :: cs => some (">>", cs)
  | '>' :: '&' :: cs => some (">&", cs)
  | '>' :: '|' :: cs => some (">", cs)
  | '<' :: '<' :: cs => some ("<<", cs)
  | '<' :: '&' :: cs => some ("<&", cs)
  | '>' :: cs => some (">", cs)
  | '<' :: cs => some ("<", cs)
  | _ => none

/-- The number of a stream right before an arrow. -/
def streamArrow? (cs : List Char) : Option (Nat × String × List Char) :=
  match cs with
  | c :: rest =>
    if c.isDigit then (arrow? rest).map fun (a, r) => (c.toNat - '0'.toNat, a, r)
    else (arrow? cs).map fun (a, r) => (if a.startsWith "<" then 0 else 1, a, r)
  | [] => none

/-- The tokens of a script. -/
def tokens? : Nat → List Token → List Char → Option (List Token)
  | 0, _, _ => none
  | fuel + 1, before, cs => match cs with
    | [] => some before.reverse
    | c :: rest =>
      if isBlank c then tokens? fuel before rest
      else if c = '\\' && rest.head? = some '\n' then tokens? fuel before (rest.drop 1)
      else if c = '#' then tokens? fuel before (rest.dropWhile (· ≠ '\n'))
      else match operator? cs with
        | some (op, rest) => tokens? fuel (.operator op :: before) rest
        | none => match streamArrow? cs with
          | some (stream, a, rest) =>
            if a = "<<" then do
              let rest := rest.dropWhile isBlank
              let (mark, rest) ← word? (rest.length + 1) [] rest
              let quoted := mark.any fun
                | .text q _ => q
                | .parameter q _ => q
              let (line, following) := splitLine rest
              let (body, after) := linesUpTo (literal mark) (following.length + 1) following
              tokens? fuel (.document (documentWord quoted body) :: before) (line ++ '\n' :: after)
            else tokens? fuel (.arrow stream a :: before) rest
          | none => do
            let (w, rest) ← word? (cs.length + 1) [] cs
            tokens? fuel (.word w :: before) rest

end PrototypeScan.Shell
