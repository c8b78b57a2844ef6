import PrototypeScan.Toml.Quoted
import PrototypeScan.Toml.Scalar
import PrototypeScan.Toml.Table

/-!
TOML documents: lines with a key and its value, under headers that name tables.
-/
namespace PrototypeScan.Toml

/-- Reading from the start of a text; what has not been read is left. -/
abbrev Reading := StateT (List Char) Option

namespace Reading

/-- The next character, which is left where it is. -/
def peek? : Reading (Option Char) := return (← get).head?

def skipWhile (p : Char → Bool) : Reading Unit := modify (·.dropWhile p)

def blanks : Reading Unit := skipWhile fun c => c = ' ' || c = '\t'

/-- The given character. -/
def expect (c : Char) : Reading Unit := do
  match ← get with
  | d :: rest => if d = c then set rest else failure
  | [] => failure

/-- A comment, which may be missing. It goes to the end of the line. -/
def comment : Reading Unit := do
  if (← peek?) = some '#' then skipWhile Quoted.isPlain

/-- A line end; none is needed at the end of the text. -/
def lineEnd : Reading Unit := do
  match ← get with
  | [] => return
  | cs => match Quoted.lineEnd? cs with
    | some rest => set rest
    | none => failure

/-- The rest of a line that holds nothing more. -/
def restOfLine : Reading Unit := do blanks; comment; lineEnd

/-- Skips blanks, comments and line ends. -/
def gaps : Nat → Reading Unit
  | 0 => failure
  | fuel + 1 => do
    blanks
    comment
    match Quoted.lineEnd? (← get) with
    | some rest => set rest; gaps fuel
    | none => return

def gap : Reading Unit := do gaps ((← get).length + 1)

def isBareKeyChar (c : Char) : Bool := c.isAlphanum || c = '_' || c = '-'

/-- A name, in quotes or without. -/
def name : Reading String := do
  match ← get with
  | [] => failure
  | c :: rest =>
    if c = '"' || c = '\'' then
      let (text, rest) ← (Quoted.line? c (rest.length + 1) [] rest : Option (String × List Char))
      set rest
      return text
    else
      let bare := (c :: rest).takeWhile isBareKeyChar
      if bare.isEmpty then failure
      else
        skipWhile isBareKeyChar
        return String.ofList bare

/-- Names behind points, after the names before them; the last name stands apart. -/
def moreNames : Nat → List String → String → Reading (List String × String)
  | 0, _, _ => failure
  | fuel + 1, path, last => do
    blanks
    if (← peek?) = some '.' then
      expect '.'
      blanks
      moreNames fuel (path ++ [last]) (← name)
    else return (path, last)

/-- A key: names with points between them. -/
def key : Reading (List String × String) := do
  blanks
  let first ← name
  moreNames ((← get).length + 1) [] first

def isScalarChar (c : Char) : Bool := isBareKeyChar c || c = '+' || c = '.' || c = ':'

/-- A word without quotes. A blank may stand between a date and a time. -/
def word : Reading (List Char) := do
  let cs ← get
  let first := cs.takeWhile isScalarChar
  match cs.dropWhile isScalarChar with
  | ' ' :: rest =>
    if (Moment.date? first).any (·.2.isEmpty) && rest.head?.any Char.isDigit then
      set (rest.dropWhile isScalarChar)
      return first ++ ' ' :: rest.takeWhile isScalarChar
    else
      set (' ' :: rest)
      return first
  | rest =>
    set rest
    return first

/-- The items of an array up to its end. -/
def arrayItems (item : Reading Setting) : Nat → List Setting → Reading Setting
  | 0, _ => failure
  | fuel + 1, before => do
    gap
    if (← peek?) = some ']' then
      expect ']'
      return .list before.reverse
    else
      let v ← item
      gap
      if (← peek?) = some ',' then
        expect ','
        arrayItems item fuel (v :: before)
      else
        expect ']'
        return .list (v :: before).reverse

/-- The entries of an inline table up to its end. -/
def inlineEntries (item : Reading Setting) : Nat → Entries → Reading Setting
  | 0, _ => failure
  | fuel + 1, before => do
    gap
    if (← peek?) = some '\x7d' then
      expect '\x7d'
      return .table (settings before)
    else
      let (path, last) ← key
      expect '='
      blanks
      let v ← item
      let entries ← (assign? path last v before : Option Entries)
      gap
      if (← peek?) = some ',' then
        expect ','
        inlineEntries item fuel entries
      else
        expect '\x7d'
        return .table (settings entries)

/-- A text in quotes, or a word without. -/
def simple : Reading Setting := do
  match ← get with
  | [] => failure
  | c :: rest =>
    if c = '"' || c = '\'' then
      let (text, rest) ← (Quoted.read? c rest : Option (String × List Char))
      set rest
      return .text text
    else (scalar? (← word) : Option Setting)

/-- A value; arrays and inline tables hold others down to the given depth. -/
def value : Nat → Reading Setting
  | 0 => simple
  | depth + 1 => do
    match ← get with
    | '[' :: rest => set rest; arrayItems (value depth) (rest.length + 1) []
    | '\x7b' :: rest => set rest; inlineEntries (value depth) (rest.length + 1) []
    | _ => simple

/-- How deep arrays and inline tables may be nested. -/
def maxNesting : Nat := 79

/-- The lines of a document, from the entries read so far and the table that the last header names. -/
def lines : Nat → Entries → List String → Reading Entries
  | 0, _, _ => failure
  | fuel + 1, entries, table => do
    blanks
    match ← get with
    | [] => return entries
    | '[' :: '[' :: rest =>
      set rest
      let (path, last) ← key
      expect ']'
      expect ']'
      restOfLine
      let entries ← (openNext? path last entries : Option Entries)
      lines fuel entries (path ++ [last])
    | '[' :: rest =>
      set rest
      let (path, last) ← key
      expect ']'
      restOfLine
      let entries ← (open? path last entries : Option Entries)
      lines fuel entries (path ++ [last])
    | c :: _ =>
      if c = '#' || c = '\n' || c = '\r' then
        restOfLine
        lines fuel entries table
      else
        let (path, last) ← key
        expect '='
        blanks
        let v ← value maxNesting
        restOfLine
        let entries ←
          (descend? .implied (fun _ inner => assign? path last v inner) table .header entries :
            Option Entries)
        lines fuel entries table

end Reading

/-- The entries of a document; a byte order mark at its start does not count. -/
def read? (text : String) : Option (List (String × Setting)) :=
  let cs := match text.toList with
    | '\uFEFF' :: cs => cs
    | cs => cs
  ((Reading.lines (cs.length + 1) [] []).run cs).map fun r => settings r.1

end PrototypeScan.Toml
