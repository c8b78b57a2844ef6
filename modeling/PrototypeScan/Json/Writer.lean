import PrototypeScan.Json.Basic
import PrototypeScan.Number.Decimal

/-!
Writing JSON, on one line without spaces or indented by two spaces for each level.
-/
namespace PrototypeScan.Json

def hexDigit (n : Nat) : Char := if n < 10 then Char.ofNat (48 + n) else Char.ofNat (87 + n)

/-- A character inside of a string: quotes, backslashes and control characters are escaped. -/
def escapeChar (c : Char) : List Char :=
  if c = '"' then ['\\', '"']
  else if c = '\\' then ['\\', '\\']
  else if c.toNat = 8 then ['\\', 'b']
  else if c.toNat = 12 then ['\\', 'f']
  else if c = '\n' then ['\\', 'n']
  else if c = '\r' then ['\\', 'r']
  else if c = '\t' then ['\\', 't']
  else if c.toNat < 0x20 then ['\\', 'u', '0', '0', hexDigit (c.toNat / 16), hexDigit (c.toNat % 16)]
  else [c]

def quote (s : String) : List Char := '"' :: s.toList.flatMap escapeChar ++ ['"']

def Number.write : Number → List Char
  | integer i => (toString i).toList
  | real x => (Decimal.plainText x).toList

/-- Items with commas between. -/
def commaSeparated : List (List Char) → List Char
  | [] => []
  | [x] => x
  | x :: xs => x ++ ',' :: commaSeparated xs

mutual

def writeCompact : Json → List Char
  | null => "null".toList
  | bool b => (if b then "true" else "false").toList
  | number n => n.write
  | string s => quote s
  | array items => '[' :: commaSeparated (writeItems items) ++ [']']
  | object entries => '{' :: commaSeparated (writeEntries entries) ++ ['}']

def writeItems : List Json → List (List Char)
  | [] => []
  | v :: vs => writeCompact v :: writeItems vs

def writeEntries : List (String × Json) → List (List Char)
  | [] => []
  | e :: es => writeEntry e :: writeEntries es

def writeEntry : String × Json → List Char
  | (key, v) => quote key ++ ':' :: writeCompact v

end

/-- A value on one line. -/
def compact (v : Json) : String := String.ofList (writeCompact v)

def newLine (level : Nat) : List Char := '\n' :: List.replicate (2 * level) ' '

/-- Lines between brackets, or the brackets alone. -/
def bracketed (left right : Char) (level : Nat) (lines : List (List Char)) : List Char :=
  match lines with
  | [] => [left, right]
  | _ => left :: commaSeparated (lines.map (newLine (level + 1) ++ ·)) ++ newLine level ++ [right]

mutual

def writePretty (level : Nat) : Json → List Char
  | array items => bracketed '[' ']' level (prettyItems (level + 1) items)
  | object entries => bracketed '{' '}' level (prettyEntries (level + 1) entries)
  | null => writeCompact null
  | bool b => writeCompact (bool b)
  | number n => writeCompact (number n)
  | string s => writeCompact (string s)

def prettyItems (level : Nat) : List Json → List (List Char)
  | [] => []
  | v :: vs => writePretty level v :: prettyItems level vs

def prettyEntries (level : Nat) : List (String × Json) → List (List Char)
  | [] => []
  | e :: es => prettyEntry level e :: prettyEntries level es

def prettyEntry (level : Nat) : String × Json → List Char
  | (key, v) => quote key ++ ':' :: ' ' :: writePretty level v

end

/-- A value on indented lines. -/
def pretty (v : Json) : String := String.ofList (writePretty 0 v)

end PrototypeScan.Json
