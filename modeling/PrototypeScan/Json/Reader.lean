import PrototypeScan.Json.Skipped

/-!
Reading JSON. Arrays and objects may be nested below a fixed depth. `readWritten` keeps the entries of an
object as they are written; `read` keeps one for each key: the last value, in the place of the first;
`readRecords` skips the values of keys that are not known.
-/
namespace PrototypeScan.Json
open Text

/-- How many arrays and objects may be open at once is one less than this. -/
def depthBound : Nat := 128

/-- What is being read: a value, or what may follow in an array or an object, with the items or entries
so far, the last one first. -/
inductive Task where
  | value
  | items (latest : List Json)
  | entries (latest : List (String × Json))

/-- Whether another item follows. -/
def moreItems (isFirst : Bool) (k : Cursor) : Except Error (Bool × Cursor) :=
  let k := k.skipSpace
  match k.rest with
  | [] => .error (k.failNext .endInList)
  | p :: _ =>
    if p.is ']' then .ok (false, k)
    else if isFirst then .ok (true, k)
    else if p.is ',' then
      let k := k.next.skipSpace
      match k.rest with
      | [] => .error (k.failNext .endInValue)
      | q :: _ => if q.is ']' then .error (k.failNext .trailingComma) else .ok (true, k)
    else .error (k.failNext .expectedListEnd)

/-- Whether another entry follows. -/
def moreEntries (isFirst : Bool) (k : Cursor) : Except Error (Bool × Cursor) :=
  let k := k.skipSpace
  match k.rest with
  | [] => .error (k.failNext .endInObject)
  | p :: _ =>
    if p.is '}' then .ok (false, k)
    else if isFirst then
      if p.is '"' then .ok (true, k) else .error (k.failNext .keyNotString)
    else if p.is ',' then
      let k := k.next.skipSpace
      match k.rest with
      | [] => .error (k.failNext .endInValue)
      | q :: _ =>
        if q.is '"' then .ok (true, k)
        else if q.is '}' then .error (k.failNext .trailingComma)
        else .error (k.failNext .keyNotString)
    else .error (k.failNext .expectedObjectEnd)

/-- Carries out a task. `depth` is how many arrays and objects may still be opened; `fuel` bounds the
steps, at most two for each piece of the text. At a depth only the keys that are known there count: the
values of others are skipped. -/
def perform (known : Nat → String → Bool) : Nat → Nat → Task → Cursor → Except Error (Json × Cursor)
  | 0, _, _, k => .error (k.fail .tooDeep)
  | fuel + 1, depth, .value, k =>
    let k := k.skipSpace
    match k.rest with
    | [] => .error (k.failNext .endInValue)
    | .illFormed _ :: _ => .error (k.failNext .expectedValue)
    | .char c :: _ =>
      if c = 'n' then (readWord k.next "ull".toList).map fun k => (.null, k)
      else if c = 't' then (readWord k.next "rue".toList).map fun k => (.bool true, k)
      else if c = 'f' then (readWord k.next "alse".toList).map fun k => (.bool false, k)
      else if c = '-' then (Number.read true k.next).map fun r => (.number r.1, r.2)
      else if c.isDigit then (Number.read false k).map fun r => (.number r.1, r.2)
      else if c = '"' then (Quoted.read k.next).map fun r => (.string r.1, r.2)
      else if c = '[' then
        if depth ≤ 1 then .error (k.failNext .tooDeep)
        else perform known fuel (depth - 1) (.items []) k.next
      else if c = '{' then
        if depth ≤ 1 then .error (k.failNext .tooDeep)
        else perform known fuel (depth - 1) (.entries []) k.next
      else .error (k.failNext .expectedValue)
  | fuel + 1, depth, .items latest, k => do
    let (more, k) ← moreItems latest.isEmpty k
    if more then
      let (item, k) ← perform known fuel depth .value k
      perform known fuel depth (.items (item :: latest)) k
    else .ok (.array latest.reverse, k.next)
  | fuel + 1, depth, .entries latest, k => do
    let (more, k) ← moreEntries latest.isEmpty k
    if more then
      let (key, k) ← Quoted.read k.next
      let k ← readColon k
      if known depth key then
        let (v, k) ← perform known fuel depth .value k
        perform known fuel depth (.entries ((key, v) :: latest)) k
      else
        let k ← Skipped.value k
        perform known fuel depth (.entries ((key, .null) :: latest)) k
    else .ok (.object latest.reverse, k.next)

/-- Reads a whole text; the entries of objects stay as they are written. -/
def readPieces (known : Nat → String → Bool) (text : List Piece) : Except Error Json := do
  let (v, k) ← perform known (2 * text.length + 1) depthBound .value (Cursor.start text)
  let k := k.skipSpace
  if k.rest.isEmpty then .ok v else .error (k.failNext .trailingCharacters)

def everyKey (_ : Nat) (_ : String) : Bool := true

def readWritten (text : String) : Except Error Json := readPieces everyKey (piecesOf text)

/-- The keys of records that have `height` arrays around them; all keys elsewhere. -/
def recordKeys (height : Nat) (keys : List String) (depth : Nat) (key : String) : Bool :=
  depth + height + 1 ≠ depthBound || keys.contains key

/-- Reads a text of records that have `height` arrays around them. Null stands for the values of the keys that
they do not have. -/
def readRecords (height : Nat) (keys : List String) (text : String) : Except Error Json :=
  readPieces (recordKeys height keys) (piecesOf text)

/-- Reads a text. -/
def read (text : String) : Except Error Json := (readWritten text).map merged

/-- Reads bytes; ill-formed text is an error inside of strings and elsewhere alike. -/
def readBytes (bytes : List UInt8) : Except Error Json := (readPieces everyKey (pieces bytes)).map merged

end PrototypeScan.Json
