import PrototypeScan.Json.Basic

/-!
Records in JSON: values with parts that have names. A record is an object, in which keys that are not
known are skipped, or an array of its parts in order.
-/
namespace PrototypeScan.Json

/-- The parts of a record with the given keys. A key that is known may stand only once. -/
def parts? (keys : List String) : Json → Option (List (String × Json))
  | object entries =>
    let known := (entries.map (·.1)).filter keys.contains
    if known.Nodup then some entries else none
  | array items => if items.length ≤ keys.length then some (keys.zip items) else none
  | _ => none

/-- A part: `standard` where it is missing, and what `read?` makes of it otherwise. -/
def part? {α : Type} (parts : List (String × Json)) (key : String) (read? : Json → Option α)
    (standard : Option α) : Option α :=
  match entry? key parts with
  | some v => read? v
  | none => standard

/-- A value that may be null. -/
def nullable? {α : Type} (read? : Json → Option α) : Json → Option (Option α)
  | null => some none
  | v => (read? v).map some

/-- A list of strings. -/
def texts? (v : Json) : Option (List String) := v.asArray?.bind (·.mapM asString?)

/-- One of a few names: a string, or an object that maps the name to null. -/
def choice? {α : Type} (ofText? : String → Option α) : Json → Option α
  | string s => ofText? s
  | object [(s, null)] => ofText? s
  | _ => none

def ofTexts (texts : List String) : Json := array (texts.map string)

def ofOption {α : Type} (f : α → Json) (v : Option α) : Json := (v.map f).getD null

end PrototypeScan.Json
