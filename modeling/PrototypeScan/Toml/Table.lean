import PrototypeScan.Config.Setting

/-!
Tables of a TOML document while it is read. A table can be named by a header once; tables that only a
longer name implied can be named later; keys with points make tables of their own, which take further
such keys but no header. Nothing is ever replaced.
-/
namespace PrototypeScan.Toml

/-- What made a table. -/
inductive Origin where
  /-- a header that names it -/
  | header
  /-- a header that names something in it -/
  | implied
  /-- a key with points -/
  | dotted
  deriving DecidableEq, Repr

/-- What a name stands for. -/
inductive Entry where
  /-- a value, which nothing can be added to -/
  | value (v : Setting)
  | table (origin : Origin) (entries : List (String × Entry))
  /-- tables under one header; additions go to the last one -/
  | tables (before : List (List (String × Entry))) (last : List (String × Entry))

abbrev Entries := List (String × Entry)

mutual

/-- What has been read, as a value. -/
def Entry.toSetting : Entry → Setting
  | .value v => v
  | .table _ es => .table (settings es)
  | .tables before last => .list (tablesOf before ++ [.table (settings last)])

def settings : Entries → List (String × Setting)
  | [] => []
  | e :: es => setting e :: settings es

def setting : String × Entry → String × Setting
  | (name, e) => (name, e.toSetting)

def tablesOf : List Entries → List Setting
  | [] => []
  | t :: ts => .table (settings t) :: tablesOf ts

end

/-- Changes the entries that a name stands for in a table; `made` says what a table is made by that is not
there yet. A key with points does not lead into a table that has a header. -/
def within? (made : Origin) (name : String) (f : Origin → Entries → Option Entries) (es : Entries) :
    Option Entries :=
  match Fields.get? name es with
  | none => (f made []).map fun inner => es ++ [(name, .table made inner)]
  | some (.table origin inner) =>
    if made = .dotted && origin = .header then none
    else (f origin inner).map fun new => Fields.upsert name (fun _ => .table origin new) es
  | some (.tables before last) =>
    (f .header last).map fun new => Fields.upsert name (fun _ => .tables before new) es
  | some (.value _) => none

/-- Changes the entries of the table that a way of names leads to. -/
def descend? (made : Origin) (f : Origin → Entries → Option Entries) :
    List String → Origin → Entries → Option Entries
  | [], origin, es => f origin es
  | name :: names, _, es => within? made name (descend? made f names) es

/-- Adds an entry with a name that is not there yet. -/
def add? (name : String) (e : Entry) (es : Entries) : Option Entries :=
  if (Fields.get? name es).isNone then some (es ++ [(name, e)]) else none

/-- Adds the value of a key, given as the names before its last one and that one. The table that takes
the value has been made by keys with points, if the key has any, and otherwise it has not. -/
def assign? (path : List String) (name : String) (v : Setting) (es : Entries) : Option Entries :=
  descend? .dotted (fun origin inner =>
    if path.isEmpty || origin = .dotted then add? name (.value v) inner else none) path .header es

/-- Makes the table that a header names. -/
def open? (path : List String) (name : String) (es : Entries) : Option Entries :=
  descend? .implied (fun _ inner => match Fields.get? name inner with
    | none => some (inner ++ [(name, .table .header [])])
    | some (.table .implied t) => some (Fields.upsert name (fun _ => .table .header t) inner)
    | some _ => none) path .header es

/-- Makes one more table under a header in two brackets. -/
def openNext? (path : List String) (name : String) (es : Entries) : Option Entries :=
  descend? .implied (fun _ inner => match Fields.get? name inner with
    | none => some (inner ++ [(name, .tables [] [])])
    | some (.tables before last) =>
      some (Fields.upsert name (fun _ => .tables (before ++ [last]) []) inner)
    | some _ => none) path .header es

end PrototypeScan.Toml
