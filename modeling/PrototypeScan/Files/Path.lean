import PrototypeScan.Text.Split

/-!
Paths as text. A path is read segment by segment; empty segments and single points do not count, so a
path may end in a slash without another meaning.
-/
namespace PrototypeScan.Path

/-- What stands between the slashes of a path. -/
def segments (path : String) : List String := Text.splitOn '/' path

/-- The segments that name something. -/
def names (path : String) : List String := (segments path).filter fun s => s ≠ "" && s ≠ "."

def isAbsolute (path : String) : Bool := path.toList.head? = some '/'

/-- The last name of a path, unless it leads upwards. -/
def fileName? (path : String) : Option String := (names path).getLast?.filter (· ≠ "..")

/-- What follows the last point of a name; a point at its start does not count. -/
def extensionOfName? (name : String) : Option String :=
  let backwards := name.toList.reverse
  match backwards.dropWhile (· ≠ '.') with
  | [] => none
  | [_] => none
  | _ => some (String.ofList (backwards.takeWhile (· ≠ '.')).reverse)

def extension? (path : String) : Option String := (fileName? path).bind extensionOfName?

/-- A path with an extension added to its last name. -/
def extended? (path extension : String) : Option String :=
  let kept := ((segments path).reverse.dropWhile fun s => s = "" || s = ".").reverse
  (fileName? path).map fun _ =>
    String.ofList (Text.glue '/' (kept.map String.toList)) ++ extension

/-- The path of something below a directory. -/
def below (directory name : String) : String :=
  if directory = "" then name
  else if directory.toList.getLast? = some '/' then directory ++ name
  else directory ++ "/" ++ name

/-- The path that `path` stands for in a directory. -/
def within (directory path : String) : String :=
  if isAbsolute path then path else below directory path

end PrototypeScan.Path
