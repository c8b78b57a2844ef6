import PrototypeScan.Files.Basic
import PrototypeScan.Json.Basic
import PrototypeScan.Number.Decimal

/-!
A directory as JSON: an object with what is at each path. Null is a directory, an object with `hex` holds
bytes, one with `exec` an executable script, and everything else is text.
-/
namespace PrototypeScan

/-- A text, which may be given in parts that are joined; a part may have a count. -/
def Json.joined : Json → String
  | .string s => s
  | .array ps => String.join (ps.map fun
    | .string s => s
    | .array [.string s, n] => String.join (List.replicate (n.asNat?.getD 0) s)
    | _ => "")
  | _ => ""

/-- The bytes that pairs of hexadecimal digits denote. -/
def Text.bytesOfHex : List Char → List UInt8
  | a :: b :: rest => .ofNat ((Decimal.ofDigits 16 [a, b]).getD 0) :: bytesOfHex rest
  | _ => []

namespace FileTree

/-- The file that a value describes. -/
def fileOfJson (v : Json) : File :=
  match v.get? "hex", v.get? "exec" with
  | some h, _ => ⟨.bytes (Text.bytesOfHex h.joined.toList), false⟩
  | none, some script => ⟨.text script.joined, true⟩
  | none, none => ⟨.text v.joined, false⟩

def addJson (t : FileTree) : String × Json → FileTree
  | (path, .null) => t.putDirectory path
  | (path, v) => t.putFile path (fileOfJson v)

/-- The directory that an object describes. -/
def ofJson : Json → FileTree
  | .object entries => entries.foldl addJson empty
  | _ => empty

end FileTree

end PrototypeScan
