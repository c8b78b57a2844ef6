import PrototypeScan.Provider.Basic
import PrototypeScan.Scan.Tree

/-!
Why a path or a file could not be scanned.
-/
namespace PrototypeScan.Scan

inductive Error where
  | notFound (path : String)
  | unsupported (path : String)
  | io (path : String) (reason : FileError)
  | fileTooLarge (path : String) (size limit : Nat)
  | tree (e : TreeError)
  | parse (e : ParseError)

namespace Error

def message : Error → String
  | notFound path => "Path not found: " ++ path
  | unsupported path => "Unsupported file type: " ++ path
  | io path reason => "IO error on " ++ path ++ ": " ++ reason.message
  | fileTooLarge path size limit =>
    path ++ " is " ++ toString size ++ " bytes, above the limit of " ++ toString limit ++ " bytes"
  | tree e => e.message
  | parse e => e.message

/-- Whether the message of an error says which file it is about. -/
def namesPath : Error → Bool
  | notFound _ | unsupported _ | io _ _ | fileTooLarge _ _ _ => true
  | parse (.failed _ _) | parse (.invalidJson _ _) => true
  | parse _ | tree _ => false

/-- The message of an error at a path; the path stands in front if the message does not name it. -/
def describe (path : String) (e : Error) : String :=
  if e.namesPath then e.message else path ++ ": " ++ e.message

/-- Whether what was asked for could not be done at all, as opposed to a source or a tree that was
refused. -/
def isInput : Error → Bool
  | notFound _ | unsupported _ | io _ _ | fileTooLarge _ _ _ => true
  | parse (.unavailable _) => true
  | parse _ | tree _ => false

end Error

end PrototypeScan.Scan
