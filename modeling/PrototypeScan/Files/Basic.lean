import PrototypeScan.Files.Path
import PrototypeScan.Text.Utf8
import PrototypeScan.Tree.Basic

/-!
Files and directories as data, and what a path leads to.
-/
namespace PrototypeScan

/-- What a file holds. -/
inductive Contents where
  | text (s : String)
  | bytes (bs : List UInt8)

namespace Contents

/-- The number of bytes. -/
def size : Contents → Nat
  | text s => s.utf8ByteSize
  | bytes bs => bs.length

/-- Contents as text, with a mark where bytes are no text. -/
def decoded : Contents → String
  | text s => s
  | bytes bs => Text.decodeLossy bs

end Contents

structure File where
  contents : Contents
  executable : Bool

/-- What is at a path. Names are texts, so there are none whose bytes are no UTF-8. -/
inductive FileTree where
  | file (f : File)
  /-- neither a regular file nor a directory -/
  | device
  | directory (entries : List (String × FileTree))

/-- Why something could not be done with a file. -/
inductive FileError where
  | missing
  | denied
  | notDirectory
  | isDirectory
  | notExecutable
  deriving DecidableEq, Repr

/-- The message of the system, with its number. -/
def FileError.message : FileError → String
  | missing => "No such file or directory (os error 2)"
  | notExecutable => "Exec format error (os error 8)"
  | denied => "Permission denied (os error 13)"
  | notDirectory => "Not a directory (os error 20)"
  | isDirectory => "Is a directory (os error 21)"

namespace FileTree

def empty : FileTree := directory []

def isDirectory : FileTree → Bool
  | directory _ => true
  | _ => false

def entries : FileTree → List (String × FileTree)
  | directory es => es
  | _ => []

/-- Changes what is at a place below a tree; directories on the way are made. -/
def change (f : Option FileTree → FileTree) : List String → Option FileTree → FileTree
  | [], here => f here
  | name :: names, here =>
    directory (Fields.upsert name (change f names) ((here.map entries).getD []))

/-- Puts a file somewhere below a tree. -/
def putFile (t : FileTree) (path : String) (f : File) : FileTree :=
  change (fun _ => file f) (Path.names path) (some t)

/-- Makes a directory somewhere below a tree, unless it is there. -/
def putDirectory (t : FileTree) (path : String) : FileTree :=
  change (fun old => directory ((old.map entries).getD [])) (Path.names path) (some t)

/-- Follows segments from `here`; `above` are the directories passed on the way, the last one first.
Above the topmost directory nothing is known. -/
def follow (above : List FileTree) (here : FileTree) : List String → Except FileError FileTree
  | [] => .ok here
  | s :: rest => match here with
    | directory es =>
      if s = "" || s = "." then follow above here rest
      else if s = ".." then match above with
        | [] => follow [] empty rest
        | parent :: others => follow others parent rest
      else match Fields.get? s es with
        | some t => follow (here :: above) t rest
        | none => .error .missing
    | _ => .error .notDirectory

end FileTree

/-- The files that a run can see: those below the directory that it starts in, and a few that are
everywhere. -/
structure Workspace where
  files : FileTree

namespace Workspace

def script (text : String) : FileTree := .file ⟨.text text, true⟩

/-- What is everywhere. -/
def everywhere : FileTree :=
  let programs : FileTree :=
    .directory [("true", script "#!/bin/sh\nexit 0\n"), ("false", script "#!/bin/sh\nexit 1\n")]
  .directory [("bin", programs), ("dev", .directory [("null", .device)]), ("tmp", .empty),
    ("usr", .directory [("bin", programs)])]

/-- What a path leads to. -/
def find (w : Workspace) (path : String) : Except FileError FileTree :=
  if path = "" then .error .missing
  else if Path.isAbsolute path then FileTree.follow [] everywhere (Path.segments path)
  else FileTree.follow [] w.files (Path.segments path)

def contains (w : Workspace) (path : String) : Bool := (w.find path).toOption.isSome

def isDirectory (w : Workspace) (path : String) : Bool :=
  ((w.find path).toOption.map (·.isDirectory)).getD false

/-- The regular file at a path. -/
def file? (w : Workspace) (path : String) : Option File :=
  match w.find path with
  | .ok (.file f) => some f
  | _ => none

/-- What reading all of a path gives. -/
def read (w : Workspace) (path : String) : Except FileError Contents :=
  match w.find path with
  | .ok (.file f) => .ok f.contents
  | .ok .device => .ok (.text "")
  | .ok (.directory _) => .error .isDirectory
  | .error e => .error e

/-- The size that the system gives for a directory. -/
def directorySize : Nat := 4096

/-- The size of what is at a path. -/
def size (w : Workspace) (path : String) : Except FileError Nat :=
  (w.find path).map fun
    | .file f => f.contents.size
    | .device => 0
    | .directory _ => directorySize

end Workspace

end PrototypeScan
