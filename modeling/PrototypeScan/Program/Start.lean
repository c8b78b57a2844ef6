import PrototypeScan.Shell.Run
import PrototypeScan.Text.Split

/-!
Starting programs. A program is an executable file that is a shell script. A name without a slash is
looked up where programs are kept; everything else is a path seen from the directory that the program
runs in.
-/
namespace PrototypeScan

namespace Shell.Ending

/-- The end of a program in words. -/
def text : Ending → String
  | status n => "exit status: " ++ toString n
  | signal n =>
    "signal: " ++ toString n ++
      (match signals.find? (·.1 = n) with
        | some (_, name) => " (SIG" ++ name ++ ")"
        | none => "")

def isSuccess : Ending → Bool
  | status n => n = 0
  | signal _ => false

end Shell.Ending

namespace Program

/-- What a program leaves behind, and how long it ran, in thousandths of a second. -/
structure Outcome where
  ending : Shell.Ending
  output : List UInt8
  errors : List UInt8
  elapsed : Nat

/-- Where programs are looked up. -/
def directories : List String := ["/usr/local/bin", "/usr/bin", "/bin"]

/-- The programs that read shell scripts. -/
def interpreters : List String := [
  "/bin/sh", "/usr/bin/sh", "/bin/dash", "/usr/bin/dash", "/bin/bash", "/usr/bin/bash"]

/-- Whether the first line of a script, behind its mark, names a program that reads shell scripts. -/
def isShell (line : String) : Bool :=
  match (Text.splitOn ' ' line).filter (· ≠ "") with
  | "/usr/bin/env" :: name :: _ => interpreters.contains ("/bin/" ++ name)
  | name :: _ => interpreters.contains name
  | [] => false

/-- The path of a program for a run in a directory; none for a name that is found nowhere. -/
def path? (w : Workspace) (directory name : String) : Option String :=
  if name.toList.contains '/' then some (Path.within directory name)
  else if name = "" then none
  else (directories.map (Path.below · name)).find? w.contains

/-- The script of an executable file. The first line of a script names its interpreter. -/
def scriptOf (f : File) : Except FileError String :=
  if f.executable then
    match f.contents.decoded.toList with
    | '#' :: '!' :: cs =>
      if isShell (Text.trim (String.ofList (cs.takeWhile (· ≠ '\n')))) then .ok f.contents.decoded else .error .missing
    | _ => .error .notExecutable
  else .error .denied

/-- The script of the program at a path. -/
def scriptAt (w : Workspace) (path : String) : Except FileError String :=
  match w.find path with
  | .error e => .error e
  | .ok (.file f) => scriptOf f
  | .ok _ => .error .denied

/-- The directory that a program is to run in has to be one. -/
def checkDirectory (w : Workspace) : Option String → Except FileError Unit
  | none => .ok ()
  | some d => match w.find d with
    | .error e => .error e
    | .ok t => if t.isDirectory then .ok () else .error .notDirectory

/-- Runs a script from its start. -/
def runScript (w : Workspace) (directory name : String) (arguments : List String)
    (input : List UInt8) (script : String) : Outcome :=
  let start : Shell.State := {
    files := w, directory, name, arguments, assigned := [], input, output := [], errors := [],
    pipe := [], outputSink := .output, errorSink := .errors, elapsed := 0, status := 0,
    ending := none }
  match Shell.read? script with
  | some c =>
    let s := Shell.run c start
    ⟨s.ending.getD (.status s.status), s.output, s.errors, s.elapsed⟩
  | none => ⟨.status 2, [], Shell.bytesOf (name ++ ": Syntax error\n").toList, 0⟩

/-- Runs a program to its end. -/
def run (w : Workspace) (directory : Option String) (name : String) (arguments : List String)
    (input : List UInt8) : Except FileError Outcome := do
  checkDirectory w directory
  let here := directory.getD ""
  match path? w here name with
  | none => throw .missing
  | some path =>
    let script ← scriptAt w path
    return runScript w here name arguments input script

end Program

end PrototypeScan
