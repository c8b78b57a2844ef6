import PrototypeScan.Files.Basic
import PrototypeScan.Shell.Escape
import PrototypeScan.Shell.Reader

/-!
What a script does: what it prints, how it ends, and how long it takes.
-/
namespace PrototypeScan.Shell

/-- How a program ends. -/
inductive Ending where
  | status (n : Nat)
  | signal (n : Nat)
  deriving DecidableEq, Repr

/-- Where output goes. -/
inductive Sink where
  | output
  | errors
  /-- what the next command of a pipeline reads -/
  | pipe
  | nowhere
  deriving DecidableEq, Repr

/-- A script while it runs. Times are in thousandths of a second. -/
structure State where
  files : Workspace
  /-- the path of the directory that the script runs in -/
  directory : String
  name : String
  arguments : List String
  assigned : List (String × String)
  input : List UInt8
  output : List UInt8
  errors : List UInt8
  pipe : List UInt8
  outputSink : Sink
  errorSink : Sink
  elapsed : Nat
  status : Nat
  ending : Option Ending

namespace State

def write (s : State) (sink : Sink) (bytes : List UInt8) : State :=
  match sink with
  | .output => { s with output := s.output ++ bytes }
  | .errors => { s with errors := s.errors ++ bytes }
  | .pipe => { s with pipe := s.pipe ++ bytes }
  | .nowhere => s

def print (s : State) (bytes : List UInt8) : State := s.write s.outputSink bytes

/-- Prints a complaint and fails. -/
def complain (s : State) (text : String) (status : Nat) : State :=
  { s.write s.errorSink (bytesOf (text ++ "\n").toList) with status }

def succeed (s : State) : State := { s with status := 0 }

def decide (s : State) (b : Bool) : State := { s with status := if b then 0 else 1 }

def finish (s : State) (e : Ending) : State := { s with ending := some e }

def path (s : State) (p : String) : String := Path.within s.directory p

/-- The process number of a script. -/
def processNumber : String := "4242"

def parameter (s : State) (name : String) : String :=
  if name = "#" then toString s.arguments.length
  else if name = "@" || name = "*" then " ".intercalate s.arguments
  else if name = "?" then toString s.status
  else if name = "$" then processNumber
  else if name = "0" then s.name
  else match Decimal.ofDigits 10 name.toList with
    | some n => (s.arguments[n - 1]?).getD ""
    | none => (Fields.get? name s.assigned).getD ""

end State

/-- Words that are being put together: the complete ones, the last one first, and the one that more may
be added to. -/
structure Expansion where
  complete : List String
  current : Option (List Char)

namespace Expansion

def add (e : Expansion) (cs : List Char) : Expansion :=
  { e with current := some (e.current.getD [] ++ cs) }

def next (e : Expansion) : Expansion :=
  match e.current with
  | some cs => ⟨String.ofList cs :: e.complete, none⟩
  | none => e

/-- Adds text that is cut at blanks. -/
def addCut (e : Expansion) (cs : List Char) : Expansion :=
  cs.foldl (fun e c => if isBlank c || c = '\n' then e.next else e.add [c]) e

/-- Adds texts that become words of their own. -/
def addAll (e : Expansion) : List String → Expansion
  | [] => e
  | [x] => e.add x.toList
  | x :: xs => (e.add x.toList).next.addAll xs

def piece (s : State) (e : Expansion) : Piece → Expansion
  | .text quoted cs => if quoted || !cs.isEmpty then e.add cs else e
  | .parameter true "@" => e.addAll s.arguments
  | .parameter true name => e.add (s.parameter name).toList
  | .parameter false name => e.addCut (s.parameter name).toList

end Expansion

/-- The words that a word stands for. -/
def expand (s : State) (w : Word) : List String :=
  (w.foldl (Expansion.piece s) ⟨[], none⟩).next.complete.reverse

/-- The one text that a word stands for. -/
def expandOne (s : State) (w : Word) : String :=
  String.ofList (w.flatMap fun
    | .text _ cs => cs
    | .parameter _ name => (s.parameter name).toList)

/-- Whether a text is like a pattern with `*` and `?`. -/
def isLike : List (Bool × Char) → List Char → Bool
  | [], cs => cs.isEmpty
  | (false, '*') :: ps, [] => isLike ps []
  | (false, '*') :: ps, c :: cs => isLike ps (c :: cs) || isLike ((false, '*') :: ps) cs
  | (false, '?') :: ps, _ :: cs => isLike ps cs
  | (_, p) :: ps, c :: cs => p = c && isLike ps cs
  | _ :: _, [] => false
termination_by ps cs => ps.length + cs.length

/-- A word as a pattern: characters, and whether they are quoted. -/
def pattern (s : State) (w : Word) : List (Bool × Char) :=
  w.flatMap fun
    | .text quoted cs => cs.map (quoted, ·)
    | .parameter quoted name => (s.parameter name).toList.map (quoted, ·)

/-- A time in thousandths of a second. -/
def milliseconds? (text : String) : Option Nat :=
  if text = "infinity" then some (tenTo 30)
  else
    let cs := text.toList
    let digits := cs.takeWhile fun c => c.isDigit || c = '.'
    let unit := match cs.dropWhile fun c => c.isDigit || c = '.' with
      | [] | ['s'] => some 1
      | ['m'] => some 60
      | ['h'] => some 3600
      | ['d'] => some 86400
      | _ => none
    match Decimal.parts? digits, unit with
    | some p, some u =>
      let thousandths := (p.fraction ++ ['0', '0', '0']).take 3
      some (u * Decimal.value (p.whole ++ thousandths))
    | _, _ => none

/-- Signals with their names. -/
def signals : List (Nat × String) := [
  (1, "HUP"), (2, "INT"), (3, "QUIT"), (4, "ILL"), (5, "TRAP"), (6, "ABRT"), (7, "BUS"), (8, "FPE"),
  (9, "KILL"), (10, "USR1"), (11, "SEGV"), (12, "USR2"), (13, "PIPE"), (14, "ALRM"), (15, "TERM")]

def signal? (text : String) : Option Nat :=
  match Decimal.ofDigits 10 text.toList with
  | some n => some n
  | none => (signals.find? fun s => s.2 = text || "SIG" ++ s.2 = text).map (·.1)

/-- Whether a comparison of integers holds. -/
def comparison? (op : String) (a b : Int) : Option Bool :=
  if op = "-eq" then some (a = b)
  else if op = "-ne" then some (a ≠ b)
  else if op = "-lt" then some (a < b)
  else if op = "-le" then some (a ≤ b)
  else if op = "-gt" then some (b < a)
  else if op = "-ge" then some (b ≤ a)
  else none

/-- Whether a condition holds; none if it is not well formed. -/
def condition? (s : State) : List String → Option Bool
  | [] => some false
  | ["!"] => some true
  | "!" :: more => (condition? s more).map (!·)
  | [text] => some (text ≠ "")
  | [op, a] =>
    let found := s.files.find (s.path a)
    if op = "-n" then some (a ≠ "")
    else if op = "-z" then some (a = "")
    else if op = "-e" then some found.toOption.isSome
    else if op = "-d" then some (s.files.isDirectory (s.path a))
    else if op = "-f" || op = "-r" then some (s.files.file? (s.path a)).isSome
    else if op = "-x" then some ((s.files.file? (s.path a)).any (·.executable))
    else if op = "-s" then some ((s.files.file? (s.path a)).any fun f => 0 < f.contents.size)
    else none
  | [a, op, b] =>
    if op = "=" || op = "==" then some (a = b)
    else if op = "!=" then some (a ≠ b)
    else comparison? op (integerOf a) (integerOf b)
  | _ => none

def bytesIn : Contents → List UInt8
  | .text t => t.toUTF8.toList
  | .bytes bs => bs

/-- Prints files one after the other; a hyphen stands for the input. -/
def concatenate (s : State) : List String → State
  | [] => s
  | file :: more =>
    let s :=
      if file = "-" then { s.print s.input with input := [] }
      else match s.files.read (s.path file) with
        | .ok c => s.print (bytesIn c)
        | .error .missing => s.complain ("cat: " ++ file ++ ": No such file or directory") 1
        | .error .isDirectory => s.complain ("cat: " ++ file ++ ": Is a directory") 1
        | .error _ => s.complain ("cat: " ++ file ++ ": Not a directory") 1
    concatenate s more

/-- Prints texts with blanks between them and a line end. -/
def echo (s : State) (texts : List String) : State :=
  let (lineEnd, texts) := match texts with
    | "-n" :: more => (false, more)
    | texts => (true, texts)
  let text := (" ".intercalate texts).toList
  let (bytes, goesOn) := unescape true (text.length + 1) text
  s.succeed.print (bytes ++ if lineEnd && goesOn then [10] else [])

/-- Sends a signal to the script itself; there is nothing else that it could reach. -/
def send (s : State) (signal : Option Nat) (target : String) : State :=
  if target = State.processNumber then
    match signal with
    | some n => s.finish (.signal n)
    | none => s.decide false
  else s.decide false

def kill (s : State) : List String → State
  | [target] => send s (some 15) target
  | ["-s", name, target] => send s (signal? name) target
  | [option, target] => send s (signal? (String.ofList (option.toList.drop 1))) target
  | _ => s.decide false

/-- What a line count or a byte count prints. -/
def count (s : State) (options : List String) : State :=
  let n := if options = ["-l"] then s.input.count 10 else s.input.length
  { s.succeed.print (bytesOf (toString n ++ "\n").toList) with input := [] }

/-- The first bytes or lines of the input. -/
def head (s : State) (options : List String) : State :=
  let rec lines : Nat → List UInt8 → List UInt8
    | _, [] => []
    | 0, _ => []
    | n + 1, b :: bs => b :: (if b = 10 then lines n bs else lines (n + 1) bs)
  let bytes := match options with
    | ["-c", n] => s.input.take (integerOf n).toNat
    | ["-n", n] => lines (integerOf n).toNat s.input
    | _ => lines 10 s.input
  { s.succeed.print bytes with input := [] }

/-- Runs a program or a command of the shell. -/
def invoke (s : State) (program : String) (arguments : List String) : State :=
  if program = "true" || program = ":" then s.succeed
  else if program = "false" then s.decide false
  else if program = "exit" then
    match arguments with
    | [] => s.finish (.status s.status)
    | n :: _ => match Decimal.ofDigits 10 n.toList with
      | some n => s.finish (.status (n % 256))
      | none => (s.complain (s.name ++ ": exit: Illegal number: " ++ n) 2).finish (.status 2)
  else if program = "cat" then
    concatenate s.succeed (if arguments.isEmpty then ["-"] else arguments)
  else if program = "echo" then echo s arguments
  else if program = "printf" then
    match arguments with
    | [] => s.complain "printf: usage: printf format [arg ...]" 2
    | p :: more => s.succeed.print (formatted (more.length + 1) p.toList more)
  else if program = "sleep" then
    match arguments.mapM milliseconds? with
    | some times => { s.succeed with elapsed := times.foldl (· + ·) s.elapsed }
    | none => s.decide false
  else if program = "[" || program = "test" then
    let inner := if program = "[" then arguments.dropLast else arguments
    match condition? s inner with
    | some b => s.decide b
    | none => { s with status := 2 }
  else if program = "kill" then kill s arguments
  else if program = "shift" then { s.succeed with arguments := s.arguments.drop 1 }
  else if program = "pwd" then s.succeed.print (bytesOf (s.directory ++ "\n").toList)
  else if program = "wc" then count s arguments
  else if program = "head" then head s arguments
  else s.complain (s.name ++ ": " ++ program ++ ": not found") 127

/-- The name and the value of an assignment. -/
def assignment? (text : String) : Option (String × String) :=
  let cs := text.toList
  let name := cs.takeWhile isNameChar
  match cs.dropWhile isNameChar with
  | '=' :: v =>
    if name.isEmpty || name.head?.any Char.isDigit then none
    else some (String.ofList name, String.ofList v)
  | _ => none

/-- Runs a simple command. -/
def runSimple (s : State) (words : List Word) : State :=
  match words.head?.bind fun w => assignment? (expandOne s w) with
  | some (name, v) =>
    if words.length = 1 then
      { s.succeed with assigned := Fields.upsert name (fun _ => v) s.assigned }
    else match words.tail.flatMap (expand s) with
      | [] => s.succeed
      | program :: arguments => invoke s program arguments
  | none => match words.flatMap (expand s) with
    | [] => s.succeed
    | "exec" :: program :: arguments =>
      let s := invoke s program arguments
      s.finish (s.ending.getD (.status s.status))
    | program :: arguments => invoke s program arguments

/-- A number of a stream as a sink. -/
def sinkOf (s : State) (stream : String) : Sink :=
  if stream = "1" then s.outputSink
  else if stream = "2" then s.errorSink
  else .nowhere

def setSink (s : State) (stream : Nat) (sink : Sink) : State :=
  if stream = 1 then { s with outputSink := sink }
  else if stream = 2 then { s with errorSink := sink }
  else s

/-- Redirects a stream; none, with a complaint, if that cannot be done. -/
def redirect (s : State) : Redirect → Except State State
  | .input w =>
    let file := expandOne s w
    match s.files.read (s.path file) with
    | .ok c => .ok { s with input := bytesIn c }
    | .error _ => .error (s.complain (s.name ++ ": cannot open " ++ file ++ ": No such file") 2)
  | .document w => .ok { s with input := bytesOf (expandOne s w).toList }
  | .output stream _ => .ok (setSink s stream .nowhere)
  | .copy stream w => .ok (setSink s stream (sinkOf s (expandOne s w)))

/-- Runs something with redirected streams, and leads the streams back. -/
def redirected (s : State) (rs : List Redirect) (f : State → State) : State :=
  match rs.foldlM redirect s with
  | .error failed => { failed with outputSink := s.outputSink, errorSink := s.errorSink }
  | .ok inner =>
    let takesInput := rs.any fun
      | .input _ | .document _ => true
      | _ => false
    let after := f inner
    { after with
      outputSink := s.outputSink
      errorSink := s.errorSink
      input := if takesInput then s.input else after.input }

/-- A state after something that ran on its own: its end is not that of the script, unless a signal ended
the script itself. -/
def isolated (before after : State) : State :=
  match after.ending with
  | some (.status n) => { after with status := n, ending := none, assigned := before.assigned }
  | _ => { after with assigned := before.assigned }

mutual

/-- What a command makes of a state. A script that has ended does nothing more. -/
def run (c : Command) (s : State) : State :=
  match s.ending with
  | some _ => s
  | none => match c with
    | .nothing => s
    | .simple words rs => redirected s rs fun s => runSimple s words
    | .sequence a b => run b (run a s)
    | .both a b =>
      let t := run a s
      if t.status = 0 then run b t else t
    | .either a b =>
      let t := run a s
      if t.status = 0 then t else run b t
    | .negated a =>
      let t := run a s
      t.decide (t.status ≠ 0)
    | .piped a b =>
      let first := isolated s (run a { s with outputSink := .pipe, pipe := [] })
      let second := isolated s (run b { s with
        input := first.pipe, output := first.output, errors := first.errors })
      { second with
        input := first.input
        elapsed := max first.elapsed second.elapsed
        ending := first.ending.or second.ending }
    | .conditional condition yes no =>
      let t := run condition s
      if t.status = 0 then run yes t.succeed else run no t.succeed
    | .selection subject branches => runBranches (expandOne s subject).toList branches s.succeed
    | .group a rs => redirected s rs (run a)
    | .isolated a rs => redirected s rs fun s => isolated s (run a s)

/-- Runs the first branch with a pattern that the text is like. -/
def runBranches (text : List Char) (branches : List (List Word × Command)) (s : State) : State :=
  match branches with
  | [] => s
  | b :: rest => runBranch text b s (runBranches text rest)

def runBranch (text : List Char) (b : List Word × Command) (s : State) (other : State → State) :
    State :=
  match b with
  | (patterns, c) => if patterns.any fun p => isLike (pattern s p) text then run c s else other s

end

end PrototypeScan.Shell
