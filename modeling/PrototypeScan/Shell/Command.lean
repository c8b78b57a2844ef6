/-!
Commands of shell scripts, for the scripts that stand in for a parser: simple commands with redirected
streams, joined by the operators of the shell. There are no loops, so a script always ends.
-/
namespace PrototypeScan.Shell

/-- A part of a word. What is quoted is not cut at blanks, and is no pattern. -/
inductive Piece where
  | text (quoted : Bool) (cs : List Char)
  | parameter (quoted : Bool) (name : String)
  deriving DecidableEq, Repr

abbrev Word := List Piece

/-- Where a stream of a command leads. -/
inductive Redirect where
  | input (source : Word)
  /-- text of the script itself -/
  | document (contents : Word)
  | output (stream : Nat) (target : Word)
  | copy (stream : Nat) (target : Word)
  deriving DecidableEq, Repr

inductive Command where
  | nothing
  | simple (words : List Word) (redirects : List Redirect)
  | sequence (first second : Command)
  /-- the second one runs if the first succeeds -/
  | both (first second : Command)
  /-- the second one runs if the first fails -/
  | either (first second : Command)
  | negated (c : Command)
  /-- what the first one prints is read by the second -/
  | piped (first second : Command)
  | conditional (condition yes no : Command)
  /-- the first branch of which a pattern is like the word -/
  | selection (subject : Word) (branches : List (List Word × Command))
  | group (c : Command) (redirects : List Redirect)
  /-- a group whose end does not end the script -/
  | isolated (c : Command) (redirects : List Redirect)

instance : Inhabited Command := ⟨.nothing⟩

end PrototypeScan.Shell
