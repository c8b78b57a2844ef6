import PrototypeScan.Number.Decimal
import PrototypeScan.Text.Split

/-!
Filters for log lines: directives with commas between them, each a level, a target, or a target and spans
with a level behind an equals sign. Log lines are not part of what a run answers, so all that matters is
whether a filter is well formed.
-/
namespace PrototypeScan.LogFilter

/-- What is wrong with a filter. -/
inductive Fault where
  | directive
  | level
  deriving DecidableEq, Repr

def Fault.message : Fault → String
  | directive => "invalid filter directive"
  | level =>
    "error parsing level filter: expected one of \"off\", \"error\", \"warn\", \"info\", " ++
      "\"debug\", \"trace\", or a number 0-5"

/-- Words for levels. -/
def levels : List String := ["", "off", "error", "warn", "info", "debug", "trace"]

/-- Whether a text is a level: a word in either case, or a number up to five. -/
def isLevel (cs : List Char) : Bool :=
  let digits := match cs with
    | '+' :: ds => ds
    | ds => ds
  levels.contains (String.ofList (cs.map Char.toLower)) ||
    (digits.all Char.isDigit && (Decimal.ofDigits 10 digits).any (· ≤ 5))

/-- Whether a target may start with a character. -/
def startsTarget (c : Char) : Bool :=
  c.isAlphanum || c = '-' || c = ':' || c = '_' || (0x80 ≤ c.toNat && !Text.isSpace c)

/-- Where reading a directive stands. A level starts behind so many characters of the directive. -/
inductive Place where
  | start
  | levelOrTarget
  | span
  | field (isEmpty : Bool)
  | afterFields
  | afterSpan
  | level (behind : Nat)
  deriving DecidableEq, Repr

/-- The place behind a character, the `i`th one. -/
def next (i : Nat) (c : Char) : Place → Except Fault Place
  | .start =>
    if c = '[' then .ok .span
    else if startsTarget c then .ok .levelOrTarget
    else .error .directive
  | .levelOrTarget =>
    if c = '=' then .ok (.level (i + 1))
    else if c = '[' then .ok .span
    else .ok .levelOrTarget
  | .span =>
    if c = ']' then .ok .afterSpan
    else if c = '\x7b' then .ok (.field true)
    else .ok .span
  | .field isEmpty =>
    if c = '\x7d' then (if isEmpty then .error .directive else .ok .afterFields)
    else .ok (.field false)
  | .afterFields => if c = ']' then .ok .afterSpan else .error .directive
  | .afterSpan => if c = '=' then .ok (.level (i + 1)) else .error .directive
  | .level n => .ok (.level n)

/-- The place at the end of a directive, its characters counted from `i`. -/
def walk : Nat → Place → List Char → Except Fault Place
  | _, p, [] => .ok p
  | i, p, c :: cs => match next i c p with
    | .ok p => walk (i + 1) p cs
    | .error e => .error e

/-- What is wrong with a directive. Blanks around it are passed over, except that the level is what
follows as many characters of the whole text. -/
def directiveFault? (text : List Char) : Option Fault :=
  match walk 0 .start (Text.trim (String.ofList text)).toList with
  | .error e => some e
  | .ok (.level n) => if isLevel (text.drop n) then none else some .level
  | .ok .levelOrTarget | .ok .afterSpan => none
  | .ok _ => some .directive

/-- What is wrong with the first directive of a filter that is not well formed. -/
def fault? (filter : String) : Option Fault :=
  ((Text.parts ',' filter.toList).filter (!·.isEmpty)).findSome? directiveFault?

end PrototypeScan.LogFilter
