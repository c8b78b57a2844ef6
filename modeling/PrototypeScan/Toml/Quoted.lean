import PrototypeScan.Number.Decimal

/-!
Text in quotes in TOML documents. Single quotes hold text as it stands, double quotes text with escapes;
three quotes hold text over several lines. Each reader starts behind the opening quotes and gives the
text and what follows the closing ones.
-/
namespace PrototypeScan.Toml.Quoted

/-- Characters that may stand in a document as they are. -/
def isPlain (c : Char) : Bool := c = '\t' || (0x20 ≤ c.toNat && c.toNat ≠ 0x7F)

/-- The character with the code that so many hexadecimal digits denote. -/
def coded? (n : Nat) (cs : List Char) : Option (Char × List Char) := do
  let ds := cs.take n
  if ds.length ≠ n then none
  else
    let code ← Decimal.ofDigits 16 ds
    if code.isValidChar then some (Char.ofNat code, cs.drop n) else none

/-- What follows a backslash. -/
def escape? : List Char → Option (Char × List Char)
  | [] => none
  | c :: cs => match c with
    | 'b' => some ('\x08', cs)
    | 't' => some ('\t', cs)
    | 'n' => some ('\n', cs)
    | 'f' => some ('\x0c', cs)
    | 'r' => some ('\r', cs)
    | 'e' => some ('\x1b', cs)
    | '"' => some ('"', cs)
    | '\\' => some ('\\', cs)
    | 'x' => coded? 2 cs
    | 'u' => coded? 4 cs
    | 'U' => coded? 8 cs
    | _ => none

/-- A line end at the start of a text: what follows it. -/
def lineEnd? : List Char → Option (List Char)
  | '\n' :: cs => some cs
  | '\r' :: '\n' :: cs => some cs
  | _ => none

/-- What follows a backslash at the end of a line: blanks and line ends are skipped up to the next
character. There has to be a line end among them. -/
def skipLines : List Char → List Char
  | ' ' :: cs | '\t' :: cs | '\n' :: cs => skipLines cs
  | '\r' :: '\n' :: cs => skipLines cs
  | cs => cs

def continued? (cs : List Char) : Option (List Char) :=
  (lineEnd? (cs.dropWhile fun c => c = ' ' || c = '\t')).map skipLines

/-- Text on one line up to the quote `q`; double quotes hold escapes. The text read before is given
backwards. -/
def line? (q : Char) : Nat → List Char → List Char → Option (String × List Char)
  | 0, _, _ => none
  | fuel + 1, before, cs => match cs with
    | [] => none
    | c :: rest =>
      if c = q then some (String.ofList before.reverse, rest)
      else if c = '\\' && q = '"' then do
        let (e, rest) ← escape? rest
        line? q fuel (e :: before) rest
      else if isPlain c then line? q fuel (c :: before) rest
      else none

/-- Text over several lines up to three quotes. One or two more quotes right before those belong to the
text. -/
def lines? (q : Char) : Nat → List Char → List Char → Option (String × List Char)
  | 0, _, _ => none
  | fuel + 1, before, cs => match cs with
    | [] => none
    | c :: rest =>
      if c = q then
        let quotes := (cs.takeWhile (· = q)).length
        if quotes < 3 then lines? q fuel (c :: before) rest
        else if quotes ≤ 5 then
          some (String.ofList (List.replicate (quotes - 3) q ++ before).reverse, cs.drop quotes)
        else none
      else if c = '\\' && q = '"' then
        match continued? rest with
        | some rest => lines? q fuel before rest
        | none => do
          let (e, rest) ← escape? rest
          lines? q fuel (e :: before) rest
      else match lineEnd? cs with
        | some rest => lines? q fuel ('\n' :: before) rest
        | none => if isPlain c then lines? q fuel (c :: before) rest else none

/-- The text that starts behind the quote `q`. A line end right behind three quotes does not count. -/
def read? (q : Char) (cs : List Char) : Option (String × List Char) :=
  if cs.take 2 = [q, q] then
    let body := cs.drop 2
    lines? q (body.length + 1) [] ((lineEnd? body).getD body)
  else line? q (cs.length + 1) [] cs

end PrototypeScan.Toml.Quoted
