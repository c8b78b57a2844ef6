import PrototypeScan.JavaScript.Grammar
import PrototypeScan.Grammar.Parse
import Std.Data.HashMap

/-!
The tokens of JavaScript that no pattern describes: semicolons that line ends stand for, the question
mark of a conditional, and the raw text of templates, markup and legacy comments. A character with
code zero counts as the end of the text, and blanks are those of ASCII.
-/
namespace PrototypeScan.JavaScript
open PrototypeScan.Grammar

def isBlank (c : Char) : Bool := (CharSet.ofRanges asciiBlanks).contains c

def isLineEnd (c : Char) : Bool := c = '\n' || c.toNat = 0x2028 || c.toNat = 0x2029

def isLetter (c : Char) : Bool := (CharSet.ofRanges letterRanges).contains c

def isEnd (c : Char) : Bool := c.toNat = 0

/-- Whether the text goes on with a character of a kind. -/
def continues (p : Char → Bool) : List Char → Bool
  | [] => false
  | c :: _ => p c

def ends (text : List Char) : Bool := text.isEmpty || continues isEnd text

/-- Where a scan of blanks and comments stands. -/
inductive Within where
  | blanks
  | slash
  | line
  | block (star : Bool)

/-- What follows blanks and comments, whether there was a comment, and whether a slash that starts no
comment stopped the scan. -/
structure Trivia where
  rest : List Char
  commented : Bool
  stopped : Bool

/-- Skips blanks and comments. -/
def skipTrivia : Within → Bool → List Char → Trivia
  | .blanks, commented, [] => ⟨[], commented, false⟩
  | .blanks, commented, c :: rest =>
    if isBlank c then skipTrivia .blanks commented rest
    else if c = '/' then skipTrivia .slash commented rest
    else ⟨c :: rest, commented, false⟩
  | .slash, commented, [] => ⟨[], commented, true⟩
  | .slash, commented, c :: rest =>
    if c = '/' then skipTrivia .line commented rest
    else if c = '*' then skipTrivia (.block false) commented rest
    else ⟨c :: rest, commented, true⟩
  | .line, _, [] => ⟨[], true, false⟩
  | .line, commented, c :: rest =>
    if c = '\n' then skipTrivia .blanks true rest
    else if isLineEnd c || isEnd c then ⟨c :: rest, true, false⟩
    else skipTrivia .line commented rest
  | .block _, commented, [] => ⟨[], commented, false⟩
  | .block star, commented, c :: rest =>
    if isEnd c then ⟨c :: rest, commented, false⟩
    else if star && c = '/' then skipTrivia .blanks true rest
    else skipTrivia (.block (c = '*')) commented rest

/-- Whether a line end stands for a semicolon where one could be, whether a comment was passed, and
where the scan stopped. -/
structure LineEnd where
  semicolon : Bool
  commented : Bool
  rest : List Char

/-- Whether a line that starts with this text starts a statement of its own: not if it goes on with an
operator or a bracket. -/
def startsStatement : List Char → Bool × List Char
  | [] => (true, [])
  | '.' :: rest => (continues Char.isDigit rest, rest)
  | '+' :: rest => (continues (· = '+') rest, rest)
  | '-' :: rest => (continues (· = '-') rest, rest)
  | '!' :: rest => (!continues (· = '=') rest, rest)
  | 'i' :: 'n' :: rest =>
    if continues isLetter rest then
      let more := "stanceof".toList
      if more.isPrefixOf rest then (continues isLetter (rest.drop more.length), rest.drop more.length)
      else (true, rest)
    else (false, rest)
  | c :: rest => (!"\x60,:;*%><=[(?^|&/".toList.contains c, c :: rest)

/-- The line end has been read. -/
def afterLineEnd (commented : Bool) (text : List Char) : LineEnd :=
  let t := skipTrivia .blanks commented text
  if t.stopped then ⟨false, t.commented, t.rest⟩
  else
    let (starts, rest) := startsStatement t.rest
    ⟨starts, t.commented, rest⟩

/-- What a comment, or a run of comments, says once it has been read: behind one that ends its line a
semicolon stands if `commentCounts`, unless a comma or an equals sign follows; a closing brace and a
line end are as without it. -/
def afterComment (commentCounts : Bool) : List Char → LineEnd
  | [] => ⟨commentCounts, true, []⟩
  | c :: rest =>
    if commentCounts && !(c = ',' || c = '=') then ⟨true, true, c :: rest⟩
    else if c = '}' then ⟨true, true, c :: rest⟩
    else if isLineEnd c then afterLineEnd true rest
    else ⟨false, true, c :: rest⟩

/-- Looks for the end of a line, a closing brace or the end of the text, over blanks and comments.
`outside` holds between comments, and `broken` once a block comment has held a line end. -/
def findLineEnd (commentCounts : Bool) : Bool → Within → Bool → Bool → List Char → LineEnd
  | true, _, _, commented, [] => ⟨true, commented, []⟩
  | true, _, _, commented, c :: rest =>
    if isEnd c || c = '}' then ⟨true, commented, c :: rest⟩
    else if c = '/' then findLineEnd commentCounts false .slash false commented rest
    else if isLineEnd c then afterLineEnd commented rest
    else if isBlank c then findLineEnd commentCounts true .blanks false commented rest
    else ⟨false, commented, c :: rest⟩
  | false, .slash, _, commented, [] => ⟨false, commented, []⟩
  | false, .slash, broken, commented, c :: rest =>
    if c = '/' then findLineEnd commentCounts false .line broken commented rest
    else if c = '*' then findLineEnd commentCounts false (.block false) broken commented rest
    else ⟨false, commented, c :: rest⟩
  | false, .line, _, _, [] => afterComment commentCounts []
  | false, .line, broken, commented, c :: rest =>
    if c = '\n' then findLineEnd commentCounts false .blanks broken true rest
    else if isLineEnd c || isEnd c then afterComment commentCounts (c :: rest)
    else findLineEnd commentCounts false .line broken commented rest
  | false, .blanks, _, _, [] => afterComment commentCounts []
  | false, .blanks, broken, commented, c :: rest =>
    if isBlank c then findLineEnd commentCounts false .blanks broken commented rest
    else if c = '/' then findLineEnd commentCounts false .slash broken commented rest
    else afterComment commentCounts (c :: rest)
  | false, .block _, _, commented, [] => ⟨commentCounts, commented, []⟩
  | false, .block star, broken, commented, c :: rest =>
    if isEnd c then ⟨commentCounts, commented, c :: rest⟩
    else if star && c = '/' then
      if continues (· = '/') rest then findLineEnd commentCounts false .blanks broken true rest
      else if broken && commentCounts && !continues (fun d => d = ',' || d = '=') rest then
        ⟨true, true, rest⟩
      else if ends rest then ⟨false, true, rest⟩
      else findLineEnd commentCounts true .blanks false true rest
    else findLineEnd commentCounts false (.block (c = '*')) (broken || isLineEnd c) commented rest

/-- What follows the question mark of a conditional, which neither a second one nor a member access
follows. -/
def questionMark (text : List Char) : Option (List Char) :=
  match text.dropWhile isBlank with
  | '?' :: rest => match rest with
    | '?' :: _ => none
    | '.' :: more => if continues Char.isDigit more then some rest else none
    | _ => some rest
  | _ => none

/-- How many characters of a template stand before a substitution, an escape or its end. -/
def templateRun (count : Nat) : List Char → Nat
  | [] => 0
  | '\x60' :: _ => count
  | '\\' :: _ => count
  | '$' :: '{' :: _ => count
  | c :: rest => if isEnd c then 0 else templateRun (count + 1) rest

/-- Text between markup tags: how many characters it has, and whether it counts. Blanks that begin a
line do not count, nor do line ends. -/
def markupRun (counts atLineStart : Bool) (count : Nat) : List Char → Nat × Bool × List Char
  | [] => (count, counts, [])
  | c :: rest =>
    if isEnd c || "<>\x7b\x7d&".toList.contains c then (count, counts, c :: rest)
    else if c = '\n' then markupRun counts true (count + 1) rest
    else
      let atLineStart := atLineStart && isBlank c
      markupRun (counts || !atLineStart) atLineStart (count + 1) rest

/-- A legacy comment up to the end of its line: how many blanks precede it, and its length. -/
def legacyComment (text : List Char) : Option (Nat × Nat) :=
  let blank (c : Char) : Bool := isBlank c || isLineEnd c
  let body := text.dropWhile blank
  let skipped := (text.takeWhile blank).length
  let line (opening : String) : Option (Nat × Nat) :=
    let o := opening.toList
    if o.isPrefixOf body then
      let length := ((body.drop o.length).takeWhile fun c => !(isLineEnd c || isEnd c)).length
      some (skipped, o.length + length)
    else none
  (line "<!--").orElse fun _ => line "-->"

/-- The terminals that this module reads or asks about. -/
structure Marks where
  semicolon : Nat
  templateChars : Nat
  question : Nat
  htmlComment : Nat
  logicalOr : Nat
  escape : Nat
  regexPattern : Nat
  markupText : Nat
  comment : Nat

def Marks.ofTables (g : Tables) : Marks :=
  let named (name : String) : Nat :=
    (g.symbols.tokens.findIdx? (·.name = name)).getD g.endOfText
  { semicolon := named "_automatic_semicolon"
    templateChars := named "_template_chars"
    question := named "_ternary_qmark"
    htmlComment := named "html_comment"
    logicalOr := (g.symbols.tokens.findIdx? (·.shape = .text "||")).getD g.endOfText
    escape := named "escape_sequence"
    regexPattern := named "regex_pattern"
    markupText := named "jsx_text"
    comment := named "comment" }

/-- The next token that no pattern describes: which one, how many characters precede it, and how many
it has. Legacy comments are tried where neither an operand has just ended nor a literal is open. -/
def layoutToken (m : Marks) (expected : Terminals) (text : List Char) : Option (Nat × Nat × Nat) :=
  let has := expected.contains
  let question (text' : List Char) : Option (Nat × Nat × Nat) :=
    (questionMark text').map fun rest => (m.question, text.length - rest.length - 1, 1)
  if has m.templateChars then
    let count := templateRun 0 text
    if has m.semicolon || count = 0 then none else some (m.templateChars, 0, count)
  else
    let (count, counts, here) :=
      if has m.markupText then markupRun false false 0 text else (0, false, text)
    if counts then some (m.markupText, 0, count)
    else if has m.semicolon then
      let found := findLineEnd (!has m.logicalOr) true .blanks false false here
      if found.semicolon then some (m.semicolon, 0, 0)
      else if !found.commented && has m.question && continues (· = '?') found.rest then
        question found.rest
      else none
    else if has m.question then question here
    else if !has m.logicalOr && !has m.escape && !has m.regexPattern then
      (legacyComment here).map fun found => (m.htmlComment, count + found.1, found.2)
    else none

/-- The keywords by their spelling: the literal tokens made of letters. -/
def keywords (g : Tables) : Std.HashMap String Nat :=
  (List.range g.symbols.tokens.size).foldl (fun words i =>
    match (g.symbols.tokens[i]?.map (·.shape) : Option Lexeme.Shape) with
    | some (.text s) => if s.toList.all isLetter then words.insert s i else words
    | _ => words) {}

/-- Reads the next lexeme of a JavaScript source. -/
def readLexeme (g : Tables) (m : Marks) (words : Std.HashMap String Nat) (expected : Terminals)
    (here : Point) (text : List Char) : Option Lexeme :=
  match layoutToken m expected text with
  | some (terminal, skipped, length) =>
    let start := here.afterAll (text.take skipped)
    let body := text.drop skipped
    some ⟨terminal, start, start.afterAll (body.take length), body.drop length, false⟩
  | none => Lexeme.read g blanks.contains [m.comment] (words[·]?) expected here text

def scanner (g : Tables) : Scanner :=
  let m := Marks.ofTables g
  let words := keywords g
  ⟨[m.comment, m.htmlComment], readLexeme g m words⟩

/-- The concrete tree of a source, if it has no syntax error. -/
def parse? (source : String) : Option Concrete :=
  Grammar.parse tables (scanner tables) source.toList

end PrototypeScan.JavaScript
