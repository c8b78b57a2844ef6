import PrototypeScan.Grammar.Phrase

/-!
The tokens of JavaScript that are more than a fixed spelling, and the characters that may stand
between tokens.
-/
namespace PrototypeScan.JavaScript
open Grammar Pattern

/-- The horizontal and vertical blanks of ASCII. -/
def asciiBlanks : List (Nat × Nat) := [(0x09, 0x0D), (0x20, 0x20)]

/-- Space separators. -/
def spaceSeparators : List (Nat × Nat) :=
  [(0x20, 0x20), (0xA0, 0xA0), (0x1680, 0x1680), (0x2000, 0x200A), (0x202F, 0x202F),
    (0x205F, 0x205F), (0x3000, 0x3000)]

/-- Marks without width that count as blanks, and the line and paragraph separators. -/
def invisibleMarks : List (Nat × Nat) :=
  [(0xFEFF, 0xFEFF), (0x2028, 0x2029), (0x2060, 0x2060), (0x200B, 0x200B)]

/-- The characters that may stand between tokens. -/
def blanks : CharSet := .ofRanges (asciiBlanks ++ spaceSeparators ++ invisibleMarks)

def digit : Pattern := range '0' '9'

def hexDigit : Pattern := one (.ofRanges [(0x30, 0x39), (0x41, 0x46), (0x61, 0x66)])

def octalDigit : Pattern := range '0' '7'

def letterRanges : List (Nat × Nat) := [(0x41, 0x5A), (0x61, 0x7A)]

/-- Digits with single underscores between them. -/
def grouped (d : Pattern) : Pattern := seq d (many (seq (maybe (text "_")) d))

def decimalDigits : Pattern := grouped digit

/-- Radix prefix, then grouped digits. -/
def radixLiteral (letters : String) (d : Pattern) : Pattern :=
  all [text "0", oneOf letters, grouped d]

def exponentPart : Pattern := all [oneOf "eE", maybe (oneOf "+-"), decimalDigits]

/-- A decimal integer part: zero, or digits of which the first or the second is no zero. -/
def decimalInteger : Pattern :=
  either (text "0")
    (all [maybe (text "0"), range '1' '9', maybe (seq (maybe (text "_")) decimalDigits)])

def numberPattern : Pattern :=
  let hex := radixLiteral "xX" hexDigit
  let binary := radixLiteral "bB" (range '0' '1')
  let octal := radixLiteral "oO" octalDigit
  oneAmong hex [
    all [decimalInteger, text ".", maybe decimalDigits, maybe exponentPart],
    all [text ".", decimalDigits, maybe exponentPart],
    seq decimalInteger exponentPart,
    decimalDigits, binary, octal,
    seq (oneAmong hex [binary, octal, decimalDigits]) (text "n")]

/-- ASCII characters that end an identifier, besides blanks and control characters. -/
def punctuation : String := ":;\x60\"'@#.,|^&<=>+-*/\\%?!~()[]\x7b\x7d"

/-- What no identifier holds. -/
def notInIdentifier : List (Nat × Nat) :=
  (0x00, 0x1F) :: (asciiBlanks ++ spaceSeparators ++ invisibleMarks ++ CharSet.points punctuation)

/-- A character given by its code in an identifier. -/
def identifierEscape : Pattern :=
  either (seq (text "\\u") (repeated hexDigit 4 0))
    (all [text "\\u\x7b", oneOrMore hexDigit, text "\x7d"])

def identifierPattern : Pattern :=
  seq (either (one (.outside ((0x30, 0x39) :: notInIdentifier))) identifierEscape)
    (many (either (one (.outside notInIdentifier)) identifierEscape))

/-- A run of characters inside of quotes, without escapes and line ends. -/
def quotedRun (quote : String) : Pattern := oneOrMore (noneOf (quote ++ "\\\r\n"))

/-- A run of characters in a markup attribute: an ampersand is part of it unless it starts a character
reference. -/
def attributeRun (quote : String) : Pattern :=
  oneOrMore (either (noneOf (quote ++ "&"))
    (seq (text "&") (one (.outside ((0x23, 0x23) :: letterRanges)))))

def escapePattern : Pattern :=
  seq (text "\\") (oneAmong (noneOf "xu01234567") [
    repeated octalDigit 1 2,
    seq (text "x") (repeated hexDigit 2 0),
    seq (text "u") (repeated hexDigit 4 0),
    all [text "u\x7b", oneOrMore hexDigit, text "\x7d"],
    seq (oneOf "\r?") (one (.ofRanges [(0x0A, 0x0A), (0x2028, 0x2029)]))])

def commentPattern : Pattern :=
  either
    (seq (text "//") (many (one (.outside [(0x0A, 0x0A), (0x0D, 0x0D), (0x2028, 0x2029)]))))
    (all [text "/*", many (noneOf "*"), oneOrMore (text "*"),
      many (all [noneOf "/*", many (noneOf "*"), oneOrMore (text "*")]), text "/"])

/-- The body of a regular expression: a slash ends it only outside of square brackets. -/
def regexPattern : Pattern :=
  let escaped := seq (text "\\") (noneOf "\n")
  oneOrMore (oneAmong
    (all [text "[", many (either escaped (noneOf "]\n\\")), text "]"])
    [escaped, noneOf "/\\[\n"])

/-- A character reference by name or number. -/
def referencePattern : Pattern :=
  all [text "&",
    either
      (seq (text "#") (either (seq (oneOf "xX") (repeated hexDigit 1 5)) (repeated digit 1 4)))
      (repeated (one (.ofRanges letterRanges)) 1 29),
    text ";"]

/-- A name with a hyphen in it, as markup has them. -/
def hyphenatedPattern : Pattern :=
  let head := one (.ofRanges (letterRanges ++ CharSet.points "_$"))
  let tail := (0x30, 0x39) :: letterRanges ++ CharSet.points "_$"
  all [head, many (one (.ofRanges tail)), text "-",
    many (one (.ofRanges ((0x2D, 0x2D) :: tail)))]

/-- The word pair that opens a static accessor whose name is on the next line. -/
def staticGetPattern : Pattern :=
  let blank := one (.ofRanges asciiBlanks)
  all [text "static", oneOrMore blank, text "get", many blank, text "\n"]

/-- The named tokens. Those that begin with an underscore and the end of a regular expression make no
node. -/
def tokens : List Token := [
  .visible "hash_bang_line" (.pattern (seq (text "#!") (many (noneOf "\n")))),
  .visible "optional_chain" (.text "?."),
  .visible "html_character_reference" (.pattern referencePattern),
  .visible "jsx_identifier" (.pattern hyphenatedPattern),
  .visible "unescaped_double_jsx_string_fragment" (.adjacent (attributeRun "\"") 1),
  .visible "unescaped_single_jsx_string_fragment" (.adjacent (attributeRun "'") 1),
  .visible "unescaped_double_string_fragment" (.adjacent (quotedRun "\"") 1),
  .visible "unescaped_single_string_fragment" (.adjacent (quotedRun "'") 1),
  .visible "escape_sequence" (.adjacent escapePattern 0),
  .visible "comment" (.pattern commentPattern),
  .silent "regex_end" (.adjacent (text "/") 1),
  .visible "regex_pattern" (.adjacent regexPattern (-1)),
  .visible "regex_flags" (.adjacent (oneOrMore (range 'a' 'z')) 0),
  .visible "number" (.pattern numberPattern),
  .visible "identifier" (.pattern identifierPattern),
  .visible "private_property_identifier" (.pattern (seq (text "#") identifierPattern)),
  .visible "this" (.text "this"),
  .visible "super" (.text "super"),
  .visible "true" (.text "true"),
  .visible "false" (.text "false"),
  .visible "null" (.text "null"),
  .visible "undefined" (.text "undefined"),
  .silent "static_get" (.pattern staticGetPattern),
  .silent "_automatic_semicolon" .scanned,
  .silent "_template_chars" .scanned,
  .silent "_ternary_qmark" .scanned,
  .visible "html_comment" .scanned,
  .visible "jsx_text" .scanned]

end PrototypeScan.JavaScript
