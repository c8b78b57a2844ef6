import PrototypeScan.Number.Decimal

/-!
The text that a quoted literal stands for. An escape that is cut short or out of range stands for its
letter, a code that is no character for the replacement character, and a line break behind a backslash
for nothing.
-/
namespace PrototypeScan.JavaScript.Quoted

def replacement : Char := Char.ofNat 0xFFFD

/-- The character of a code, or the replacement character. -/
def charOf (code : Nat) : Char := if code.isValidChar then Char.ofNat code else replacement

/-- The value of the first `count` characters, if they are all there and are hexadecimal digits. -/
def fixedHex (count : Nat) (text : List Char) : Option (Nat × List Char) :=
  let digits := text.take count
  if digits.length = count then
    (Decimal.ofDigits 16 digits).map fun code => (code, text.drop count)
  else none

/-- A code in braces, up to 32 bits; a plus sign may precede its digits. -/
def bracedHex (text : List Char) : Option (Nat × List Char) :=
  let digits := text.takeWhile (· ≠ '}')
  let unsigned := match digits with
    | '+' :: ds => ds
    | ds => ds
  ((Decimal.ofDigits 16 unsigned).filter (· < twoTo 32)).map fun code =>
    (code, (text.dropWhile (· ≠ '}')).drop 1)

def isHighSurrogate (code : Nat) : Bool := 0xD800 ≤ code && code < 0xDC00

def isLowSurrogate (code : Nat) : Bool := 0xDC00 ≤ code && code < 0xE000

/-- The second half of a surrogate pair, written as an escape of its own. -/
def lowSurrogate (text : List Char) : Option (Nat × List Char) :=
  match text with
  | '\\' :: 'u' :: rest => (fixedHex 4 rest).filter (isLowSurrogate ·.1)
  | _ => none

/-- What follows `\u`: the character and the rest. -/
def unicodeEscape (text : List Char) : Char × List Char :=
  match text with
  | '{' :: braced => match bracedHex braced with
    | some (code, rest) => (charOf code, rest)
    | none => ('u', text)
  | _ => match fixedHex 4 text with
    | none => ('u', text)
    | some (high, rest) =>
      if isHighSurrogate high then
        match lowSurrogate rest with
        | some (low, rest') => (charOf (0x10000 + (high - 0xD800) * 0x400 + (low - 0xDC00)), rest')
        | none => (charOf high, rest)
      else (charOf high, rest)

/-- The line breaks that one character makes, besides a carriage return. -/
def isLineBreak (c : Char) : Bool := c = '\n' || c.toNat = 0x2028 || c.toNat = 0x2029

/-- What a backslash and the character `e` stand for, and the rest of the text. -/
def escape (e : Char) (text : List Char) : List Char × List Char :=
  match e with
  | 'n' => (['\n'], text)
  | 't' => (['\t'], text)
  | 'r' => (['\r'], text)
  | 'b' => ([Char.ofNat 8], text)
  | 'f' => ([Char.ofNat 12], text)
  | 'v' => ([Char.ofNat 11], text)
  | '0' => ([if text.head?.any Char.isDigit then '0' else Char.ofNat 0], text)
  | 'x' => match fixedHex 2 text with
    | some (code, rest) => ([charOf code], rest)
    | none => (['x'], text)
  | 'u' => ([(unicodeEscape text).1], (unicodeEscape text).2)
  | '\r' => ([], if text.head? = some '\n' then text.drop 1 else text)
  | _ => (if isLineBreak e then [] else [e], text)

theorem length_fixedHex {count code : Nat} {text rest : List Char}
    (h : fixedHex count text = some (code, rest)) : rest.length ≤ text.length := by
  simp only [fixedHex] at h
  split at h
  · simp only [Option.map_eq_some_iff, Prod.mk.injEq] at h
    obtain ⟨_, _, _, rfl⟩ := h
    simp
  · cases h

theorem length_bracedHex {code : Nat} {text rest : List Char}
    (h : bracedHex text = some (code, rest)) : rest.length ≤ text.length := by
  simp only [bracedHex, Option.map_eq_some_iff, Prod.mk.injEq] at h
  obtain ⟨_, _, _, rfl⟩ := h
  have := (List.dropWhile_sublist (l := text) (· ≠ '}')).length_le
  simp only [List.length_drop]
  omega

theorem length_lowSurrogate {code : Nat} {text rest : List Char}
    (h : lowSurrogate text = some (code, rest)) : rest.length ≤ text.length := by
  unfold lowSurrogate at h
  split at h
  · obtain ⟨h, _⟩ := Option.filter_eq_some_iff.1 h
    have := length_fixedHex h
    simp only [List.length_cons]
    omega
  · cases h

theorem length_unicodeEscape (text : List Char) : (unicodeEscape text).2.length ≤ text.length := by
  unfold unicodeEscape
  split
  · split
    · next h => simpa using Nat.le_succ_of_le (length_bracedHex h)
    · simp
  · split
    · simp
    · next h =>
      have := length_fixedHex h
      split
      · split
        · next h' => exact Nat.le_trans (length_lowSurrogate h') this
        · exact this
      · exact this

theorem length_escape (e : Char) (text : List Char) : (escape e text).2.length ≤ text.length := by
  have := length_unicodeEscape text
  unfold escape
  split <;> try exact Nat.le_refl _
  · split
    · next h => exact length_fixedHex h
    · exact Nat.le_refl _
  · exact this
  · dsimp only
    split <;> simp

/-- The text of a literal's body. A backslash at its end stands for nothing. -/
def decodeBody (text : List Char) : List Char :=
  match text with
  | [] => []
  | c :: rest =>
    if c = '\\' then
      match rest with
      | [] => []
      | e :: more => (escape e more).1 ++ decodeBody (escape e more).2
    else c :: decodeBody rest
termination_by text.length
decreasing_by
  · have := length_escape e more
    simp only [List.length_cons]
    omega
  · simp

theorem decodeBody_cons {c : Char} (hc : c ≠ '\\') (text : List Char) :
    decodeBody (c :: text) = c :: decodeBody text := by
  rw [decodeBody.eq_def]
  exact if_neg hc

theorem decodeBody_escape (e : Char) (text : List Char) :
    decodeBody ('\\' :: e :: text) = (escape e text).1 ++ decodeBody (escape e text).2 := by
  rw [decodeBody.eq_def]
  exact if_pos rfl

/-- The body of a literal: what stands between its quotes. -/
def body (raw : List Char) : List Char :=
  match raw with
  | [] => []
  | quote :: rest => if rest.getLast? = some quote then rest.dropLast else rest

theorem body_quoted (quote : Char) (text : List Char) : body (quote :: (text ++ [quote])) = text := by
  rw [body, List.getLast?_concat, if_pos rfl, List.dropLast_concat]

/-- The text that a quoted literal stands for. -/
def decode (raw : String) : String := String.ofList (decodeBody (body raw.toList))

end PrototypeScan.JavaScript.Quoted
