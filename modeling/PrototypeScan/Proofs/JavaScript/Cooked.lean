import PrototypeScan.JavaScript.Literal.Quoted
import PrototypeScan.Proofs.Number.Numeral

/-!
A text can be written between quotes in many ways: each character as it is, behind a backslash, or by its
code, with line breaks behind backslashes anywhere. In every way that does not need octal digits, the
literal stands for the text.
-/
namespace PrototypeScan.JavaScript.Quoted
open Decimal

/-- The letters that stand for another character behind a backslash. -/
def letterEscapes : List (Char × Char) :=
  [('n', '\n'), ('t', '\t'), ('r', '\r'), ('b', '\x08'), ('f', '\x0c'), ('v', '\x0b')]

/-- What ends a line; behind a backslash it stands for nothing. -/
def lineBreaks : List (List Char) := [['\n'], ['\r', '\n'], ['\r'], ['\u2028'], ['\u2029']]

/-- A character that stands for itself behind a backslash. -/
structure IsPlainEscape (c : Char) : Prop where
  not_letter : c ∉ letterEscapes.map (·.1)
  not_code : c ≠ 'x' ∧ c ≠ 'u'
  not_digit : c.isDigit = false
  not_break : [c] ∉ lineBreaks

/-- The ways to write a text between quotes. -/
inductive Spells (quote : Char) : List Char → List Char → Prop
  | nil : Spells quote [] []
  | raw (c : Char) {text value : List Char} : c ∉ [quote, '\\', '\r', '\n'] →
      Spells quote text value → Spells quote (c :: text) (c :: value)
  | letter (e c : Char) {text value : List Char} : (e, c) ∈ letterEscapes →
      Spells quote text value → Spells quote ('\\' :: e :: text) (c :: value)
  | zero {text value : List Char} : text.head?.any Char.isDigit = false →
      Spells quote text value → Spells quote ('\\' :: '0' :: text) ('\x00' :: value)
  | itself (c : Char) {text value : List Char} : IsPlainEscape c →
      Spells quote text value → Spells quote ('\\' :: c :: text) (c :: value)
  | byte (digits : List Char) (c : Char) {text value : List Char} : digits.length = 2 →
      Numeral 16 digits c.toNat → Spells quote text value →
      Spells quote ('\\' :: 'x' :: (digits ++ text)) (c :: value)
  | unit (digits : List Char) (c : Char) {text value : List Char} : digits.length = 4 →
      Numeral 16 digits c.toNat → Spells quote text value →
      Spells quote ('\\' :: 'u' :: (digits ++ text)) (c :: value)
  | braced (digits : List Char) (c : Char) {text value : List Char} : Numeral 16 digits c.toNat →
      Spells quote text value → Spells quote ('\\' :: 'u' :: '{' :: (digits ++ '}' :: text)) (c :: value)
  | pair (highDigits lowDigits : List Char) (high low : Nat) (c : Char) {text value : List Char} :
      highDigits.length = 4 → Numeral 16 highDigits high → 0xD800 ≤ high ∧ high < 0xDC00 →
      lowDigits.length = 4 → Numeral 16 lowDigits low → 0xDC00 ≤ low ∧ low < 0xE000 →
      c.toNat = 0x10000 + (high - 0xD800) * 0x400 + (low - 0xDC00) → Spells quote text value →
      Spells quote ('\\' :: 'u' :: (highDigits ++ '\\' :: 'u' :: (lowDigits ++ text))) (c :: value)
  | continued (lineBreak : List Char) {text value : List Char} : lineBreak ∈ lineBreaks →
      Spells quote text value → Spells quote ('\\' :: (lineBreak ++ text)) value

/-! Codes of characters. -/

theorem charOf_toNat (c : Char) : charOf c.toNat = c := by
  have hvalid : c.toNat.isValidChar := c.valid
  rw [charOf, if_pos hvalid, Char.ofNat_toNat]

theorem toNat_lt_twoTo (c : Char) : c.toNat < twoTo 32 := c.val.toNat_lt

theorem isHighSurrogate_toNat (c : Char) : isHighSurrogate c.toNat = false := by
  have hvalid : c.toNat < 0xD800 ∨ 0xDFFF < c.toNat ∧ c.toNat < 0x110000 := c.valid
  simp only [isHighSurrogate, Bool.and_eq_false_iff, decide_eq_false_iff_not]
  omega

theorem fixedHex_append {digits : List Char} {code count : Nat} (h : Numeral 16 digits code)
    (hcount : digits.length = count) (text : List Char) :
    fixedHex count (digits ++ text) = some (code, text) := by
  subst hcount
  simp only [fixedHex, List.take_left, List.drop_left, h.ofDigits_eq, if_true, Option.map_some]

theorem bracedHex_append {digits : List Char} {code : Nat} (h : Numeral 16 digits code)
    (hcode : code < twoTo 32) (text : List Char) :
    bracedHex (digits ++ '}' :: text) = some (code, text) := by
  have hclose : ∀ c ∈ digits, (decide (c ≠ '}')) = true := by
    intro c hc
    rw [decide_eq_true_iff]
    rintro rfl
    exact h.digitValue_ne_none hc rfl
  have htake : (digits ++ '}' :: text).takeWhile (fun c => decide (c ≠ '}')) = digits := by
    rw [List.takeWhile_append_of_pos hclose]
    simp
  have hdrop : (digits ++ '}' :: text).dropWhile (fun c => decide (c ≠ '}')) = '}' :: text := by
    rw [List.dropWhile_append_of_pos hclose]
    simp
  simp only [bracedHex, htake, hdrop]
  split
  · exact absurd rfl (h.digitValue_ne_none List.mem_cons_self)
  · simp [h.ofDigits_eq, hcode]

/-- Digits are no brace, so a code that starts with one has four of them. -/
theorem unicodeEscape_append {digits : List Char} {code : Nat} (h : Numeral 16 digits code)
    (hlength : digits.length = 4) (text : List Char) :
    unicodeEscape (digits ++ text) =
      if isHighSurrogate code then
        ((lowSurrogate text).map fun low =>
          (charOf (0x10000 + (code - 0xD800) * 0x400 + (low.1 - 0xDC00)), low.2)).getD (charOf code, text)
      else (charOf code, text) := by
  unfold unicodeEscape
  split
  · next braced hbrace =>
    obtain ⟨d, ds, rfl⟩ := List.exists_cons_of_ne_nil h.ne_nil
    obtain ⟨rfl, -⟩ := List.cons.inj hbrace
    exact absurd rfl (h.digitValue_ne_none List.mem_cons_self)
  · rw [fixedHex_append h hlength]
    cases hlow : lowSurrogate text <;> simp [hlow]

theorem lowSurrogate_append {digits : List Char} {low : Nat} (h : Numeral 16 digits low)
    (hlength : digits.length = 4) (hlow : 0xDC00 ≤ low ∧ low < 0xE000) (text : List Char) :
    lowSurrogate ('\\' :: 'u' :: (digits ++ text)) = some (low, text) := by
  have hsurrogate : isLowSurrogate low = true := by simpa [isLowSurrogate] using hlow
  rw [lowSurrogate, fixedHex_append h hlength]
  simp [hsurrogate]

/-! The escapes one by one. -/

theorem escape_letter {e c : Char} (h : (e, c) ∈ letterEscapes) (text : List Char) :
    escape e text = ([c], text) := by
  simp only [letterEscapes, List.mem_cons, Prod.mk.injEq, List.not_mem_nil, or_false] at h
  rcases h with ⟨rfl, rfl⟩ | ⟨rfl, rfl⟩ | ⟨rfl, rfl⟩ | ⟨rfl, rfl⟩ | ⟨rfl, rfl⟩ | ⟨rfl, rfl⟩ <;> rfl

theorem escape_zero {text : List Char} (h : text.head?.any Char.isDigit = false) :
    escape '0' text = (['\x00'], text) := by
  rw [escape, h]
  rfl

theorem escape_itself {c : Char} (h : IsPlainEscape c) (text : List Char) : escape c text = ([c], text) := by
  have hletter := h.not_letter
  have hbreak := h.not_break
  simp only [letterEscapes, List.map_cons, List.map_nil, List.mem_cons, List.not_mem_nil, or_false,
    not_or] at hletter
  simp only [lineBreaks, List.mem_cons, List.cons.injEq, and_true, List.not_mem_nil, or_false,
    not_or] at hbreak
  have hline : isLineBreak c = false := by
    have hcodes : ∀ d : Char, c ≠ d → c.toNat ≠ d.toNat := fun d hd heq => hd (Char.toNat_inj.1 heq)
    have hls := hcodes '\u2028' hbreak.2.2.2.1
    have hps := hcodes '\u2029' hbreak.2.2.2.2
    simp only [isLineBreak, Bool.or_eq_false_iff, decide_eq_false_iff_not]
    exact ⟨⟨hbreak.1, hls⟩, hps⟩
  unfold escape
  split
  · exact absurd rfl hletter.1
  · exact absurd rfl hletter.2.1
  · exact absurd rfl hletter.2.2.1
  · exact absurd rfl hletter.2.2.2.1
  · exact absurd rfl hletter.2.2.2.2.1
  · exact absurd rfl hletter.2.2.2.2.2
  · exact absurd h.not_digit (by decide)
  · exact absurd rfl h.not_code.1
  · exact absurd rfl h.not_code.2
  · exact absurd rfl hbreak.2.2.1
  · rw [hline]
    rfl

theorem escape_byte {digits : List Char} {c : Char} (h : Numeral 16 digits c.toNat)
    (hlength : digits.length = 2) (text : List Char) : escape 'x' (digits ++ text) = ([c], text) := by
  rw [escape, fixedHex_append h hlength]
  simp only [charOf_toNat]

theorem escape_unicode {text rest : List Char} {c : Char} (h : unicodeEscape text = (c, rest)) :
    escape 'u' text = ([c], rest) := by
  rw [escape, h]

theorem unicodeEscape_unit {digits : List Char} {c : Char} (h : Numeral 16 digits c.toNat)
    (hlength : digits.length = 4) (text : List Char) : unicodeEscape (digits ++ text) = (c, text) := by
  rw [unicodeEscape_append h hlength, isHighSurrogate_toNat, charOf_toNat]
  rfl

theorem unicodeEscape_braced {digits : List Char} {c : Char} (h : Numeral 16 digits c.toNat)
    (text : List Char) : unicodeEscape ('{' :: (digits ++ '}' :: text)) = (c, text) := by
  have hcode : bracedHex (digits ++ '}' :: text) = some (c.toNat, text) :=
    bracedHex_append h (toNat_lt_twoTo c) text
  rw [unicodeEscape, hcode]
  simp only [charOf_toNat]

theorem unicodeEscape_pair {highDigits lowDigits : List Char} {high low : Nat} {c : Char}
    (hhigh : Numeral 16 highDigits high) (hhighLength : highDigits.length = 4)
    (hhighRange : 0xD800 ≤ high ∧ high < 0xDC00) (hlow : Numeral 16 lowDigits low)
    (hlowLength : lowDigits.length = 4) (hlowRange : 0xDC00 ≤ low ∧ low < 0xE000)
    (hc : c.toNat = 0x10000 + (high - 0xD800) * 0x400 + (low - 0xDC00)) (text : List Char) :
    unicodeEscape (highDigits ++ '\\' :: 'u' :: (lowDigits ++ text)) = (c, text) := by
  have hsurrogate : isHighSurrogate high = true := by simpa [isHighSurrogate] using hhighRange
  rw [unicodeEscape_append hhigh hhighLength, lowSurrogate_append hlow hlowLength hlowRange, hsurrogate,
    if_pos rfl, Option.map_some, Option.getD_some, ← hc, charOf_toNat]

/-- A break is read whole, also where a carriage return alone makes it, as no line feed follows that. -/
theorem decodeBody_continued {lineBreak text : List Char} (h : lineBreak ∈ lineBreaks)
    (htext : text.head? ≠ some '\n') : decodeBody ('\\' :: (lineBreak ++ text)) = decodeBody text := by
  simp only [lineBreaks, List.mem_cons, List.not_mem_nil, or_false] at h
  rcases h with rfl | rfl | rfl | rfl | rfl
  · exact decodeBody_escape '\n' text
  · exact decodeBody_escape '\r' ('\n' :: text)
  · have hreturn : escape '\r' text = ([], text) := by rw [escape, if_neg htext]
    rw [List.singleton_append, decodeBody_escape, hreturn, List.nil_append]
  · exact decodeBody_escape '\u2028' text
  · exact decodeBody_escape '\u2029' text

theorem Spells.head?_ne {quote : Char} {text value : List Char} (h : Spells quote text value) :
    text.head? ≠ some '\n' := by
  cases h with
  | nil => simp
  | raw c hc =>
    intro heq
    obtain rfl := Option.some.inj heq
    simp at hc
  | _ => simp

theorem Spells.decodeBody_eq {quote : Char} {text value : List Char} (h : Spells quote text value) :
    decodeBody text = value := by
  induction h with
  | nil => rw [decodeBody]
  | raw c hc _ ih =>
    have hescape : c ≠ '\\' := by
      rintro rfl
      simp at hc
    rw [decodeBody_cons hescape, ih]
  | letter e c hc _ ih => rw [decodeBody_escape, escape_letter hc, ih, List.singleton_append]
  | zero hnext _ ih => rw [decodeBody_escape, escape_zero hnext, ih, List.singleton_append]
  | itself c hc _ ih => rw [decodeBody_escape, escape_itself hc, ih, List.singleton_append]
  | byte digits c hlength hc _ ih =>
    rw [decodeBody_escape, escape_byte hc hlength, ih, List.singleton_append]
  | unit digits c hlength hc _ ih =>
    rw [decodeBody_escape, escape_unicode (unicodeEscape_unit hc hlength _), ih, List.singleton_append]
  | braced digits c hc _ ih =>
    rw [decodeBody_escape, escape_unicode (unicodeEscape_braced hc _), ih, List.singleton_append]
  | pair highDigits lowDigits high low c hhighLength hhigh hhighRange hlowLength hlow hlowRange hc _ ih =>
    have hpair := unicodeEscape_pair hhigh hhighLength hhighRange hlow hlowLength hlowRange hc
    rw [decodeBody_escape, escape_unicode (hpair _), ih, List.singleton_append]
  | continued lineBreak hbreak htext ih => rw [decodeBody_continued hbreak htext.head?_ne, ih]

/-- A literal stands for the text that it spells, in whatever way its characters are written. -/
theorem decode_spelled {quote : Char} {text value : List Char} (h : Spells quote text value) :
    decode (String.ofList (quote :: (text ++ [quote]))) = String.ofList value := by
  rw [decode, String.toList_ofList, body_quoted, h.decodeBody_eq]

/-! One text with codes in several notations, a letter behind a backslash, a line continued behind a lone
carriage return, a surrogate pair, and a zero in front of an escape that stands for a digit. -/

def mixedBody : List Char := "\\x5F\\u\x7b005f\x7d\\q\\\rp\\ud83D\\uDE00\\0\\u0031\\'".toList

def mixedText : List Char := "__qp😀\x001'".toList

theorem decode_spelled_mixed : Spells '\'' mixedBody mixedText ∧
    decode (String.ofList ('\'' :: (mixedBody ++ ['\'']))) = String.ofList mixedText := by
  have hquote : Spells '\'' ['\\', '\''] ['\''] := .itself '\'' ⟨by decide, by decide, by decide, by decide⟩ .nil
  have hzero : Spells '\'' "\\0\\u0031\\'".toList ['\x00', '1', '\''] :=
    .zero (by decide) <|
    .unit ['0', '0', '3', '1'] '1' rfl ⟨by decide, [0, 0, 3, 1], by decide, by decide, by decide⟩ hquote
  have hpair : Spells '\'' "\\ud83D\\uDE00\\0\\u0031\\'".toList ['😀', '\x00', '1', '\''] :=
    .pair ['d', '8', '3', 'D'] ['D', 'E', '0', '0'] 0xD83D 0xDE00 '😀'
      rfl ⟨by decide, [13, 8, 3, 13], by decide, by decide, by decide⟩ (by decide)
      rfl ⟨by decide, [13, 14, 0, 0], by decide, by decide, by decide⟩ (by decide) (by decide) hzero
  have hmixed : Spells '\'' mixedBody mixedText :=
    .byte ['5', 'F'] '_' rfl ⟨by decide, [5, 15], by decide, by decide, by decide⟩ <|
    .braced ['0', '0', '5', 'f'] '_' ⟨by decide, [0, 0, 5, 15], by decide, by decide, by decide⟩ <|
    .itself 'q' ⟨by decide, by decide, by decide, by decide⟩ <|
    .continued ['\r'] (by decide) <|
    .raw 'p' (by decide) hpair
  exact ⟨hmixed, decode_spelled hmixed⟩

end PrototypeScan.JavaScript.Quoted
