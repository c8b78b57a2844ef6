import Mathlib.Data.Nat.Digits.Defs
import PrototypeScan.Json.Reader
import PrototypeScan.Json.Writer

/-!
Strings and natural numbers that are written as JSON are read back as they were, whatever text follows, and
the place where reading stops is behind them.
-/
namespace PrototypeScan.Json
open Text

@[simp] theorem is_char (c d : Char) : (Piece.char c).is d = decide (c = d) := by
  simp [Piece.is]

/-- The characters that stand for nothing between tokens. -/
def IsBlank (text : List Char) : Prop := ∀ c ∈ text, Cursor.isSpace (.char c) = true

/-- A text whose first character, if it has one, is no space. -/
def StartsDense (text : List Char) : Prop := ∀ c ∈ text.head?, Cursor.isSpace (.char c) = false

namespace Cursor

/-- That `text` is what is left from a place on. -/
def At (k : Cursor) (text : List Char) : Prop := k.rest = text.map .char

theorem At.next {k : Cursor} {c : Char} {text : List Char} (h : k.At (c :: text)) : k.next.At text := by
  have hrest : k.rest = .char c :: text.map .char := h
  simp only [Cursor.next, hrest, pass, At]
  split <;> rfl

theorem At.peek {k : Cursor} {text : List Char} (h : k.At text) : k.peek = text.head? := by
  have hrest : k.rest = text.map .char := h
  cases text <;> simp [Cursor.peek, hrest]

theorem at_skipFrom {blank text : List Char} (hblank : IsBlank blank) (htext : StartsDense text)
    (line column : Nat) : (skipFrom line column ((blank ++ text).map .char)).At text := by
  induction blank generalizing line column with
  | nil =>
    cases text with
    | nil => rfl
    | cons c text =>
      have hc : isSpace (.char c) = false := htext c rfl
      simp only [List.nil_append, List.map_cons, skipFrom, hc]
      rfl
  | cons b blank ih =>
    have hb : isSpace (.char b) = true := hblank b List.mem_cons_self
    have hrest : IsBlank blank := fun c hc => hblank c (List.mem_cons_of_mem _ hc)
    simp only [List.cons_append, List.map_cons, skipFrom, hb, if_true]
    split
    · exact ih hrest _ _
    · exact ih hrest _ _

theorem At.skipSpace {k : Cursor} {blank text : List Char} (h : k.At (blank ++ text)) (hblank : IsBlank blank)
    (htext : StartsDense text) : k.skipSpace.At text := by
  have hrest : k.rest = (blank ++ text).map .char := h
  rw [Cursor.skipSpace, hrest]
  exact at_skipFrom hblank htext _ _

theorem At.skipSpace_eq {k : Cursor} {text : List Char} (h : k.At text) (htext : StartsDense text) :
    k.skipSpace = k := by
  have hrest : k.rest = text.map .char := h
  cases text with
  | nil =>
    rw [Cursor.skipSpace, hrest, List.map_nil, skipFrom, ← List.map_nil (f := Piece.char), ← hrest]
  | cons c text =>
    have hc : isSpace (.char c) = false := htext c rfl
    simp only [Cursor.skipSpace, hrest, List.map_cons, skipFrom, hc, Bool.false_eq_true, if_false]
    rw [← List.map_cons, ← hrest]

end Cursor

/-! Strings. -/
namespace Quoted

theorem hexValue_hexDigit : ∀ n < 16, hexValue (hexDigit n) = some n := by decide

theorem size_hexDigit : ∀ n < 16, (Piece.char (hexDigit n)).size = 1 := by decide

/-- That reading goes on with `rest` in a state, from some place. -/
def Continues (state : State) (latest : List Char) (rest : List Piece) (result : Except Error (String × Cursor)) :
    Prop :=
  ∃ line column, result = readFrom state ⟨latest, none⟩ line column rest

variable {latest : List Char} {line column : Nat} {rest : List Piece}

theorem continues_plain {c : Char} (hquote : c ≠ '"') (hescape : c ≠ '\\') (hcontrol : isControl c = false) :
    Continues .plain (c :: latest) rest (readFrom .plain ⟨latest, none⟩ line column (.char c :: rest)) := by
  simp only [readFrom, hquote, hescape, hcontrol, if_false, Bool.false_eq_true]
  exact ⟨_, _, rfl⟩

theorem continues_letter {e c : Char} (he : escaped? e = some c) (hcode : e ≠ 'u') :
    Continues .plain (c :: latest) rest
      (readFrom .plain ⟨latest, none⟩ line column (.char '\\' :: .char e :: rest)) := by
  simp only [readFrom, he, hcode, if_false, if_true, Char.reduceEq]
  exact ⟨_, _, rfl⟩

theorem continues_digit (n value bytes : Nat) (hn : n < 16) (hbytes : bytes + 1 < 4) :
    Continues (.code none (value * 16 + n) (bytes + 1) true) latest rest
      (readFrom (.code none value bytes true) ⟨latest, none⟩ line column (.char (hexDigit n) :: rest)) := by
  have hdigit := hexValue_hexDigit n hn
  have hsize := size_hexDigit n hn
  simp only [readFrom, hdigit, hsize, hbytes, if_true, Option.getD_some, Option.isSome_some, Bool.and_true]
  exact ⟨_, _, rfl⟩

theorem continues_lastDigit (n value : Nat) (hn : n < 16) (hcode : value * 16 + n < 0xD800) :
    Continues .plain (Char.ofNat (value * 16 + n) :: latest) rest
      (readFrom (.code none value 3 true) ⟨latest, none⟩ line column (.char (hexDigit n) :: rest)) := by
  have hdigit := hexValue_hexDigit n hn
  have hsize := size_hexDigit n hn
  have hread : codeRead none (value * 16 + n) = .ok (.inr (Char.ofNat (value * 16 + n))) := by
    have hlow : ¬ (0xDC00 ≤ value * 16 + n) := by omega
    have hhigh : ¬ (0xD800 ≤ value * 16 + n) := by omega
    simp [codeRead, hlow, hhigh]
  simp only [readFrom, hdigit, hsize, hread, Option.getD_some, Option.isSome_some, Bool.and_true,
    Nat.reduceAdd, Nat.lt_irrefl, if_false, Bool.not_true, Bool.false_eq_true]
  exact ⟨_, _, rfl⟩

theorem continues_unicode {c : Char} (hc : c.toNat < 0x20) :
    Continues .plain (c :: latest) rest (readFrom .plain ⟨latest, none⟩ line column
      (['\\', 'u', '0', '0', hexDigit (c.toNat / 16), hexDigit (c.toNat % 16)].map .char ++ rest)) := by
  have hstart : Continues (.code none 0 0 true) latest
      (.char (hexDigit 0) :: .char (hexDigit 0) ::
        .char (hexDigit (c.toNat / 16)) :: .char (hexDigit (c.toNat % 16)) :: rest)
      (readFrom .plain ⟨latest, none⟩ line column
        (['\\', 'u', '0', '0', hexDigit (c.toNat / 16), hexDigit (c.toNat % 16)].map .char ++ rest)) := by
    simp only [List.map_cons, List.map_nil, List.cons_append, List.nil_append, readFrom, Char.reduceEq,
      if_false, if_true]
    exact ⟨_, _, rfl⟩
  have hvalue : c.toNat / 16 * 16 + c.toNat % 16 = c.toNat := by omega
  obtain ⟨_, _, hstart⟩ := hstart
  obtain ⟨_, _, hfirst⟩ := continues_digit 0 0 0 (by decide) (by decide)
  obtain ⟨_, _, hsecond⟩ := continues_digit 0 0 1 (by decide) (by decide)
  obtain ⟨_, _, hthird⟩ := continues_digit (c.toNat / 16) 0 2 (by omega) (by decide)
  obtain ⟨line', column', hlast⟩ := continues_lastDigit (c.toNat % 16) (c.toNat / 16) (by omega) (by omega)
  rw [hvalue, Char.ofNat_toNat] at hlast
  refine ⟨line', column', ?_⟩
  rw [hstart, hfirst, hsecond, hthird, Nat.zero_mul, Nat.zero_add, hlast]

/-- What a character is written as is read as the character. -/
theorem continues_escapeChar (c : Char) : Continues .plain (c :: latest) rest
    (readFrom .plain ⟨latest, none⟩ line column ((escapeChar c).map .char ++ rest)) := by
  have hcode (n : Nat) (hc : c.toNat = n) : c = Char.ofNat n := by rw [← hc, Char.ofNat_toNat]
  unfold escapeChar
  split_ifs with hquote hbackslash hback hfeed hline hreturn htab hcontrol
  · exact continues_letter (by rw [hquote]; rfl) (by decide)
  · exact continues_letter (by rw [hbackslash]; rfl) (by decide)
  · exact continues_letter (by rw [hcode _ hback]; rfl) (by decide)
  · exact continues_letter (by rw [hcode _ hfeed]; rfl) (by decide)
  · exact continues_letter (by rw [hline]; rfl) (by decide)
  · exact continues_letter (by rw [hreturn]; rfl) (by decide)
  · exact continues_letter (by rw [htab]; rfl) (by decide)
  · exact continues_unicode hcontrol
  · exact continues_plain hquote hbackslash (by simpa [isControl] using hcontrol)

theorem read_escaped (cs : List Char) (latest : List Char) (line column : Nat) (rest : List Piece) :
    ∃ k : Cursor, k.rest = rest ∧ readFrom .plain ⟨latest, none⟩ line column
      ((cs.flatMap escapeChar).map .char ++ .char '"' :: rest) =
        .ok (String.ofList (latest.reverse ++ cs), k) := by
  induction cs generalizing latest line column with
  | nil =>
    refine ⟨(Cursor.mk [] line column).pass (.char '"') rest, rfl, ?_⟩
    simp only [List.flatMap_nil, List.map_nil, List.nil_append, readFrom, if_true, List.append_nil]
  | cons c cs ih =>
    rw [List.flatMap_cons, List.map_append, List.append_assoc]
    obtain ⟨line', column', hc⟩ := continues_escapeChar c
    obtain ⟨k, hk, hread⟩ := ih (c :: latest) line' column'
    refine ⟨k, hk, ?_⟩
    rw [hc, hread, List.reverse_cons, List.append_assoc, List.singleton_append]

/-- A string that is written reads as it was; its opening quote has been read. -/
theorem read_quote {k : Cursor} {s : String} {text : List Char}
    (h : k.At (s.toList.flatMap escapeChar ++ '"' :: text)) :
    ∃ k' : Cursor, k'.At text ∧ read k = .ok (s, k') := by
  have hrest : k.rest = (s.toList.flatMap escapeChar).map .char ++ .char '"' :: text.map .char := by
    rw [h, List.map_append, List.map_cons]
  obtain ⟨k', hk', hread⟩ := read_escaped s.toList [] k.line k.column (text.map .char)
  refine ⟨k', hk', ?_⟩
  rw [read, hrest, hread, List.reverse_nil, List.nil_append, String.ofList_toList]

end Quoted

/-! Natural numbers. -/
namespace Number

/-- The value of a digit. -/
def digitOf (c : Char) : Nat := c.toNat - '0'.toNat

/-- A text that does not carry on a natural number. -/
def EndsNumber (text : List Char) : Prop :=
  ∀ c ∈ text.head?, c.isDigit = false ∧ c ≠ '.' ∧ c ≠ 'e' ∧ c ≠ 'E'

theorem digitsFrom_append {ds text : List Char} (hds : ∀ c ∈ ds, c.isDigit = true) (htext : EndsNumber text)
    (line column : Nat) : ∃ k : Cursor, k.At text ∧
      digitsFrom line column ((ds ++ text).map .char) = (ds.map digitOf, k) := by
  induction ds generalizing column with
  | nil =>
    cases text with
    | nil => exact ⟨⟨[], line, column⟩, rfl, rfl⟩
    | cons c text =>
      have hc : c.isDigit = false := (htext c rfl).1
      refine ⟨⟨.char c :: text.map .char, line, column⟩, rfl, ?_⟩
      simp [digitsFrom, hc]
  | cons d ds ih =>
    obtain ⟨hd, hds⟩ := List.forall_mem_cons.1 hds
    obtain ⟨k, hk, hread⟩ := ih hds (column + 1)
    refine ⟨k, hk, ?_⟩
    simp only [List.cons_append, List.map_cons, digitsFrom, hd, if_true, hread, digitOf]

theorem absorb_eq {significand : Nat} {ds : List Nat} (h : ds.foldl (fun n d => n * 10 + d) significand < bound64) :
    absorb significand ds = (ds.foldl (fun n d => n * 10 + d) significand, ds.length, 0) := by
  induction ds generalizing significand with
  | nil => rfl
  | cons d ds ih =>
    have hle (n : Nat) : n ≤ ds.foldl (fun n d => n * 10 + d) n := by
      clear ih h
      induction ds generalizing n with
      | nil => exact Nat.le_refl n
      | cons e ds ih =>
        have hnext := ih (n * 10 + e)
        rw [List.foldl_cons]
        omega
    rw [List.foldl_cons] at h ⊢
    have hd : significand * 10 + d < bound64 := Nat.lt_of_le_of_lt (hle _) h
    simp only [absorb, hd, if_true, ih h, List.length_cons]

theorem foldl_digitOf (n : Nat) :
    ((Nat.toDigits 10 n).map digitOf).foldl (fun n d => n * 10 + d) 0 = n := by
  have h := Nat.ofDigitChars_ten_toDigits (n := n)
  rw [Nat.ofDigitChars_eq_foldl] at h
  rw [List.foldl_map]
  simpa only [digitOf, Nat.mul_comm] using h

/-- A numeral of more than one digit does not start with a zero. -/
theorem head?_toDigits {n : Nat} (hn : 0 < n) : (Nat.toDigits 10 n).head? ≠ some '0' := by
  induction n using Nat.strongRecOn with
  | ind n ih =>
    rw [Nat.toDigits_eq_if (by omega)]
    split
    · next hlt =>
      intro h
      have hzero : n = 0 := Nat.digitChar_eq_zero.1 (Option.some.inj h)
      omega
    · next hge =>
      have hne : Nat.toDigits 10 (n / 10) ≠ [] := Nat.toDigits_ne_nil
      rw [List.head?_append, Option.or_of_isSome (List.isSome_head?.2 hne)]
      exact ih (n / 10) (by omega) (by omega)

theorem eq_zero_of_digitOf {c : Char} (hc : c.isDigit = true) (h : digitOf c = 0) : c = '0' := by
  have hge : '0'.toNat ≤ c.toNat := by
    simp only [Char.isDigit, Bool.and_eq_true, decide_eq_true_eq] at hc
    exact hc.1
  apply Char.toNat_inj.1
  rw [digitOf] at h
  omega

theorem map_digitOf_ne (n d : Nat) (ds : List Nat) : (Nat.toDigits 10 n).map digitOf ≠ 0 :: d :: ds := by
  intro h
  obtain ⟨c, cs, hn, hc, hcs⟩ := List.map_eq_cons_iff.1 h
  have hdigit : c.isDigit = true :=
    Nat.isDigit_of_mem_toDigits (b := 10) (by decide) (Nat.le_refl _) (hn ▸ List.mem_cons_self)
  obtain rfl := eq_zero_of_digitOf hdigit hc
  obtain rfl | hpos := Nat.eq_zero_or_pos n
  · have hzero : cs = [] := by simpa using hn.symm
    simp [hzero] at hcs
  · exact head?_toDigits hpos (by rw [hn]; rfl)

/-- The numeral of a number reads as the number, as long as it has 64 bits. -/
theorem read_toDigits {k : Cursor} {n : Nat} {text : List Char} (hn : n < bound64) (htext : EndsNumber text)
    (h : k.At (Nat.toDigits 10 n ++ text)) :
    ∃ k' : Cursor, k'.At text ∧ read false k = .ok (.integer n, k') := by
  have hdigit : ∀ c ∈ Nat.toDigits 10 n, c.isDigit = true :=
    fun c hc => Nat.isDigit_of_mem_toDigits (by decide) (Nat.le_refl _) hc
  obtain ⟨k', hk', hread⟩ := digitsFrom_append hdigit htext k.line k.column
  have hdigits : digits k = ((Nat.toDigits 10 n).map digitOf, k') := by rw [digits, h, hread]
  have hfits : ((Nat.toDigits 10 n).map digitOf).foldl (fun n d => n * 10 + d) 0 < bound64 := by
    rwa [foldl_digitOf]
  have habsorb := absorb_eq hfits
  rw [foldl_digitOf] at habsorb
  have hpeek : k'.peek = text.head? := hk'.peek
  obtain ⟨d, ds, hds⟩ := List.exists_cons_of_ne_nil (Nat.toDigits_ne_nil (b := 10) (n := n))
  have hrest : k.rest = .char d :: (ds ++ text).map .char := by rw [h, hds]; rfl
  refine ⟨k', hk', ?_⟩
  rw [read, hrest]
  dsimp only
  rw [hdigits]
  split
  · next hnil => simp [hds] at hnil
  · next hzero => exact absurd (Prod.mk.inj hzero).1 (map_digitOf_ne n _ _)
  · next hpair =>
    obtain ⟨rfl, rfl⟩ := Prod.mk.inj hpair
    simp only [habsorb, hpeek]
    split
    · next hpoint => exact absurd rfl (htext '.' hpoint).2.1
    · have hmark : text.head?.any isExponentMark = false := by
        cases hhead : text.head? with
        | none => rfl
        | some c =>
          obtain ⟨-, -, he, hE⟩ := htext c hhead
          simp [isExponentMark, he, hE]
      simp [hmark, whole]

end Number

end PrototypeScan.Json
