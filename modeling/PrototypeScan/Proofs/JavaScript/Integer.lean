import PrototypeScan.Proofs.JavaScript.Converted
import PrototypeScan.Proofs.Number.Nearest
import PrototypeScan.Proofs.Number.Whole

/-!
Literals of integers. A decimal one has the nearest double as its value, whatever its length; one in another base
has it up to 64 bits and no value above, and so two spellings of one integer may differ.
-/
namespace PrototypeScan.JavaScript.NumberLiteral
open Decimal

/-- Digits with single underscores between some of them, and the digits alone. -/
inductive Grouped : List Char → List Char → Prop
  | last (c : Char) : Grouped [c] [c]
  | next (c : Char) {text digits : List Char} : Grouped text digits → Grouped (c :: text) (c :: digits)
  | underscore (c : Char) {text digits : List Char} : Grouped text digits →
      Grouped (c :: '_' :: text) (c :: digits)

/-- What may stand behind an integer: nothing, or the mark of big integers. -/
def marks : List (List Char) := [[], ['n']]

/-- The letters that announce a base. -/
def radixLetters : List (Char × Nat) := [('x', 16), ('X', 16), ('o', 8), ('O', 8), ('b', 2), ('B', 2)]

/-- The literals of integers, each with its base and with the integer that it denotes. Digits behind a zero are octal
if they can be. -/
inductive Denotes : List Char → Nat → Nat → Prop
  | decimal {text digits mark : List Char} {n : Nat} : Grouped text digits → Numeral 10 digits n →
      digits = ['0'] ∨ digits.head? ≠ some '0' → mark ∈ marks → Denotes (text ++ mark) 10 n
  | behindZero {digits : List Char} {n : Nat} : Numeral 10 digits n → (∃ c ∈ digits, isOctalDigit c = false) →
      Denotes ('0' :: digits) 10 n
  | octal {digits : List Char} {n : Nat} : Numeral 8 digits n → Denotes ('0' :: digits) 8 n
  | radix {letter : Char} {base : Nat} {text digits mark : List Char} {n : Nat} : (letter, base) ∈ radixLetters →
      Grouped text digits → Numeral base digits n → mark ∈ marks → Denotes ('0' :: letter :: (text ++ mark)) base n

theorem isOctalDigit_iff {c : Char} {d : Nat} (h : digitValue c = some d) :
    isOctalDigit c = true ↔ d < 8 := by
  simp only [isOctalDigit, digitValue, Bool.and_eq_true, decide_eq_true_eq,
    le_iff_toNat_le, Char.reduceToNat] at h ⊢
  split_ifs at h <;> have := Option.some.inj h <;> omega

theorem ofRadix_eq {base n : Nat} {digits : List Char} (h : Numeral base digits n) :
    ofRadix base digits = if n < twoTo 64 then some (.ofNat n) else none := by
  rw [ofRadix, h.ofDigits_eq, Option.filter_some]
  split <;> simp_all

/-! What is left of a literal when it is read. -/

theorem filter_grouped {text digits : List Char} (h : Grouped text digits) (hdigits : '_' ∉ digits) :
    text.filter (· ≠ '_') = digits := by
  induction h with
  | last c =>
    have hc : c ≠ '_' := fun heq => hdigits (heq ▸ List.mem_cons_self)
    simp [hc]
  | next c _ ih =>
    obtain ⟨hc, hrest⟩ := List.ne_and_not_mem_of_not_mem_cons hdigits
    rw [List.filter_cons_of_pos (by simpa using Ne.symm hc), ih hrest]
  | underscore c _ ih =>
    obtain ⟨hc, hrest⟩ := List.ne_and_not_mem_of_not_mem_cons hdigits
    rw [List.filter_cons_of_pos (by simpa using Ne.symm hc), List.filter_cons_of_neg (by simp), ih hrest]

theorem mem_of_grouped {text digits : List Char} (h : Grouped text digits) {c : Char} (hc : c ∈ text) :
    c ∈ digits ∨ c = '_' := by
  induction h with
  | last d => exact .inl hc
  | next d _ ih =>
    rcases List.mem_cons.1 hc with rfl | hc
    · exact .inl List.mem_cons_self
    · exact (ih hc).imp_left (List.mem_cons_of_mem d)
  | underscore d _ ih =>
    rcases List.mem_cons.1 hc with rfl | hc
    · exact .inl List.mem_cons_self
    rcases List.mem_cons.1 hc with rfl | hc
    · exact .inr rfl
    · exact (ih hc).imp_left (List.mem_cons_of_mem d)

theorem not_mem_of_numeral {base n : Nat} {digits : List Char} (h : Numeral base digits n) {c : Char}
    (hc : digitValue c = none) : c ∉ digits := fun hmem => h.digitValue_ne_none hmem hc

theorem filter_underscore {cs : List Char} (h : '_' ∉ cs) : cs.filter (· ≠ '_') = cs :=
  List.filter_eq_self.2 fun _ hc => decide_eq_true fun heq => h (heq ▸ hc)

/-- The mark goes, and so do the underscores. -/
theorem normalize_eq {raw : String} {text mark : List Char} (hraw : raw.toList = text ++ mark)
    (hmark : mark ∈ marks) (htext : 'n' ∉ text) :
    normalize raw = (text.filter (· ≠ '_')).map Char.toLower := by
  have hkept : text.reverse.dropWhile (· = 'n') = text.reverse := by
    rw [List.dropWhile_eq_self_iff]
    intro hlength heq
    refine htext (List.mem_reverse.1 ?_)
    rw [← of_decide_eq_true heq]
    exact List.getElem_mem hlength
  rw [normalize, hraw, List.reverse_append]
  rcases List.mem_pair.1 hmark with rfl | rfl <;> simp [hkept]

theorem normalize_grouped {raw : String} {base n : Nat} (front : List Char) {text digits mark : List Char}
    (hraw : raw.toList = front ++ (text ++ mark)) (hfront : 'n' ∉ front ∧ '_' ∉ front) (h : Grouped text digits)
    (hdigits : Numeral base digits n) (hmark : mark ∈ marks) :
    normalize raw = front.map Char.toLower ++ digits.map Char.toLower := by
  have htext : 'n' ∉ front ++ text := by
    rw [List.mem_append]
    rintro (hmem | hmem)
    · exact hfront.1 hmem
    rcases mem_of_grouped h hmem with hmem | hmem
    · exact not_mem_of_numeral hdigits rfl hmem
    · exact absurd hmem (by decide)
  rw [← List.append_assoc] at hraw
  rw [normalize_eq hraw hmark htext, List.filter_append, filter_underscore hfront.2,
    filter_grouped h (not_mem_of_numeral hdigits rfl), List.map_append]

theorem normalize_digits {raw : String} {base n : Nat} {digits : List Char} (hraw : raw.toList = digits)
    (h : Numeral base digits n) (hbase : base ≤ 10) : normalize raw = digits := by
  rw [normalize_eq (hraw.trans (List.append_nil digits).symm) List.mem_cons_self (not_mem_of_numeral h rfl),
    filter_underscore (not_mem_of_numeral h rfl), h.map_toLower hbase]

/-! The branches by base. -/

theorem value?_decimal {raw : String} {digits : List Char} (hraw : normalize raw = digits)
    (hhead : digits = ['0'] ∨ digits.head? ≠ some '0') : value? raw = read? digits := by
  rw [value?, hraw]
  split <;> simp_all

theorem value?_behindZero {raw : String} {digits : List Char} (hraw : normalize raw = '0' :: digits)
    (hne : digits ≠ []) (hdigits : ∀ c ∈ digits, c.isDigit = true) :
    value? raw = if digits.all isOctalDigit then ofRadix 8 digits else read? ('0' :: digits) := by
  obtain ⟨d, ds, rfl⟩ := List.exists_cons_of_ne_nil hne
  have hd := hdigits d List.mem_cons_self
  rw [value?, hraw]
  split <;> simp_all

theorem value?_radix {raw : String} {letter : Char} {base : Nat} {digits : List Char}
    (hletter : (letter, base) ∈ radixLetters) (hraw : normalize raw = '0' :: letter.toLower :: digits) :
    value? raw = ofRadix base digits := by
  rw [value?, hraw]
  simp only [radixLetters, List.mem_cons, Prod.mk.injEq, List.not_mem_nil, or_false] at hletter
  rcases hletter with ⟨rfl, rfl⟩ | ⟨rfl, rfl⟩ | ⟨rfl, rfl⟩ | ⟨rfl, rfl⟩ | ⟨rfl, rfl⟩ | ⟨rfl, rfl⟩ <;> rfl

theorem value?_eq {raw : String} {base n : Nat} (h : Denotes raw.toList base n) :
    value? raw = if base = 10 ∨ n < twoTo 64 then some (.ofNat n) else none := by
  generalize hraw : raw.toList = literal at h
  cases h with
  | decimal hgrouped hdigits hhead hmark =>
    have hnormal := normalize_grouped [] hraw (by simp) hgrouped hdigits hmark
    rw [List.map_nil, List.nil_append, hdigits.map_toLower le_rfl] at hnormal
    rw [value?_decimal hnormal hhead, hdigits.read?_eq, if_pos (.inl rfl)]
  | behindZero hdigits hother =>
    obtain ⟨c, hc, hoctal⟩ := hother
    have hall : ¬ (List.all _ isOctalDigit = true) := fun hall => by
      rw [List.all_eq_true.1 hall c hc] at hoctal
      cases hoctal
    have hzero := hdigits.cons_zero (by decide)
    rw [value?_behindZero (normalize_digits hraw hzero le_rfl) hdigits.ne_nil (fun _ => hdigits.isDigit le_rfl),
      if_neg hall, hzero.read?_eq, if_pos (.inl rfl)]
  | octal hdigits =>
    have hall : List.all _ isOctalDigit = true := List.all_eq_true.2 fun c hc => by
      obtain ⟨d, hd, hlt⟩ := hdigits.exists_digitValue hc
      exact (isOctalDigit_iff hd).2 hlt
    have hzero := hdigits.cons_zero (by decide)
    rw [value?_behindZero (normalize_digits hraw hzero (by decide)) hdigits.ne_nil
      (fun _ => hdigits.isDigit (by decide)), if_pos hall, ofRadix_eq hdigits]
    simp
  | @radix letter base text digits mark n hletter hgrouped hdigits hmark =>
    have hfront : 'n' ∉ ['0', letter] ∧ '_' ∉ ['0', letter] ∧ base ≠ 10 := by
      have hletters : ∀ p ∈ radixLetters, 'n' ∉ ['0', p.1] ∧ '_' ∉ ['0', p.1] ∧ p.2 ≠ 10 := by decide
      exact hletters _ hletter
    have hnormal : normalize raw = '0' :: letter.toLower :: digits.map Char.toLower :=
      normalize_grouped ['0', letter] hraw ⟨hfront.1, hfront.2.1⟩ hgrouped hdigits hmark
    rw [value?_radix hletter hnormal, ofRadix_eq hdigits.toLower]
    simp [hfront.2.2]

/-! The literal in the tree. -/

section Converted
open Concrete JavaScript.Estree

theorem result?_number {source : Source} {c : Concrete} (hshown : shown c = true) (hkind : c.label.kind = "number") :
    ∃ literal, result? source c = some literal ∧ literal.kind = "Literal" ∧
      literal.field "value" = ((value? (c.text source.chars)).map .number).getD .absent := by
  have hinner : inner? c = some c := inner?_eq_self hshown (by rw [hkind]; decide)
  have hliteral : c.label.kind ∈ literalKinds := by rw [hkind]; decide
  refine ⟨converted source c, by rw [result?_eq_map, hinner, Option.map_some], ?_, ?_⟩
  · rw [kind_converted, hkind]
    decide
  · rw [field_value hliteral, hkind]
    rfl

/-- The value of a literal is the double nearest to the integer that it denotes, and the node for it holds that, if it
is decimal or the integer has no more than 64 bits; else there is none. So two literals of one integer have the same
value exactly if both have one or neither has. -/
theorem value_integer {raw : String} {base n : Nat} (h : Denotes raw.toList base n) :
    (Binary64.ofNat n).IsNearest n ∧
      ((Binary64.ofNat n).isInfinite = true ↔ 2 ^ 1024 - 2 ^ 970 ≤ (n : ℚ)) ∧
      value? raw = (if base = 10 ∨ n < twoTo 64 then some (.ofNat n) else none) ∧
      (∀ (source : Source) (c : Concrete), shown c = true → c.label.kind = "number" → c.text source.chars = raw →
        ∃ literal, result? source c = some literal ∧ literal.kind = "Literal" ∧
          literal.field "value" = if base = 10 ∨ n < twoTo 64 then .number (.ofNat n) else .absent) ∧
      ∀ (other : String) (otherBase : Nat), Denotes other.toList otherBase n →
        (value? other = value? raw ↔ (otherBase = 10 ∨ n < twoTo 64 ↔ base = 10 ∨ n < twoTo 64)) := by
  have hnearest : (Binary64.ofNat n).IsNearest n := by
    simpa [Binary64.ofNat] using Binary64.isNearest_ofRatio n one_pos
  refine ⟨hnearest, hnearest.isInfinite_iff, value?_eq h, fun source c hshown hkind htext => ?_,
    fun other otherBase hother => ?_⟩
  · obtain ⟨literal, hresult, hliteral, hvalue⟩ := result?_number hshown hkind
    refine ⟨literal, hresult, hliteral, ?_⟩
    rw [hvalue, htext, value?_eq h]
    split <;> rfl
  · rw [value?_eq hother, value?_eq h]
    split <;> split <;> simp_all

/-- An integer in the middle between two doubles, in groups of digits and marked as a big one. -/
def midwayLiteral : String := "0x20_0000_0000_0001n"

theorem denotes_midwayLiteral : Denotes midwayLiteral.toList 16 (twoTo 53 + 1) := by
  have hdigits : Numeral 16 "20000000000001".toList (twoTo 53 + 1) :=
    ⟨by decide, [2, 0, 0, 0, 0, 0, 0, 0, 0, 0, 0, 0, 0, 1], by decide, by decide, by decide⟩
  have hgroup : ∀ {text digits : List Char}, Grouped text digits →
      Grouped ('0' :: '0' :: '0' :: '0' :: '_' :: text) ('0' :: '0' :: '0' :: '0' :: digits) := fun h =>
    .next _ (.next _ (.next _ (.underscore _ h)))
  have hlast : Grouped "0001".toList "0001".toList := .next _ (.next _ (.next _ (.last _)))
  have hgrouped : Grouped "20_0000_0000_0001".toList "20000000000001".toList :=
    .next _ (.underscore _ (hgroup (hgroup hlast)))
  exact .radix (List.mem_cons_self) hgrouped hdigits (by decide)

theorem value_integer_midwayLiteral :
    Denotes midwayLiteral.toList 16 (twoTo 53 + 1) ∧ value? midwayLiteral = some ⟨0x4340000000000000⟩ ∧
      (⟨0x4340000000000000⟩ : Binary64).IsNearest (twoTo 53 + 1 : Nat) := by
  obtain ⟨hnearest, -, hvalue, -, -⟩ := value_integer denotes_midwayLiteral
  have hbits : Binary64.ofNat (twoTo 53 + 1) = ⟨0x4340000000000000⟩ := by decide
  rw [hbits] at hnearest hvalue
  exact ⟨denotes_midwayLiteral, hvalue, hnearest⟩

theorem grouped_self {digits : List Char} (h : digits ≠ []) : Grouped digits digits := by
  induction digits with
  | nil => exact absurd rfl h
  | cons c digits ih =>
    cases digits with
    | nil => exact .last c
    | cons d ds => exact .next c (ih (List.cons_ne_nil d ds))

/-- The least integer of 65 bits has a value in decimal and none in hexadecimal. -/
theorem value_wideLiteral :
    Denotes "0x10000000000000000".toList 16 (twoTo 64) ∧ value? "0x10000000000000000" = none ∧
      Denotes "18446744073709551616".toList 10 (twoTo 64) ∧
      value? "18446744073709551616" = some (.ofNat (twoTo 64)) := by
  have hmark : [] ∈ marks := List.mem_cons_self
  have hhex : Numeral 16 "10000000000000000".toList (twoTo 64) :=
    ⟨by decide, 1 :: List.replicate 16 0, by decide, by decide, by decide⟩
  have hdecimal : Numeral 10 "18446744073709551616".toList (twoTo 64) :=
    ⟨by decide, [1, 8, 4, 4, 6, 7, 4, 4, 0, 7, 3, 7, 0, 9, 5, 5, 1, 6, 1, 6], by decide, by decide, by decide⟩
  have hwide : Denotes "0x10000000000000000".toList 16 (twoTo 64) :=
    .radix List.mem_cons_self (grouped_self hhex.ne_nil) hhex hmark
  have hplain : Denotes "18446744073709551616".toList 10 (twoTo 64) :=
    .decimal (grouped_self hdecimal.ne_nil) hdecimal (.inr (by decide)) hmark
  have hnone := value?_eq hwide
  have hsome := value?_eq hplain
  rw [if_neg (by decide)] at hnone
  rw [if_pos (.inl rfl)] at hsome
  exact ⟨hwide, hnone, hplain, hsome⟩

end Converted

end PrototypeScan.JavaScript.NumberLiteral
