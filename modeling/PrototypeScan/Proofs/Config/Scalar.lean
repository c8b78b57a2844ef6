import Mathlib.Data.List.TakeWhile
import PrototypeScan.Config.Environment
import PrototypeScan.Proofs.Config.Items
import PrototypeScan.Text.Split

/-!
What the value of a variable is taken for. One that reads as a truth value or a number is taken for that, and
every other one for what it says; one with a comma in it never reads as such a scalar.
-/
namespace PrototypeScan

namespace Decimal

theorem comma_not_mem_takeWhile (text : List Char) : ',' ∉ text.takeWhile Char.isDigit := by
  intro h
  have hdigit : Char.isDigit ',' = true := List.mem_takeWhile_imp h
  exact absurd hdigit (by decide)

theorem comma_not_mem_of_readDigits {base value n : Nat} {digits : List Char}
    (h : readDigits base value digits = some n) : ',' ∉ digits := by
  induction digits generalizing value with
  | nil => exact List.not_mem_nil
  | cons c digits ih =>
    rw [readDigits] at h
    split at h
    · next d hd =>
      split at h
      · intro hmem
        rcases List.mem_cons.1 hmem with rfl | hmem
        · cases hd
        · exact ih h hmem
      · cases h
    · cases h

theorem comma_not_mem_of_ofDigits {base n : Nat} {digits : List Char} (h : ofDigits base digits = some n) :
    ',' ∉ digits := by
  cases digits with
  | nil => cases h
  | cons c digits => exact comma_not_mem_of_readDigits h

theorem comma_not_mem_of_parts? {text : List Char} {p : Parts} (h : parts? text = some p) : ',' ∉ text := by
  intro hmem
  rw [← List.takeWhile_append_dropWhile (p := Char.isDigit) (l := text), List.mem_append] at hmem
  have hmem := hmem.resolve_left (comma_not_mem_takeWhile text)
  unfold parts? at h
  extract_lets whole at h
  split at h
  next fraction rest hfraction =>
  have hrest : ',' ∈ rest := by
    split at hfraction
    · next r hdrop =>
      obtain ⟨-, rfl⟩ := Prod.mk.inj hfraction
      rw [hdrop, List.mem_cons, ← List.takeWhile_append_dropWhile (p := Char.isDigit) (l := r),
        List.mem_append] at hmem
      have hmem := hmem.resolve_left (by decide)
      exact hmem.resolve_left (comma_not_mem_takeWhile r)
    · obtain ⟨-, rfl⟩ := Prod.mk.inj hfraction
      exact hmem
  split at h
  · cases h
  · split at h
    · exact absurd hrest List.not_mem_nil
    · next e r =>
      split at h
      · next he =>
        have hmark : ',' ≠ e := by
          rintro rfl
          exact absurd he (by decide)
        have hr := (List.mem_cons.1 hrest).resolve_left hmark
        split at h
        next negative digits hsign =>
        obtain ⟨n, hdigits, -⟩ := Option.map_eq_some_iff.1 h
        obtain ⟨m, hdigits, -⟩ := Option.bind_eq_some_iff.1 hdigits
        refine comma_not_mem_of_ofDigits hdigits ?_
        split at hsign <;> obtain ⟨-, rfl⟩ := Prod.mk.inj hsign
        · exact (List.mem_cons.1 hr).resolve_left (by decide)
        · exact (List.mem_cons.1 hr).resolve_left (by decide)
        · exact hr
      · cases h

theorem comma_mem_map_toLower {cs : List Char} (h : ',' ∈ cs) : ',' ∈ cs.map Char.toLower :=
  List.mem_map_of_mem (f := Char.toLower) h

theorem readSigned?_of_comma {text : List Char} (h : ',' ∈ text) : readSigned? text = none := by
  unfold readSigned?
  split
  next negative unsigned hsign =>
  have hunsigned : ',' ∈ unsigned := by
    split at hsign <;> obtain ⟨-, rfl⟩ := Prod.mk.inj hsign
    · exact (List.mem_cons.1 h).resolve_left (by decide)
    · exact (List.mem_cons.1 h).resolve_left (by decide)
    · exact h
  have hword (word : String) (hplain : ',' ∉ word.toList) :
      String.ofList (unsigned.map Char.toLower) ≠ word := by
    rintro rfl
    rw [String.toList_ofList] at hplain
    exact hplain (comma_mem_map_toLower hunsigned)
  have hread : read? unsigned = none := by
    rw [read?, Option.map_eq_none_iff]
    cases hparts : parts? unsigned with
    | none => rfl
    | some p => exact absurd hunsigned (comma_not_mem_of_parts? hparts)
  simp only [hword "inf" (by decide), hword "infinity" (by decide), hword "nan" (by decide), hread,
    decide_false, Bool.or_self, Bool.false_eq_true, if_false, Option.map_none]

end Decimal

/-! Scalars written as text are not blank. -/

namespace Text

theorem isSpace_of_isDigit {c : Char} (h : c.isDigit = true) : isSpace c = false := by
  have hrange : 48 ≤ c.toNat ∧ c.toNat ≤ 57 := by
    simp only [Char.isDigit, Bool.and_eq_true, decide_eq_true_eq] at h
    exact h
  simp only [isSpace, spaceRanges, List.any_cons, List.any_nil, Bool.or_false, Bool.or_eq_false_iff,
    Bool.and_eq_false_imp, decide_eq_true_eq, decide_eq_false_iff_not]
  omega

theorem isBlank_of_mem {s : String} {c : Char} (hc : c ∈ s.toList) (h : isSpace c = false) : isBlank s = false := by
  rw [isBlank, List.all_eq_false]
  exact ⟨c, hc, by rw [h]; exact Bool.false_ne_true⟩

theorem exists_mem_toString (n : Nat) : ∃ c ∈ (toString n).toList, isSpace c = false := by
  obtain ⟨c, cs, hcs⟩ := List.exists_cons_of_ne_nil (Nat.toDigits_ne_nil (b := 10) (n := n))
  have hmem : c ∈ Nat.toDigits 10 n := by
    rw [hcs]
    exact List.mem_cons_self
  rw [Nat.toString_eq_ofList_toDigits, String.toList_ofList]
  exact ⟨c, hmem, isSpace_of_isDigit (Nat.isDigit_of_mem_toDigits (b := 10) (by decide) (Nat.le_refl _) hmem)⟩

theorem isBlank_toString (i : Int) : isBlank (toString i) = false := by
  cases i with
  | ofNat n =>
    obtain ⟨c, hc, hspace⟩ := exists_mem_toString n
    exact isBlank_of_mem hc hspace
  | negSucc n =>
    have hsign : '-' ∈ (toString (Int.negSucc n)).toList := by
      have htext : toString (Int.negSucc n) = "-" ++ toString (n + 1) := rfl
      rw [htext, String.toList_append]
      exact List.mem_append_left _ List.mem_cons_self
    exact isBlank_of_mem hsign (by decide)

theorem isBlank_append_right (a : String) {b : String} (h : isBlank b = false) : isBlank (a ++ b) = false := by
  rw [isBlank, String.toList_append, List.all_append, Bool.and_eq_false_iff]
  exact .inr h

theorem isBlank_plainText (x : Binary64) : isBlank (Decimal.plainText x) = false := by
  unfold Decimal.plainText
  extract_lets sign
  split
  · decide
  · split
    · exact isBlank_append_right sign (by decide)
    · split
      next digits places _ =>
      extract_lets ds n padded cut body
      refine isBlank_append_right sign ?_
      obtain ⟨c, hc, hspace⟩ := exists_mem_toString digits
      unfold body
      split
      · refine isBlank_of_mem (c := c) ?_ hspace
        rw [String.toList_ofList]
        exact List.mem_append_left _ hc
      · refine isBlank_of_mem (c := '.') ?_ (by decide)
        rw [String.toList_ofList]
        exact List.mem_append_right _ List.mem_cons_self

end Text

namespace Config.Environment
open Setting

/-- The truth value or number that a value is taken for. -/
def scalar? (value : String) : Option Setting :=
  let lower := String.ofList (value.toList.map Char.toLower)
  if lower = "true" then some (.bool true)
  else if lower = "false" then some (.bool false)
  else ((integer? value.toList).map .integer).or ((Decimal.readSigned? value.toList).map .real)

theorem setting_eq (key value : String) : setting key value = (scalar? value).getD
    (if listKeys.contains key then .list ((Text.splitOn ',' value).map .text) else .text value) := by
  simp only [setting, scalar?]
  split
  · rfl
  · split
    · rfl
    · cases integer? value.toList with
      | some i => rfl
      | none => cases Decimal.readSigned? value.toList <;> rfl

theorem integer?_of_comma {text : List Char} (h : ',' ∈ text) : integer? text = none := by
  unfold integer?
  split
  next negative digits hsign =>
  have hdigits : ',' ∈ digits := by
    split at hsign <;> obtain ⟨-, rfl⟩ := Prod.mk.inj hsign
    · exact (List.mem_cons.1 h).resolve_left (by decide)
    · exact (List.mem_cons.1 h).resolve_left (by decide)
    · exact h
  rw [if_neg]
  intro hall
  exact absurd (List.all_eq_true.1 hall ',' hdigits) (by decide)

theorem scalar?_of_comma {value : String} (h : ',' ∈ value.toList) : scalar? value = none := by
  have hword (word : String) (hplain : ',' ∉ word.toList) :
      String.ofList (value.toList.map Char.toLower) ≠ word := by
    rintro rfl
    rw [String.toList_ofList] at hplain
    exact hplain (Decimal.comma_mem_map_toLower h)
  simp only [scalar?, hword "true" (by decide), hword "false" (by decide), if_false, integer?_of_comma h,
    Decimal.readSigned?_of_comma h, Option.map_none, Option.or_none]

/-- A scalar is no table, reads as no list, and reads as a text that is not blank. -/
structure IsScalar (v : Setting) : Prop where
  not_table : v.isTable = false
  no_list : toTexts? v = none
  text : ∃ s, toText? v = some s ∧ Text.isBlank s = false

theorem isScalar_of_scalar? {value : String} {v : Setting} (h : scalar? value = some v) : IsScalar v := by
  simp only [scalar?] at h
  split at h
  · obtain rfl := Option.some.inj h
    exact ⟨rfl, rfl, "true", rfl, by decide⟩
  · split at h
    · obtain rfl := Option.some.inj h
      exact ⟨rfl, rfl, "false", rfl, by decide⟩
    · rw [Option.or_eq_some_iff, Option.map_eq_some_iff, Option.map_eq_some_iff] at h
      rcases h with ⟨i, -, rfl⟩ | ⟨-, x, -, rfl⟩
      · exact ⟨rfl, rfl, _, rfl, Text.isBlank_toString i⟩
      · exact ⟨rfl, rfl, _, rfl, Text.isBlank_plainText x⟩

/-! Lists and texts. -/

/-- Items with commas between them. -/
def joined (items : List String) : String := String.ofList (Text.glue ',' (items.map String.toList))

theorem splitOn_joined {items : List String} (hne : items ≠ []) (h : ∀ s ∈ items, ',' ∉ s.toList) :
    Text.splitOn ',' (joined items) = items := by
  have hparts : ∀ p ∈ items.map String.toList, ',' ∉ p := by
    rw [List.forall_mem_map]
    exact h
  have hne : items.map String.toList ≠ [] := by
    rw [Ne, List.map_eq_nil_iff]
    exact hne
  rw [Text.splitOn, joined, String.toList_ofList, Text.parts_glue hne hparts, List.map_map]
  simp

/-- A single item that reads as a scalar. -/
def LoneScalar (items : List String) : Prop := ∃ s, items = [s] ∧ (scalar? s).isSome = true

/-- What items with commas between them stand for: themselves, except for a single one that reads as a
scalar. -/
theorem setting_joined {key : String} (hkey : listKeys.contains key = true) {items : List String} (hne : items ≠ [])
    (h : ∀ s ∈ items, ',' ∉ s.toList) :
    (¬ LoneScalar items ∧ setting key (joined items) = .list (items.map .text)) ∨
      (LoneScalar items ∧ ∃ v, setting key (joined items) = v ∧ IsScalar v) := by
  rw [setting_eq, if_pos hkey, splitOn_joined hne h]
  obtain _ | ⟨s, _ | ⟨t, items⟩⟩ := items
  · exact absurd rfl hne
  · have hjoined : joined [s] = s := String.ofList_toList
    rw [hjoined]
    cases hs : scalar? s with
    | none =>
      refine .inl ⟨?_, rfl⟩
      rintro ⟨s', hs', hscalar⟩
      obtain rfl := List.singleton_inj.1 hs'
      rw [hs] at hscalar
      cases hscalar
    | some v => exact .inr ⟨⟨s, rfl, by rw [hs]; rfl⟩, v, rfl, isScalar_of_scalar? hs⟩
  · have hcomma : ',' ∈ (joined (s :: t :: items)).toList := by
      rw [joined, String.toList_ofList]
      exact List.mem_append_right _ List.mem_cons_self
    refine .inl ⟨?_, by rw [scalar?_of_comma hcomma]; rfl⟩
    rintro ⟨s', hs', -⟩
    cases hs'

theorem toTexts?_map_text (items : List String) : toTexts? (.list (items.map .text)) = some items := by
  rw [toTexts?]
  induction items with
  | nil => rfl
  | cons s items ih =>
    rw [List.map_cons, List.mapM_cons, ih]
    rfl

/-- The text that a value arrives as: that of the scalar it reads as, or else its own. -/
def spelled (value : String) : String := ((scalar? value).bind toText?).getD value

theorem toText?_setting {key : String} (hkey : listKeys.contains key = false) (value : String) :
    toText? (setting key value) = some (spelled value) := by
  rw [setting_eq, hkey, spelled]
  cases hvalue : scalar? value with
  | none => rfl
  | some v =>
    obtain ⟨-, -, s, hs, -⟩ := isScalar_of_scalar? hvalue
    rw [Option.getD_some, Option.bind_some, hs, Option.getD_some]

theorem isBlank_spelled {value : String} (h : Text.isBlank value = false) : Text.isBlank (spelled value) = false := by
  rw [spelled]
  cases hvalue : scalar? value with
  | none => exact h
  | some v =>
    obtain ⟨-, -, s, hs, hblank⟩ := isScalar_of_scalar? hvalue
    rw [Option.bind_some, hs]
    exact hblank

end Config.Environment

end PrototypeScan
