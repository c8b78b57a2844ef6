import Mathlib.Data.List.TakeWhile
import PrototypeScan.Proofs.JavaScript.Detection

/-!
A name may be written in several ways: an identifier may give characters by their codes, and so may a string
in a script, in octal digits. Identifiers are taken as they are written, and octal escapes lose their
backslash. So an assignment is reported under the name that its key spells exactly if the key is written
without such escapes.
-/
namespace PrototypeScan.JavaScript

/-- The ways to write a name as an identifier: each character as it is, or by its code in hexadecimal digits,
of which there are four or any number in braces. No character of an identifier is a backslash. -/
inductive SpellsName : List Char → List Char → Prop
  | nil : SpellsName [] []
  | plain (c : Char) {text name : List Char} : c ≠ '\\' → SpellsName text name →
      SpellsName (c :: text) (c :: name)
  | fixed (digits : List Char) (c : Char) {text name : List Char} : c ≠ '\\' → digits.length = 4 →
      Decimal.ofDigits 16 digits = some c.toNat → SpellsName text name →
      SpellsName ('\\' :: 'u' :: (digits ++ text)) (c :: name)
  | braced (digits : List Char) (c : Char) {text name : List Char} : c ≠ '\\' →
      Decimal.ofDigits 16 digits = some c.toNat → SpellsName text name →
      SpellsName ('\\' :: 'u' :: '{' :: (digits ++ '}' :: text)) (c :: name)

theorem SpellsName.plainly {name : List Char} (h : '\\' ∉ name) : SpellsName name name := by
  induction name with
  | nil => exact .nil
  | cons c name ih => exact .plain c (List.ne_of_not_mem_cons h).symm (ih (List.not_mem_of_not_mem_cons h))

theorem SpellsName.eq_iff {text name : List Char} (h : SpellsName text name) :
    text = name ↔ '\\' ∉ text := by
  have hname : '\\' ∉ name := by
    induction h with
    | nil => exact List.not_mem_nil
    | plain c hc _ ih => exact List.not_mem_cons_of_ne_of_not_mem hc.symm ih
    | fixed digits c hc _ _ _ ih => exact List.not_mem_cons_of_ne_of_not_mem hc.symm ih
    | braced digits c hc _ _ ih => exact List.not_mem_cons_of_ne_of_not_mem hc.symm ih
  constructor
  · rintro rfl
    exact hname
  · intro htext
    induction h with
    | nil => rfl
    | plain c _ _ ih =>
      rw [ih (fun hmem => hname (List.mem_cons_of_mem _ hmem))
        (fun hmem => htext (List.mem_cons_of_mem _ hmem))]
    | fixed => exact absurd List.mem_cons_self htext
    | braced => exact absurd List.mem_cons_self htext

def octalDigits : List Char := ['0', '1', '2', '3', '4', '5', '6', '7']

/-- The octal digits that a text begins with, as many as one escape takes: three as long as the code stays
below 256, otherwise two. -/
def octalRun (text : List Char) : List Char :=
  let limit := if text.head?.any fun c => ['0', '1', '2', '3'].contains c then 3 else 2
  (text.take limit).takeWhile fun c => octalDigits.contains c

/-- That `digits` are the octal digits of an escape in front of `text`. A zero alone is an escape of another
kind, unless a digit follows. -/
structure IsOctalEscape (digits text : List Char) : Prop where
  ne_nil : digits ≠ []
  longest : octalRun (digits ++ text) = digits
  legacy : digits = ['0'] → text.head?.any Char.isDigit

/-- The ways to write a text between quotes: each character as it is, or by its code in octal digits. -/
inductive SpellsText : List Char → List Char → Prop
  | nil : SpellsText [] []
  | plain (c : Char) {text name : List Char} : c ≠ '\\' → SpellsText text name →
      SpellsText (c :: text) (c :: name)
  | octal (digits : List Char) (c : Char) {text name : List Char} : IsOctalEscape digits text →
      Decimal.ofDigits 8 digits = some c.toNat → SpellsText text name →
      SpellsText ('\\' :: (digits ++ text)) (c :: name)

namespace Quoted

theorem decodeBody_append {front : List Char} (hfront : '\\' ∉ front) (text : List Char) :
    decodeBody (front ++ text) = front ++ decodeBody text := by
  induction front with
  | nil => rfl
  | cons c front ih =>
    have hc : c ≠ '\\' := (List.ne_of_not_mem_cons hfront).symm
    rw [List.cons_append, decodeBody_cons hc, ih (List.not_mem_of_not_mem_cons hfront), List.cons_append]

theorem decodeBody_eq_self {text : List Char} (htext : '\\' ∉ text) : decodeBody text = text := by
  simpa [decodeBody] using decodeBody_append htext []

theorem escape_octal {d : Char} {text : List Char} (hd : d ∈ octalDigits)
    (hzero : d = '0' → text.head?.any Char.isDigit) : escape d text = ([d], text) := by
  simp only [octalDigits, List.mem_cons, List.not_mem_nil, or_false] at hd
  rcases hd with rfl | rfl | rfl | rfl | rfl | rfl | rfl | rfl
  · rw [escape, if_pos (hzero rfl)]
  all_goals rfl

/-- Of an octal escape the digits are kept, without what they stand for. -/
theorem decodeBody_octal {digits text : List Char} (h : IsOctalEscape digits text) :
    decodeBody ('\\' :: (digits ++ text)) = digits ++ decodeBody text := by
  have hdigits : ∀ d ∈ digits, d ∈ octalDigits := by
    intro d hd
    rw [← h.longest] at hd
    simpa using List.mem_takeWhile_imp hd
  have hplain : '\\' ∉ digits := fun hmem => absurd (hdigits _ hmem) (by decide)
  cases digits with
  | nil => exact absurd rfl h.ne_nil
  | cons d ds =>
    have hzero : d = '0' → (ds ++ text).head?.any Char.isDigit := by
      rintro rfl
      cases ds with
      | nil => exact h.legacy rfl
      | cons e ds =>
        have he := hdigits e (by simp)
        simp only [octalDigits, List.mem_cons, List.not_mem_nil, or_false] at he
        rcases he with rfl | rfl | rfl | rfl | rfl | rfl | rfl | rfl <;> rfl
    have hrest : '\\' ∉ ds := fun hmem => hplain (List.mem_cons_of_mem _ hmem)
    rw [List.cons_append, decodeBody_escape, escape_octal (hdigits d List.mem_cons_self) hzero,
      decodeBody_append hrest]
    rfl

end Quoted

namespace SpellsText
open Quoted

theorem plainly {name : List Char} (h : '\\' ∉ name) : SpellsText name name := by
  induction name with
  | nil => exact .nil
  | cons c name ih => exact .plain c (List.ne_of_not_mem_cons h).symm (ih (List.not_mem_of_not_mem_cons h))

theorem length_le {text name : List Char} (h : SpellsText text name) :
    name.length ≤ (decodeBody text).length := by
  induction h with
  | nil => simp [decodeBody]
  | plain c hc _ ih =>
    rw [decodeBody_cons hc, List.length_cons, List.length_cons]
    omega
  | octal digits c hdigits _ _ ih =>
    have hpos := List.length_pos_iff.2 hdigits.ne_nil
    rw [decodeBody_octal hdigits, List.length_append, List.length_cons]
    omega

/-- One octal digit is not the character that it stands for. -/
theorem ne_of_ofDigits {d : Char} (hd : d ∈ octalDigits) : Decimal.ofDigits 8 [d] ≠ some d.toNat := by
  simp only [octalDigits, List.mem_cons, List.not_mem_nil, or_false] at hd
  rcases hd with rfl | rfl | rfl | rfl | rfl | rfl | rfl | rfl <;> decide

theorem decodeBody_eq_iff {text name : List Char} (h : SpellsText text name) :
    decodeBody text = name ↔ '\\' ∉ text := by
  induction h with
  | nil => simp [decodeBody]
  | plain c hc _ ih => simp [decodeBody_cons hc, ih, hc.symm]
  | @octal digits c text name hdigits hcode hname ih =>
    -- The digits are too many, or they are one that is another character.
    refine iff_of_false (fun heq => ?_) (fun hmem => hmem List.mem_cons_self)
    rw [decodeBody_octal hdigits] at heq
    have hlength := congrArg List.length heq
    have hle := hname.length_le
    have hpos := List.length_pos_iff.2 hdigits.ne_nil
    rw [List.length_append, List.length_cons] at hlength
    have hone : digits.length = 1 := by omega
    obtain ⟨d, rfl⟩ := List.length_eq_one_iff.1 hone
    obtain ⟨rfl, -⟩ := List.cons.inj heq
    have hd : d ∈ octalRun ([d] ++ text) := by
      rw [hdigits.longest]
      exact List.mem_singleton_self d
    exact ne_of_ofDigits (by simpa using List.mem_takeWhile_imp hd) hcode

end SpellsText

namespace Estree
open Text Concrete

variable {source : Source} {member property : Concrete} {name : String}

/-- That the property of a member is the key `name`, spelled in one of the ways that its place allows. -/
inductive SpellsKey (source : Source) (member property : Concrete) (name : String) : Prop
  | dot : member.label.kind = "member_expression" → property.label.kind = "property_identifier" →
      SpellsName (property.text source.chars).toList name.toList → SpellsKey source member property name
  | brackets (quote : Char) (text : List Char) : member.label.kind = "subscript_expression" →
      property.label.kind = "string" → quote ≠ '\\' →
      (property.text source.chars).toList = quote :: (text ++ [quote]) →
      SpellsText text name.toList → SpellsKey source member property name

theorem SpellsKey.writtenName?_eq_iff (h : SpellsKey source member property name) :
    writtenName? source member property = some name ↔
      '\\' ∉ (property.text source.chars).toList := by
  cases h with
  | dot hmember hproperty hspells =>
    rw [writtenName?, if_pos hmember, if_pos hproperty, Option.some_inj, ← String.toList_inj]
    exact hspells.eq_iff
  | brackets quote text hmember hproperty hquote htext hspells =>
    have hdot : member.label.kind ≠ "member_expression" := by rw [hmember]; decide
    rw [writtenName?, if_neg hdot, if_pos hproperty, Option.some_inj, Quoted.decode, htext,
      Quoted.body_quoted, ← String.toList_inj, String.toList_ofList, hspells.decodeBody_eq_iff]
    simp [hquote.symm]

theorem exists_detected?_iff {c : Concrete} {properties : List String} (hmember : assigned? c = some member)
    (hproperty : property? member = some property) (hname : name ∈ properties) :
    (∃ t ∈ detected? source properties c, t.2.1 = name) ↔
      writtenName? source member property = some name := by
  simp only [detected?, hmember, hproperty, Option.bind_eq_bind, Option.bind_some]
  cases writtenName? source member property with
  | none => simp
  | some written =>
    by_cases hwritten : written ∈ properties
    · simp [hwritten]
    · have hne : written ≠ name := fun heq => hwritten (heq ▸ hname)
      simp [hwritten, hne]

theorem build_eq_some {root top : Concrete} (htop : inner? root = some top) :
    build source root = some (converted source top) := by
  rw [build_eq_result?, result?_eq_map, htop, Option.map_some]

theorem mem_reportedNames_iff {root top : Concrete} (hroot : Grammatical root)
    (htop : inner? root = some top) (properties : List String) :
    name ∈ (Scan.tree [Pollution.rule properties] (converted source top)).map (·.propertyName) ↔
      ∃ d ∈ reached root, ∃ t ∈ detected? source properties d, t.2.1 = name := by
  have hnames : name ∈ (Scan.tree [Pollution.rule properties] (converted source top)).map
      (·.propertyName) ↔ ∃ t ∈ (Scan.tree [Pollution.rule properties] (converted source top)).map
        (fun f => (f.line, f.propertyName, f.snippet)), t.2.1 = name := by
    simp only [List.mem_map, exists_exists_and_eq_and]
  rw [hnames]
  simp only [mem_report_iff hroot htop, List.mem_filterMap]
  constructor
  · rintro ⟨t, ⟨d, hd, ht⟩, hname⟩
    exact ⟨d, hd, t, ht, hname⟩
  · rintro ⟨d, hd, t, ht, hname⟩
    exact ⟨t, ⟨d, hd, ht⟩, hname⟩

/-- An assignment to a sensitive key is reported under the name that the key spells exactly if the key is
written without escapes, however else the name is spelled. -/
theorem value_spelled {root c : Concrete} {properties : List String} (hroot : Grammatical root)
    (hc : c ∈ reached root) (hmember : assigned? c = some member)
    (hproperty : property? member = some property) (hkey : SpellsKey source member property name)
    (hname : name ∈ properties)
    (hothers : ∀ d ∈ reached root, d ≠ c → ∀ t ∈ detected? source properties d, t.2.1 ≠ name) :
    ∃ program findings, build source root = some program ∧
      Scan.value [Pollution.rule properties] (.node program) = .ok findings ∧
      (name ∈ findings.map (·.propertyName) ↔ '\\' ∉ (property.text source.chars).toList) := by
  obtain ⟨top, htop⟩ := inner?_of_mem_reached hroot hc
  refine ⟨converted source top, _, build_eq_some htop, rfl, ?_⟩
  rw [mem_reportedNames_iff hroot htop, ← hkey.writtenName?_eq_iff,
    ← exists_detected?_iff hmember hproperty hname]
  constructor
  · rintro ⟨d, hd, t, ht, htname⟩
    obtain rfl : d = c := by
      by_contra hne
      exact hothers d hd hne t ht htname
    exact ⟨t, ht, htname⟩
  · intro hdetected
    exact ⟨c, hc, hdetected⟩

/-! Sources of one line that assign to a key of `o`. -/

def spanned (kind : String) (field : Option String) (start stop : Nat) (children : List Concrete) :
    Concrete :=
  .node { kind, named := true, extra := false, field, start := ⟨start, 0, 0, Nat.zero_le start⟩, stop }
    children

def token (text : String) (field : Option String) (start : Nat) : Concrete :=
  .node { kind := text, named := false, extra := false, field, start := ⟨start, 0, 0, Nat.zero_le start⟩,
          stop := start + text.length } []

/-- The tree of an assignment of `v` to a member. -/
def assigning (member : Concrete) : Concrete :=
  let stop := member.label.stop
  spanned "assignment_expression" none 0 (stop + 4) [
    member, token "=" none (stop + 1),
    spanned "identifier" (some "right") (stop + 3) (stop + 4) []]

def assigningTree (member : Concrete) : Concrete :=
  let stop := member.label.stop + 4
  spanned "program" none 0 stop [spanned "expression_statement" none 0 stop [assigning member]]

/-- An assignment to `__proto__` that gives the first character of the key by its code. -/
def escapedKey : Source := ⟨"o.\\u005f_proto__ = v".toList.toArray, .script⟩

def escapedKeyProperty : Concrete := spanned "property_identifier" (some "property") 2 16 []

def escapedKeyMember : Concrete :=
  spanned "member_expression" (some "left") 0 16 [
    spanned "identifier" (some "object") 0 1 [], token "." none 1, escapedKeyProperty]

/-- An assignment to `__proto__` that gives the first character of the key in octal digits. -/
def octalKey : Source := ⟨"o['\\137_proto__'] = v".toList.toArray, .script⟩

def octalKeyProperty : Concrete :=
  spanned "string" (some "index") 2 16 [
    token "'" none 2, spanned "escape_sequence" none 3 7 [], spanned "string_fragment" none 7 15 [],
    token "'" none 15]

def octalKeyMember : Concrete :=
  spanned "subscript_expression" (some "left") 0 17 [
    spanned "identifier" (some "object") 0 1 [], token "[" none 1, octalKeyProperty, token "]" none 16]

theorem spellsKey_escapedKey : SpellsKey escapedKey escapedKeyMember escapedKeyProperty "__proto__" := by
  have htext : (escapedKeyProperty.text escapedKey.chars).toList =
      '\\' :: 'u' :: (['0', '0', '5', 'f'] ++ "_proto__".toList) := by decide
  refine .dot rfl rfl ?_
  rw [htext]
  exact .fixed _ '_' (by decide) rfl (by decide) (.plainly (by decide))

theorem text_octalKeyProperty : (octalKeyProperty.text octalKey.chars).toList =
    '\'' :: ('\\' :: (['1', '3', '7'] ++ "_proto__".toList) ++ ['\'']) := by decide

theorem isOctalEscape_octalKey : IsOctalEscape ['1', '3', '7'] "_proto__".toList :=
  ⟨by decide, by decide, by decide⟩

theorem spellsKey_octalKey : SpellsKey octalKey octalKeyMember octalKeyProperty "__proto__" :=
  .brackets _ _ rfl rfl (by decide) text_octalKeyProperty
    (.octal _ '_' isOctalEscape_octalKey (by decide) (.plainly (by decide)))

/-- The digits of the escape stay in the name. -/
theorem writtenName?_octalKey :
    writtenName? octalKey octalKeyMember octalKeyProperty = some "137_proto__" := by
  have hstring : octalKeyProperty.label.kind = "string" := rfl
  rw [writtenName?, if_neg (by decide), if_pos hstring, Quoted.decode, text_octalKeyProperty,
    Quoted.body_quoted, Quoted.decodeBody_octal isOctalEscape_octalKey,
    Quoted.decodeBody_eq_self (by decide)]
  rfl

theorem detected?_of_not_assigned {c : Concrete} {properties : List String} (h : assigned? c = none) :
    detected? source properties c = none := by
  rw [detected?, h]
  rfl

theorem filterMap_detected?_octalKey : (reached (assigningTree octalKeyMember)).filterMap
    (detected? octalKey Pollution.defaultProperties) = [] := by
  have hassigned : (reached (assigningTree octalKeyMember)).filter (fun d => (assigned? d).isSome) =
      [assigning octalKeyMember] := rfl
  rw [List.filterMap_eq_nil_iff]
  intro d hd
  cases hd? : assigned? d with
  | none => exact detected?_of_not_assigned hd?
  | some member =>
    have hmem : d ∈ [assigning octalKeyMember] := by
      rw [← hassigned, List.mem_filter, hd?]
      exact ⟨hd, rfl⟩
    obtain rfl := List.mem_singleton.1 hmem
    have hmember : assigned? (assigning octalKeyMember) = some octalKeyMember := rfl
    have hproperty : property? octalKeyMember = some octalKeyProperty := rfl
    simp only [detected?, hmember, hproperty, writtenName?_octalKey, Option.bind_eq_bind, Option.bind_some]
    decide

theorem value_spelled_octalKey :
    SpellsKey octalKey octalKeyMember octalKeyProperty "__proto__" ∧
      ∃ program findings, build octalKey (assigningTree octalKeyMember) = some program ∧
        Scan.value [Pollution.rule Pollution.defaultProperties] (.node program) = .ok findings ∧
        "__proto__" ∉ findings.map (·.propertyName) := by
  have hreached : assigning octalKeyMember ∈ reached (assigningTree octalKeyMember) :=
    List.mem_of_getElem? (i := 2) rfl
  have hnone := filterMap_detected?_octalKey
  have hothers : ∀ d ∈ reached (assigningTree octalKeyMember), d ≠ assigning octalKeyMember →
      ∀ t ∈ detected? octalKey Pollution.defaultProperties d, t.2.1 ≠ "__proto__" := by
    intro d hd _ t ht
    rw [List.filterMap_eq_nil_iff.1 hnone d hd] at ht
    cases ht
  obtain ⟨program, findings, hprogram, hfindings, hiff⟩ :=
    value_spelled (by decide) hreached rfl rfl spellsKey_octalKey (by decide) hothers
  have hescape : '\\' ∈ (octalKeyProperty.text octalKey.chars).toList := by decide
  exact ⟨spellsKey_octalKey, program, findings, hprogram, hfindings, fun hmem => hiff.1 hmem hescape⟩

theorem value_eq_nil {root : Concrete} {properties : List String} (hroot : Grammatical root)
    (hshown : shown root = true)
    (hnone : (reached root).filterMap (detected? source properties) = []) :
    ∃ program, build source root = some program ∧
      Scan.value [Pollution.rule properties] (.node program) = .ok [] := by
  rw [← isSome_inner? hroot] at hshown
  obtain ⟨top, htop⟩ := Option.isSome_iff_exists.1 hshown
  refine ⟨converted source top, build_eq_some htop, congrArg Except.ok ?_⟩
  have hreport : (Scan.tree [Pollution.rule properties] (converted source top)).map
      (fun f => (f.line, f.propertyName, f.snippet)) = [] := by
    rw [List.eq_nil_iff_forall_not_mem]
    intro t ht
    rw [mem_report_iff hroot htop, hnone] at ht
    exact List.not_mem_nil ht
  exact List.map_eq_nil_iff.1 hreport

/-- Neither key is reported, though both spell `__proto__`. -/
theorem value_escaped_nil :
    (SpellsKey escapedKey escapedKeyMember escapedKeyProperty "__proto__" ∧
      assigned? (assigning escapedKeyMember) = some escapedKeyMember ∧
      property? escapedKeyMember = some escapedKeyProperty ∧
      ∃ program, build escapedKey (assigningTree escapedKeyMember) = some program ∧
        Scan.value [Pollution.rule Pollution.defaultProperties] (.node program) = .ok []) ∧
    (SpellsKey octalKey octalKeyMember octalKeyProperty "__proto__" ∧
      assigned? (assigning octalKeyMember) = some octalKeyMember ∧
      property? octalKeyMember = some octalKeyProperty ∧
      ∃ program, build octalKey (assigningTree octalKeyMember) = some program ∧
        Scan.value [Pollution.rule Pollution.defaultProperties] (.node program) = .ok []) := by
  refine ⟨⟨spellsKey_escapedKey, rfl, rfl, ?_⟩, spellsKey_octalKey, rfl, rfl, ?_⟩
  · exact value_eq_nil (by decide) rfl (by decide)
  · exact value_eq_nil (by decide) rfl filterMap_detected?_octalKey

end Estree

end PrototypeScan.JavaScript
