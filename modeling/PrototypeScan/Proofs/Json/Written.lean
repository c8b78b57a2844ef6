import Mathlib.Data.List.Forall2
import PrototypeScan.Proofs.Json.Tokens

/-!
Values without reals that are not nested too deeply are read back as they were written, on one line or on
indented ones.
-/
namespace PrototypeScan.Json
open Text Number

variable {known : Nat → String → Bool} {depth : Nat}

/-- That carrying out a task at a text yields a value, whatever follows the text. -/
def Performs (known : Nat → String → Bool) (depth : Nat) (task : Task) (text : List Char) (v : Json) : Prop :=
  ∀ fuel (k : Cursor) rest, text.length < fuel → EndsNumber rest → k.At (text ++ rest) →
    ∃ k' : Cursor, k'.At rest ∧ perform known fuel depth task k = .ok (v, k')

/-- That a text reads as a value. `depth` is how many arrays and objects may be opened, less one. -/
structure Reads (known : Nat → String → Bool) (depth : Nat) (v : Json) (text : List Char) : Prop where
  first : ∃ c cs, text = c :: cs ∧ Cursor.isSpace (.char c) = false ∧ c ≠ ']'
  performs : Performs known depth .value text v

/-- A text that a number in front of it ends at. -/
structure Closes (text : List Char) : Prop where
  ne_nil : text ≠ []
  ends : EndsNumber text

theorem Closes.append {text : List Char} (h : Closes text) (rest : List Char) : EndsNumber (text ++ rest) := by
  obtain ⟨c, cs, rfl⟩ := List.exists_cons_of_ne_nil h.ne_nil
  intro d hd
  exact h.ends d hd

theorem closes_blank {blank : List Char} (hblank : IsBlank blank) {text : List Char} (h : Closes text) :
    Closes (blank ++ text) := by
  cases blank with
  | nil => exact h
  | cons b blank =>
    have hb := hblank b List.mem_cons_self
    refine ⟨List.cons_ne_nil _ _, fun c hc => ?_⟩
    obtain rfl := Option.some.inj hc
    simp only [Cursor.isSpace, is_char, Bool.or_eq_true, decide_eq_true_iff] at hb
    rcases hb with ((rfl | rfl) | rfl) | rfl <;> decide

theorem closes_cons {c : Char} (hc : c ∈ [',', ']', '}']) (text : List Char) : Closes (c :: text) := by
  refine ⟨List.cons_ne_nil _ _, fun d hd => ?_⟩
  obtain rfl := Option.some.inj hd
  simp only [List.mem_cons, List.not_mem_nil, or_false] at hc
  rcases hc with rfl | rfl | rfl <;> decide

theorem startsDense_cons {c : Char} (hc : Cursor.isSpace (.char c) = false) (text : List Char) :
    StartsDense (c :: text) := by
  intro d hd
  obtain rfl := Option.some.inj hd
  exact hc

theorem Reads.startsDense {v : Json} {text : List Char} (h : Reads known depth v text) (rest : List Char) :
    StartsDense (text ++ rest) := by
  obtain ⟨c, cs, rfl, hc, -⟩ := h.first
  exact startsDense_cons hc _

/-! Scalars. -/

theorem perform_value {k : Cursor} {c : Char} {text : List Char} (h : k.At (c :: text))
    (hc : Cursor.isSpace (.char c) = false) : k.skipSpace = k ∧ k.rest = .char c :: text.map .char :=
  ⟨h.skipSpace_eq (startsDense_cons hc text), h⟩

theorem reads_string (s : String) : Reads known depth (.string s) (quote s) := by
  refine ⟨⟨'"', _, rfl, by decide, by decide⟩, fun fuel k rest hfuel _ hk => ?_⟩
  obtain ⟨fuel, rfl⟩ := Nat.exists_eq_add_one_of_ne_zero (Nat.ne_zero_of_lt hfuel)
  have hat : k.At ('"' :: (s.toList.flatMap escapeChar ++ '"' :: rest)) := by
    simpa [quote] using hk
  obtain ⟨hskip, hrest⟩ := perform_value hat (by decide)
  obtain ⟨k', hk', hread⟩ := Quoted.read_quote hat.next
  have hdigit : '"'.isDigit = false := by decide
  refine ⟨k', hk', ?_⟩
  simp only [perform, hskip, hrest, hread, hdigit, Char.reduceEq, Bool.false_eq_true, if_true, if_false,
    Except.map]

theorem readWord_eq {k : Cursor} {word text : List Char} (h : k.At (word ++ text)) :
    ∃ k' : Cursor, k'.At text ∧ readWord k word = .ok k' := by
  induction word generalizing k with
  | nil => exact ⟨k, h, rfl⟩
  | cons c word ih =>
    have hrest : k.rest = .char c :: (word ++ text).map .char := h
    obtain ⟨k', hk', hread⟩ := ih h.next
    refine ⟨k', hk', ?_⟩
    simp only [readWord, hrest, is_char, decide_true, if_true, hread]

/-- A value that is one word is read as such once its first letter tells which. -/
theorem reads_word {v : Json} {c : Char} {word : List Char} (hspace : Cursor.isSpace (.char c) = false)
    (hclose : c ≠ ']') (hword : ∀ fuel (k : Cursor) text, k.At (c :: text) →
      perform known (fuel + 1) depth .value k = (readWord k.next word).map fun k => (v, k)) :
    Reads known depth v (c :: word) := by
  refine ⟨⟨c, word, rfl, hspace, hclose⟩, fun fuel k rest hfuel _ hk => ?_⟩
  obtain ⟨fuel, rfl⟩ := Nat.exists_eq_add_one_of_ne_zero (Nat.ne_zero_of_lt hfuel)
  rw [List.cons_append] at hk
  obtain ⟨k', hk', hread⟩ := readWord_eq hk.next
  refine ⟨k', hk', ?_⟩
  rw [hword fuel k _ hk, hread]
  rfl

theorem reads_null : Reads known depth .null "null".toList := by
  show Reads known depth .null ('n' :: "ull".toList)
  apply reads_word (by decide) (by decide)
  intro fuel k text hk
  obtain ⟨hskip, hrest⟩ := perform_value hk (by decide)
  simp only [perform, hskip, hrest, if_true]

theorem reads_bool (b : Bool) : Reads known depth (.bool b) (if b then "true" else "false").toList := by
  cases b with
  | true =>
    show Reads known depth (.bool true) ('t' :: "rue".toList)
    apply reads_word (by decide) (by decide)
    intro fuel k text hk
    obtain ⟨hskip, hrest⟩ := perform_value hk (by decide)
    simp only [perform, hskip, hrest, Char.reduceEq, if_true, if_false]
  | false =>
    show Reads known depth (.bool false) ('f' :: "alse".toList)
    apply reads_word (by decide) (by decide)
    intro fuel k text hk
    obtain ⟨hskip, hrest⟩ := perform_value hk (by decide)
    simp only [perform, hskip, hrest, Char.reduceEq, if_true, if_false]

theorem write_ofNat (n : Nat) : (Number.integer n).write = Nat.toDigits 10 n := by
  have hwrite : (Number.integer n).write = (toString n).toList := rfl
  rw [hwrite, Nat.toString_eq_ofList_toDigits, String.toList_ofList]

theorem not_special_of_isDigit {c : Char} (hc : c.isDigit = true) :
    c ≠ 'n' ∧ c ≠ 't' ∧ c ≠ 'f' ∧ c ≠ '-' ∧ c ≠ ']' ∧ Cursor.isSpace (.char c) = false := by
  refine ⟨?_, ?_, ?_, ?_, ?_, ?_⟩
  iterate 5
    rintro rfl
    exact absurd hc (by decide)
  simp only [Cursor.isSpace, is_char, Bool.or_eq_false_iff, decide_eq_false_iff_not]
  refine ⟨⟨⟨?_, ?_⟩, ?_⟩, ?_⟩ <;>
  · rintro rfl
    exact absurd hc (by decide)

theorem reads_natural {n : Nat} (hn : n < bound64) :
    Reads known depth (.ofNat n) (Number.integer n).write := by
  rw [write_ofNat]
  obtain ⟨d, ds, hds⟩ := List.exists_cons_of_ne_nil (Nat.toDigits_ne_nil (b := 10) (n := n))
  have hd : d.isDigit = true :=
    Nat.isDigit_of_mem_toDigits (b := 10) (by decide) (Nat.le_refl _) (hds ▸ List.mem_cons_self)
  obtain ⟨hnull, htrue, hfalse, hminus, hclose, hspace⟩ := not_special_of_isDigit hd
  refine ⟨⟨d, ds, hds, hspace, hclose⟩, fun fuel k rest hfuel hends hk => ?_⟩
  obtain ⟨fuel, rfl⟩ := Nat.exists_eq_add_one_of_ne_zero (Nat.ne_zero_of_lt hfuel)
  obtain ⟨k', hk', hread⟩ := read_toDigits hn hends hk
  rw [hds] at hk
  obtain ⟨hskip, hrest⟩ := perform_value hk hspace
  refine ⟨k', hk', ?_⟩
  simp only [perform, hskip, hrest, hread, hnull, htrue, hfalse, hminus, hd, if_true, if_false, Except.map]
  rfl

/-! Parts of arrays and objects. -/

/-- Texts with a comma and a gap in front of each. -/
def following (gap : List Char) (texts : List (List Char)) : List Char :=
  texts.flatMap fun text => ',' :: (gap ++ text)

theorem closes_following (gap : List Char) (texts : List (List Char)) {close : List Char} (hclose : IsBlank close)
    {c : Char} (hc : c ∈ [',', ']', '}']) : Closes (following gap texts ++ (close ++ [c])) := by
  cases texts with
  | nil => exact closes_blank hclose (closes_cons hc [])
  | cons text texts => exact closes_cons List.mem_cons_self _

theorem commaSeparated_cons (x : List Char) (xs : List (List Char)) :
    commaSeparated (x :: xs) = x ++ xs.flatMap (',' :: ·) := by
  induction xs generalizing x with
  | nil => simp [commaSeparated]
  | cons y ys ih =>
    rw [commaSeparated, ih, List.flatMap_cons, List.cons_append]
    exact List.cons_ne_nil _ _

theorem commaSeparated_gap (gap text : List Char) (texts : List (List Char)) (close : List Char) :
    commaSeparated ((text :: texts).map (gap ++ ·)) ++ close = gap ++ (text ++ (following gap texts ++ close)) := by
  rw [List.map_cons, commaSeparated_cons, List.flatMap_map, following]
  simp only [List.append_assoc]

/-- How parts are read one by one: the end, a part that comes first, and one behind others. `reads` tells the
text of a part, `task` what is done behind some parts, and `done` what they make up. -/
structure ReadsParts (known : Nat → String → Bool) (depth : Nat) {α : Type} (reads : α → List Char → Prop)
    (task : List α → Task) (done : List α → Json) (right : Char) : Prop where
  right_mem : right ∈ [',', ']', '}']
  finish : ∀ {close}, IsBlank close → ∀ latest,
    Performs known depth (task latest) (close ++ [right]) (done latest.reverse)
  first : ∀ {gap a text more w}, IsBlank gap → reads a text → Closes more →
    Performs known depth (task [a]) more w → Performs known depth (task []) (gap ++ (text ++ more)) w
  next : ∀ {gap latest a text more w}, IsBlank gap → latest ≠ [] → reads a text → Closes more →
    Performs known depth (task (a :: latest)) more w →
      Performs known depth (task latest) (',' :: gap ++ (text ++ more)) w

namespace ReadsParts

variable {α : Type} {reads : α → List Char → Prop} {task : List α → Task} {done : List α → Json} {right : Char}
  {gap close : List Char} {parts : List α} {texts : List (List Char)}

/-- Parts behind the first one, with what closes them. -/
theorem performs_following (hparts : ReadsParts known depth reads task done right) (hgap : IsBlank gap)
    (hclose : IsBlank close) (h : List.Forall₂ reads parts texts) {latest : List α} (hlatest : latest ≠ []) :
    Performs known depth (task latest) (following gap texts ++ (close ++ [right])) (done (latest.reverse ++ parts)) := by
  induction h generalizing latest with
  | nil =>
    rw [List.append_nil]
    exact hparts.finish hclose latest
  | @cons a text parts texts ha _ ih =>
    have hrest := ih (List.cons_ne_nil a latest)
    rw [List.reverse_cons, List.append_assoc, List.singleton_append] at hrest
    have hmore := closes_following gap texts hclose hparts.right_mem
    have hstep := hparts.next hgap hlatest ha hmore hrest
    simpa only [following, List.flatMap_cons, List.cons_append, List.append_assoc] using hstep

/-- All parts, with what closes them. -/
theorem performs (hparts : ReadsParts known depth reads task done right) (hgap : IsBlank gap)
    (hclose : IsBlank close) (h : List.Forall₂ reads parts texts) :
    Performs known depth (task []) (commaSeparated (texts.map (gap ++ ·)) ++ (close ++ [right])) (done parts) := by
  cases h with
  | nil => exact hparts.finish hclose []
  | @cons a text parts texts ha hrest =>
    have hfollowing := hparts.performs_following hgap hclose hrest (List.cons_ne_nil a [])
    have hmore := closes_following gap texts hclose hparts.right_mem
    rw [commaSeparated_gap]
    exact hparts.first hgap ha hmore hfollowing

end ReadsParts

/-- A value whose first character opens it is read as what comes behind that. -/
theorem reads_opened {task : Task} {v : Json} {c : Char} {text : List Char}
    (hspace : Cursor.isSpace (.char c) = false) (hclose : c ≠ ']')
    (hopen : ∀ fuel (k : Cursor) rest, k.At (c :: rest) →
      perform known (fuel + 1) (depth + 1) .value k = perform known fuel depth task k.next)
    (h : Performs known depth task text v) : Reads known (depth + 1) v (c :: text) := by
  refine ⟨⟨c, text, rfl, hspace, hclose⟩, fun fuel k rest hfuel hends hk => ?_⟩
  obtain ⟨fuel, rfl⟩ := Nat.exists_eq_add_one_of_ne_zero (Nat.ne_zero_of_lt hfuel)
  rw [List.cons_append] at hk
  rw [List.length_cons] at hfuel
  obtain ⟨k', hk', hread⟩ := h fuel k.next rest (by omega) hends hk.next
  refine ⟨k', hk', ?_⟩
  rw [hopen fuel k _ hk, hread]

/-! Arrays. -/

theorem performs_items_end {close : List Char} (hclose : IsBlank close) (latest : List Json) :
    Performs known depth (.items latest) (close ++ [']']) (.array latest.reverse) := by
  intro fuel k rest hfuel _ hk
  obtain ⟨fuel, rfl⟩ := Nat.exists_eq_add_one_of_ne_zero (Nat.ne_zero_of_lt hfuel)
  rw [List.append_assoc, List.singleton_append] at hk
  have hat := hk.skipSpace hclose (startsDense_cons (by decide) rest)
  have hrest : k.skipSpace.rest = .char ']' :: rest.map .char := hat
  refine ⟨k.skipSpace.next, hat.next, ?_⟩
  simp [perform, moreItems, hrest, bind, Except.bind]

/-- That an item follows behind `lead`. -/
def LeadsToItem (latest : List Json) (lead : List Char) : Prop :=
  ∀ (k : Cursor) c text, Cursor.isSpace (.char c) = false → c ≠ ']' → k.At (lead ++ c :: text) →
    ∃ k' : Cursor, k'.At (c :: text) ∧ moreItems latest.isEmpty k = .ok (true, k')

theorem leadsToItem_first {gap : List Char} (hgap : IsBlank gap) : LeadsToItem [] gap := by
  intro k c text hspace hclose hk
  have hat := hk.skipSpace hgap (startsDense_cons hspace text)
  have hrest : k.skipSpace.rest = .char c :: text.map .char := hat
  refine ⟨k.skipSpace, hat, ?_⟩
  simp [moreItems, hrest, hclose]

theorem leadsToItem_next {gap : List Char} (hgap : IsBlank gap) {latest : List Json} (hlatest : latest ≠ []) :
    LeadsToItem latest (',' :: gap) := by
  intro k c text hspace hclose hk
  have hskip : k.skipSpace = k := hk.skipSpace_eq (startsDense_cons (by decide) _)
  have hrest : k.rest = .char ',' :: (gap ++ c :: text).map .char := hk
  have hat := hk.next.skipSpace hgap (startsDense_cons hspace text)
  have hnext : k.next.skipSpace.rest = .char c :: text.map .char := hat
  refine ⟨k.next.skipSpace, hat, ?_⟩
  simp [moreItems, hskip, hrest, hnext, hclose, hlatest]

theorem performs_items_cons {latest : List Json} {lead text more : List Char} {v w : Json}
    (hlead : LeadsToItem latest lead) (hv : Reads known depth v text) (hmore : Closes more)
    (h : Performs known depth (.items (v :: latest)) more w) :
    Performs known depth (.items latest) (lead ++ (text ++ more)) w := by
  intro fuel k rest hfuel hends hk
  obtain ⟨fuel, rfl⟩ := Nat.exists_eq_add_one_of_ne_zero (Nat.ne_zero_of_lt hfuel)
  obtain ⟨c, cs, htext, hspace, hclose⟩ := hv.first
  have hpos : 0 < more.length := List.length_pos_iff.2 hmore.ne_nil
  have hlength : text.length = cs.length + 1 := by rw [htext, List.length_cons]
  simp only [List.length_append] at hfuel
  have hat : k.At (lead ++ c :: (cs ++ (more ++ rest))) := by
    simpa [htext] using hk
  obtain ⟨k₁, hk₁, hmoreItems⟩ := hlead k c _ hspace hclose hat
  have hk₁ : k₁.At (text ++ (more ++ rest)) := by
    rw [htext]
    exact hk₁
  obtain ⟨k₂, hk₂, hread⟩ := hv.performs fuel k₁ _ (by omega) (hmore.append rest) hk₁
  obtain ⟨k₃, hk₃, hrun⟩ := h fuel k₂ rest (by omega) hends hk₂
  refine ⟨k₃, hk₃, ?_⟩
  rw [← hrun]
  simp [perform, hmoreItems, hread, bind, Except.bind]

theorem readsParts_items : ReadsParts known depth (Reads known depth) .items .array ']' where
  right_mem := by decide
  finish := performs_items_end
  first hgap := performs_items_cons (leadsToItem_first hgap)
  next hgap hlatest := performs_items_cons (leadsToItem_next hgap hlatest)

theorem reads_array {gap close : List Char} (hgap : IsBlank gap) (hclose : IsBlank close) (hdepth : 0 < depth)
    {items : List Json} {texts : List (List Char)} (h : List.Forall₂ (Reads known depth) items texts) :
    Reads known (depth + 1) (.array items)
      ('[' :: (commaSeparated (texts.map (gap ++ ·)) ++ (close ++ [']']))) := by
  refine reads_opened (by decide) (by decide) ?_ (readsParts_items.performs hgap hclose h)
  intro fuel k rest hk
  obtain ⟨hskip, hrest⟩ := perform_value hk (by decide)
  have hdigit : '['.isDigit = false := by decide
  have hopen : ¬ (depth + 1 ≤ 1) := by omega
  simp only [perform, hskip, hrest, hdigit, hopen, Char.reduceEq, Bool.false_eq_true, if_true, if_false,
    Nat.add_sub_cancel]

/-! Objects. -/

/-- That a text reads as an entry of an object, with a key that is known; there may be blanks behind the
colon. -/
def ReadsEntry (known : Nat → String → Bool) (depth : Nat) (e : String × Json) (text : List Char) : Prop :=
  known depth e.1 = true ∧
    ∃ blank value, IsBlank blank ∧ Reads known depth e.2 value ∧ text = quote e.1 ++ ':' :: (blank ++ value)

theorem Reads.behind {v : Json} {text blank : List Char} (h : Reads known depth v text) (hblank : IsBlank blank) :
    Performs known depth .value (blank ++ text) v := by
  intro fuel k rest hfuel hends hk
  obtain ⟨fuel, rfl⟩ := Nat.exists_eq_add_one_of_ne_zero (Nat.ne_zero_of_lt hfuel)
  rw [List.append_assoc] at hk
  have hat := hk.skipSpace hblank (h.startsDense rest)
  have hskip := hat.skipSpace_eq (h.startsDense rest)
  rw [List.length_append] at hfuel
  obtain ⟨k', hk', hread⟩ := h.performs (fuel + 1) k.skipSpace rest (by omega) hends hat
  refine ⟨k', hk', ?_⟩
  rw [← hread]
  simp only [perform, hskip]

theorem readColon_eq {k : Cursor} {text : List Char} (h : k.At (':' :: text)) : readColon k = .ok k.next := by
  have hskip : k.skipSpace = k := h.skipSpace_eq (startsDense_cons (by decide) text)
  have hrest : k.rest = .char ':' :: text.map .char := h
  simp [readColon, hskip, hrest]

theorem performs_entries_end {close : List Char} (hclose : IsBlank close) (latest : List (String × Json)) :
    Performs known depth (.entries latest) (close ++ ['}']) (.object latest.reverse) := by
  intro fuel k rest hfuel _ hk
  obtain ⟨fuel, rfl⟩ := Nat.exists_eq_add_one_of_ne_zero (Nat.ne_zero_of_lt hfuel)
  rw [List.append_assoc, List.singleton_append] at hk
  have hat := hk.skipSpace hclose (startsDense_cons (by decide) rest)
  have hrest : k.skipSpace.rest = .char '}' :: rest.map .char := hat
  refine ⟨k.skipSpace.next, hat.next, ?_⟩
  simp [perform, moreEntries, hrest, bind, Except.bind]

/-- That an entry follows behind `lead`. -/
def LeadsToEntry (latest : List (String × Json)) (lead : List Char) : Prop :=
  ∀ (k : Cursor) text, k.At (lead ++ '"' :: text) →
    ∃ k' : Cursor, k'.At ('"' :: text) ∧ moreEntries latest.isEmpty k = .ok (true, k')

theorem leadsToEntry_first {gap : List Char} (hgap : IsBlank gap) : LeadsToEntry [] gap := by
  intro k text hk
  have hat := hk.skipSpace hgap (startsDense_cons (by decide) text)
  have hrest : k.skipSpace.rest = .char '"' :: text.map .char := hat
  refine ⟨k.skipSpace, hat, ?_⟩
  simp [moreEntries, hrest]

theorem leadsToEntry_next {gap : List Char} (hgap : IsBlank gap) {latest : List (String × Json)}
    (hlatest : latest ≠ []) : LeadsToEntry latest (',' :: gap) := by
  intro k text hk
  have hskip : k.skipSpace = k := hk.skipSpace_eq (startsDense_cons (by decide) _)
  have hrest : k.rest = .char ',' :: (gap ++ '"' :: text).map .char := hk
  have hat := hk.next.skipSpace hgap (startsDense_cons (by decide) text)
  have hnext : k.next.skipSpace.rest = .char '"' :: text.map .char := hat
  refine ⟨k.next.skipSpace, hat, ?_⟩
  simp [moreEntries, hskip, hrest, hnext, hlatest]

/-- An entry with a key that is known is read as its value, and then the entries behind it. -/
theorem perform_entry {latest : List (String × Json)} {lead text : List Char} {key : String} {k : Cursor}
    (hlead : LeadsToEntry latest lead) (hknown : known depth key = true)
    (hk : k.At (lead ++ (quote key ++ ':' :: text))) (fuel : Nat) :
    ∃ k' : Cursor, k'.At text ∧ perform known (fuel + 1) depth (.entries latest) k =
      (perform known fuel depth .value k' >>= fun r => perform known fuel depth (.entries ((key, r.1) :: latest)) r.2) := by
  have hat : k.At (lead ++ '"' :: (key.toList.flatMap escapeChar ++ '"' :: ':' :: text)) := by
    simpa [quote] using hk
  obtain ⟨k₁, hk₁, hmoreEntries⟩ := hlead k _ hat
  obtain ⟨k₂, hk₂, hkey⟩ := Quoted.read_quote hk₁.next
  have hcolon := readColon_eq hk₂
  refine ⟨k₂.next, hk₂.next, ?_⟩
  simp [perform, hmoreEntries, hkey, hcolon, hknown, bind, Except.bind]

theorem performs_entries_cons {latest : List (String × Json)} {lead text more : List Char} {e : String × Json}
    {w : Json} (hlead : LeadsToEntry latest lead) (he : ReadsEntry known depth e text) (hmore : Closes more)
    (h : Performs known depth (.entries (e :: latest)) more w) :
    Performs known depth (.entries latest) (lead ++ (text ++ more)) w := by
  intro fuel k rest hfuel hends hk
  obtain ⟨fuel, rfl⟩ := Nat.exists_eq_add_one_of_ne_zero (Nat.ne_zero_of_lt hfuel)
  obtain ⟨hknown, blank, value, hblank, hvalue, rfl⟩ := he
  have hpos : 0 < more.length := List.length_pos_iff.2 hmore.ne_nil
  simp only [List.length_append, List.length_cons] at hfuel
  have hat : k.At (lead ++ (quote e.1 ++ ':' :: (blank ++ value ++ (more ++ rest)))) := by
    simpa using hk
  obtain ⟨k₁, hk₁, hentry⟩ := perform_entry hlead hknown hat fuel
  obtain ⟨k₂, hk₂, hread⟩ := hvalue.behind hblank fuel k₁ _
    (by rw [List.length_append]; omega) (hmore.append rest) hk₁
  obtain ⟨k₃, hk₃, hrun⟩ := h fuel k₂ rest (by omega) hends hk₂
  refine ⟨k₃, hk₃, ?_⟩
  rw [hentry, hread, ← hrun]
  rfl

theorem readsParts_entries : ReadsParts known depth (ReadsEntry known depth) .entries .object '}' where
  right_mem := by decide
  finish := performs_entries_end
  first hgap := performs_entries_cons (leadsToEntry_first hgap)
  next hgap hlatest := performs_entries_cons (leadsToEntry_next hgap hlatest)

theorem reads_object {gap close : List Char} (hgap : IsBlank gap) (hclose : IsBlank close) (hdepth : 0 < depth)
    {entries : List (String × Json)} {texts : List (List Char)}
    (h : List.Forall₂ (ReadsEntry known depth) entries texts) :
    Reads known (depth + 1) (.object entries)
      ('{' :: (commaSeparated (texts.map (gap ++ ·)) ++ (close ++ ['}']))) := by
  refine reads_opened (by decide) (by decide) ?_ (readsParts_entries.performs hgap hclose h)
  intro fuel k rest hk
  obtain ⟨hskip, hrest⟩ := perform_value hk (by decide)
  have hdigit : '{'.isDigit = false := by decide
  have hopen : ¬ (depth + 1 ≤ 1) := by omega
  simp only [perform, hskip, hrest, hdigit, hopen, Char.reduceEq, Bool.false_eq_true, if_true, if_false,
    Nat.add_sub_cancel]

/-! What is written, on one line and on indented ones. -/

/-- That a value has no reals and no integers but natural ones of 64 bits, with at most `depth` arrays and
objects inside of each other, less one, and that all keys are known. -/
inductive Writable (known : Nat → String → Bool) : Nat → Json → Prop where
  | null {depth : Nat} : Writable known depth .null
  | bool {depth : Nat} (b : Bool) : Writable known depth (.bool b)
  | natural {depth n : Nat} (h : n < bound64) : Writable known depth (.ofNat n)
  | string {depth : Nat} (s : String) : Writable known depth (.string s)
  | array {depth : Nat} {items : List Json} (hdepth : 0 < depth) (h : ∀ v ∈ items, Writable known depth v) :
    Writable known (depth + 1) (.array items)
  | object {depth : Nat} {entries : List (String × Json)} (hdepth : 0 < depth)
    (hknown : ∀ e ∈ entries, known depth e.1 = true) (h : ∀ e ∈ entries, Writable known depth e.2) :
    Writable known (depth + 1) (.object entries)

theorem writable_object {entries : List (String × Json)} (hdepth : 0 < depth)
    (h : ∀ e ∈ entries, known depth e.1 = true ∧ Writable known depth e.2) :
    Writable known (depth + 1) (.object entries) :=
  .object hdepth (fun e he => (h e he).1) fun e he => (h e he).2

theorem isBlank_nil : IsBlank [] := by
  intro c hc
  exact absurd hc List.not_mem_nil

theorem isBlank_newLine (level : Nat) : IsBlank (newLine level) := by
  intro c hc
  rw [newLine, List.mem_cons, List.mem_replicate] at hc
  rcases hc with rfl | ⟨-, rfl⟩ <;> decide

theorem isBlank_space : IsBlank [' '] := by
  intro c hc
  rw [List.mem_singleton] at hc
  rw [hc]
  decide

theorem writeItems_eq_map (items : List Json) : writeItems items = items.map writeCompact := by
  induction items with
  | nil => rfl
  | cons v items ih => rw [writeItems, ih, List.map_cons]

theorem writeEntries_eq_map (entries : List (String × Json)) :
    writeEntries entries = entries.map fun e => quote e.1 ++ ':' :: writeCompact e.2 := by
  induction entries with
  | nil => rfl
  | cons e entries ih => rw [writeEntries, writeEntry, ih, List.map_cons]

theorem prettyItems_eq_map (level : Nat) (items : List Json) :
    prettyItems level items = items.map (writePretty level) := by
  induction items with
  | nil => rfl
  | cons v items ih => rw [prettyItems, ih, List.map_cons]

theorem prettyEntries_eq_map (level : Nat) (entries : List (String × Json)) :
    prettyEntries level entries = entries.map fun e => quote e.1 ++ ':' :: ' ' :: writePretty level e.2 := by
  induction entries with
  | nil => rfl
  | cons e entries ih => rw [prettyEntries, prettyEntry, ih, List.map_cons]

theorem forall₂_map {α β : Type} {R : α → β → Prop} {as : List α} {f : α → β} (h : ∀ a ∈ as, R a (f a)) :
    List.Forall₂ R as (as.map f) := by
  rw [List.forall₂_map_right_iff, List.forall₂_same]
  exact h

theorem reads_compact {v : Json} (h : Writable known depth v) : Reads known depth v (writeCompact v) := by
  induction h with
  | null => exact reads_null
  | bool b => exact reads_bool b
  | natural h => exact reads_natural h
  | string s => exact reads_string s
  | @array depth items hdepth _ ih =>
    have harray := reads_array isBlank_nil isBlank_nil hdepth (forall₂_map ih)
    simpa only [writeCompact, writeItems_eq_map, List.nil_append, List.map_id', List.cons_append] using harray
  | @object depth entries hdepth hknown _ ih =>
    have hentries : ∀ e ∈ entries, ReadsEntry known depth e (quote e.1 ++ ':' :: writeCompact e.2) :=
      fun e he => ⟨hknown e he, [], writeCompact e.2, isBlank_nil, ih e he, rfl⟩
    have hobject := reads_object isBlank_nil isBlank_nil hdepth (forall₂_map hentries)
    simpa only [writeCompact, writeEntries_eq_map, List.nil_append, List.map_id', List.cons_append] using hobject

/-- There is no line between the brackets of an empty list, and one for each item else. -/
theorem exists_bracketed (left right : Char) (level : Nat) (lines : List (List Char)) :
    ∃ gap close, IsBlank gap ∧ IsBlank close ∧
      bracketed left right level lines = left :: (commaSeparated (lines.map (gap ++ ·)) ++ (close ++ [right])) := by
  cases lines with
  | nil => exact ⟨[], [], isBlank_nil, isBlank_nil, rfl⟩
  | cons line lines =>
    refine ⟨newLine (level + 1), newLine level, isBlank_newLine _, isBlank_newLine _, ?_⟩
    simp only [bracketed, List.cons_append, List.append_assoc]

theorem reads_pretty {v : Json} (h : Writable known depth v) (level : Nat) : Reads known depth v (writePretty level v) := by
  induction h generalizing level with
  | null => exact reads_null
  | bool b => exact reads_bool b
  | natural h => exact reads_natural h
  | string s => exact reads_string s
  | @array depth items hdepth _ ih =>
    have hitems := forall₂_map fun v hv => ih v hv (level + 1)
    obtain ⟨gap, close, hgap, hclose, htext⟩ :=
      exists_bracketed '[' ']' level (items.map (writePretty (level + 1)))
    rw [writePretty, prettyItems_eq_map, htext]
    exact reads_array hgap hclose hdepth hitems
  | @object depth entries hdepth hknown _ ih =>
    have hentries : ∀ e ∈ entries,
        ReadsEntry known depth e (quote e.1 ++ ':' :: ' ' :: writePretty (level + 1) e.2) :=
      fun e he => ⟨hknown e he, [' '], writePretty (level + 1) e.2, isBlank_space, ih e he (level + 1), rfl⟩
    obtain ⟨gap, close, hgap, hclose, htext⟩ := exists_bracketed '{' '}' level
      (entries.map fun e => quote e.1 ++ ':' :: ' ' :: writePretty (level + 1) e.2)
    rw [writePretty, prettyEntries_eq_map, htext]
    exact reads_object hgap hclose hdepth (forall₂_map hentries)

theorem piecesOf_ofList (text : List Char) : piecesOf (String.ofList text) = text.map .char := by
  rw [piecesOf, String.toList_ofList]

theorem at_start (text : List Char) : (Cursor.start (text.map .char)).At (text ++ []) := by
  rw [List.append_nil]
  rfl

/-- A text that reads as a value is all of that value's text. -/
theorem readPieces_eq_ok {v : Json} {text : List Char} (h : Reads known depthBound v text) :
    readPieces known (piecesOf (String.ofList text)) = .ok v := by
  have hends : EndsNumber [] := fun c hc => absurd hc (by simp)
  obtain ⟨k, hk, hread⟩ := h.performs (2 * text.length + 1) _ [] (by omega) hends (at_start text)
  have hdense : StartsDense [] := fun c hc => absurd hc (by simp)
  have hskip : k.skipSpace = k := hk.skipSpace_eq hdense
  have hrest : k.rest = [] := hk
  rw [piecesOf_ofList, readPieces, List.length_map, hread]
  simp [bind, Except.bind, hskip, hrest]

/-- A value is read from either of the texts that it is written as. -/
theorem readPieces_written {v : Json} (h : Writable known depthBound v) {text : String}
    (htext : text ∈ [compact v, pretty v]) : readPieces known (piecesOf text) = .ok v := by
  rw [List.mem_cons, List.mem_singleton] at htext
  rcases htext with rfl | rfl
  · exact readPieces_eq_ok (reads_compact h)
  · exact readPieces_eq_ok (reads_pretty h 0)

end PrototypeScan.Json
