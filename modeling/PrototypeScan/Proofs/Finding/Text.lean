import PrototypeScan.Proofs.Finding.Json
import PrototypeScan.Proofs.Json.Written

/-!
The text of findings reads as the same findings, and a text that reads as a finding has an integer of 32 bits
or the word for an unknown one where the line stands.
-/
namespace PrototypeScan

open Json (Writable readRecords compact pretty)

theorem eq_ok_of_toOption {ε α : Type} {r : Except ε α} {a : α} (h : r.toOption = some a) : r = .ok a := by
  cases r with
  | error e => exact absurd h (by simp [Except.toOption])
  | ok b => rw [Option.some.inj h]

section

variable {known : Nat → String → Bool} {depth : Nat}

theorem Json.writable_uint32 (n : UInt32) : Writable known depth (.ofNat n.toNat) := by
  have hlt : n.toNat < UInt32.size := n.toNat_lt_size
  have hbound : UInt32.size < Number.bound64 := by decide
  exact .natural (Nat.lt_trans hlt hbound)

theorem Line.writable_toJson (l : Line) : Writable known depth l.toJson := by
  cases l with
  | known n => exact Json.writable_uint32 n
  | unknown => exact .string _

theorem Finding.writable_toJson (hdepth : 0 < depth) (hkeys : ∀ key ∈ keys, known depth key = true) (f : Finding) :
    Writable known (depth + 1) f.toJson := by
  refine Json.writable_object hdepth fun e he => ?_
  rw [List.mem_append, List.mem_append] at he
  rcases he with (he | he) | he
  · rw [List.mem_cons, List.mem_singleton] at he
    rcases he with rfl | rfl
    · exact ⟨hkeys _ (by simp [keys]), .string f.ruleName⟩
    · exact ⟨hkeys _ (by simp [keys]), f.line.writable_toJson⟩
  · obtain ⟨n, -, rfl⟩ := List.mem_map.1 he
    exact ⟨hkeys _ (by simp [keys]), Json.writable_uint32 n⟩
  · rw [List.mem_cons, List.mem_cons, List.mem_singleton] at he
    rcases he with rfl | rfl | rfl
    · exact ⟨hkeys _ (by simp [keys]), .string f.propertyName⟩
    · exact ⟨hkeys _ (by simp [keys]), .string f.snippet⟩
    · exact ⟨hkeys _ (by simp [keys]), .string f.severity.text⟩

theorem Finding.writable_listToJson (hdepth : 0 < depth) (hkeys : ∀ key ∈ keys, known depth key = true)
    (fs : List Finding) : Writable known (depth + 2) (listToJson fs) := by
  refine .array (Nat.succ_pos _) fun v hv => ?_
  obtain ⟨f, -, rfl⟩ := List.mem_map.1 hv
  exact f.writable_toJson hdepth hkeys

end

/-- The keys of records are known wherever they stand. -/
theorem Json.recordKeys_of_mem (height : Nat) {keys : List String} {depth : Nat} {key : String} (h : key ∈ keys) :
    recordKeys height keys depth key = true := by
  rw [recordKeys, List.contains_iff_mem.2 h, Bool.or_true]

namespace Finding

/-- That a value stands where the line of a finding does: under the key of the line, or second in an array. -/
inductive HasLine : Json → Json → Prop where
  | entry {entries : List (String × Json)} {l : Json} (h : ("line", l) ∈ entries) : HasLine (.object entries) l
  | second {name l : Json} {rest : List Json} : HasLine (.array (name :: l :: rest)) l

/-- That a value has a place for the line, and that there it says, as an integer or as the one word for it,
which line it is. -/
structure StatesLine (v : Json) (line : Line) : Prop where
  exists_line : ∃ l, HasLine v l
  states : ∀ l, HasLine v l →
    (∃ n : UInt32, l = .number (.integer n.toNat) ∧ line = .known n) ∨ (l = .string "unknown" ∧ line = .unknown)

end Finding

theorem Line.eq_of_ofJson? {l : Json} {line : Line} (h : ofJson? l = some line) :
    (∃ n : UInt32, l = .number (.integer n.toNat) ∧ line = .known n) ∨ (l = .string "unknown" ∧ line = .unknown) := by
  unfold ofJson? at h
  split at h
  · next i =>
    split at h
    · next hi =>
      obtain rfl := Option.some.inj h
      have hsize : UInt32.size = twoTo 32 := by decide
      have hlt : i.toNat < UInt32.size := by omega
      refine .inl ⟨.ofNat i.toNat, ?_, rfl⟩
      rw [UInt32.toNat_ofNat_of_lt' hlt, Int.toNat_of_nonneg hi.1]
    · exact absurd h (by simp)
  · next s =>
    split at h
    · next hs =>
      obtain rfl := Option.some.inj h
      exact .inr ⟨by rw [hs], rfl⟩
    · exact absurd h (by simp)
  · exact absurd h (by simp)

namespace Json

theorem mem_of_entry? {key : String} {v : Json} {entries : List (String × Json)} (h : entry? key entries = some v) :
    (key, v) ∈ entries := by
  induction entries with
  | nil => exact absurd h (by simp [Json.entry?])
  | cons e entries ih =>
    obtain ⟨k, w⟩ := e
    rw [Json.entry?] at h
    split at h
    · next hk =>
      rw [hk, Option.some.inj h]
      exact List.mem_cons_self
    · exact List.mem_cons_of_mem _ (ih h)

/-- A key that stands once has one value. -/
theorem entry?_eq_of_mem {keys : List String} {key : String} (hkey : keys.contains key = true) {v : Json}
    {entries : List (String × Json)} (hnodup : ((entries.map (·.1)).filter keys.contains).Nodup)
    (h : (key, v) ∈ entries) : entry? key entries = some v := by
  induction entries with
  | nil => exact absurd h List.not_mem_nil
  | cons e entries ih =>
    obtain ⟨k, w⟩ := e
    rw [List.map_cons, List.filter_cons] at hnodup
    rw [List.mem_cons] at h
    rw [Json.entry?]
    rcases h with h | h
    · obtain ⟨rfl, rfl⟩ := Prod.mk.inj h
      rw [if_pos rfl]
    · split at hnodup
      · have hmem : key ∈ (entries.map (·.1)).filter keys.contains :=
          List.mem_filter.2 ⟨List.mem_map_of_mem h, hkey⟩
        have hne : k ≠ key := fun hk => (List.nodup_cons.1 hnodup).1 (hk ▸ hmem)
        rw [if_neg hne]
        exact ih (List.nodup_cons.1 hnodup).2 h
      · next hk =>
        have hne : k ≠ key := fun heq => hk (heq ▸ hkey)
        rw [if_neg hne]
        exact ih hnodup h

end Json

namespace Finding

/-- The parts of a record have the line that stands in it. -/
theorem hasLine_iff {v : Json} {parts : List (String × Json)} (h : Json.parts? keys v = some parts) (l : Json) :
    HasLine v l ↔ Json.entry? "line" parts = some l := by
  unfold Json.parts? at h
  split at h
  · next entries =>
    dsimp only at h
    split at h
    · next hnodup =>
      obtain rfl := Option.some.inj h
      constructor
      · rintro ⟨hl⟩
        exact Json.entry?_eq_of_mem (by decide) hnodup hl
      · intro hl
        exact .entry (Json.mem_of_entry? hl)
    · exact absurd h (by simp)
  · next items =>
    split at h
    · obtain rfl := Option.some.inj h
      rcases items with _ | ⟨name, _ | ⟨line, rest⟩⟩
      · constructor
        · rintro ⟨⟩
        · intro hl
          exact absurd hl (by simp [Json.entry?])
      · constructor
        · rintro ⟨⟩
        · intro hl
          exact absurd hl (by simp [keys, Json.entry?])
      · constructor
        · rintro ⟨⟩
          simp [keys, Json.entry?]
        · intro hl
          have heq : line = l := by simpa [keys, Json.entry?] using hl
          rw [heq]
          exact .second
    · exact absurd h (by simp)
  · exact absurd h (by simp)

theorem statesLine_of_ofJson? {v : Json} {f : Finding} (h : ofJson? v = some f) : StatesLine v f.line := by
  simp only [ofJson?, Option.bind_eq_bind, Option.bind_eq_some_iff, Option.pure_def, Option.some.injEq] at h
  obtain ⟨parts, hparts, ruleName, -, line, hline, column, -, propertyName, -, snippet, -, severity, -, rfl⟩ := h
  unfold Json.part? at hline
  split at hline
  · next l hentry =>
    refine ⟨⟨l, (hasLine_iff hparts l).2 hentry⟩, fun l' hl' => ?_⟩
    rw [hasLine_iff hparts, hentry] at hl'
    obtain rfl := Option.some.inj hl'
    exact Line.eq_of_ofJson? hline
  · exact absurd hline (by simp)

theorem forall₂_of_mapM {α β : Type} {read? : α → Option β} {as : List α} {bs : List β}
    (h : as.mapM read? = some bs) : List.Forall₂ (fun a b => read? a = some b) as bs := by
  induction as generalizing bs with
  | nil =>
    obtain rfl := Option.some.inj h
    exact .nil
  | cons a as ih =>
    simp only [List.mapM_cons, Option.bind_eq_bind, Option.bind_eq_some_iff, Option.pure_def,
      Option.some.injEq] at h
    obtain ⟨b, hb, bs, hbs, rfl⟩ := h
    exact .cons hb (ih hbs)

theorem statesLine_of_listOfJson? {v : Json} {fs : List Finding} (h : listOfJson? v = some fs) :
    ∃ items, v = .array items ∧ List.Forall₂ (fun item f => StatesLine item f.line) items fs := by
  obtain ⟨items, harray, hitems⟩ := Option.bind_eq_some_iff.1 h
  have hv : v = .array items := by
    cases v <;> simp_all [Json.asArray?]
  exact ⟨items, hv, (forall₂_of_mapM hitems).imp fun _ _ => statesLine_of_ofJson?⟩

/-- Findings and results of scans are read from the text they are written as, on one line or on indented ones;
and of any text that is read as findings, each finding's line is what its text states. -/
theorem text_reads_back :
    (∀ f : Finding, ∀ text ∈ [compact f.toJson, pretty f.toJson], read? text = some f) ∧
    (∀ fs : List Finding, ∀ text ∈ [compact (listToJson fs), pretty (listToJson fs)], readList? text = some fs) ∧
    (∀ text f, read? text = some f → ∃ v, readRecords 0 keys text = .ok v ∧ StatesLine v f.line) ∧
    (∀ text fs, readList? text = some fs → ∃ items, readRecords 1 keys text = .ok (.array items) ∧
      List.Forall₂ (fun item f => StatesLine item f.line) items fs) := by
  refine ⟨fun f text htext => ?_, fun fs text htext => ?_, fun text f h => ?_, fun text fs h => ?_⟩
  · have hwritable : Writable (Json.recordKeys 0 keys) Json.depthBound f.toJson :=
      f.writable_toJson (Nat.succ_pos 126) fun _ hkey => Json.recordKeys_of_mem 0 hkey
    rw [read?, readRecords, Json.readPieces_written hwritable htext]
    exact ofJson?_toJson f
  · have hwritable : Writable (Json.recordKeys 1 keys) Json.depthBound (listToJson fs) :=
      writable_listToJson (Nat.succ_pos 125) (fun _ hkey => Json.recordKeys_of_mem 1 hkey) fs
    rw [readList?, readRecords, Json.readPieces_written hwritable htext]
    exact listOfJson?_listToJson fs
  · obtain ⟨v, hv, hf⟩ := Option.bind_eq_some_iff.1 h
    exact ⟨v, eq_ok_of_toOption hv, statesLine_of_ofJson? hf⟩
  · obtain ⟨v, hv, hfs⟩ := Option.bind_eq_some_iff.1 h
    obtain ⟨items, rfl, hitems⟩ := statesLine_of_listOfJson? hfs
    exact ⟨items, eq_ok_of_toOption hv, hitems⟩

/-- A finding with a key that no finding has, whose value holds half of a character. -/
def textWithUnknownKey : String :=
  "[\x7b\"x\":[\"\\ud800\"],\"rule_name\":\"r\",\"line\":\"unknown\",\"property_name\":\"p\",\"snippet\":\"s\"\x7d]"

theorem text_reads_back_array :
    (∃ v, readRecords 0 keys "[\"r\", 7, null, \"p\", \"s\", \"low\"]" = .ok v ∧ StatesLine v (.known 7)) ∧
    ∃ v, readRecords 1 keys textWithUnknownKey = .ok (.array [v]) ∧ StatesLine v .unknown := by
  have harray : read? "[\"r\", 7, null, \"p\", \"s\", \"low\"]" = some ⟨"r", .known 7, none, "p", "s", .low⟩ := by
    decide
  have hskipped : readList? textWithUnknownKey = some [⟨"r", .unknown, none, "p", "s", .high⟩] := by
    decide
  obtain ⟨items, hread, hitems⟩ := text_reads_back.2.2.2 _ _ hskipped
  obtain ⟨v, rest, hv, hrest, rfl⟩ := List.forall₂_cons_right_iff.1 hitems
  rw [List.forall₂_nil_right_iff] at hrest
  rw [hrest] at hread
  exact ⟨text_reads_back.2.2.1 _ _ harray, v, hread, hv⟩

end Finding

end PrototypeScan
