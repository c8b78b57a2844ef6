import PrototypeScan.Proofs.Text.Decoded
import PrototypeScan.Proofs.Text.UnitCounter

/-!
A counter that is asked for many places, in any order. Its answers are what counting each of them from the start of
its line would give, whether offsets are in characters or in the bytes of the text.
-/
namespace PrototypeScan.Text

variable {source : String}

/-! Parts of a text. -/

theorem extract_append_extract {p q r : source.Pos} (hpq : p ≤ q) (hqr : q ≤ r) :
    String.extract p q ++ String.extract q r = String.extract p r := by
  rw [String.Pos.le_iff, String.Pos.Raw.le_iff] at hpq hqr
  apply String.toByteArray_inj.1
  rw [String.toByteArray_append, String.toByteArray_extract, String.toByteArray_extract, String.toByteArray_extract,
    ByteArray.extract_append_extract, Nat.min_eq_left hpq, Nat.max_eq_right hqr]

theorem extract_startPos_endPos (source : String) : String.extract source.startPos source.endPos = source := by
  apply String.toByteArray_inj.1
  rw [String.toByteArray_extract]
  exact ByteArray.extract_zero_size

theorem bytes_extract (p q : source.Pos) :
    bytes (String.extract p q) = (bytes source).extract p.offset.byteIdx q.offset.byteIdx := by
  rw [bytes, bytes, String.toUTF8_eq_toByteArray, String.toUTF8_eq_toByteArray, String.toByteArray_extract,
    ByteArray.data_extract, Array.toList_extract]

/-- The units of the text between two positions. -/
def unitsIn (p q : source.Pos) : Nat := units (String.extract p q).toList

theorem unitsIn_add {p q r : source.Pos} (hpq : p ≤ q) (hqr : q ≤ r) :
    unitsIn p q + unitsIn q r = unitsIn p r := by
  rw [unitsIn, unitsIn, ← units_append, ← String.toList_append, extract_append_extract hpq hqr, unitsIn]

/-! Offsets in bytes. -/

/-- The code units of the text that bytes between two offsets stand for; none where the bytes end before that. -/
def unitsOfBytes (bs : List UInt8) (start stop : Nat) : Nat :=
  if stop ≤ bs.length then units (decodeLossy (bs.extract start stop)).toList else 0

/-- That a character of a text starts behind so many bytes, or the text ends there. -/
def IsBoundary (source : String) (offset : Nat) : Prop := ∃ p : source.Pos, p.offset.byteIdx = offset

theorem unitsOfBytes_eq (p q : source.Pos) :
    unitsOfBytes (bytes source) p.offset.byteIdx q.offset.byteIdx = unitsIn p q := by
  have hle : q.offset.byteIdx ≤ (bytes source).length := q.isValid.le_rawEndPos
  rw [unitsOfBytes, if_pos hle, ← bytes_extract, decodeLossy_bytes, unitsIn]

theorem addsUp_unitsOfBytes (source : String) : AddsUp (unitsOfBytes (bytes source)) (IsBoundary source) := by
  rintro _ _ _ ⟨p, rfl⟩ ⟨q, rfl⟩ ⟨r, rfl⟩ hpq hqr
  rw [unitsOfBytes_eq, unitsOfBytes_eq, unitsOfBytes_eq, unitsIn_add hpq hqr]

/-! Offsets in characters. -/

/-- The characters in front of a position. -/
def charsBefore (p : source.Pos) : List Char := (String.extract source.startPos p).toList

theorem charsBefore_append {p q : source.Pos} (h : p ≤ q) :
    charsBefore p ++ (String.extract p q).toList = charsBefore q := by
  rw [charsBefore, ← String.toList_append, extract_append_extract (String.Pos.startPos_le p) h, charsBefore]

theorem unitsBetween_eq {p q : source.Pos} (h : p ≤ q) :
    unitsBetween source.toList.toArray (charsBefore p).length (charsBefore q).length = unitsIn p q := by
  have hall : charsBefore p ++ (String.extract p q).toList ++ (String.extract q source.endPos).toList =
      source.toList := by
    rw [charsBefore_append h, charsBefore_append (String.Pos.le_endPos q), charsBefore, extract_startPos_endPos]
  have hlength := congrArg List.length (charsBefore_append h)
  rw [List.length_append] at hlength
  rw [unitsBetween, unitsIn, ← hall, ← hlength, List.append_assoc, Array.toList_extract, List.extract_eq_take_drop,
    List.drop_left, Nat.add_sub_cancel_left, List.take_left]

/-! Queries. -/

/-- What a counter is asked for: a position in a text and the start of its line. -/
structure Query (source : String) where
  lineStart : source.Pos
  position : source.Pos
  lineStart_le : lineStart ≤ position

namespace UnitCounter

/-- What a counter answers that is moved from place to place. A place is given with the start of its line. -/
def answers (move : UnitCounter → Nat → Nat → UnitCounter) (k : UnitCounter) : List (Nat × Nat) → List Nat
  | [] => []
  | (lineStart, offset) :: places =>
    (move k lineStart offset).counted :: answers move (move k lineStart offset) places

/-- Each answer is right whatever was asked for before. -/
theorem answers_moveBy {between : Nat → Nat → Nat} {isPlace : Nat → Prop} {k : UnitCounter}
    (hadd : AddsUp between isPlace) (hk : k.ExactBy between isPlace) {places : List (Nat × Nat)}
    (h : ∀ p ∈ places, isPlace p.1 ∧ isPlace p.2 ∧ p.1 ≤ p.2) :
    answers (moveBy between) k places = places.map fun p => between p.1 p.2 := by
  induction places generalizing k with
  | nil => rfl
  | cons p places ih =>
    obtain ⟨⟨hline, hplace, hle⟩, hrest⟩ := List.forall_mem_cons.1 h
    rw [answers, counted_moveBy hadd hk hplace, ih (exactBy_moveBy hadd hk hline hplace hle) hrest, List.map_cons]

theorem answers_bytes (source : String) (queries : List (Query source)) :
    answers (moveBy (unitsOfBytes (bytes source))) start
        (queries.map fun q => (q.lineStart.offset.byteIdx, q.position.offset.byteIdx)) =
      queries.map fun q => unitsIn q.lineStart q.position := by
  have hstart : start.ExactBy (unitsOfBytes (bytes source)) (IsBoundary source) :=
    exactBy_start (addsUp_unitsOfBytes source) ⟨source.startPos, rfl⟩
  rw [answers_moveBy (addsUp_unitsOfBytes source) hstart, List.map_map]
  · exact List.map_congr_left fun q _ => unitsOfBytes_eq q.lineStart q.position
  · simp only [List.forall_mem_map]
    exact fun q _ => ⟨⟨q.lineStart, rfl⟩, ⟨q.position, rfl⟩, q.lineStart_le⟩

theorem answers_chars (source : String) (queries : List (Query source)) :
    answers (·.moveTo source.toList.toArray) start
        (queries.map fun q => ((charsBefore q.lineStart).length, (charsBefore q.position).length)) =
      queries.map fun q => unitsIn q.lineStart q.position := by
  have hadd := addsUp_unitsBetween source.toList.toArray
  refine (answers_moveBy hadd (exactBy_start hadd trivial) ?_).trans ?_
  · simp only [List.forall_mem_map]
    refine fun q _ => ⟨trivial, trivial, ?_⟩
    rw [← charsBefore_append q.lineStart_le, List.length_append]
    exact Nat.le_add_right _ _
  · rw [List.map_map]
    refine List.map_congr_left fun q _ => ?_
    rw [Function.comp_apply, unitsBetween_eq q.lineStart_le]

/-- Asked for any positions in a text, in any order, a new counter answers with the code units between each of them
and the start of its line: with the offsets in the bytes of the text, and with the offsets in its characters. -/
theorem answers_exact (source : String) (queries : List (Query source)) :
    answers (moveBy (unitsOfBytes (bytes source))) start
        (queries.map fun q => (q.lineStart.offset.byteIdx, q.position.offset.byteIdx)) =
      queries.map (fun q => units (String.extract q.lineStart q.position).toList) ∧
    answers (·.moveTo source.toList.toArray) start
        (queries.map fun q => ((charsBefore q.lineStart).length, (charsBefore q.position).length)) =
      queries.map (fun q => units (String.extract q.lineStart q.position).toList) :=
  ⟨answers_bytes source queries, answers_chars source queries⟩

example : answers (moveBy (unitsOfBytes (bytes "a𝒳é\n€b"))) start [(0, 5), (0, 1), (8, 11), (0, 7)] = [3, 1, 1, 4] := by
  decide

end UnitCounter

end PrototypeScan.Text
