import Mathlib.Tactic.IntervalCases
import PrototypeScan.Proofs.Text.ByteOrder
import PrototypeScan.Text.Utf8

/-!
The bytes of a text read as that text. A character is told by its first byte, which carries its leading bits and says
how many bytes follow, and each of these adds six bits.
-/
namespace PrototypeScan.Text

section Steps

variable {code low high missing read n : Nat}

theorem startPiece_two (hn : 2 ≤ n) (h : n < 32) :
    startPiece (UInt8.ofNat (n + 192)) = .ok ⟨n, 0x80, 0xBF, 1, 1⟩ := by
  interval_cases n <;> rfl

theorem startPiece_three (h : n < 16) :
    startPiece (UInt8.ofNat (n + 224)) =
      .ok ⟨n, if n = 0 then 0xA0 else 0x80, if n = 13 then 0x9F else 0xBF, 2, 1⟩ := by
  interval_cases n <;> rfl

theorem startPiece_four (h : n < 5) :
    startPiece (UInt8.ofNat (n + 240)) =
      .ok ⟨n, if n = 0 then 0x90 else 0x80, if n = 4 then 0x8F else 0xBF, 3, 1⟩ := by
  interval_cases n <;> rfl

theorem piecesFrom_start {b : UInt8} {p : Unfinished} (h : startPiece b = .ok p) (rest : List UInt8) :
    piecesFrom none (b :: rest) = piecesFrom (some p) rest := by
  rw [piecesFrom, h]

theorem toNat_continuation (h : n < 64) : (UInt8.ofNat (n + 128)).toNat = n + 128 := by
  rw [UInt8.toNat_ofNat']
  omega

theorem piecesFrom_next (hn : n < 64) (hlow : low ≤ n + 128) (hhigh : n + 128 ≤ high) (hmissing : missing ≠ 1)
    (rest : List UInt8) :
    piecesFrom (some ⟨code, low, high, missing, read⟩) (UInt8.ofNat (n + 128) :: rest) =
      piecesFrom (some ⟨code * 64 + n, 0x80, 0xBF, missing - 1, read + 1⟩) rest := by
  have hbyte := toNat_continuation hn
  rw [piecesFrom, hbyte, if_pos (by simp [hlow, hhigh]), if_neg hmissing, Nat.add_sub_cancel]

theorem piecesFrom_last (hn : n < 64) (hlow : low ≤ n + 128) (hhigh : n + 128 ≤ high) (rest : List UInt8) :
    piecesFrom (some ⟨code, low, high, 1, read⟩) (UInt8.ofNat (n + 128) :: rest) =
      .char (Char.ofNat (code * 64 + n)) :: piecesFrom none rest := by
  have hbyte := toNat_continuation hn
  rw [piecesFrom, hbyte, if_pos (by simp [hlow, hhigh]), if_pos rfl, Nat.add_sub_cancel]

end Steps

theorem piecesFrom_utf8EncodeChar (c : Char) (rest : List UInt8) :
    piecesFrom none (String.utf8EncodeChar c ++ rest) = .char c :: piecesFrom none rest := by
  have hvalid : c.val.toNat < 0xD800 ∨ 0xDFFF < c.val.toNat ∧ c.val.toNat < 0x110000 := c.valid
  have hc : Char.ofNat c.val.toNat = c := Char.ofNat_toNat c
  unfold String.utf8EncodeChar
  generalize c.val.toNat = v at hvalid hc ⊢
  dsimp only
  -- One case for each length. The ranges of the second byte leave out surrogates and codes that are too large.
  split_ifs with h1 h2 h3
  · have hbyte : (UInt8.ofNat v).toNat = v := by
      rw [UInt8.toNat_ofNat']
      omega
    rw [List.singleton_append, piecesFrom, startPiece, hbyte, if_pos (by omega), hc]
  · have hcode : v / 64 % 32 * 64 + v % 64 = v := by omega
    rw [List.cons_append, List.singleton_append, piecesFrom_start (startPiece_two (by omega) (by omega)),
      piecesFrom_last (by omega) (by omega) (by omega), hcode, hc]
  · have hcode : (v / 4096 % 16 * 64 + v / 64 % 64) * 64 + v % 64 = v := by omega
    rw [List.cons_append, List.cons_append, List.singleton_append, piecesFrom_start (startPiece_three (by omega)),
      piecesFrom_next (by omega) (by split <;> omega) (by split <;> omega) (by decide),
      piecesFrom_last (by omega) (by omega) (by omega), hcode, hc]
  · have hcode : ((v / 262144 % 8 * 64 + v / 4096 % 64) * 64 + v / 64 % 64) * 64 + v % 64 = v := by omega
    rw [List.cons_append, List.cons_append, List.cons_append, List.singleton_append,
      piecesFrom_start (startPiece_four (by omega)),
      piecesFrom_next (by omega) (by split <;> omega) (by split <;> omega) (by decide),
      piecesFrom_next (by omega) (by omega) (by omega) (by decide),
      piecesFrom_last (by omega) (by omega) (by omega), hcode, hc]

theorem pieces_bytes (s : String) : pieces (bytes s) = piecesOf s := by
  have hpieces (cs : List Char) : pieces (cs.flatMap String.utf8EncodeChar) = cs.map .char := by
    induction cs with
    | nil => rfl
    | cons c cs ih => rw [List.flatMap_cons, pieces, piecesFrom_utf8EncodeChar, ← pieces, ih, List.map_cons]
  rw [bytes_eq_flatMap, hpieces, piecesOf]

/-- Nothing is replaced in the bytes of a text. -/
theorem decodeLossy_bytes (s : String) : decodeLossy (bytes s) = s := by
  rw [decodeLossy, pieces_bytes, piecesOf, List.map_map]
  exact (congrArg String.ofList (List.map_id s.toList)).trans String.ofList_toList

end PrototypeScan.Text
