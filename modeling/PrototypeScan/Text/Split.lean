/-!
Cutting text: at a separator, with the way back, and the white space off its ends.
-/
namespace PrototypeScan.Text

/-- The parts of a text between separators; one more than there are separators. -/
def parts (separator : Char) : List Char → List (List Char)
  | [] => [[]]
  | c :: rest =>
    if c = separator then [] :: parts separator rest
    else match parts separator rest with
      | [] => [[c]]
      | p :: ps => (c :: p) :: ps

/-- Parts with separators between them. -/
def glue (separator : Char) : List (List Char) → List Char
  | [] => []
  | [p] => p
  | p :: ps => p ++ separator :: glue separator ps

theorem parts_ne_nil (s : Char) (cs : List Char) : parts s cs ≠ [] := by
  cases cs with
  | nil => simp [parts]
  | cons c rest =>
    simp only [parts]
    split
    · simp
    · split <;> simp

theorem parts_eq_singleton {s : Char} {p : List Char} (h : s ∉ p) : parts s p = [p] := by
  induction p with
  | nil => rfl
  | cons c p ih =>
    rw [List.mem_cons, not_or] at h
    rw [parts, if_neg (Ne.symm h.1), ih h.2]

theorem parts_append {s : Char} {p : List Char} (h : s ∉ p) (rest : List Char) :
    parts s (p ++ s :: rest) = p :: parts s rest := by
  induction p with
  | nil => rw [List.nil_append, parts, if_pos rfl]
  | cons c p ih =>
    rw [List.mem_cons, not_or] at h
    rw [List.cons_append, parts, if_neg (Ne.symm h.1), ih h.2]

theorem parts_glue {s : Char} {ps : List (List Char)} (hne : ps ≠ []) (h : ∀ p ∈ ps, s ∉ p) :
    parts s (glue s ps) = ps := by
  induction ps with
  | nil => exact absurd rfl hne
  | cons p ps ih =>
    have hp := h p List.mem_cons_self
    cases ps with
    | nil => exact parts_eq_singleton hp
    | cons q qs =>
      have hrest := ih (List.cons_ne_nil q qs) fun r hr => h r (List.mem_cons_of_mem p hr)
      rw [glue, parts_append hp, hrest]
      exact List.cons_ne_nil q qs

/-- The parts of a text, as texts. -/
def splitOn (separator : Char) (text : String) : List String :=
  (parts separator text.toList).map String.ofList

/-- The ranges of characters that are white space in Unicode. -/
def spaceRanges : List (Nat × Nat) := [
  (0x09, 0x0D), (0x20, 0x20), (0x85, 0x85), (0xA0, 0xA0), (0x1680, 0x1680), (0x2000, 0x200A),
  (0x2028, 0x2029), (0x202F, 0x202F), (0x205F, 0x205F), (0x3000, 0x3000)]

def isSpace (c : Char) : Bool := spaceRanges.any fun r => r.1 ≤ c.toNat && c.toNat ≤ r.2

/-- Whether a text has no character but white space. -/
def isBlank (s : String) : Bool := s.toList.all isSpace

/-- A text without the white space at its ends. -/
def trim (s : String) : String :=
  String.ofList (((s.toList.dropWhile isSpace).reverse.dropWhile isSpace).reverse)

end PrototypeScan.Text
