import PrototypeScan.Proofs.Json.Written

/-!
Objects that are nested too deeply are refused. What is wrong with a value that is opened below the last depth is
wrong with everything around it, as long as what stands in front of it can be read.
-/
namespace PrototypeScan.Json
open Text Number

variable {known : Nat → String → Bool} {depth : Nat}

/-- That carrying out a task at a text stops for a cause, whatever follows the text. -/
def Stops (known : Nat → String → Bool) (depth : Nat) (task : Task) (text : List Char) (cause : Cause) : Prop :=
  ∀ fuel (k : Cursor) rest, text.length < fuel → k.At (text ++ rest) →
    ∃ e, perform known fuel depth task k = .error e ∧ e.cause = cause

theorem cause_failNext (k : Cursor) (cause : Cause) : (k.failNext cause).cause = cause := by
  unfold Cursor.failNext
  split
  · rfl
  · split <;> rfl

theorem perform_brace {k : Cursor} {text : List Char} (hk : k.At ('{' :: text)) (fuel : Nat) :
    perform known (fuel + 1) depth .value k =
      if depth ≤ 1 then .error (k.failNext .tooDeep) else perform known fuel (depth - 1) (.entries []) k.next := by
  obtain ⟨hskip, hrest⟩ := perform_value hk (by decide)
  have hdigit : '{'.isDigit = false := by decide
  simp only [perform, hskip, hrest, hdigit, Char.reduceEq, Bool.false_eq_true, if_true, if_false]

theorem stops_brace (hdepth : depth ≤ 1) (text : List Char) : Stops known depth .value ('{' :: text) .tooDeep := by
  intro fuel k rest hfuel hk
  obtain ⟨fuel, rfl⟩ := Nat.exists_eq_add_one_of_ne_zero (Nat.ne_zero_of_lt hfuel)
  refine ⟨k.failNext .tooDeep, ?_, cause_failNext _ _⟩
  rw [perform_brace hk, if_pos hdepth]

theorem stops_object (hdepth : 0 < depth) {text : List Char} {cause : Cause}
    (h : Stops known depth (.entries []) text cause) : Stops known (depth + 1) .value ('{' :: text) cause := by
  intro fuel k rest hfuel hk
  obtain ⟨fuel, rfl⟩ := Nat.exists_eq_add_one_of_ne_zero (Nat.ne_zero_of_lt hfuel)
  rw [List.length_cons] at hfuel
  obtain ⟨e, he, hcause⟩ := h fuel k.next rest (by omega) hk.next
  refine ⟨e, ?_, hcause⟩
  rw [perform_brace hk, if_neg (by omega), Nat.add_sub_cancel, he]

/-- What stops the entries behind one that is read stops these too. -/
theorem stops_behind_entry {latest : List (String × Json)} {lead text more : List Char} {e : String × Json}
    {cause : Cause} (hlead : LeadsToEntry latest lead) (he : ReadsEntry known depth e text) (hmore : Closes more)
    (h : Stops known depth (.entries (e :: latest)) more cause) :
    Stops known depth (.entries latest) (lead ++ (text ++ more)) cause := by
  intro fuel k rest hfuel hk
  obtain ⟨fuel, rfl⟩ := Nat.exists_eq_add_one_of_ne_zero (Nat.ne_zero_of_lt hfuel)
  obtain ⟨hknown, blank, value, hblank, hvalue, rfl⟩ := he
  have hpos : 0 < more.length := List.length_pos_iff.2 hmore.ne_nil
  simp only [List.length_append, List.length_cons] at hfuel
  have hat : k.At (lead ++ (quote e.1 ++ ':' :: (blank ++ value ++ (more ++ rest)))) := by
    simpa using hk
  obtain ⟨k₁, hk₁, hentry⟩ := perform_entry hlead hknown hat fuel
  obtain ⟨k₂, hk₂, hread⟩ := hvalue.behind hblank fuel k₁ _
    (by rw [List.length_append]; omega) (hmore.append rest) hk₁
  obtain ⟨error, herror, hcause⟩ := h fuel k₂ rest (by omega) hk₂
  refine ⟨error, ?_, hcause⟩
  rw [hentry, hread, ← herror]
  rfl

/-- What stops the value of an entry stops the entries. -/
theorem stops_in_entry {latest : List (String × Json)} {lead value more : List Char} {key : String}
    {cause : Cause} (hlead : LeadsToEntry latest lead) (hknown : known depth key = true)
    (h : Stops known depth .value value cause) :
    Stops known depth (.entries latest) (lead ++ (quote key ++ ':' :: (value ++ more))) cause := by
  intro fuel k rest hfuel hk
  obtain ⟨fuel, rfl⟩ := Nat.exists_eq_add_one_of_ne_zero (Nat.ne_zero_of_lt hfuel)
  simp only [List.length_append, List.length_cons] at hfuel
  have hat : k.At (lead ++ (quote key ++ ':' :: (value ++ (more ++ rest)))) := by
    simpa using hk
  obtain ⟨k₁, hk₁, hentry⟩ := perform_entry hlead hknown hat fuel
  obtain ⟨error, herror, hcause⟩ := h fuel k₁ (more ++ rest) (by omega) hk₁
  refine ⟨error, ?_, hcause⟩
  rw [hentry, herror]
  rfl

/-- A text that stops is no value. -/
theorem readPieces_eq_error {text : List Char} {cause : Cause} (h : Stops known depthBound .value text cause) :
    ∃ e, readPieces known (piecesOf (String.ofList text)) = .error e ∧ e.cause = cause := by
  obtain ⟨e, herror, hcause⟩ := h (2 * text.length + 1) _ [] (by omega) (at_start text)
  refine ⟨e, ?_, hcause⟩
  rw [piecesOf_ofList, readPieces, List.length_map, herror]
  rfl

end PrototypeScan.Json
