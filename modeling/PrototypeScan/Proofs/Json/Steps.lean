import Mathlib.Tactic.SplitIfs
import PrototypeScan.Json.Reader

/-!
Reading and skipping JSON never stop for a lack of steps: from as many as there are for a text, more make no
difference.
-/
namespace PrototypeScan.Json
open Text

namespace Cursor

theorem length_skipFrom_le (line column : Nat) (rest : List Piece) :
    (skipFrom line column rest).rest.length ≤ rest.length := by
  induction rest generalizing line column with
  | nil => exact Nat.le_refl _
  | cons p rest ih =>
    rw [skipFrom]
    split_ifs
    · exact Nat.le_succ_of_le (ih _ _)
    · exact Nat.le_succ_of_le (ih _ _)
    · exact Nat.le_refl _

theorem length_skipSpace_le (k : Cursor) : k.skipSpace.rest.length ≤ k.rest.length :=
  length_skipFrom_le _ _ _

theorem rest_pass (k : Cursor) (p : Piece) (rest : List Piece) : (k.pass p rest).rest = rest := by
  rw [pass]
  split <;> rfl

theorem length_next {k : Cursor} {p : Piece} {rest : List Piece} (h : k.rest = p :: rest) :
    k.next.rest.length + 1 = k.rest.length := by
  obtain ⟨_, line, column⟩ := k
  obtain rfl := h
  rw [next, rest_pass, List.length_cons]

theorem length_next_le (k : Cursor) : k.next.rest.length ≤ k.rest.length := by
  obtain ⟨_ | ⟨p, rest⟩, line, column⟩ := k
  · exact Nat.le_refl _
  · exact Nat.le_of_succ_le (Nat.le_of_eq (length_next rfl))

end Cursor

open Cursor

theorem exists_of_bind_eq_ok {ε α β : Type} {x : Except ε α} {f : α → Except ε β} {b : β}
    (h : x >>= f = .ok b) : ∃ a, x = .ok a ∧ f a = .ok b := by
  cases x with
  | error e => cases h
  | ok a => exact ⟨a, rfl, h⟩

/-- What is done with a result counts only if there is one. -/
theorem bind_congr_of_ok {ε α β : Type} {x : Except ε α} {f g : α → Except ε β}
    (h : ∀ a, x = .ok a → f a = g a) : x >>= f = x >>= g := by
  cases x with
  | error e => rfl
  | ok a => exact h a rfl

theorem exists_of_map_eq_ok {ε α β γ : Type} {x : Except ε (α × β)} {f : α → γ} {c : γ} {b : β}
    (h : (x.map fun r => (f r.1, r.2)) = .ok (c, b)) : ∃ a, x = .ok (a, b) := by
  cases x with
  | error e => cases h
  | ok r =>
    obtain ⟨-, rfl⟩ := Prod.mk.inj (Except.ok.inj h)
    exact ⟨r.1, rfl⟩

/-- How many steps are enough for what reads at least `least` pieces, which is one or none. -/
def stepsFor (least : Nat) (k : Cursor) : Nat := 2 * k.rest.length + 2 - least

theorem stepsFor_lt {least least' : Nat} {k k' : Cursor} (hleast : least ≤ 1)
    (hlength : k'.rest.length < k.rest.length) : stepsFor least' k' < stepsFor least k := by
  unfold stepsFor
  omega

theorem stepsFor_one_lt {k k' : Cursor} (hlength : k'.rest.length ≤ k.rest.length) :
    stepsFor 1 k' < stepsFor 0 k := by
  unfold stepsFor
  omega

theorem exists_eq_add_one_of_stepsFor_le {least fuel : Nat} {k : Cursor} (hleast : least ≤ 1)
    (h : stepsFor least k ≤ fuel) : ∃ n, fuel = n + 1 := by
  apply Nat.exists_eq_add_one_of_ne_zero
  unfold stepsFor at h
  omega

/-! What each part leaves of the text. -/

theorem length_of_readWord {word : List Char} {k k' : Cursor} (h : readWord k word = .ok k') :
    k'.rest.length ≤ k.rest.length := by
  induction word generalizing k with
  | nil =>
    obtain rfl := Except.ok.inj h
    exact Nat.le_refl _
  | cons c word ih =>
    rw [readWord] at h
    split at h
    · cases h
    · split at h
      · exact Nat.le_trans (ih h) (length_next_le k)
      · cases h

theorem length_of_readColon {k k' : Cursor} (h : readColon k = .ok k') : k'.rest.length ≤ k.rest.length := by
  unfold readColon at h
  dsimp only at h
  split at h
  · cases h
  · split at h
    · obtain rfl := Except.ok.inj h
      exact Nat.le_trans (length_next_le _) (length_skipSpace_le k)
    · cases h

theorem length_digitsFrom (line column : Nat) (rest : List Piece) :
    (Number.digitsFrom line column rest).1.length + (Number.digitsFrom line column rest).2.rest.length =
      rest.length := by
  induction rest generalizing column with
  | nil => rfl
  | cons p rest ih =>
    cases p with
    | illFormed n => exact Nat.zero_add _
    | char c =>
      rw [Number.digitsFrom]
      split
      · have hrest := ih (column + 1)
        simp only [List.length_cons]
        omega
      · exact Nat.zero_add _

theorem length_of_digits {k k' : Cursor} {ds : List Nat} (h : Number.digits k = (ds, k')) :
    ds.length + k'.rest.length = k.rest.length := by
  have hdigits := length_digitsFrom k.line k.column k.rest
  rwa [← Number.digits, h] at hdigits

theorem length_sign_le (k : Cursor) : (Number.sign k).2.rest.length ≤ k.rest.length := by
  unfold Number.sign
  split
  · exact length_next_le k
  · exact length_next_le k
  · exact Nat.le_refl _

theorem eq_of_finish {negative : Bool} {significand : Nat} {e : Int} {k k' : Cursor} {n : Number}
    (h : Number.finish negative significand e k = .ok (n, k')) : k' = k := by
  unfold Number.finish at h
  split at h
  · exact (Prod.mk.inj (Except.ok.inj h)).2.symm
  · cases h

theorem length_of_exponent {negative : Bool} {significand : Nat} {start : Int} {k k' : Cursor} {n : Number}
    (h : Number.exponent negative significand start k = .ok (n, k')) : k'.rest.length ≤ k.rest.length := by
  have hsign := Nat.le_trans (length_sign_le k.next) (length_next_le k)
  unfold Number.exponent at h
  dsimp only at h
  split at h
  · cases h
  · split at h
    · cases h
    · next ds after _ hdigits =>
      have hafter := length_of_digits hdigits
      suffices heq : k' = after by
        rw [heq]
        omega
      split_ifs at h
      · exact eq_of_finish h
      · exact eq_of_finish h
      · exact (Prod.mk.inj (Except.ok.inj h)).2.symm
      · exact (Prod.mk.inj (Except.ok.inj h)).2.symm

theorem length_of_fraction {negative : Bool} {significand : Nat} {start : Int} {k k' : Cursor} {n : Number}
    (h : Number.fraction negative significand start k = .ok (n, k')) : k'.rest.length ≤ k.rest.length := by
  have hnext := length_next_le k
  unfold Number.fraction at h
  dsimp only at h
  split at h
  · split at h <;> cases h
  · next ds after _ hdigits =>
    have hafter := length_of_digits hdigits
    split_ifs at h
    · have hrest := length_of_exponent h
      omega
    · rw [eq_of_finish h]
      omega

/-- A number has a digit. -/
theorem length_of_number {negative : Bool} {k k' : Cursor} {n : Number}
    (h : Number.read negative k = .ok (n, k')) : k'.rest.length < k.rest.length := by
  unfold Number.read at h
  dsimp only at h
  split at h
  · cases h
  · split at h
    · cases h
    · cases h
    · next ds after hne _ hdigits =>
      have hafter := length_of_digits hdigits
      have hpos : 0 < ds.length := List.length_pos_iff.2 hne
      suffices hle : k'.rest.length ≤ after.rest.length by omega
      split at h
      · exact length_of_fraction h
      · split_ifs at h
        · exact length_of_exponent h
        · exact Nat.le_of_eq (congrArg (·.rest.length) (eq_of_finish h))
        · exact Nat.le_of_eq (congrArg (·.rest.length) (Prod.mk.inj (Except.ok.inj h)).2.symm)

theorem length_of_readFrom {state : Quoted.State} {r : Quoted.Reading} {line column : Nat} {rest : List Piece}
    {s : String} {k' : Cursor} (h : Quoted.readFrom state r line column rest = .ok (s, k')) :
    k'.rest.length < rest.length := by
  induction rest generalizing state r line column with
  | nil =>
    rw [Quoted.readFrom] at h
    cases h
  | cons p rest ih =>
    have hlater {state : Quoted.State} {r : Quoted.Reading} {line column : Nat}
        (h : Quoted.readFrom state r line column rest = .ok (s, k')) : k'.rest.length < (p :: rest).length :=
      Nat.lt_succ_of_lt (ih h)
    cases state with
    | plain =>
      cases p with
      | illFormed n => exact hlater h
      | char c =>
        simp only [Quoted.readFrom] at h
        split_ifs at h
        · split at h
          · rw [← (Prod.mk.inj (Except.ok.inj h)).2, rest_pass]
            exact Nat.lt_succ_self _
          · cases h
        · exact hlater h
        · exact hlater h
    | escape =>
      cases p with
      | illFormed n => cases h
      | char c =>
        simp only [Quoted.readFrom] at h
        split_ifs at h
        · exact hlater h
        · split at h
          · exact hlater h
          · cases h
    | code high value bytes valid =>
      simp only [Quoted.readFrom] at h
      split_ifs at h
      · exact hlater h
      · split at h
        · cases h
        · exact hlater h
        · exact hlater h
    | backslash high =>
      simp only [Quoted.readFrom] at h
      split_ifs at h
      exact hlater h
    | letter high =>
      simp only [Quoted.readFrom] at h
      split_ifs at h
      exact hlater h

theorem length_of_quoted {k k' : Cursor} {s : String} (h : Quoted.read k = .ok (s, k')) :
    k'.rest.length < k.rest.length := length_of_readFrom h

/-! Skipping. -/

namespace Skipped

theorem length_of_stringFrom {state : State} {line column : Nat} {rest : List Piece} {k' : Cursor}
    (h : stringFrom state line column rest = .ok k') : k'.rest.length < rest.length := by
  induction rest generalizing state line column with
  | nil =>
    rw [stringFrom] at h
    cases h
  | cons p rest ih =>
    have hlater {state : State} {line column : Nat} (h : stringFrom state line column rest = .ok k') :
        k'.rest.length < (p :: rest).length := Nat.lt_succ_of_lt (ih h)
    cases state with
    | plain =>
      cases p with
      | illFormed n => exact hlater h
      | char c =>
        simp only [stringFrom] at h
        split_ifs at h
        · rw [← Except.ok.inj h, rest_pass]
          exact Nat.lt_succ_self _
        · exact hlater h
        · exact hlater h
    | escape =>
      cases p with
      | illFormed n => cases h
      | char c =>
        simp only [stringFrom] at h
        split_ifs at h
        · exact hlater h
        · exact hlater h
    | code bytes valid =>
      simp only [stringFrom] at h
      split_ifs at h
      · exact hlater h
      · exact hlater h

theorem length_of_string {k k' : Cursor} (h : string k = .ok k') : k'.rest.length < k.rest.length :=
  length_of_stringFrom h

theorem length_of_exponent {k k' : Cursor} (h : exponent k = .ok k') : k'.rest.length ≤ k.rest.length := by
  have hsign := Nat.le_trans (length_sign_le k.next) (length_next_le k)
  unfold exponent at h
  dsimp only at h
  split at h
  · cases h
  · next hdigits =>
    have hafter := length_of_digits hdigits
    obtain rfl := Except.ok.inj h
    omega

theorem length_of_number {k k' : Cursor} (h : number k = .ok k') : k'.rest.length < k.rest.length := by
  unfold number at h
  split at h
  · cases h
  · cases h
  · next ds after hne _ hdigits =>
    have hafter := length_of_digits hdigits
    have hpos : 0 < ds.length := List.length_pos_iff.2 hne
    suffices hle : k'.rest.length ≤ after.rest.length by omega
    split_ifs at h
    · have hnext := length_next_le after
      split at h
      · cases h
      · next hfraction =>
        have hbehind := length_of_digits hfraction
        split_ifs at h
        · have hlength := length_of_exponent h
          omega
        · obtain rfl := Except.ok.inj h
          omega
    · exact length_of_exponent h
    · obtain rfl := Except.ok.inj h
      exact Nat.le_refl _

theorem length_of_scalar {c : Char} {k k' : Cursor} (hk : k.next.rest.length + 1 = k.rest.length)
    (h : scalar c k = .ok k') : k'.rest.length < k.rest.length := by
  have hword {word : List Char} (h : readWord k.next word = .ok k') : k'.rest.length < k.rest.length := by
    have hlength := length_of_readWord h
    omega
  unfold scalar at h
  split_ifs at h
  · exact hword h
  · exact hword h
  · exact hword h
  · have hlength := length_of_number h
    omega
  · exact length_of_number h
  · have hlength := length_of_string h
    omega

theorem length_of_lead {frame : Frame} {k k' : Cursor} (h : frame.lead k = .ok k') :
    k'.rest.length ≤ k.rest.length := by
  cases frame with
  | array =>
    obtain rfl := Except.ok.inj h
    exact Nat.le_refl _
  | object =>
    have hskip := length_skipSpace_le k
    have hnext := length_next_le k.skipSpace
    unfold Frame.lead at h
    dsimp only at h
    split at h
    · cases h
    · split_ifs at h
      obtain ⟨k₁, hstring, hcolon⟩ := exists_of_bind_eq_ok h
      have hlength := length_of_string hstring
      have hbehind := length_of_readColon hcolon
      omega

namespace Task

/-- How many pieces a task reads at least. -/
def least : Task → Nat
  | value => 1
  | more _ => 0

theorem least_le (task : Task) : task.least ≤ 1 := by
  cases task <;> simp [least]

end Task

variable {fuel fuel' : Nat} {task : Task} {frames : List Frame} {k k' : Cursor}

theorem length_of_perform (h : perform fuel task frames k = .ok k') :
    k'.rest.length + task.least ≤ k.rest.length := by
  induction fuel generalizing task frames k with
  | zero => cases h
  | succ fuel ih =>
    have hvalue {frames₁ : List Frame} {k₁ : Cursor} (h : perform fuel .value frames₁ k₁ = .ok k') :
        k'.rest.length + 1 ≤ k₁.rest.length := ih h
    have hmore {isFirst : Bool} {frames₁ : List Frame} {k₁ : Cursor}
        (h : perform fuel (.more isFirst) frames₁ k₁ = .ok k') : k'.rest.length ≤ k₁.rest.length := ih h
    cases task with
    | value =>
      have hskip := length_skipSpace_le k
      cases hrest : k.skipSpace.rest with
      | nil =>
        simp only [perform, hrest] at h
        cases h
      | cons p rest =>
        have hnext := length_next hrest
        cases p with
        | illFormed n =>
          simp only [perform, hrest] at h
          cases h
        | char c =>
          simp only [perform, hrest] at h
          show k'.rest.length + 1 ≤ k.rest.length
          split_ifs at h
          · have hlength := hmore h
            omega
          · have hlength := hmore h
            omega
          · obtain ⟨k₁, hscalar, h⟩ := exists_of_bind_eq_ok h
            have hread := length_of_scalar hnext hscalar
            have hlength := hmore h
            omega
    | more isFirst =>
      show k'.rest.length ≤ k.rest.length
      cases frames with
      | nil =>
        obtain rfl := Except.ok.inj h
        exact Nat.le_refl _
      | cons frame frames =>
        have hskip := length_skipSpace_le k
        have hnext := length_next_le k.skipSpace
        cases hrest : k.skipSpace.rest with
        | nil =>
          simp only [perform, hrest] at h
          cases h
        | cons p rest =>
          simp only [perform, hrest] at h
          split_ifs at h
          · have hlength := hmore h
            omega
          · obtain ⟨k₁, hlead, h⟩ := exists_of_bind_eq_ok h
            have hread := length_of_lead hlead
            have hlength := hvalue h
            omega
          · obtain ⟨k₁, hlead, h⟩ := exists_of_bind_eq_ok h
            have hread := length_of_lead hlead
            have hlength := hvalue h
            omega

/-- More steps than enough make no difference. -/
theorem perform_eq (h : stepsFor task.least k ≤ fuel) (h' : stepsFor task.least k ≤ fuel') :
    perform fuel task frames k = perform fuel' task frames k := by
  induction fuel generalizing fuel' task frames k with
  | zero =>
    obtain ⟨n, hn⟩ := exists_eq_add_one_of_stepsFor_le task.least_le h
    cases hn
  | succ fuel ih =>
    obtain ⟨fuel', rfl⟩ := exists_eq_add_one_of_stepsFor_le task.least_le h'
    have hlater {task₁ : Task} {frames₁ : List Frame} {k₁ : Cursor}
        (hsteps : stepsFor task₁.least k₁ < stepsFor task.least k) :
        perform fuel task₁ frames₁ k₁ = perform fuel' task₁ frames₁ k₁ :=
      ih (Nat.le_of_lt_succ (Nat.lt_of_lt_of_le hsteps h)) (Nat.le_of_lt_succ (Nat.lt_of_lt_of_le hsteps h'))
    have hskip := length_skipSpace_le k
    cases task with
    | value =>
      cases hrest : k.skipSpace.rest with
      | nil => simp only [perform, hrest]
      | cons p rest =>
        have hnext := length_next hrest
        cases p with
        | illFormed n => simp only [perform, hrest]
        | char c =>
          have hopen (frames₁ : List Frame) : perform fuel (.more true) frames₁ k.skipSpace.next =
              perform fuel' (.more true) frames₁ k.skipSpace.next :=
            hlater (stepsFor_lt (Nat.le_refl 1) (by omega))
          simp only [perform, hrest, hopen]
          split_ifs
          · rfl
          · rfl
          · refine bind_congr_of_ok fun k₁ hscalar => ?_
            have hlength := length_of_scalar hnext hscalar
            exact hlater (stepsFor_lt (Nat.le_refl 1) (by omega))
    | more isFirst =>
      cases frames with
      | nil => rfl
      | cons frame frames =>
        cases hrest : k.skipSpace.rest with
        | nil => simp only [perform, hrest]
        | cons p rest =>
          have hnext := length_next hrest
          have hclose : perform fuel (.more false) frames k.skipSpace.next =
              perform fuel' (.more false) frames k.skipSpace.next :=
            hlater (stepsFor_lt (Nat.zero_le 1) (by omega))
          have hvalue {k₁ : Cursor} (hk₁ : k₁.rest.length ≤ k.rest.length) :
              (frame.lead k₁ >>= fun k₂ => perform fuel .value (frame :: frames) k₂) =
                frame.lead k₁ >>= fun k₂ => perform fuel' .value (frame :: frames) k₂ := by
            refine bind_congr_of_ok fun k₂ hlead => ?_
            have hlength := length_of_lead hlead
            exact hlater (stepsFor_one_lt (by omega))
          simp only [perform, hrest, hclose]
          split_ifs
          · rfl
          · exact hvalue hskip
          · exact hvalue (by omega)
          · rfl

theorem value_eq (k : Cursor) (h : 2 * k.rest.length + 1 ≤ fuel) : value k = perform fuel .value [] k :=
  perform_eq (Nat.le_refl _) h

theorem length_of_value (h : value k = .ok k') : k'.rest.length < k.rest.length := length_of_perform h

end Skipped

/-! Reading. -/

theorem length_of_moreItems {isFirst more : Bool} {k k' : Cursor} (h : moreItems isFirst k = .ok (more, k')) :
    k'.rest.length ≤ k.rest.length := by
  have hskip := length_skipSpace_le k
  have hnext := Nat.le_trans (length_skipSpace_le k.skipSpace.next) (length_next_le k.skipSpace)
  unfold moreItems at h
  dsimp only at h
  split at h
  · cases h
  · split_ifs at h
    · rwa [← (Prod.mk.inj (Except.ok.inj h)).2]
    · rwa [← (Prod.mk.inj (Except.ok.inj h)).2]
    · split at h
      · cases h
      · split_ifs at h
        rw [← (Prod.mk.inj (Except.ok.inj h)).2]
        exact Nat.le_trans hnext hskip

theorem length_of_moreEntries {isFirst more : Bool} {k k' : Cursor}
    (h : moreEntries isFirst k = .ok (more, k')) : k'.rest.length ≤ k.rest.length := by
  have hskip := length_skipSpace_le k
  have hnext := Nat.le_trans (length_skipSpace_le k.skipSpace.next) (length_next_le k.skipSpace)
  unfold moreEntries at h
  dsimp only at h
  split at h
  · cases h
  · split_ifs at h
    · rwa [← (Prod.mk.inj (Except.ok.inj h)).2]
    · rwa [← (Prod.mk.inj (Except.ok.inj h)).2]
    · split at h
      · cases h
      · split_ifs at h
        rw [← (Prod.mk.inj (Except.ok.inj h)).2]
        exact Nat.le_trans hnext hskip

namespace Task

/-- How many pieces a task reads at least. -/
def least : Task → Nat
  | value => 1
  | items _ => 0
  | entries _ => 0

theorem least_le (task : Task) : task.least ≤ 1 := by
  cases task <;> simp [least]

end Task

variable {known : Nat → String → Bool} {depth fuel fuel' : Nat} {task : Task} {k k' : Cursor} {v : Json}

theorem length_of_perform (h : perform known fuel depth task k = .ok (v, k')) :
    k'.rest.length + task.least ≤ k.rest.length := by
  induction fuel generalizing depth task k k' v with
  | zero => cases h
  | succ fuel ih =>
    cases task with
    | value =>
      have hskip := length_skipSpace_le k
      cases hrest : k.skipSpace.rest with
      | nil =>
        simp only [perform, hrest] at h
        cases h
      | cons p rest =>
        have hnext := length_next hrest
        have hword {word : List Char} {w : Json}
            (h : ((readWord k.skipSpace.next word).map fun k => (w, k)) = .ok (v, k')) :
            k'.rest.length + 1 ≤ k.rest.length := by
          cases hread : readWord k.skipSpace.next word with
          | error e =>
            rw [hread] at h
            cases h
          | ok k₁ =>
            rw [hread] at h
            obtain ⟨-, rfl⟩ := Prod.mk.inj (Except.ok.inj h)
            have hlength := length_of_readWord hread
            omega
        cases p with
        | illFormed n =>
          simp only [perform, hrest] at h
          cases h
        | char c =>
          simp only [perform, hrest] at h
          show k'.rest.length + 1 ≤ k.rest.length
          split_ifs at h
          · exact hword h
          · exact hword h
          · exact hword h
          · obtain ⟨n, hread⟩ := exists_of_map_eq_ok h
            have hlength := length_of_number hread
            omega
          · obtain ⟨n, hread⟩ := exists_of_map_eq_ok h
            have hlength := length_of_number hread
            omega
          · obtain ⟨s, hread⟩ := exists_of_map_eq_ok h
            have hlength := length_of_quoted hread
            omega
          · have hlength : k'.rest.length ≤ k.skipSpace.next.rest.length := ih h
            omega
          · have hlength : k'.rest.length ≤ k.skipSpace.next.rest.length := ih h
            omega
    | items latest =>
      unfold perform at h
      obtain ⟨⟨more, k₁⟩, hmore, h⟩ := exists_of_bind_eq_ok h
      have hlength := length_of_moreItems hmore
      cases more with
      | false =>
        obtain ⟨-, rfl⟩ := Prod.mk.inj (Except.ok.inj h)
        exact Nat.le_trans (length_next_le k₁) hlength
      | true =>
        obtain ⟨⟨item, k₂⟩, hitem, h⟩ := exists_of_bind_eq_ok h
        have hbehind := ih hitem
        have hrest := ih h
        exact Nat.le_trans hrest (Nat.le_trans (Nat.le_of_succ_le hbehind) hlength)
    | entries latest =>
      unfold perform at h
      obtain ⟨⟨more, k₁⟩, hmore, h⟩ := exists_of_bind_eq_ok h
      have hlength := length_of_moreEntries hmore
      cases more with
      | false =>
        obtain ⟨-, rfl⟩ := Prod.mk.inj (Except.ok.inj h)
        exact Nat.le_trans (length_next_le k₁) hlength
      | true =>
        obtain ⟨⟨key, k₂⟩, hkey, h⟩ := exists_of_bind_eq_ok h
        obtain ⟨k₃, hcolon, h⟩ := exists_of_bind_eq_ok h
        have hkey := length_of_quoted hkey
        have hcolon := length_of_readColon hcolon
        have hnext := length_next_le k₁
        show k'.rest.length ≤ k.rest.length
        dsimp only at h
        split at h
        · obtain ⟨⟨w, k₄⟩, hvalue, h⟩ := exists_of_bind_eq_ok h
          have hbehind : k₄.rest.length + 1 ≤ k₃.rest.length := ih hvalue
          have hrest : k'.rest.length ≤ k₄.rest.length := ih h
          omega
        · obtain ⟨k₄, hvalue, h⟩ := exists_of_bind_eq_ok h
          have hbehind := Skipped.length_of_value hvalue
          have hrest : k'.rest.length ≤ k₄.rest.length := ih h
          omega

/-- More steps than enough make no difference. -/
theorem perform_eq (h : stepsFor task.least k ≤ fuel) (h' : stepsFor task.least k ≤ fuel') :
    perform known fuel depth task k = perform known fuel' depth task k := by
  induction fuel generalizing fuel' depth task k with
  | zero =>
    obtain ⟨n, hn⟩ := exists_eq_add_one_of_stepsFor_le task.least_le h
    cases hn
  | succ fuel ih =>
    obtain ⟨fuel', rfl⟩ := exists_eq_add_one_of_stepsFor_le task.least_le h'
    have hlater {depth₁ : Nat} {task₁ : Task} {k₁ : Cursor}
        (hsteps : stepsFor task₁.least k₁ < stepsFor task.least k) :
        perform known fuel depth₁ task₁ k₁ = perform known fuel' depth₁ task₁ k₁ :=
      ih (Nat.le_of_lt_succ (Nat.lt_of_lt_of_le hsteps h)) (Nat.le_of_lt_succ (Nat.lt_of_lt_of_le hsteps h'))
    cases task with
    | value =>
      have hskip := length_skipSpace_le k
      cases hrest : k.skipSpace.rest with
      | nil => simp only [perform, hrest]
      | cons p rest =>
        have hnext := length_next hrest
        have hopen (task₁ : Task) : perform known fuel (depth - 1) task₁ k.skipSpace.next =
            perform known fuel' (depth - 1) task₁ k.skipSpace.next :=
          hlater (stepsFor_lt (Nat.le_refl 1) (by omega))
        simp only [perform, hrest, hopen]
    | items latest =>
      unfold perform
      refine bind_congr_of_ok fun r hmore => ?_
      obtain ⟨more, k₁⟩ := r
      have hlength := length_of_moreItems hmore
      have hvalue : perform known fuel depth .value k₁ = perform known fuel' depth .value k₁ :=
        hlater (stepsFor_one_lt hlength)
      dsimp only
      split
      · rw [hvalue]
        refine bind_congr_of_ok fun r hread => ?_
        have hshorter : r.2.rest.length + 1 ≤ k₁.rest.length := length_of_perform hread
        exact hlater (stepsFor_lt (Nat.zero_le 1) (by omega))
      · rfl
    | entries latest =>
      unfold perform
      refine bind_congr_of_ok fun r hmore => ?_
      obtain ⟨more, k₁⟩ := r
      have hlength := length_of_moreEntries hmore
      have hnext := length_next_le k₁
      dsimp only
      split
      · refine bind_congr_of_ok fun r hkey => ?_
        obtain ⟨key, k₂⟩ := r
        have hlength₂ := length_of_quoted hkey
        refine bind_congr_of_ok fun k₃ hcolon => ?_
        have hlength₃ : k₃.rest.length ≤ k₂.rest.length := length_of_readColon hcolon
        have hvalue : perform known fuel depth .value k₃ = perform known fuel' depth .value k₃ :=
          hlater (stepsFor_one_lt (by omega))
        dsimp only
        split
        · rw [hvalue]
          refine bind_congr_of_ok fun r hread => ?_
          have hshorter : r.2.rest.length + 1 ≤ k₃.rest.length := length_of_perform hread
          exact hlater (stepsFor_lt (Nat.zero_le 1) (by omega))
        · refine bind_congr_of_ok fun k₄ hskip => ?_
          have hshorter := Skipped.length_of_value hskip
          exact hlater (stepsFor_lt (Nat.zero_le 1) (by omega))
      · rfl

/-- A text is read as it would be with any number of steps that is not smaller. -/
theorem perform_start_eq (text : List Piece) (h : 2 * text.length + 1 ≤ fuel) :
    perform known (2 * text.length + 1) depth .value (Cursor.start text) =
      perform known fuel depth .value (Cursor.start text) :=
  perform_eq (Nat.le_refl _) h

end PrototypeScan.Json
