import Mathlib.Data.List.Induction
import Mathlib.Data.List.TakeWhile
import Mathlib.Tactic.IntervalCases
import ObjectRelay.Text.Digits

namespace ObjectRelay.Text

variable {radix low high value : Nat} {digit character : Char}
  {digits front rest : List Char} {isPart : Char → Bool}

/-- What is being read cannot go on here. -/
def Stops (isPart : Char → Bool) (rest : List Char) : Prop :=
  ∀ character ∈ rest.head?, isPart character = false

@[simp] theorem stops_nil (isPart : Char → Bool) : Stops isPart [] := by
  simp [Stops]

@[simp] theorem stops_cons_iff :
    Stops isPart (character :: rest) ↔ isPart character = false := by
  simp [Stops]

theorem takeWhile_append_of_stops
    (hfront : ∀ character ∈ front, isPart character = true)
    (hrest : Stops isPart rest) : (front ++ rest).takeWhile isPart = front := by
  rw [List.takeWhile_append_of_pos hfront]
  cases rest with
  | nil => simp
  | cons character rest => simp [stops_cons_iff.mp hrest]

theorem stops_dropWhile (isPart : Char → Bool) (text : List Char) :
    Stops isPart (text.dropWhile isPart) := by
  induction text with
  | nil => exact stops_nil isPart
  | cons character rest ih =>
      rw [List.dropWhile_cons]
      split
      · exact ih
      · rename_i hother
        exact stops_cons_iff.mpr (Bool.not_eq_true _ ▸ hother)

theorem digitValue?_digitChar (hvalue : value < radix) (hradix : radix ≤ 16) :
    digitValue? radix value.digitChar = some value := by
  have hplain : digitValue? radix value.digitChar =
      (some value).filter (· < radix) := by
    have hsmall : value < 16 := Nat.lt_of_lt_of_le hvalue hradix
    interval_cases value <;> rfl
  rw [hplain, Option.filter_some_pos (by simpa using hvalue)]

theorem digitsValue_concat (radix : Nat) (digits : List Char) (digit : Char) :
    digitsValue radix (digits ++ [digit]) =
      digitsValue radix digits * radix + (digitValue? radix digit).getD 0 := by
  simp [digitsValue]

theorem digitValue?_getD_le (hle : low ≤ high) (digit : Char) :
    (digitValue? low digit).getD 0 ≤ (digitValue? high digit).getD 0 := by
  cases hlow : digitValue? low digit with
  | none => exact Nat.zero_le _
  | some value =>
      obtain ⟨hvalue, hsmall⟩ := Option.filter_eq_some_iff.mp hlow
      have hhigh : digitValue? high digit = some value := by
        refine Option.filter_eq_some_iff.mpr ⟨hvalue, ?_⟩
        simp only [decide_eq_true_eq] at hsmall ⊢
        exact Nat.lt_of_lt_of_le hsmall hle
      rw [hhigh]

theorem digitsValue_le (hle : low ≤ high) (digits : List Char) :
    digitsValue low digits ≤ digitsValue high digits := by
  induction digits using List.reverseRecOn with
  | nil => exact Nat.le_refl 0
  | append_singleton digits digit ih =>
      rw [digitsValue_concat, digitsValue_concat]
      exact Nat.add_le_add (Nat.mul_le_mul ih hle)
        (digitValue?_getD_le hle digit)

/-- A number is one digit, or a smaller number but zero with one digit behind
it. -/
theorem toDigits_induction {motive : Nat → List Char → Prop} (htwo : 1 < radix)
    (one : ∀ value < radix, motive value [value.digitChar])
    (more : ∀ front last, 0 < front → last < radix →
      motive front (Nat.toDigits radix front) →
      motive (radix * front + last)
      (Nat.toDigits radix front ++ [last.digitChar]))
    (value : Nat) : motive value (Nat.toDigits radix value) := by
  induction value using Nat.strongRecOn with
  | ind value ih =>
      rw [Nat.toDigits_eq_if htwo]
      split
      · rename_i hsmall
        exact one value hsmall
      · rename_i hlarge
        have hpos : 0 < value / radix :=
          Nat.div_pos (Nat.not_lt.mp hlarge) (by omega)
        have hless : value / radix < value := Nat.div_lt_self (by omega) htwo
        have hmore := more (value / radix) (value % radix) hpos
          (Nat.mod_lt value (by omega)) (ih _ hless)
        rwa [Nat.div_add_mod] at hmore

theorem digitsValue_toDigits (htwo : 1 < radix) (hradix : radix ≤ 16)
    (value : Nat) :
    digitsValue radix (Nat.toDigits radix value) = value := by
  refine toDigits_induction
    (motive := fun value digits => digitsValue radix digits = value) htwo ?_
      ?_ value
  · intro value hvalue
    simp [digitsValue, digitValue?_digitChar hvalue hradix]
  · intro front last _ hlast hfront
    rw [digitsValue_concat, hfront, digitValue?_digitChar hlast hradix,
      Option.getD_some, Nat.mul_comm]

theorem isDigit_of_mem_toDigits (htwo : 1 < radix) (hradix : radix ≤ 16)
    (h : digit ∈ Nat.toDigits radix value) : isDigit radix digit = true := by
  have hone (value : Nat) (hvalue : value < radix) :
      isDigit radix value.digitChar = true := by
    rw [isDigit, digitValue?_digitChar hvalue hradix, Option.isSome_some]
  refine toDigits_induction
    (motive := fun _ digits => ∀ digit ∈ digits, isDigit radix digit = true)
      htwo ?_ ?_ value digit h
  · intro value hvalue digit hmem
    rw [List.mem_singleton.mp hmem]
    exact hone value hvalue
  · intro front last _ hlast hfront digit hmem
    rcases List.mem_append.mp hmem with hmem | hmem
    · exact hfront digit hmem
    · rw [List.mem_singleton.mp hmem]
      exact hone last hlast

theorem head?_toDigits_ne_zero (htwo : 1 < radix) (hpos : 0 < value) :
    (Nat.toDigits radix value).head? ≠ some '0' := by
  refine toDigits_induction
    (motive := fun value digits => 0 < value → digits.head? ≠ some '0') htwo ?_
      ?_ value hpos
  · intro value _ hpos
    simp [Nat.digitChar_eq_zero, Nat.pos_iff_ne_zero.mp hpos]
  · intro front last hfront _ hhead _
    rw [List.head?_append, Option.or_of_isSome]
    · exact hhead hfront
    · simp [Nat.toDigits_ne_nil]

end ObjectRelay.Text
