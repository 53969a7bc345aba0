import ObjectRelay.Proofs.Toml.Quoted
import ObjectRelay.Proofs.Toml.Scalar
import ObjectRelay.Toml.Document
import ObjectRelay.Toml.Printer

namespace ObjectRelay.Toml

namespace Value

/-- Text, truth values, and numbers that a document has room for. -/
inductive Simple : Value → Prop where
  | text (text : String) : Simple (.text text)
  | boolean (value : Bool) : Simple (.boolean value)
  | integer {value : Nat} (hroom : (value : Int) ≤ Int64.maxValue.toInt) :
      Simple (.integer value)

/-- Simple values, or arrays of them. -/
inductive Flat : Value → Prop where
  | simple {value : Value} (hvalue : value.Simple) : Flat value
  | array {values : List Value} (hvalues : ∀ value ∈ values, value.Simple) :
      Flat (.array values)

end Value

namespace Document

open Scalar (Ends)

variable {value : Value} {values : List Value} {text rest : List Char}
  {character : Char} {levels most : Nat}

/-- What may stand between values, and the bracket behind them. -/
def gaps : List Char :=
  [' ', '\t', '\n', '\r', '#', ']']

theorem not_mem_of_part {isPart : Char → Bool} {others : List Char}
    (hothers : others.any isPart = false) (h : isPart character = true) :
    character ∉ others := by
  intro hmem
  exact List.any_eq_false.mp hothers character hmem h

theorem skipSpaces_of_head (h : character ∉ gaps) :
    skipSpaces (character :: rest) = character :: rest := by
  have hspace : ¬ (character = ' ' || character = '\t') = true := by
    simp [gaps] at h
    simp [h]
  exact List.dropWhile_cons_of_neg hspace

theorem skipLines?_of_head (h : character ∉ gaps) :
    skipLines? false (character :: rest) = some (character :: rest) := by
  rw [skipLines?.eq_def]
  split <;> grind [gaps]

theorem toList_print_text (text : String) :
    (Value.text text).print.toList = Quoted.print text.toList := by
  rw [Value.print, quoted, String.toList_ofList]

theorem toList_print_integer (value : Nat) :
    (Value.integer value).print.toList = Nat.toDigits 10 value := by
  rw [Value.print]
  show (Nat.repr value).toList = _
  simp

theorem exists_head_of_simple (h : value.Simple) :
    ∃ first body, value.print.toList = first :: body ∧ first ∉ gaps := by
  cases h with
  | text text =>
      obtain ⟨mark, body, hprint, hmark⟩ := Quoted.exists_print text.toList
      refine ⟨mark, body, (toList_print_text text).trans hprint, ?_⟩
      rcases hmark with rfl | rfl
      · decide
      · decide
  | boolean value =>
      cases value with
      | true => exact ⟨'t', _, rfl, by decide⟩
      | false => exact ⟨'f', _, rfl, by decide⟩
  | @integer value hroom =>
      obtain ⟨digit, more, hdigits, hdigit⟩ :=
        (Scalar.whole_toDigits value).exists_head
      exact ⟨digit, more, (toList_print_integer value).trans hdigits,
        not_mem_of_part (by decide) hdigit⟩

/-- How values other than numbers and truth values begin. -/
def marks : List Char :=
  ['"', '\'', '[', '\x7b']

theorem value?_of_head (h : character ∉ marks) :
    value? levels (character :: rest) = Scalar.read? (character :: rest) := by
  unfold value?
  split <;> grind [marks]

theorem value?_print_text (levels : Nat) (text : String) (hends : Ends rest) :
    value? levels ((Value.text text).print.toList ++ rest) =
      some (.text text, rest) := by
  obtain ⟨mark, body, hprint, hmark⟩ := Quoted.exists_print text.toList
  have hread : Quoted.read? (mark :: (body ++ rest)) =
      some (text.toList, rest) := by
    rw [← List.cons_append, ← hprint]
    exact Quoted.read?_print
      (hends.head?_ne (by decide) (by decide) (by decide))
      (hends.head?_ne (by decide) (by decide) (by decide))
  rw [toList_print_text, hprint, List.cons_append]
  rcases hmark with rfl | rfl
  · simp [value?, hread]
  · simp [value?, hread]

theorem value?_print_boolean (levels : Nat) (value : Bool) (rest : List Char) :
    value? levels ((Value.boolean value).print.toList ++ rest) =
      some (.boolean value, rest) := by
  cases value with
  | true =>
      show value? levels ('t' :: 'r' :: 'u' :: 'e' :: rest) = _
      rw [value?_of_head (by decide)]
      rfl
  | false =>
      show value? levels ('f' :: 'a' :: 'l' :: 's' :: 'e' :: rest) = _
      rw [value?_of_head (by decide)]
      rfl

theorem value?_print_integer {value : Nat} (levels : Nat)
    (hroom : (value : Int) ≤ Int64.maxValue.toInt) (hends : Ends rest) :
    value? levels ((Value.integer value).print.toList ++ rest) =
      some (.integer value, rest) := by
  have hread := Scalar.read?_toDigits hroom hends
  obtain ⟨digit, more, hdigits, hdigit⟩ :=
    (Scalar.whole_toDigits value).exists_head
  rw [toList_print_integer]
  rw [hdigits, List.cons_append] at hread ⊢
  rw [value?_of_head (not_mem_of_part (by decide) hdigit), hread]

theorem value?_print_simple (levels : Nat) (h : value.Simple)
    (hends : Ends rest) :
    value? levels (value.print.toList ++ rest) = some (value, rest) := by
  cases h with
  | text text => exact value?_print_text levels text hends
  | boolean value => exact value?_print_boolean levels value rest
  | integer hroom => exact value?_print_integer levels hroom hends

theorem ends_comma (rest : List Char) : Ends (',' :: rest) := by
  rintro character ⟨⟩
  exact .inr (.inl rfl)

theorem ends_bracket (rest : List Char) : Ends (']' :: rest) := by
  rintro character ⟨⟩
  exact .inr (.inr rfl)

/-- A value on a line of its own, in an array. -/
def itemLine (value : Value) : List Char :=
  '\n' :: ' ' :: ' ' :: ' ' :: ' ' :: (value.print.toList ++ [','])

theorem items?_one (levels : Nat) (hmost : most ≠ 0) (h : value.Simple) :
    items? (value? levels) most (value.print.toList ++ ']' :: rest) =
      some ([value], rest) := by
  obtain ⟨count, rfl⟩ := Nat.exists_eq_succ_of_ne_zero hmost
  have hread := value?_print_simple levels h (ends_bracket rest)
  obtain ⟨first, body, hprint, hfirst⟩ := exists_head_of_simple h
  rw [hprint, List.cons_append] at hread ⊢
  have hbracket : first ≠ ']' := by
    rintro rfl
    exact hfirst (by decide)
  simp [items?, skipLines?_of_head hfirst, hread, hbracket, skipLines?]

theorem items?_lines (levels : Nat) (hvalues : ∀ value ∈ values, value.Simple)
    (hmost : values.length < most) :
    items? (value? levels) most
      (values.flatMap itemLine ++ '\n' :: ']' :: rest) =
      some (values, rest) := by
  induction values generalizing most with
  | nil =>
      obtain ⟨count, rfl⟩ :=
        Nat.exists_eq_succ_of_ne_zero (Nat.pos_iff_ne_zero.mp hmost)
      rfl
  | cons value others ih =>
      obtain ⟨count, rfl⟩ : ∃ count, most = count + 1 := ⟨most - 1, by omega⟩
      rw [List.forall_mem_cons] at hvalues
      have hmore := ih hvalues.2 (Nat.lt_of_succ_lt_succ hmost)
      have hread := value?_print_simple levels hvalues.1
        (ends_comma (others.flatMap itemLine ++ '\n' :: ']' :: rest))
      obtain ⟨first, body, hprint, hfirst⟩ := exists_head_of_simple hvalues.1
      rw [hprint, List.cons_append] at hread
      have hbracket : first ≠ ']' := by
        rintro rfl
        exact hfirst (by decide)
      rw [List.flatMap_cons, itemLine, hprint]
      simp [items?, skipLines?, skipLines?_of_head hfirst, hread,
        hbracket, hmore]

theorem printValues_eq (values : List Value) :
    printValues values = values.map Value.print := by
  induction values with
  | nil => rfl
  | cons value values ih => rw [printValues, List.map_cons, ih]

/-- What stands behind the opening bracket of an array. -/
def items (values : List Value) : List Char :=
  match values with
  | [] => [']']
  | [value] => value.print.toList ++ [']']
  | _ => values.flatMap itemLine ++ ['\n', ']']

theorem toList_print_array (values : List Value) :
    (Value.array values).print.toList = '[' :: items values := by
  rw [Value.print, printValues_eq]
  match values with
  | [] => rfl
  | [value] => simp [bracketed, items]
  | first :: second :: others =>
      have hline : (fun value : Value =>
          ("\n    " ++ value.print ++ ",").toList) = itemLine := by
        funext value
        simp [itemLine]
      simp only [items, ← hline]
      simp [bracketed, String.toList_join, Function.comp_def, List.flatMap_def]

theorem exists_head_of_flat (h : value.Flat) :
    ∃ first body, value.print.toList = first :: body ∧ first ∉ gaps := by
  cases h with
  | simple hvalue => exact exists_head_of_simple hvalue
  | @array values hvalues =>
      exact ⟨'[', items values, toList_print_array values, by decide⟩

theorem length_le_itemLines (values : List Value) :
    values.length ≤ (values.flatMap itemLine).length := by
  induction values with
  | nil => exact Nat.le_refl 0
  | cons value values ih =>
      have hline : 1 ≤ (itemLine value).length := by simp [itemLine]
      rw [List.flatMap_cons, List.length_append, List.length_cons]
      omega

theorem items?_items (levels : Nat) (hvalues : ∀ value ∈ values, value.Simple)
    (hmost : (items values ++ rest).length < most) :
    items? (value? levels) most (items values ++ rest) =
      some (values, rest) := by
  match values with
  | [] =>
      obtain ⟨count, rfl⟩ : ∃ count, most = count + 1 := ⟨most - 1, by omega⟩
      rfl
  | [value] =>
      rw [items, List.append_assoc]
      exact items?_one levels (by omega) (hvalues value List.mem_cons_self)
  | first :: second :: others =>
      have hitems : items (first :: second :: others) ++ rest =
          (first :: second :: others).flatMap itemLine ++ '\n' :: ']' :: rest :=
        List.append_assoc ..
      have hlines := length_le_itemLines (first :: second :: others)
      rw [hitems, List.length_append] at hmost
      rw [hitems]
      exact items?_lines levels hvalues (by omega)

theorem value?_print (levels : Nat) (h : value.Flat) (hends : Ends rest) :
    value? (levels + 1) (value.print.toList ++ rest) = some (value, rest) := by
  cases h with
  | simple hvalue => exact value?_print_simple (levels + 1) hvalue hends
  | @array values hvalues =>
      have hitems := items?_items levels hvalues
        (Nat.lt_succ_self (items values ++ rest).length)
      rw [toList_print_array, List.cons_append, value?]
      rw [hitems]
      rfl

end Document

end ObjectRelay.Toml
