import Mathlib.Data.List.Nodup
import ObjectRelay.Distinct

namespace ObjectRelay

variable [BEq α] [Hashable α]

/-- The items taken so far, the latest first, beside the set of them. -/
structure Taken (state : List α × Std.HashSet α) : Prop where
  nodup : state.1.Nodup
  contains_iff : ∀ item, state.2.contains item = true ↔ item ∈ state.1

theorem taken_empty [LawfulBEq α] : Taken (α := α) ([], ∅) :=
  ⟨List.nodup_nil, by simp⟩

theorem Taken.step [LawfulBEq α] {state : List α × Std.HashSet α}
    (h : Taken state) (item : α) :
    Taken (distinctStep state item) := by
  unfold distinctStep
  split
  · exact h
  · rename_i hnew
    have hfresh : item ∉ state.1 :=
      fun hmem => hnew ((h.contains_iff item).mpr hmem)
    refine ⟨List.nodup_cons.mpr ⟨hfresh, h.nodup⟩, fun other => ?_⟩
    rw [Std.HashSet.contains_insert, Bool.or_eq_true, beq_iff_eq,
      h.contains_iff, List.mem_cons, eq_comm]

theorem Taken.foldl [LawfulBEq α] {state : List α × Std.HashSet α}
    (h : Taken state) (items : List α) :
    Taken (items.foldl distinctStep state) := by
  induction items generalizing state with
  | nil => exact h
  | cons item rest ih => exact ih (h.step item)

theorem mem_foldl_distinctStep [LawfulBEq α] {state : List α × Std.HashSet α}
    (h : Taken state) (items : List α) (item : α) :
    item ∈ (items.foldl distinctStep state).1 ↔ item ∈ state.1 ∨
    item ∈ items := by
  induction items generalizing state with
  | nil => simp
  | cons first rest ih =>
      rw [List.foldl_cons, ih (h.step first), List.mem_cons]
      by_cases hseen : state.2.contains first = true
      · have hmem := (h.contains_iff first).mp hseen
        simp only [distinctStep, if_pos hseen]
        constructor
        · exact fun hitem => hitem.imp_right .inr
        · rintro (hitem | rfl | hitem)
          · exact .inl hitem
          · exact .inl hmem
          · exact .inr hitem
      · simp only [distinctStep, if_neg hseen, List.mem_cons]
        rw [or_comm (a := item = first), or_assoc]

theorem foldl_distinctStep_sublist (items : List α)
    (state : List α × Std.HashSet α) :
    (items.foldl distinctStep state).1.reverse.Sublist
      (state.1.reverse ++ items) := by
  induction items generalizing state with
  | nil => simp
  | cons item rest ih =>
      refine (ih (distinctStep state item)).trans ?_
      unfold distinctStep
      split
      · exact (List.Sublist.refl _).append (List.sublist_cons_self item rest)
      · simp

@[simp] theorem mem_distinct [LawfulBEq α] {items : List α} {item : α} :
    item ∈ distinct items ↔ item ∈ items := by
  rw [distinct, List.mem_reverse, mem_foldl_distinctStep taken_empty]
  simp

theorem nodup_distinct [LawfulBEq α] (items : List α) :
    (distinct items).Nodup := by
  rw [distinct, List.nodup_reverse]
  exact (taken_empty.foldl items).nodup

theorem distinct_sublist (items : List α) : (distinct items).Sublist items := by
  simpa [distinct] using foldl_distinctStep_sublist items ([], ∅)

theorem distinct_of_nodup [LawfulBEq α] {items : List α} (h : items.Nodup) :
    distinct items = items := by
  have hperm : (distinct items).Perm items :=
    (List.perm_ext_iff_of_nodup (nodup_distinct items) h).mpr fun _ =>
      mem_distinct
  exact (distinct_sublist items).eq_of_length hperm.length_eq

end ObjectRelay
