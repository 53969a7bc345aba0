import Mathlib.Data.List.Basic
import ObjectRelay.Gossip.KnownVectors

namespace ObjectRelay

theorem getElem?_foldl_insert {β : Type} (vectors : List InventoryVector)
    (value : β) (map : Std.HashMap InventoryVector β)
    (vector : InventoryVector) :
    (vectors.foldl (fun map vector => map.insert vector value) map)[vector]? =
      if vector ∈ vectors then some value else map[vector]? := by
  induction vectors generalizing map with
  | nil => simp
  | cons first rest ih =>
      rw [List.foldl_cons, ih, Std.HashMap.getElem?_insert]
      by_cases hrest : vector ∈ rest
      · simp [hrest]
      · by_cases hfirst : first = vector
        · simp [hfirst]
        · have hne : ¬ vector = first := fun h => hfirst h.symm
          simp [hrest, hfirst, hne]

namespace KnownVectors

theorem seen_extend (known : KnownVectors) (vectors : List InventoryVector)
    (now : Nat) :
    (known.extend vectors now).seen =
      vectors.foldl (fun seen vector => seen.insert vector now) known.seen := by
  induction vectors generalizing known with
  | nil => rfl
  | cons first rest ih => exact ih (known.insert first now)

theorem getElem?_extend (known : KnownVectors) (vectors : List InventoryVector)
    (now : Nat) (vector : InventoryVector) :
    (known.extend vectors now).seen[vector]? =
      if vector ∈ vectors then some now else known.seen[vector]? := by
  rw [seen_extend]
  exact getElem?_foldl_insert vectors now known.seen vector

theorem contains_purge_iff {known : KnownVectors} {now : Nat}
    {vector : InventoryVector} :
    (known.purge now).seen.contains vector = true ↔
      ∃ seen, known.seen[vector]? = some seen ∧
        now - seen ≤ known.lifetime := by
  rw [purge, Std.HashMap.contains_eq_isSome_getElem?,
    Std.HashMap.getElem?_filter', Option.isSome_filter, Option.any_eq_true]
  simp

theorem mem_knownOf {known : KnownVectors} {vectors : List InventoryVector}
    {now : Nat} {vector : InventoryVector} :
    vector ∈ (known.knownOf vectors now).1 ↔
      vector ∈ vectors ∧ ∃ seen, known.seen[vector]? = some seen ∧
        now - seen ≤ known.lifetime := by
  rw [← contains_purge_iff]
  cases vectors with
  | nil => simp [knownOf]
  | cons first rest => simp [knownOf]

/-- The peer was heard of the vector then or later. -/
def HeardSince (known : KnownVectors) (vector : InventoryVector)
    (since : Nat) : Prop :=
  ∃ seen, known.seen[vector]? = some seen ∧ since ≤ seen

/-- What happens at one instant makes nothing forgotten that is not too old. -/
structure Ages (now : Nat) (before after : KnownVectors) : Prop where
  lifetime : after.lifetime = before.lifetime
  heard : ∀ vector since, since ≤ now → now ≤ since + before.lifetime →
    before.HeardSince vector since → after.HeardSince vector since

variable {known before middle after : KnownVectors} {vector : InventoryVector}
  {vectors : List InventoryVector} {now since : Nat}

theorem Ages.refl (now : Nat) (known : KnownVectors) : Ages now known known :=
  ⟨rfl, fun _ _ _ _ h => h⟩

theorem Ages.trans (hfirst : Ages now before middle)
    (hsecond : Ages now middle after) :
    Ages now before after := by
  refine ⟨hsecond.lifetime.trans hfirst.lifetime, ?_⟩
  intro vector since hsince hnow hheard
  refine hsecond.heard vector since hsince ?_
    (hfirst.heard vector since hsince hnow hheard)
  rw [hfirst.lifetime]
  exact hnow

theorem lifetime_extend (known : KnownVectors) (vectors : List InventoryVector)
    (now : Nat) :
    (known.extend vectors now).lifetime = known.lifetime := by
  induction vectors generalizing known with
  | nil => rfl
  | cons first rest ih => exact ih (known.insert first now)

theorem heardSince_extend (known : KnownVectors) (hmem : vector ∈ vectors)
    (now : Nat) :
    (known.extend vectors now).HeardSince vector now := by
  refine ⟨now, ?_, Nat.le_refl now⟩
  rw [getElem?_extend, if_pos hmem]

theorem heardSince_insert (known : KnownVectors) (vector : InventoryVector)
    (now : Nat) :
    (known.insert vector now).HeardSince vector now :=
  heardSince_extend known (List.mem_singleton_self vector) now

theorem ages_extend (known : KnownVectors) (vectors : List InventoryVector)
    (now : Nat) :
    Ages now known (known.extend vectors now) := by
  refine ⟨lifetime_extend known vectors now, ?_⟩
  rintro vector since hsince - ⟨seen, hseen, hle⟩
  by_cases hmem : vector ∈ vectors
  · exact ⟨now, by rw [getElem?_extend, if_pos hmem], hsince⟩
  · exact ⟨seen, by rw [getElem?_extend, if_neg hmem, hseen], hle⟩

theorem ages_insert (known : KnownVectors) (vector : InventoryVector)
    (now : Nat) :
    Ages now known (known.insert vector now) :=
  ages_extend known [vector] now

theorem ages_purge (known : KnownVectors) (now : Nat) :
    Ages now known (known.purge now) := by
  refine ⟨rfl, ?_⟩
  rintro vector since - hnow ⟨seen, hseen, hle⟩
  refine ⟨seen, ?_, hle⟩
  have hyoung : now - seen ≤ known.lifetime := by omega
  rw [purge, Std.HashMap.getElem?_filter', hseen, Option.filter_some_pos]
  simpa using hyoung

theorem ages_knownOf (known : KnownVectors) (vectors : List InventoryVector)
    (now : Nat) :
    Ages now known (known.knownOf vectors now).2 := by
  unfold knownOf
  split
  · exact Ages.refl now known
  · exact ages_purge known now

end KnownVectors

end ObjectRelay
