import Mathlib.Data.List.Basic

/-!
# Layers of writes

A store is filled from lists, one after another. An element of a list writes at most one key, and the
new value may depend on the one that the key holds.

* `WritesAt`, `Touches` — what an element does.
* `get_foldl_of_untouched`, `get_foldl_of_last` — the two rules for one key.
* `get_foldl_overwriting_iff` — a layer whose values do not depend on the store.
* `get_foldl_distinct_iff` — a layer that writes no key twice.
-/

namespace SysprimsPty.Found

variable {T A K V : Type*}

/-- The element writes the key `k`. -/
def Touches (write : A → Option (K × (Option V → V))) (k : K) (a : A) : Prop :=
  ∃ value, write a = some (k, value)

variable [DecidableEq K]

/-- Every step writes the key of its element and keeps the others. -/
def WritesAt (get : T → K → Option V) (step : T → A → T)
    (write : A → Option (K × (Option V → V))) : Prop :=
  ∀ t a k, get (step t a) k =
    match write a with
    | some (key, value) => if key = k then some (value (get t k)) else get t k
    | none => get t k

variable {get : T → K → Option V} {step : T → A → T} {write : A → Option (K × (Option V → V))}

/-- A step leaves a key that it does not touch. -/
theorem WritesAt.untouched (h : WritesAt get step write) {t : T} {a : A} {k : K}
    (hk : ¬ Touches write k a) : get (step t a) k = get t k := by
  rw [h t a k]
  rcases hwrite : write a with _ | ⟨key, value⟩
  · rfl
  · have hne : key ≠ k := by
      rintro rfl
      exact hk ⟨value, hwrite⟩
    exact if_neg hne

/-- A step writes the key that it touches. -/
theorem WritesAt.touched (h : WritesAt get step write) {t : T} {a : A} {k : K}
    {value : Option V → V} (hwrite : write a = some (k, value)) :
    get (step t a) k = some (value (get t k)) := by
  rw [h t a k, hwrite]
  exact if_pos rfl

/-- A layer leaves a key that none of its elements touches. -/
theorem get_foldl_of_untouched (h : WritesAt get step write) {as : List A} {k : K}
    (hk : ∀ a ∈ as, ¬ Touches write k a) (t : T) : get (as.foldl step t) k = get t k := by
  induction as generalizing t with
  | nil => rfl
  | cons a as ih =>
      rw [List.forall_mem_cons] at hk
      rw [List.foldl_cons, ih hk.2, h.untouched hk.1]

/-- The last element that touches a key decides. -/
theorem get_foldl_of_last (h : WritesAt get step write) {before after : List A} {a : A} {k : K}
    {value : Option V → V} (hwrite : write a = some (k, value))
    (hafter : ∀ b ∈ after, ¬ Touches write k b) (t : T) :
    get ((before ++ a :: after).foldl step t) k =
      some (value (get (before.foldl step t) k)) := by
  rw [List.foldl_append, List.foldl_cons, get_foldl_of_untouched h hafter, h.touched hwrite]

omit [DecidableEq K] in
/-- A layer has a last element that touches a key, or none. -/
theorem exists_last_touching (as : List A) (k : K) :
    (∃ before a after, as = before ++ a :: after ∧ Touches write k a ∧
        ∀ b ∈ after, ¬ Touches write k b) ∨
      ∀ a ∈ as, ¬ Touches write k a := by
  induction as with
  | nil => exact .inr nofun
  | cons a as ih =>
      rcases ih with ⟨before, b, after, rfl, hb, hafter⟩ | hnone
      · exact .inl ⟨a :: before, b, after, rfl, hb, hafter⟩
      · by_cases ha : Touches write k a
        · exact .inl ⟨[], a, as, rfl, ha, hnone⟩
        · exact .inr (List.forall_mem_cons.mpr ⟨ha, hnone⟩)

/-- **A layer that overwrites**: a key holds what the last element for it writes, or what it held. -/
theorem get_foldl_overwriting_iff (h : WritesAt get step write)
    (hover : ∀ a k value, write a = some (k, value) → ∀ held, value held = value none)
    {as : List A} {t : T} {k : K} {v : V} :
    get (as.foldl step t) k = some v ↔
      (∃ before a after value, as = before ++ a :: after ∧ write a = some (k, value) ∧
          (∀ b ∈ after, ¬ Touches write k b) ∧ value none = v) ∨
        ((∀ a ∈ as, ¬ Touches write k a) ∧ get t k = some v) := by
  have hlast : ∀ before a after value, as = before ++ a :: after → write a = some (k, value) →
      (∀ b ∈ after, ¬ Touches write k b) → get (as.foldl step t) k = some (value none) := by
    rintro before a after value rfl hwrite hafter
    rw [get_foldl_of_last h hwrite hafter, hover a k value hwrite]
  constructor
  · intro hget
    rcases exists_last_touching as k with ⟨before, a, after, hsplit, ⟨value, hwrite⟩, hafter⟩ | hnone
    · rw [hlast before a after value hsplit hwrite hafter, Option.some_inj] at hget
      exact .inl ⟨before, a, after, value, hsplit, hwrite, hafter, hget⟩
    · rw [get_foldl_of_untouched h hnone] at hget
      exact .inr ⟨hnone, hget⟩
  · rintro (⟨before, a, after, value, hsplit, hwrite, hafter, rfl⟩ | ⟨hnone, hget⟩)
    · exact hlast before a after value hsplit hwrite hafter
    · rw [get_foldl_of_untouched h hnone, hget]

/-- No key is touched by two elements of the layer. -/
def DistinctKeys (write : A → Option (K × (Option V → V))) (as : List A) : Prop :=
  as.Pairwise fun a b => ∀ k, Touches write k a → ¬ Touches write k b

/-- In a layer with distinct keys an element writes over what its key held before the layer. -/
theorem get_foldl_of_mem (h : WritesAt get step write) {as : List A}
    (hdistinct : DistinctKeys write as) {a : A} (ha : a ∈ as) {k : K} {value : Option V → V}
    (hwrite : write a = some (k, value)) (t : T) :
    get (as.foldl step t) k = some (value (get t k)) := by
  obtain ⟨before, after, rfl⟩ := List.append_of_mem ha
  have hafter : ∀ b ∈ after, ¬ Touches write k b := fun b hb =>
    List.rel_of_pairwise_cons (List.pairwise_append.mp hdistinct).2.1 hb k ⟨value, hwrite⟩
  have hbefore : ∀ b ∈ before, ¬ Touches write k b := fun b hb htouch =>
    (List.pairwise_append.mp hdistinct).2.2 b hb a List.mem_cons_self k htouch ⟨value, hwrite⟩
  rw [get_foldl_of_last h hwrite hafter, get_foldl_of_untouched h hbefore]

/-- **A layer with distinct keys**: a key holds what the element for it makes of what it held, or
what it held. The order of the elements plays no part. -/
theorem get_foldl_distinct_iff (h : WritesAt get step write) {as : List A}
    (hdistinct : DistinctKeys write as) {t : T} {k : K} {v : V} :
    get (as.foldl step t) k = some v ↔
      (∃ a ∈ as, ∃ value, write a = some (k, value) ∧ value (get t k) = v) ∨
        ((∀ a ∈ as, ¬ Touches write k a) ∧ get t k = some v) := by
  constructor
  · intro hget
    by_cases htouch : ∃ a ∈ as, Touches write k a
    · obtain ⟨a, ha, value, hwrite⟩ := htouch
      rw [get_foldl_of_mem h hdistinct ha hwrite, Option.some_inj] at hget
      exact .inl ⟨a, ha, value, hwrite, hget⟩
    · have hnone : ∀ a ∈ as, ¬ Touches write k a := fun a ha ht => htouch ⟨a, ha, ht⟩
      rw [get_foldl_of_untouched h hnone] at hget
      exact .inr ⟨hnone, hget⟩
  · rintro (⟨a, ha, value, hwrite, rfl⟩ | ⟨hnone, hget⟩)
    · exact get_foldl_of_mem h hdistinct ha hwrite t
    · rw [get_foldl_of_untouched h hnone, hget]

end SysprimsPty.Found
