import Mathlib.Data.List.Basic

/-!
# Handing out a value once

An operation that hands out a value of its state, or fails, with an answer of its environment for
each call. The state says whether the value is still there, and the answer whether the call gets what
it needs from the environment.

* `takings` — the calls of a sequence.
* `HandsOutOnce` — at most one call gives, the value is there until then, and a call that the
  environment fails changes nothing.
* `atomic_of_gives`, `atomic_of_refuses` — the two kinds of calls, by what they return.
* `handsOutOnce_of_atomic` — the rule: each call gives and uses the value up, or changes nothing.
-/

namespace SysprimsPty.Found

variable {σ α ε β : Type*}

/-- A call: the state before it, the answer of the environment, the state after it and the result. -/
structure Taking (σ α ε β : Type*) where
  before : σ
  answer : α
  after : σ
  result : Except ε β

/-- The call handed out the value. -/
def Taking.Gave (t : Taking σ α ε β) : Prop := t.result.isOk = true

instance : DecidablePred (@Taking.Gave σ α ε β) :=
  fun t => inferInstanceAs (Decidable (t.result.isOk = true))

/-- A call in the state `s`. -/
def Taking.of (take : σ → α → σ × Except ε β) (s : σ) (a : α) : Taking σ α ε β :=
  { before := s, answer := a, after := (take s a).1, result := (take s a).2 }

/-- The calls of a sequence, one for each answer. -/
def takings (take : σ → α → σ × Except ε β) : σ → List α → List (Taking σ α ε β)
  | _, [] => []
  | s, a :: as => .of take s a :: takings take (take s a).1 as

/-- The calls of a sequence follow the operation, in states that satisfy its invariants. -/
theorem takings_spec {take : σ → α → σ × Except ε β} {I : σ → Prop}
    (hI : ∀ s a, I s → I (take s a).1) {s : σ} (hs : I s) {as : List α} :
    ∀ t ∈ takings take s as, ∃ s' a, I s' ∧ t = .of take s' a := by
  induction as generalizing s with
  | nil => simp [takings]
  | cons a as ih =>
      rw [takings, List.forall_mem_cons]
      exact ⟨⟨s, a, hs, rfl⟩, ih (hI s a hs)⟩

/-- **Handing out once**, along the calls from `s`: `Available` states have the value, `Granted`
answers are what a call in the state needs, and `Denied` errors report that the environment failed
it. -/
structure HandsOutOnce (Available : σ → Prop) (Granted : σ → α → Prop) (Denied : ε → Prop) (s : σ)
    (calls : List (Taking σ α ε β)) : Prop where
  once : calls.countP (fun t => t.Gave) ≤ 1
  unchanged : ∀ t ∈ calls, ∀ e, t.result = .error e → Denied e → t.after = t.before
  obtained : Available s → ∀ before t after, calls = before ++ t :: after →
    (∀ b ∈ before, ¬ b.Gave) → Granted t.before t.answer → t.Gave
  refused : ∀ before t after, calls = before ++ t :: after → (∃ b ∈ before, b.Gave) → ¬ t.Gave

/-- A call that gives the value and uses it up, or changes nothing. -/
structure Taking.Atomic (Available : σ → Prop) (Granted : σ → α → Prop) (t : Taking σ α ε β) :
    Prop where
  gives : t.Gave ↔ Available t.before ∧ Granted t.before t.answer
  uses : t.Gave → ¬ Available t.after
  keeps : ¬ t.Gave → t.after = t.before

variable {take : σ → α → σ × Except ε β} {Available : σ → Prop}
  {Granted : σ → α → Prop} {Denied : ε → Prop}

/-- A call that finds the value, gets what it needs and uses the value up. -/
theorem Taking.atomic_of_gives {s t : σ} {a : α} {b : β} (h : take s a = (t, .ok b))
    (hs : Available s) (ha : Granted s a) (ht : ¬ Available t) :
    (Taking.of take s a).Atomic Available Granted := by
  have hafter : (Taking.of take s a).after = t := congrArg Prod.fst h
  have hresult : (Taking.of take s a).result = .ok b := congrArg Prod.snd h
  have hgave : (Taking.of take s a).Gave := by
    rw [Taking.Gave, hresult]
    rfl
  refine ⟨iff_of_true hgave ⟨hs, ha⟩, fun _ => ?_, fun hnot => absurd hgave hnot⟩
  rwa [hafter]

/-- A call that finds no value, or does not get what it needs, and changes nothing. -/
theorem Taking.atomic_of_refuses {s : σ} {a : α} {e : ε} (h : take s a = (s, .error e))
    (hs : Available s → ¬ Granted s a) : (Taking.of take s a).Atomic Available Granted := by
  have hafter : (Taking.of take s a).after = s := congrArg Prod.fst h
  have hresult : (Taking.of take s a).result = .error e := congrArg Prod.snd h
  have hnot : ¬ (Taking.of take s a).Gave := by
    rw [Taking.Gave, hresult]
    exact Bool.false_ne_true
  exact ⟨iff_of_false hnot fun hboth => hs hboth.1 hboth.2, fun hgave => absurd hgave hnot,
    fun _ => hafter⟩

/-- Once the value is gone, atomic calls give nothing. -/
theorem not_gave_of_gone {s : σ} (hs : ¬ Available s) {as : List α}
    (h : ∀ t ∈ takings take s as, t.Atomic Available Granted) :
    ∀ t ∈ takings take s as, ¬ t.Gave := by
  induction as generalizing s with
  | nil => exact fun t ht => absurd ht List.not_mem_nil
  | cons a as ih =>
      rw [takings, List.forall_mem_cons] at h ⊢
      obtain ⟨hfirst, hrest⟩ := h
      have hnot := fun hgave => hs (hfirst.gives.mp hgave).1
      refine ⟨hnot, ih ?_ hrest⟩
      have hkeep : (take s a).1 = s := hfirst.keeps hnot
      rwa [hkeep]

/-- A call that gives, before calls that neither give nor change anything. -/
theorem HandsOutOnce.cons_of_gave {s : σ} {t : Taking σ α ε β} {calls : List (Taking σ α ε β)}
    (ht : t.Gave) (hcalls : ∀ u ∈ calls, ¬ u.Gave ∧ u.after = u.before) :
    HandsOutOnce Available Granted Denied s (t :: calls) where
  once := by
    have hzero : calls.countP (fun u => u.Gave) = 0 :=
      List.countP_eq_zero.mpr fun u hu => by simpa using (hcalls u hu).1
    rw [List.countP_cons, hzero]
    split <;> simp
  unchanged := by
    intro u hu e he _
    rcases List.mem_cons.mp hu with rfl | hu
    · rw [Taking.Gave, he] at ht
      exact absurd ht Bool.false_ne_true
    · exact (hcalls u hu).2
  obtained := by
    intro _ before u after hsplit hbefore _
    cases before with
    | nil =>
        obtain ⟨rfl, -⟩ := List.cons.inj hsplit
        exact ht
    | cons b before =>
        obtain ⟨rfl, -⟩ := List.cons.inj hsplit
        exact absurd ht (hbefore t List.mem_cons_self)
  refused := by
    rintro before u after hsplit ⟨b, hb, -⟩
    cases before with
    | nil => exact absurd hb List.not_mem_nil
    | cons b' before =>
        obtain ⟨-, hrest⟩ := List.cons.inj hsplit
        exact (hcalls u (by simp [hrest])).1

/-- A call that neither gives nor changes anything, before the other calls. -/
theorem HandsOutOnce.cons_of_kept {s : σ} {t : Taking σ α ε β} {calls : List (Taking σ α ε β)}
    (ht : ¬ t.Gave) (hkept : t.after = t.before) (hgranted : Available s → ¬ Granted t.before t.answer)
    (hcalls : HandsOutOnce Available Granted Denied s calls) :
    HandsOutOnce Available Granted Denied s (t :: calls) where
  once := by
    rw [List.countP_cons_of_neg (by simpa using ht)]
    exact hcalls.once
  unchanged := by
    rw [List.forall_mem_cons]
    exact ⟨fun _ _ _ => hkept, hcalls.unchanged⟩
  obtained := by
    intro hs before u after hsplit hbefore hu
    cases before with
    | nil =>
        obtain ⟨rfl, -⟩ := List.cons.inj hsplit
        exact absurd hu (hgranted hs)
    | cons b before =>
        obtain ⟨-, hrest⟩ := List.cons.inj hsplit
        rw [List.forall_mem_cons] at hbefore
        exact hcalls.obtained hs before u after hrest hbefore.2 hu
  refused := by
    rintro before u after hsplit ⟨b, hb, hgave⟩
    cases before with
    | nil => exact absurd hb List.not_mem_nil
    | cons b' before =>
        obtain ⟨rfl, hrest⟩ := List.cons.inj hsplit
        rcases List.mem_cons.mp hb with rfl | hb
        · exact absurd hgave ht
        · exact hcalls.refused before u after hrest ⟨b, hb, hgave⟩

/-- **The rule.** -/
theorem handsOutOnce_of_atomic {s : σ} {as : List α}
    (h : ∀ t ∈ takings take s as, t.Atomic Available Granted) :
    HandsOutOnce Available Granted Denied s (takings take s as) := by
  induction as generalizing s with
  | nil => exact ⟨Nat.zero_le 1, nofun, by simp [takings], by simp [takings]⟩
  | cons a as ih =>
      rw [takings, List.forall_mem_cons] at h
      obtain ⟨hfirst, hrest⟩ := h
      by_cases hgave : (Taking.of take s a).Gave
      · have hnone := not_gave_of_gone (hfirst.uses hgave) hrest
        exact .cons_of_gave hgave fun u hu => ⟨hnone u hu, (hrest u hu).keeps (hnone u hu)⟩
      · have hkept : (take s a).1 = s := hfirst.keeps hgave
        refine .cons_of_kept hgave hkept (fun hs ha => hgave (hfirst.gives.mpr ⟨hs, ha⟩)) ?_
        rw [hkept] at hrest ⊢
        exact ih hrest

end SysprimsPty.Found
