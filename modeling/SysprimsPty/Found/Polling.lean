import Mathlib.Data.List.Basic

/-!
# Polling until there is a result

A loop that asks its environment again and again until an answer gives it a result, and the calls of
such a loop one after another on one stream of answers.

* `pollUntil`, `pollCalls` — one call, and several.
* `pollUntil_eq_some_iff` — what one call uses of the stream.
* `pollCalls_eq_some` — the results of the calls are those of the answers that were used, in order:
  nothing is lost or given twice.
-/

namespace SysprimsPty.Found

variable {α β : Type*} {result : α → Option β}

/-- One call: the first result and the answers that are left; `none`: it goes on to wait. -/
def pollUntil (result : α → Option β) : List α → Option (β × List α)
  | [] => none
  | a :: answers =>
      match result a with
      | some b => some (b, answers)
      | none => pollUntil result answers

/-- That many calls, each on what the one before it has left. -/
def pollCalls (result : α → Option β) : ℕ → List α → Option (List β × List α)
  | 0, answers => some ([], answers)
  | n + 1, answers => do
      let (b, answers) ← pollUntil result answers
      let (bs, answers) ← pollCalls result n answers
      some (b :: bs, answers)

/-- **What one call uses**: answers without a result, and the one whose result it returns. -/
theorem pollUntil_eq_some_iff {answers rest : List α} {b : β} :
    pollUntil result answers = some (b, rest) ↔
      ∃ idle a, answers = idle ++ a :: rest ∧ (∀ x ∈ idle, result x = none) ∧ result a = some b := by
  induction answers with
  | nil => simp [pollUntil]
  | cons a answers ih =>
      rw [pollUntil]
      rcases ha : result a with _ | b'
      · rw [ih]
        constructor
        · rintro ⟨idle, a', rfl, hidle, ha'⟩
          exact ⟨a :: idle, a', rfl, List.forall_mem_cons.mpr ⟨ha, hidle⟩, ha'⟩
        · rintro ⟨idle, a', heq, hidle, ha'⟩
          rcases idle with _ | ⟨x, idle⟩
          · obtain ⟨rfl, -⟩ := List.cons.inj heq
            rw [ha] at ha'
            cases ha'
          · obtain ⟨rfl, rfl⟩ := List.cons.inj heq
            exact ⟨idle, a', rfl, (List.forall_mem_cons.mp hidle).2, ha'⟩
      · constructor
        · intro h
          obtain ⟨rfl, rfl⟩ := Prod.mk.inj (Option.some.inj h)
          exact ⟨[], a, rfl, nofun, ha⟩
        · rintro ⟨idle, a', heq, hidle, ha'⟩
          rcases idle with _ | ⟨x, idle⟩
          · obtain ⟨rfl, rfl⟩ := List.cons.inj heq
            rw [ha] at ha'
            rw [Option.some.inj ha']
          · obtain ⟨rfl, -⟩ := List.cons.inj heq
            rw [(List.forall_mem_cons.mp hidle).1] at ha
            cases ha

/-- **Several calls** return the results of the answers that they use, in order. -/
theorem pollCalls_eq_some {n : ℕ} {answers rest : List α} {bs : List β}
    (h : pollCalls result n answers = some (bs, rest)) :
    ∃ used, answers = used ++ rest ∧ used.filterMap result = bs ∧ bs.length = n := by
  induction n generalizing answers bs with
  | zero =>
      obtain ⟨rfl, rfl⟩ := Prod.mk.inj (Option.some.inj h)
      exact ⟨[], rfl, rfl, rfl⟩
  | succ n ih =>
      simp only [pollCalls, Option.bind_eq_bind, Option.bind_eq_some_iff] at h
      obtain ⟨⟨b, left⟩, hfirst, ⟨bs', rest'⟩, hrest, heq⟩ := h
      obtain ⟨rfl, rfl⟩ := Prod.mk.inj (Option.some.inj heq)
      obtain ⟨idle, a, rfl, hidle, ha⟩ := pollUntil_eq_some_iff.mp hfirst
      obtain ⟨used, rfl, rfl, hlength⟩ := ih hrest
      refine ⟨idle ++ a :: used, by simp, ?_, by simp [hlength]⟩
      rw [List.filterMap_append, List.filterMap_eq_nil_iff.mpr hidle, List.filterMap_cons_some ha]
      rfl

end SysprimsPty.Found
