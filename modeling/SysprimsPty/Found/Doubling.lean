import Mathlib.Data.List.Basic
import Mathlib.Algebra.Order.Ring.Nat

/-!
# Growing a buffer until a call fits

A loop that makes a call with a buffer, and again with one twice as long as long as the call finds
the buffer too small and its length is within a limit. The lengths grow, so each is asked about once,
and a function of the length stands for any answers one after another.

* `growing` — the lengths of the buffers, and the result.
* `growing_spec` — what the loop has asked when it ends.
* `length_growing_le`, `lt_of_mem_growing` — how often it asks, and how far it overshoots.
* `growing_eq_of_needed` — when it succeeds.
-/

namespace SysprimsPty.Found

variable {β : Type*} {call : ℕ → Option β} {limit len : ℕ}

/-- The lengths of the buffers and the result of the last call. A call without a result found the
buffer too small. -/
def growing (call : ℕ → Option β) (limit len : ℕ) (hlen : 0 < len) : List ℕ × Option β :=
  match call len with
  | some b => ([len], some b)
  | none =>
      if limit < len then ([len], none)
      else
        let (lens, result) := growing call limit (len * 2) (by omega)
        (len :: lens, result)
termination_by limit + 1 - len

/-- **The loop ends** after calls that all found the buffer too small and within the limit, but the
last one, which gives the result. -/
theorem growing_spec (call : ℕ → Option β) (limit : ℕ) (hlen : 0 < len) :
    ∃ n, (growing call limit len hlen).1 = (List.range (n + 1)).map (len * 2 ^ ·) ∧
      (∀ k < n, call (len * 2 ^ k) = none ∧ len * 2 ^ k ≤ limit) ∧
      (growing call limit len hlen).2 = call (len * 2 ^ n) ∧
      (call (len * 2 ^ n) = none → limit < len * 2 ^ n) := by
  fun_induction growing call limit len hlen with
  | case1 len hlen b hcall =>
      refine ⟨0, by simp, nofun, by simp [hcall], fun hnone => ?_⟩
      rw [pow_zero, mul_one, hcall] at hnone
      cases hnone
  | case2 len hlen hcall hlimit =>
      exact ⟨0, by simp, nofun, by simp [hcall], fun _ => by simpa using hlimit⟩
  | case3 len hlen hcall hlimit lens result heq ih =>
      obtain ⟨n, hlens, hsmall, hresult, hover⟩ := ih
      rw [heq] at hlens hresult
      have hpow (k : ℕ) : len * 2 * 2 ^ k = len * 2 ^ (k + 1) := by rw [pow_succ', mul_assoc]
      simp only [hpow] at hlens hsmall hresult hover
      refine ⟨n + 1, ?_, fun k hk => ?_, hresult, hover⟩
      · rw [List.range_succ_eq_map, List.map_cons, List.map_map, pow_zero, mul_one, hlens]
        rfl
      · rcases k with _ | k
        · rw [pow_zero, mul_one]
          exact ⟨hcall, Nat.le_of_not_lt hlimit⟩
        · exact hsmall k (by omega)

/-- The loop asks at most until the length is over the limit. -/
theorem length_growing_le (call : ℕ → Option β) (hlen : 0 < len) {r : ℕ} (hover : limit < len * 2 ^ r) :
    (growing call limit len hlen).1.length ≤ r + 1 := by
  obtain ⟨n, hlens, hsmall, -, -⟩ := growing_spec call limit hlen
  rw [hlens, List.length_map, List.length_range]
  by_contra hlong
  have hwithin := (hsmall r (by omega)).2
  omega

/-- A buffer that is not the first one is at most twice as long as one that was too small. -/
theorem lt_of_mem_growing (hlen : 0 < len) {needed : ℕ} (hfits : ∀ l, needed ≤ l → call l ≠ none) :
    ∀ l ∈ (growing call limit len hlen).1, l = len ∨ l < 2 * needed := by
  obtain ⟨n, hlens, hsmall, -, -⟩ := growing_spec call limit hlen
  intro l hl
  rw [hlens] at hl
  obtain ⟨k, hk, rfl⟩ := List.mem_map.mp hl
  have hn : k < n + 1 := List.mem_range.mp hk
  rcases k with _ | k
  · exact .inl (by simp)
  · have htoo : len * 2 ^ k < needed := by
      by_contra hge
      exact hfits _ (Nat.le_of_not_lt hge) (hsmall k (by omega)).1
    refine .inr ?_
    rw [pow_succ, ← mul_assoc]
    omega

/-- **When the loop succeeds**: the call needs a length, and the longest buffer has it. -/
theorem growing_eq_of_needed (hlen : 0 < len) {needed r : ℕ} {b : β}
    (hcall : ∀ l, call l = if needed ≤ l then some b else none)
    (hwithin : ∀ k < r, len * 2 ^ k ≤ limit) (hover : limit < len * 2 ^ r) :
    (growing call limit len hlen).2 = if needed ≤ len * 2 ^ r then some b else none := by
  obtain ⟨n, -, hsmall, hresult, hended⟩ := growing_spec call limit hlen
  have hle : n ≤ r := by
    by_contra hlong
    have hr := (hsmall r (by omega)).2
    omega
  have hpow : len * 2 ^ n ≤ len * 2 ^ r := Nat.mul_le_mul_left _ (Nat.pow_le_pow_right (by omega) hle)
  rw [hresult, hcall]
  by_cases hn : needed ≤ len * 2 ^ n
  · rw [if_pos hn, if_pos (hn.trans hpow)]
  · have hlast : limit < len * 2 ^ n := hended (by rw [hcall, if_neg hn])
    have heq : n = r := by
      by_contra hne
      have hr := hwithin n (by omega)
      omega
    rw [heq]

end SysprimsPty.Found
