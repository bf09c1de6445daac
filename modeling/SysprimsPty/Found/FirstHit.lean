import Mathlib.Data.List.Basic

/-!
# The first hit among attempts that can fail

A search tries values in order and stops at the first hit; computing a value to try may fail, which
ends the search. The attempts are a list of `Except ε α`, so that a failure counts only when it is
reached.

* `firstHit`, `firstHit_append` — the search, and how nested loops become one.
* `firstHit_eq_none_iff`, `firstHit_eq_some_iff`, `firstHit_returns_iff` — what it finds, and when it
  does not fail.
* `Reaches`, `Agrees`, `firstHit_agrees_iff` — when the search over what is tried gives the first wanted value
  of what is asked for.
-/

namespace SysprimsPty.Found

variable {ε α : Type*}

/-- The first value that is a hit, unless a failure comes before it. -/
def firstHit (hit : α → Bool) : List (Except ε α) → Except ε (Option α)
  | [] => .ok none
  | .error e :: _ => .error e
  | .ok a :: rest => if hit a then .ok (some a) else firstHit hit rest

variable {hit : α → Bool}

/-- A search over two lists goes on to the second if the first has neither a hit nor a failure. -/
theorem firstHit_append (hit : α → Bool) (xs ys : List (Except ε α)) :
    firstHit hit (xs ++ ys) =
      match firstHit hit xs with
      | .error e => .error e
      | .ok (some a) => .ok (some a)
      | .ok none => firstHit hit ys := by
  induction xs with
  | nil => rfl
  | cons attempt xs ih =>
      cases attempt with
      | error e => rfl
      | ok a =>
          rw [List.cons_append, firstHit, firstHit]
          split_ifs
          · rfl
          · exact ih

/-- A search finds nothing exactly if every attempt is a value that is no hit. -/
theorem firstHit_eq_none_iff {attempts : List (Except ε α)} :
    firstHit hit attempts = .ok none ↔
      ∀ attempt ∈ attempts, ∃ a, attempt = .ok a ∧ hit a = false := by
  induction attempts with
  | nil => simp [firstHit]
  | cons attempt attempts ih =>
      rw [List.forall_mem_cons]
      cases attempt with
      | error e => simp [firstHit]
      | ok a =>
          rw [firstHit]
          by_cases ha : hit a = true
          · simp [ha]
          · rw [if_neg ha, ih]
            simp [ha]

/-- A search finds the first value that is a hit, if only values that are no hit come before it. -/
theorem firstHit_eq_some_iff {attempts : List (Except ε α)} {a : α} :
    firstHit hit attempts = .ok (some a) ↔
      ∃ before after, attempts = before ++ .ok a :: after ∧ hit a = true ∧
        ∀ attempt ∈ before, ∃ a', attempt = .ok a' ∧ hit a' = false := by
  constructor
  · intro h
    induction attempts with
    | nil => cases h
    | cons attempt attempts ih =>
        cases attempt with
        | error e => cases h
        | ok a' =>
            rw [firstHit] at h
            split_ifs at h with ha'
            · obtain rfl := Option.some.inj (Except.ok.inj h)
              exact ⟨[], attempts, rfl, ha', nofun⟩
            · obtain ⟨before, after, rfl, ha, hbefore⟩ := ih h
              exact ⟨.ok a' :: before, after, rfl, ha,
                List.forall_mem_cons.mpr ⟨⟨a', rfl, Bool.eq_false_iff.mpr ha'⟩, hbefore⟩⟩
  · rintro ⟨before, after, rfl, ha, hbefore⟩
    rw [firstHit_append, firstHit_eq_none_iff.mpr hbefore, firstHit, if_pos ha]

/-- A search does not fail exactly if there is a hit before every failure. -/
theorem firstHit_returns_iff {attempts : List (Except ε α)} :
    (∃ found, firstHit hit attempts = .ok found) ↔
      ∀ before e after, attempts = before ++ .error e :: after →
        ∃ a, .ok a ∈ before ∧ hit a = true := by
  induction attempts with
  | nil => simp [firstHit]
  | cons attempt attempts ih =>
      cases attempt with
      | error e =>
          constructor
          · rintro ⟨found, hfound⟩
            cases hfound
          · intro h
            obtain ⟨a, ha, -⟩ := h [] e attempts rfl
            cases ha
      | ok a =>
          rw [firstHit]
          by_cases ha : hit a = true
          · rw [if_pos ha]
            refine iff_of_true ⟨_, rfl⟩ fun before e after hsplit => ?_
            cases before with
            | nil => cases hsplit
            | cons attempt before =>
                obtain ⟨rfl, -⟩ := List.cons.inj hsplit
                exact ⟨a, List.mem_cons_self, ha⟩
          · rw [if_neg ha, ih]
            constructor
            · intro h before e after hsplit
              cases before with
              | nil => cases hsplit
              | cons attempt before =>
                  obtain ⟨-, hrest⟩ := List.cons.inj hsplit
                  obtain ⟨a', hmem, ha'⟩ := h before e after hrest
                  exact ⟨a', List.mem_cons_of_mem _ hmem, ha'⟩
            · intro h before e after hsplit
              obtain ⟨a', hmem, ha'⟩ := h (.ok a :: before) e after
                (by rw [hsplit, List.cons_append])
              rcases List.mem_cons.mp hmem with heq | hmem
              · obtain rfl := Except.ok.inj heq
                exact absurd ha' ha
              · exact ⟨a', hmem, ha'⟩

/-! ## What is tried and what is asked for -/

/-- The attempts reach `target`: no hit and no failure comes before it, or it is the default where
all attempts miss. -/
def Reaches (hit : α → Bool) (default target : α) (attempts : List (Except ε α)) : Prop :=
  (∃ before after, attempts = before ++ .ok target :: after ∧ hit target = true ∧
    ∀ attempt ∈ before, ∃ a, attempt = .ok a ∧ hit a = false) ∨
  (default = target ∧ ∀ attempt ∈ attempts, ∃ a, attempt = .ok a ∧ hit a = false)

/-- A search gives the value that the attempts reach. -/
theorem firstHit_reaches_iff {attempts : List (Except ε α)} {default target : α} :
    (∃ found, firstHit hit attempts = .ok found ∧ found.getD default = target) ↔
      Reaches hit default target attempts := by
  rw [Reaches, ← firstHit_eq_some_iff, ← firstHit_eq_none_iff]
  constructor
  · rintro ⟨found, hfound, heq⟩
    cases found with
    | none => exact .inr ⟨heq, hfound⟩
    | some a =>
        obtain rfl : a = target := heq
        exact .inl hfound
  · rintro (hsome | ⟨heq, hnone⟩)
    · exact ⟨_, hsome, rfl⟩
    · exact ⟨_, hnone, heq⟩

/-- A search tries a value at each place, where another one is asked for; the first value asked for
that is wanted is the right answer, and `default` if there is none. **The search agrees**: at the
first place where the tried value is a hit or the value asked for is wanted, the two are the same and
both; or one of the two is what the later places reach for the other search. -/
def Agrees (hit wanted : α → Bool) (default : α) : List (Except ε α × α) → Prop
  | [] => True
  | (.error _, _) :: _ => False
  | (.ok tried, asked) :: rest =>
      (hit tried = true ∧ wanted asked = true ∧ tried = asked) ∨
      (hit tried = false ∧ wanted asked = false ∧ Agrees hit wanted default rest) ∨
      (hit tried = true ∧ wanted asked = false ∧
        ((rest.map Prod.snd).find? wanted).getD default = tried) ∨
      (hit tried = false ∧ wanted asked = true ∧ Reaches hit default asked (rest.map Prod.fst))

/-- A search gives the right answer exactly if it agrees. -/
theorem firstHit_agrees_iff {wanted : α → Bool} {default : α} {places : List (Except ε α × α)} :
    (∃ found, firstHit hit (places.map Prod.fst) = .ok found ∧
        found.getD default = ((places.map Prod.snd).find? wanted).getD default) ↔
      Agrees hit wanted default places := by
  induction places with
  | nil => exact iff_of_true ⟨none, rfl, rfl⟩ trivial
  | cons place rest ih =>
      obtain ⟨attempt, asked⟩ := place
      cases attempt with
      | error e =>
          refine iff_of_false ?_ id
          rintro ⟨found, hfound, -⟩
          cases hfound
      | ok tried =>
          simp only [List.map_cons, firstHit, List.find?_cons, Agrees, ← firstHit_reaches_iff]
          cases hit tried <;> cases wanted asked
          · simpa using ih
          · simp
          · simp [eq_comm]
          · simp

/-- Where every tried value is the one asked for, the search agrees exactly if the first hit is
wanted, or is the default and nothing is wanted. -/
theorem agrees_same_iff {wanted : α → Bool} (hwanted : ∀ a, wanted a = true → hit a = true)
    {default : α} {values : List α} :
    Agrees hit wanted default (values.map fun a => ((.ok a : Except ε α), a)) ↔
      ∀ a, values.find? hit = some a →
        wanted a = true ∨ (default = a ∧ ∀ v ∈ values, wanted v = false) := by
  induction values with
  | nil => exact iff_of_true trivial nofun
  | cons v values ih =>
      rw [List.map_cons, Agrees, List.find?_cons]
      cases hv : hit v with
      | false =>
          have hmiss : wanted v = false :=
            Bool.eq_false_iff.mpr fun h => Bool.false_ne_true (hv ▸ hwanted v h)
          simp [hmiss, ih]
      | true =>
          cases hw : wanted v with
          | true => simp [hw]
          | false =>
              have hfind : ((values.map fun a => ((.ok a : Except ε α), a)).map Prod.snd) =
                  values := by simp [Function.comp_def]
              simp only [hfind, Bool.true_eq_false, Bool.false_eq_true, false_and, and_false,
                false_or, or_false, true_and, Option.some.injEq, forall_eq', hw,
                List.forall_mem_cons]
              constructor
              · intro hdefault
                cases hnone : values.find? wanted with
                | none =>
                    rw [hnone] at hdefault
                    exact ⟨hdefault, fun a ha => Bool.eq_false_iff.mpr
                      (List.find?_eq_none.mp hnone a ha)⟩
                | some a =>
                    rw [hnone] at hdefault
                    obtain rfl : a = v := hdefault
                    rw [List.find?_some hnone] at hw
                    cases hw
              · rintro ⟨rfl, hall⟩
                rw [List.find?_eq_none.mpr fun a ha => by simp [hall a ha]]
                rfl

end SysprimsPty.Found
