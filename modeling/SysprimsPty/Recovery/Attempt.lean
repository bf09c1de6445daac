import SysprimsPty.Core.Io
import SysprimsPty.Found.Transition

/-!
# One recovery attempt

`attempt_failed_child_recovery` as a step machine over its calls into the child handle and the
clock: `AttemptPc` is the point the function has reached, an `AttemptEvent` is one such call with
the answer it got, and `Attempt` pairs the point with the slot (`child: &mut Option<_>`). The
machine does not fix what the operating system answers, so that the recovery protocol can run it
under every pattern of answers and the platform modules under the answers of one kind of child.

* `attemptStep_cases` — what one step can do: go on with the same slot, return `Ok(false)` or an
  error with the same slot, or take the child out after a poll that reported its exit.
* `attempt_child_of_not_exited` — the run form: without such a poll the slot keeps its child.
-/

namespace SysprimsPty.Recovery

open SysprimsPty.Core
open SysprimsPty.Found

/-- A call that an attempt makes, with its answer. -/
inductive AttemptEvent
  /-- `Child::try_wait(owned_child)` -/
  | tryWait (answer : IoResult (Option ExitStatus))
  /-- `ChildKiller::kill(owned_child)` -/
  | kill (answer : IoResult Unit)
  /-- `std::time::Instant::now()` -/
  | now (instant : Instant)
  /-- `std::thread::sleep(Duration::from_millis(10))` has returned. -/
  | slept

/-- The call whose answer the attempt is waiting for. -/
inductive AttemptPc
  /-- The poll before the kill. -/
  | firstPoll
  | kill
  /-- `let deadline = Instant::now() + timeout` -/
  | deadline
  /-- The poll at the head of the loop. -/
  | poll (deadline : Instant)
  /-- The match guard `None if Instant::now() < deadline`. -/
  | guard (deadline : Instant)
  | sleep (deadline : Instant)
  | returned (result : IoResult Bool)

/-- A running attempt and the slot it works on. -/
structure Attempt (C : Type) where
  pc : AttemptPc
  child : Option C

/-- The cap on one attempt: `Duration::from_secs(2)`. -/
def attemptCap : Duration := Duration.fromSecs 2

/-- The sleep between two polls of the attempt: `Duration::from_millis(10)`. -/
def pause : Duration := Duration.fromMillis 10

variable {C : Type}

/-- Entering the function: an empty slot returns `Ok(true)` at once.
Source: `lib.rs` `attempt_failed_child_recovery`, `let owned_child = match child.as_mut()` -/
def Attempt.enter : Option C → Attempt C
  | some c => { pc := .firstPoll, child := some c }
  | none => { pc := .returned (.ok true), child := none }

/-- One call and what the function does with its answer.
Source: `lib.rs` `attempt_failed_child_recovery` (without the test faults) -/
def attemptStep (timeout : Duration) (a : Attempt C) : AttemptEvent → Option (Attempt C)
  | .tryWait answer =>
      match a.pc, answer with
      | .firstPoll, .error e => some { a with pc := .returned (.error e) }
      | .firstPoll, .ok (some _) => some { pc := .returned (.ok true), child := none }
      | .firstPoll, .ok none => some { a with pc := .kill }
      | .poll _, .error e => some { a with pc := .returned (.error e) }
      | .poll _, .ok (some _) => some { pc := .returned (.ok true), child := none }
      | .poll d, .ok none => some { a with pc := .guard d }
      | _, _ => none
  | .kill answer =>
      match a.pc, answer with
      | .kill, .error e => some { a with pc := .returned (.error e) }
      | .kill, .ok () => some { a with pc := .deadline }
      | _, _ => none
  | .now t =>
      match a.pc with
      | .deadline => some { a with pc := .poll (t + min timeout attemptCap) }
      | .guard d => some { a with pc := if t < d then .sleep d else .returned (.ok false) }
      | _ => none
  | .slept =>
      match a.pc with
      | .sleep d => some { a with pc := .poll d }
      | _ => none

/-- The poll that takes the child out of the slot. -/
def AttemptEvent.reportsExit : AttemptEvent → Bool
  | .tryWait (.ok (some _)) => true
  | _ => false

/-- What a point of the attempt says about the slot: `Ok(true)` leaves it empty, and every other
point leaves the child in it. -/
def AttemptPc.Holds (child : Option C) : AttemptPc → Prop
  | .returned (.ok true) => child = none
  | _ => child.isSome

/-- **What one step can do.** Either the slot is untouched, or the step is a poll that reported
the exit, and then the slot is emptied and the attempt returns `Ok(true)`. -/
theorem attemptStep_cases {timeout : Duration} {a b : Attempt C} {e : AttemptEvent}
    (h : attemptStep timeout a e = some b) :
    (b.child = a.child ∧ e.reportsExit = false ∧ b.pc ≠ .returned (.ok true)) ∨
      (b.child = none ∧ e.reportsExit = true ∧ b.pc = .returned (.ok true)) := by
  obtain ⟨pc, child⟩ := a
  cases e with
  | tryWait answer =>
      rcases answer with e | _ | status <;> cases pc <;>
        simp only [attemptStep, Option.some.injEq, reduceCtorEq] at h <;> subst h <;>
        simp [AttemptEvent.reportsExit]
  | kill answer =>
      rcases answer with e | _ <;> cases pc <;>
        simp only [attemptStep, Option.some.injEq, reduceCtorEq] at h <;> subst h <;>
        simp [AttemptEvent.reportsExit]
  | now t =>
      cases pc <;> simp only [attemptStep, Option.some.injEq, reduceCtorEq] at h <;> subst h
      · simp [AttemptEvent.reportsExit]
      · refine Or.inl ⟨rfl, rfl, ?_⟩
        dsimp only
        split <;> simp
  | slept =>
      cases pc <;> simp only [attemptStep, Option.some.injEq, reduceCtorEq] at h
      subst h
      simp [AttemptEvent.reportsExit]

/-- A point other than the return of `Ok(true)` holds its child. -/
theorem AttemptPc.holds_iff_of_ne {child : Option C} {pc : AttemptPc}
    (h : pc ≠ .returned (.ok true)) : pc.Holds child ↔ child.isSome := by
  unfold Holds
  split
  · exact absurd rfl h
  · rfl

/-- The slot of a fresh attempt fits its point. -/
theorem Attempt.enter_holds (child : Option C) :
    (Attempt.enter child).pc.Holds child := by
  cases child <;> simp [Attempt.enter, AttemptPc.Holds]

/-- The slot fits the point after every step. -/
theorem attemptStep_holds {timeout : Duration} {a b : Attempt C} {e : AttemptEvent}
    (ha : a.pc.Holds a.child) (h : attemptStep timeout a e = some b) : b.pc.Holds b.child := by
  have hrun : a.pc ≠ .returned (.ok true) := by
    intro hpc
    obtain ⟨pc, child⟩ := a
    cases hpc
    cases e <;> simp [attemptStep] at h
  rw [AttemptPc.holds_iff_of_ne hrun] at ha
  rcases attemptStep_cases h with ⟨hchild, -, hpc⟩ | ⟨hchild, -, hpc⟩
  · rw [AttemptPc.holds_iff_of_ne hpc, hchild]
    exact ha
  · rw [hpc]
    exact hchild

/-- **Without a poll that reports the exit, a run of the attempt keeps the child.** -/
theorem attempt_child_of_not_exited {timeout : Duration} {a b : Attempt C}
    {events : List AttemptEvent} (hno : ∀ e ∈ events, e.reportsExit = false)
    (h : exec (attemptStep timeout) a events = some b) : b.child = a.child := by
  refine @exec_keeps _ _ (attemptStep timeout) (fun x => x.child = a.child)
    (fun e => e.reportsExit = false) ?_ events a b hno rfl h
  intro x e y he hx hxy
  rcases attemptStep_cases hxy with ⟨hchild, -, -⟩ | ⟨-, hexit, -⟩
  · exact hchild.trans hx
  · rw [he] at hexit
    cases hexit

/-! ## The sleeps of the loop -/

/-- The number of sleeps of 10 ms that cover a duration. -/
@[irreducible] def naps (d : Duration) : ℕ := (d + pause - 1) / pause

/-- A longer duration needs no fewer sleeps. -/
theorem naps_mono {a b : ℕ} (h : a ≤ b) : naps a ≤ naps b := by
  unfold naps
  exact Nat.div_le_div_right (by omega)

/-- One sleep shortens a duration that is not over. -/
theorem naps_pos {d : ℕ} (h : 0 < d) : naps d = naps (d - pause) + 1 := by
  simp only [naps, pause, Duration.fromMillis]
  omega

end SysprimsPty.Recovery
