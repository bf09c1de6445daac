import Mathlib.Data.List.Basic

/-!
# Reporting a failed start through a pipe

The start of a program by fork and exec. The child does some work on its descriptors, which may fail,
and then execs; a failure of either is written to a pipe that a successful exec closes. The parent
reads the pipe to its end and takes an end without data for success.

* `runChild`, `report`, `spawnReporting` — the child, what the parent reads, and what it returns.
* `spawnReporting_eq_ok_iff` — the parent returns success exactly if nothing was written.
* `runChild_of_kept` — work that keeps the pipe open loses no failure.
-/

namespace SysprimsPty.Found

variable {F ε C : Type*} [DecidableEq F]

/-- How the start ended in the child, and the descriptors that it left open. -/
def runChild (preExec : List F → Except ε Unit × List F) (exec : Except ε Unit) (fds : List F) :
    Except ε Unit × List F :=
  match preExec fds with
  | (.error e, fds) => (.error e, fds)
  | (.ok (), fds) => (exec, fds)

/-- What the parent reads: a failure, as `encode` writes it, unless the pipe was closed before. -/
def report (encode : ε → ε) (pipe : F) : Except ε Unit × List F → Option ε
  | (.error e, fds) => if pipe ∈ fds then some (encode e) else none
  | (.ok (), _) => none

/-- What the parent returns. -/
def spawnReporting (encode : ε → ε) (fork : Except ε C) (pipe : F)
    (run : Except ε Unit × List F) : Except ε C :=
  match fork with
  | .error e => .error e
  | .ok child =>
      match report encode pipe run with
      | some e => .error e
      | none => .ok child

variable {encode : ε → ε} {fork : Except ε C} {pipe : F} {run : Except ε Unit × List F}

/-- Nothing is read exactly if the start succeeded or its failure could not be written. -/
theorem report_eq_none_iff :
    report encode pipe run = none ↔ ∀ e, run.1 = .error e → pipe ∉ run.2 := by
  obtain ⟨result, fds⟩ := run
  cases result with
  | error e => simp [report]
  | ok _ => simp [report]

/-- The parent returns the child exactly if nothing is read. -/
theorem spawnReporting_eq_ok_iff {child : C} :
    spawnReporting encode fork pipe run = .ok child ↔
      fork = .ok child ∧ ∀ e, run.1 = .error e → pipe ∉ run.2 := by
  rw [← @report_eq_none_iff _ _ _ encode]
  unfold spawnReporting
  cases fork with
  | error e => simp
  | ok c => cases report encode pipe run <;> simp

/-- **No failure is lost while the pipe is open.** -/
theorem spawnReporting_of_kept (hkept : pipe ∈ run.2) {child : C}
    (h : spawnReporting encode fork pipe run = .ok child) : run.1 = .ok () := by
  obtain ⟨-, hlost⟩ := spawnReporting_eq_ok_iff.mp h
  rcases hresult : run.1 with e | _
  · exact absurd hkept (hlost e hresult)
  · rfl

omit [DecidableEq F] in
/-- Work that keeps the pipe open leaves it open to the end of the start. -/
theorem runChild_of_kept {preExec : List F → Except ε Unit × List F} {exec : Except ε Unit}
    {fds : List F} (h : pipe ∈ (preExec fds).2) : pipe ∈ (runChild preExec exec fds).2 := by
  unfold runChild
  split
  · next hrun => rwa [hrun] at h
  · next hrun => rwa [hrun] at h

end SysprimsPty.Found
