import SysprimsPty.Recovery.Attempt

/-!
# The child handle on Windows

`WinChild::try_wait` and `WinChild::wait`. The process exits at any moment, with a given code; the
handle's calls go through the two Win32 functions `GetExitCodeProcess`, whose answer for a process
that still runs is the code 259, and `WaitForSingleObject`, which returns only after the exit. Each
call clones the process handle first; a clone that fails panics (`try_clone().unwrap()`) and the call
returns nothing, so the clones are taken to succeed in what is said here of the calls' results.

* `isComplete` — the poll, with its sentinel.
* `WinWorld.step` — the handle's calls, with what they return.
* `views_agree_iff` — the polling and the blocking view agree for every exit code but 259.
-/

namespace SysprimsPty.Process

open SysprimsPty.Core
open SysprimsPty.Found
open SysprimsPty.Recovery

/-- `winapi` `STILL_ACTIVE` -/
def stillActive : UInt32 := 259

/-- The answer of `GetExitCodeProcess` on a process that has exited with the given code, or (`none`)
still runs. The answer `none`, of a call that fails, does not occur here. -/
def getExitCodeProcess (exited : Option UInt32) : Option UInt32 := some (exited.getD stillActive)

/-- What `is_complete` makes of the answer of `GetExitCodeProcess`; `none`: the call failed.
Source: `win/mod.rs` `WinChild::is_complete` -/
def isComplete : Option UInt32 → IoResult (Option ExitStatus)
  | some status =>
      if status = stillActive then .ok none else .ok (some (ExitStatus.withExitCode status))
  | none => .ok none

/-- What `wait` makes of the answer after `WaitForSingleObject`; `lastError` is the code of
`IoError::last_os_error()`.
Source: `win/mod.rs` `Child for WinChild`, the end of `wait` -/
def waitResult (lastError : ℤ) : Option UInt32 → IoResult ExitStatus
  | some status => .ok (ExitStatus.withExitCode status)
  | none => .error (.os lastError)

/-- The point that a `wait` has reached. -/
inductive WaitPc
  | idle
  /-- In `WaitForSingleObject`. -/
  | blocked
  /-- Before the `GetExitCodeProcess` after it. -/
  | reading
  deriving DecidableEq

/-- What a call returned, and whether the process had exited when it read the exit code. -/
inductive Observation
  | tryWait (exited : Bool) (result : IoResult (Option ExitStatus))
  | wait (result : IoResult ExitStatus)
  deriving DecidableEq

/-- The process, the handle and what its calls have returned, newest first, in a run in which no
`try_clone` has failed. -/
structure WinWorld where
  exited : Option UInt32
  pc : WaitPc
  observed : List Observation

/-- A move of the process, or of a call on the handle. -/
inductive WinEvent
  /-- The process exits. -/
  | exit
  | tryWait
  /-- `wait` is called and polls. -/
  | waitPoll
  /-- `WaitForSingleObject` returns. -/
  | waitReturn
  /-- `wait` reads the exit code and returns. -/
  | waitRead (lastError : ℤ)
  deriving DecidableEq

namespace WinWorld

/-- A running process and its handle. -/
def running : WinWorld := { exited := none, pc := .idle, observed := [] }

/-- `self.is_complete()` at this moment.
Source: `win/mod.rs` `Child for WinChild`, `try_wait` -/
def tryWait (w : WinWorld) : IoResult (Option ExitStatus) :=
  isComplete (getExitCodeProcess w.exited)

/-- One step, where the process exits with `code`.
Source: `win/mod.rs` `Child for WinChild`, `try_wait` and `wait` -/
def step (code : UInt32) (w : WinWorld) : WinEvent → Option WinWorld
  | .exit => if w.exited.isNone then some { w with exited := some code } else none
  | .tryWait =>
      if w.pc = .idle then
        some { w with observed := .tryWait w.exited.isSome w.tryWait :: w.observed }
      else none
  | .waitPoll =>
      if w.pc = .idle then
        match w.tryWait with
        | .ok (some status) => some { w with observed := .wait (.ok status) :: w.observed }
        | _ => some { w with pc := .blocked }
      else none
  | .waitReturn =>
      if w.pc = .blocked ∧ w.exited.isSome then some { w with pc := .reading } else none
  | .waitRead lastError =>
      if w.pc = .reading then
        some { w with
          pc := .idle
          observed := .wait (waitResult lastError (getExitCodeProcess w.exited)) :: w.observed }
      else none

end WinWorld

/-- What a call should have returned for a process that exits with `code`. -/
def Observation.Agrees (code : UInt32) : Observation → Prop
  | .tryWait false result => result = .ok none
  | .tryWait true result => result = .ok (some (ExitStatus.withExitCode code))
  | .wait result => result = .ok (ExitStatus.withExitCode code)

/-- **The two views agree** on a process that exits with `code`: along every run each call returned
what it should, and a recovery attempt on the exited child empties its slot on the first poll. -/
structure ViewsAgree (code : UInt32) : Prop where
  observed : ∀ events w, exec (WinWorld.step code) .running events = some w →
    ∀ o ∈ w.observed, o.Agrees code
  first_poll : ∀ (C : Type) (timeout : Duration) (child : C) (w : WinWorld), w.exited = some code →
    attemptStep timeout (Attempt.enter (some child)) (.tryWait w.tryWait) =
      some { pc := .returned (.ok true), child := none }

/-- A poll of a running process finds nothing. -/
theorem tryWait_running {w : WinWorld} (h : w.exited = none) : w.tryWait = .ok none := by
  rw [WinWorld.tryWait, h]
  rfl

/-- A poll of an exited process finds its status, unless the code is the sentinel. -/
theorem tryWait_exited {w : WinWorld} {code : UInt32} (h : w.exited = some code)
    (hcode : code ≠ stillActive) : w.tryWait = .ok (some (ExitStatus.withExitCode code)) := by
  rw [WinWorld.tryWait, h]
  exact if_neg hcode

/-- The runs of a process that exits with `code`: it has exited with no other code, a `wait` reads
the code only after the exit, and every call returned what it should. -/
structure Observed (code : UInt32) (w : WinWorld) : Prop where
  exited : w.exited = none ∨ w.exited = some code
  reading : w.pc = .reading → w.exited = some code
  agree : ∀ o ∈ w.observed, o.Agrees code

/-- A call that returns what it should adds a right observation. -/
theorem Observed.observe {code : UInt32} {w : WinWorld} (h : Observed code w) {o : Observation}
    (ho : o.Agrees code) : ∀ o' ∈ o :: w.observed, o'.Agrees code := by
  intro o' hmem
  rcases List.mem_cons.mp hmem with rfl | hmem
  · exact ho
  · exact h.agree o' hmem

/-- Every step keeps the observations right, unless the code is the sentinel. -/
theorem Observed.step {code : UInt32} (hcode : code ≠ stillActive) {w t : WinWorld} {e : WinEvent}
    (h : Observed code w) (ht : WinWorld.step code w e = some t) : Observed code t := by
  cases e with
  | exit =>
      simp only [WinWorld.step] at ht
      split_ifs at ht with hnone
      cases ht
      exact ⟨.inr rfl, fun _ => rfl, h.agree⟩
  | tryWait =>
      simp only [WinWorld.step] at ht
      split_ifs at ht
      cases ht
      refine ⟨h.exited, h.reading, h.observe ?_⟩
      rcases h.exited with hnone | hsome
      · rw [tryWait_running hnone, hnone]
        rfl
      · rw [tryWait_exited hsome hcode, hsome]
        rfl
  | waitPoll =>
      simp only [WinWorld.step] at ht
      split_ifs at ht
      rcases h.exited with hnone | hsome
      · rw [tryWait_running hnone] at ht
        cases ht
        exact ⟨h.exited, nofun, h.agree⟩
      · rw [tryWait_exited hsome hcode] at ht
        cases ht
        exact ⟨h.exited, h.reading, h.observe rfl⟩
  | waitReturn =>
      simp only [WinWorld.step] at ht
      split_ifs at ht with hblocked
      cases ht
      refine ⟨h.exited, fun _ => ?_, h.agree⟩
      refine h.exited.resolve_left fun hnone => ?_
      rw [hnone] at hblocked
      exact Bool.false_ne_true hblocked.2
  | waitRead lastError =>
      simp only [WinWorld.step] at ht
      split_ifs at ht with hreading
      have hsome := h.reading hreading
      rw [hsome] at ht
      cases ht
      exact ⟨.inr rfl, nofun, h.observe rfl⟩

/-- A process that exits with the sentinel is polled as running. -/
def sentinelRun : List WinEvent := [.exit, .tryWait, .waitPoll, .waitReturn, .waitRead 0, .tryWait]

/-- **When the polling and the blocking view of a Windows child agree**: for every exit code but the
one that `GetExitCodeProcess` reports for a running process.
Source: `win/mod.rs` `WinChild::is_complete`, `Child for WinChild`, `lib.rs`
`attempt_failed_child_recovery` -/
theorem views_agree_iff (code : UInt32) : ViewsAgree code ↔ code ≠ stillActive := by
  constructor
  · rintro h rfl
    have hrun : exec (WinWorld.step stillActive) .running [.exit, .tryWait] =
      some { exited := some stillActive, pc := .idle, observed := [.tryWait true (.ok none)] } := rfl
    have hagrees := h.observed _ _ hrun _ List.mem_cons_self
    cases hagrees
  · intro hcode
    refine ⟨?_, ?_⟩
    · intro events w hrun
      have h0 : Observed code .running := ⟨.inl rfl, nofun, nofun⟩
      exact (exec_invariant (fun _ _ _ hI ht => Observed.step hcode hI ht) h0 hrun).agree
    · intro C timeout child w hw
      rw [tryWait_exited hw hcode]
      rfl

/-- With the exit code 259 the polls before and after a `wait` find nothing, while the `wait` returns
the code, and the recovery attempt keeps its child. -/
theorem exited_259_polled_as_running :
    (∃ w, exec (WinWorld.step 259) .running sentinelRun = some w ∧
      w.observed = [.tryWait true (.ok none), .wait (.ok (ExitStatus.withExitCode 259)),
        .tryWait true (.ok none)]) ∧
    (∀ timeout, attemptStep timeout (Attempt.enter (some 7))
        (.tryWait (isComplete (getExitCodeProcess (some 259)))) =
      some { pc := .kill, child := some 7 }) ∧
    ¬ ViewsAgree 259 := by
  refine ⟨⟨_, rfl, rfl⟩, fun _ => rfl, fun h => ?_⟩
  have hpoll := h.first_poll ℕ 0 7 { exited := some 259, pc := .idle, observed := [] } rfl
  cases hpoll

end SysprimsPty.Process
