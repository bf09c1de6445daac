import SysprimsPty.Process.WinChild
import SysprimsPty.Recovery.Ownership

/-!
# The recovery protocol over a Windows child

The protocol, the process behind the handle that its worker polls and terminates, and a clock. A poll
tells a process that has exited from one that runs by its exit code, which is 259 as long as it runs;
`TerminateProcess` is refused once the process has exited or is about to. Both calls first clone the
process handle, and panic if that fails: then the worker is gone, with its child, its channel and the
responses that it owes.

* `WinSystem.step` — the moves of the client and of the worker.
* `WinSystem.work_move` — what a step of the worker can do.
* `WinDrained` — the invariant: a child is taken out of the slot only when its exit can be seen.
* `dropped_win_recovery_ends_iff` — while the clones succeed, a dropped recovery ends exactly if it
  never had a child, or the child comes to an end with another exit code than 259.
-/

namespace SysprimsPty.Recovery

open SysprimsPty.Core
open SysprimsPty.Found
open SysprimsPty.Process

/-! ## The process -/

/-- A process, as its handles show it. -/
inductive WinProcess
  | running
  /-- `TerminateProcess` was granted, and the process ends with the code 1. -/
  | terminating
  | exited (code : UInt32)
  deriving DecidableEq

/-- What the system answers to the next step of the worker. -/
structure WinMoment where
  /-- The process ends before the step; with this code, if it ends by itself. -/
  exits : Option UInt32
  /-- `try_clone` of the process handle succeeds. -/
  cloned : Bool
  /-- `GetExitCodeProcess` succeeds. -/
  queried : Bool
  /-- `TerminateProcess` on a running process: granted, or the code of the last error. -/
  terminate : Option ℤ
  elapsed : Duration

/-- `winapi` `ERROR_ACCESS_DENIED` -/
def accessDenied : ℤ := 5

namespace WinProcess

/-- The exit code, once there is one. -/
def exitCode? : WinProcess → Option UInt32
  | .running => none
  | .terminating => none
  | .exited code => some code

/-- The process after what happens before a step. -/
def elapse (p : WinProcess) (m : WinMoment) : WinProcess :=
  match p, m.exits with
  | .running, some code => .exited code
  | .terminating, some _ => .exited 1
  | p, _ => p

/-- The poll of `is_complete` through its clone of the handle. -/
def polled (p : WinProcess) (m : WinMoment) : IoResult (Option ExitStatus) :=
  isComplete (if m.queried then getExitCodeProcess p.exitCode? else none)

/-- `none`: `try_clone().unwrap()` panics.
Source: `win/mod.rs` `WinChild::is_complete` -/
def tryWait (p : WinProcess) (m : WinMoment) : Option (IoResult (Option ExitStatus)) :=
  if m.cloned then some (p.polled m) else none

/-- The `TerminateProcess` of `do_kill` through its clone of the handle. -/
def terminated (p : WinProcess) (m : WinMoment) : WinProcess × IoResult Unit :=
  match p, m.terminate with
  | .running, none => (.terminating, .ok ())
  | .running, some e => (.running, .error (.os e))
  | p, _ => (p, .error (.os accessDenied))

/-- `none`: `try_clone().unwrap()` panics.
Source: `win/mod.rs` `WinChild::do_kill` -/
def doKill (p : WinProcess) (m : WinMoment) : Option (WinProcess × IoResult Unit) :=
  if m.cloned then some (p.terminated m) else none

/-- The process has exited with a code that tells it from a running one. -/
def ShowsExit (p : WinProcess) : Prop := ∃ code, p = .exited code ∧ code ≠ stillActive

/-- **What a poll sees**: nothing, or an exit that shows. -/
theorem polled_cases (p : WinProcess) (m : WinMoment) :
    (p.polled m = .ok none ∧ ¬(m.queried = true ∧ p.ShowsExit)) ∨
      (∃ status, p.polled m = .ok (some status)) ∧ p.ShowsExit := by
  unfold polled ShowsExit isComplete getExitCodeProcess
  rcases hqueried : m.queried with _ | _
  · exact .inl ⟨rfl, by simp⟩
  · rcases p with _ | _ | code
    · exact .inl ⟨rfl, by simp⟩
    · exact .inl ⟨rfl, by simp⟩
    · by_cases hcode : code = stillActive
      · simp [exitCode?, hcode]
      · simp [exitCode?, hcode]

/-- Neither time nor a `TerminateProcess` undoes an exit. -/
theorem ShowsExit.kept {p : WinProcess} (h : p.ShowsExit) (m : WinMoment) :
    (p.elapse m).ShowsExit ∧ (p.terminated m).1.ShowsExit := by
  obtain ⟨code, rfl, hcode⟩ := h
  exact ⟨⟨code, rfl, hcode⟩, code, rfl, hcode⟩

/-- A process that has exited is not terminated. -/
theorem ShowsExit.not_terminated {p : WinProcess} (h : p.ShowsExit) (m : WinMoment) :
    (p.terminated m).2 ≠ .ok () := by
  obtain ⟨code, rfl, -⟩ := h
  simp [terminated]

end WinProcess

/-! ## The system -/

/-- The protocol after a panic of its worker: with the stack of the thread go the receiver and what is
queued, the slot, and the response channel of the attempt.
Source: `lib.rs` `failed_child_recovery_worker` -/
def System.unwound {C : Type} (s : System C) : System C :=
  { s with worker := .ended, queue := [], child := none }

/-- The protocol, the process behind it and the clock. -/
structure WinSystem (C : Type) where
  system : System C
  process : WinProcess
  clock : Instant
  /-- The worker has panicked. -/
  panicked : Bool

/-- A move of the client or of the worker. -/
inductive WinMove (C : Type)
  | client (event : ClientEvent C)
  /-- The next step of the worker. -/
  | worker (m : WinMoment)

variable {C : Type}

namespace WinSystem

/-- A fresh protocol beside a process. -/
def prepare (process : WinProcess) (clock : Instant) : WinSystem C where
  system := .prepare
  process
  clock
  panicked := false

/-- What happens before a step of the worker. -/
def elapse (s : WinSystem C) (m : WinMoment) : WinSystem C :=
  { s with process := s.process.elapse m, clock := s.clock + m.elapsed }

/-- The next call of an attempt, the process after it and the time that it sleeps; a call that panics
has none of them. `none`: the attempt has returned.
Source: `lib.rs` `attempt_failed_child_recovery` -/
def call (s : WinSystem C) (m : WinMoment) :
    AttemptPc → Option (Option (AttemptEvent × WinProcess × Duration))
  | .firstPoll => some ((s.process.tryWait m).map fun result => (.tryWait result, s.process, 0))
  | .kill => some ((s.process.doKill m).map fun killed => (.kill killed.2, killed.1, 0))
  | .deadline => some (some (.now s.clock, s.process, 0))
  | .poll _ => some ((s.process.tryWait m).map fun result => (.tryWait result, s.process, 0))
  | .guard _ => some (some (.now s.clock, s.process, 0))
  | .sleep _ => some (some (.slept, s.process, pause))
  | .returned _ => none

/-- The next step of the worker, unless it panics; `none`: it has returned.
Source: `lib.rs` `failed_child_recovery_worker` -/
def next (s : WinSystem C) (m : WinMoment) : Option (Option (WorkerEvent × WinProcess × Duration)) :=
  match s.system.worker with
  | .recv => some (some (if s.system.queue.isEmpty then .disconnected else .recv, s.process, 0))
  | .attempting _ _ pc =>
      match s.call m pc with
      | some (some (event, process, slept)) => some (some (.call event, process, slept))
      | some none => some none
      | none => some (some (.store, s.process, 0))
  | .responding _ _ => some (some (.respond, s.process, 0))
  | .checking => some (some (.check, s.process, 0))
  | .sleeping => some (some (.slept, s.process, pause))
  | .ended => none

/-- The step of the worker; `none`: it is blocked in `recv`, or has returned. -/
def work (s : WinSystem C) (m : WinMoment) : Option (WinSystem C) :=
  match s.next m with
  | some (some (e, process, slept)) =>
      (s.system.workerStep e).map fun system => { s with system, process, clock := s.clock + slept }
  | some none => some { s with system := s.system.unwound, panicked := true }
  | none => none

/-- One move. -/
def step (s : WinSystem C) : WinMove C → Option (WinSystem C)
  | .client e => (s.system.clientStep e).map fun system => { s with system }
  | .worker m => (s.elapse m).work m

/-- The steps of the worker under a stream of answers. -/
def ticks (os : ℕ → WinMoment) (n : ℕ) : List (WinMove C) :=
  (List.range n).map fun i => .worker (os i)

end WinSystem

/-- What the next call of an attempt can do: the attempt after it, and the time that it sleeps. -/
inductive WinCall (s : WinSystem C) (m : WinMoment) (timeout : Duration) (child : Option C) :
    AttemptPc → Attempt C → WinProcess → Duration → Prop
  | seen (pc : AttemptPc) (hpc : pc = .firstPoll ∨ ∃ d, pc = .poll d) (hshows : s.process.ShowsExit) :
      WinCall s m timeout child pc { pc := .returned (.ok true), child := none } s.process 0
  | unseen (hunseen : ¬(m.queried = true ∧ s.process.ShowsExit)) :
      WinCall s m timeout child .firstPoll { pc := .kill, child } s.process 0
  | unseenAgain (d : Instant) (hunseen : ¬(m.queried = true ∧ s.process.ShowsExit)) :
      WinCall s m timeout child (.poll d) { pc := .guard d, child } s.process 0
  | terminated (hgranted : (s.process.terminated m).2 = .ok ()) :
      WinCall s m timeout child .kill { pc := .deadline, child } (s.process.terminated m).1 0
  | refused (e : IoError) :
      WinCall s m timeout child .kill { pc := .returned (.error e), child } (s.process.terminated m).1 0
  | deadline :
      WinCall s m timeout child .deadline { pc := .poll (s.clock + min timeout attemptCap), child }
        s.process 0
  | early (d : Instant) (hearly : s.clock < d) :
      WinCall s m timeout child (.guard d) { pc := .sleep d, child } s.process 0
  | late (d : Instant) :
      WinCall s m timeout child (.guard d) { pc := .returned (.ok false), child } s.process 0
  | slept (d : Instant) : WinCall s m timeout child (.sleep d) { pc := .poll d, child } s.process pause

namespace WinSystem

variable {s t : WinSystem C} {m : WinMoment}

/-- A poll that does not panic. -/
theorem tryWait_map_eq_some_iff {α : Type} {f : IoResult (Option ExitStatus) → α} {x : α} :
    (s.process.tryWait m).map f = some x ↔ m.cloned = true ∧ f (s.process.polled m) = x := by
  unfold WinProcess.tryWait
  rcases m.cloned with _ | _
  · simp
  · simp

/-- A `kill` that does not panic. -/
theorem doKill_map_eq_some_iff {α : Type} {f : WinProcess × IoResult Unit → α} {x : α} :
    (s.process.doKill m).map f = some x ↔ m.cloned = true ∧ f (s.process.terminated m) = x := by
  unfold WinProcess.doKill
  rcases m.cloned with _ | _
  · simp
  · simp

/-- What a poll makes of an attempt. -/
theorem polled_move {timeout : Duration} {child : Option C} {pc after : AttemptPc} {a : Attempt C}
    (hpc : pc = .firstPoll ∨ ∃ d, pc = .poll d)
    (hnothing : attemptStep timeout { pc, child } (.tryWait (.ok none)) = some { pc := after, child })
    (hunseen : ¬(m.queried = true ∧ s.process.ShowsExit) →
      WinCall s m timeout child pc { pc := after, child } s.process 0)
    (ha : attemptStep timeout { pc, child } (.tryWait (s.process.polled m)) = some a) :
    WinCall s m timeout child pc a s.process 0 := by
  rcases s.process.polled_cases m with ⟨hnone, hnot⟩ | ⟨⟨status, hsome⟩, hshows⟩
  · rw [hnone, hnothing] at ha
    obtain rfl := Option.some.inj ha
    exact hunseen hnot
  · have hseen : attemptStep timeout { pc, child } (.tryWait (.ok (some status))) =
        some { pc := .returned (.ok true), child := none } := by
      rcases hpc with rfl | ⟨d, rfl⟩ <;> rfl
    rw [hsome, hseen] at ha
    obtain rfl := Option.some.inj ha
    exact .seen pc hpc hshows

/-- Every call of an attempt that does not panic is one of its moves. -/
theorem call_move {timeout : Duration} {child : Option C} {pc : AttemptPc} {event : AttemptEvent}
    {process : WinProcess} {slept : Duration} {a : Attempt C}
    (hcall : s.call m pc = some (some (event, process, slept)))
    (ha : attemptStep timeout { pc, child } event = some a) :
    WinCall s m timeout child pc a process slept := by
  rcases pc with _ | _ | _ | d | d | d | r
  case firstPoll =>
    obtain ⟨-, heq⟩ := tryWait_map_eq_some_iff.mp (Option.some.inj hcall)
    obtain ⟨rfl, rfl, rfl⟩ := heq
    exact polled_move (.inl rfl) rfl .unseen ha
  case kill =>
    obtain ⟨-, heq⟩ := doKill_map_eq_some_iff.mp (Option.some.inj hcall)
    obtain ⟨rfl, rfl, rfl⟩ := heq
    rcases hkill : (s.process.terminated m).2 with e | _
    · rw [hkill] at ha
      obtain rfl := Option.some.inj ha
      exact .refused e
    · rw [hkill] at ha
      obtain rfl := Option.some.inj ha
      exact .terminated hkill
  case deadline =>
    obtain ⟨rfl, rfl, rfl⟩ := hcall
    obtain rfl := Option.some.inj ha
    exact .deadline
  case poll =>
    obtain ⟨-, heq⟩ := tryWait_map_eq_some_iff.mp (Option.some.inj hcall)
    obtain ⟨rfl, rfl, rfl⟩ := heq
    exact polled_move (.inr ⟨d, rfl⟩) rfl (.unseenAgain d) ha
  case guard =>
    obtain ⟨rfl, rfl, rfl⟩ := hcall
    obtain rfl := Option.some.inj ha
    split_ifs with hearly
    · exact .early d hearly
    · exact .late d
  case sleep =>
    obtain ⟨rfl, rfl, rfl⟩ := hcall
    obtain rfl := Option.some.inj ha
    exact .slept d
  case returned => cases hcall

/-- A call that panics is one of an attempt that has not returned, and its clone has failed. -/
theorem call_panics {pc : AttemptPc} (hcall : s.call m pc = some none) :
    m.cloned = false ∧ ∀ r, pc ≠ .returned r := by
  have hmap {α β : Type} {x : α} {f : α → β} (h : (if m.cloned then some x else none).map f = none) :
      m.cloned = false := by
    rcases hcloned : m.cloned with _ | _
    · rfl
    · rw [hcloned] at h
      cases h
  rcases pc with _ | _ | _ | d | d | d | r
  case firstPoll | kill | poll => exact ⟨hmap (Option.some.inj hcall), by simp⟩
  all_goals cases hcall

/-- An attempt that has not returned can make its next call, if its clone succeeds. -/
theorem call_enabled (s : WinSystem C) (hcloned : m.cloned = true) (timeout : Duration)
    (child : Option C) {pc : AttemptPc} (hrun : ∀ r, pc ≠ .returned r) :
    ∃ event process slept a, s.call m pc = some (some (event, process, slept)) ∧
      attemptStep timeout { pc, child } event = some a := by
  have hpoll {α : Type} (f : IoResult (Option ExitStatus) → α) :
      (s.process.tryWait m).map f = some (f (s.process.polled m)) :=
    tryWait_map_eq_some_iff.mpr ⟨hcloned, rfl⟩
  rcases pc with _ | _ | _ | d | d | d | r
  case firstPoll | poll =>
    rcases s.process.polled_cases m with ⟨hnone, -⟩ | ⟨⟨status, hsome⟩, -⟩
    · exact ⟨_, _, _, _, congrArg some (hpoll _), by rw [hnone]; rfl⟩
    · exact ⟨_, _, _, _, congrArg some (hpoll _), by rw [hsome]; rfl⟩
  case kill =>
    have hkill := (@doKill_map_eq_some_iff _ s m (AttemptEvent × WinProcess × Duration)
      (fun killed => (.kill killed.2, killed.1, 0)) _).mpr ⟨hcloned, rfl⟩
    rcases hresult : (s.process.terminated m).2 with e | _
    · exact ⟨_, _, _, _, congrArg some hkill, by rw [hresult]; rfl⟩
    · exact ⟨_, _, _, _, congrArg some hkill, by rw [hresult]; rfl⟩
  case returned => exact absurd rfl (hrun r)
  all_goals exact ⟨_, _, _, _, rfl, rfl⟩

end WinSystem

/-- A moment at which the clone that a call needs succeeds. -/
abbrev Cloning := {m : WinMoment // m.cloned = true}

/-- While the clones succeed, the steps of the worker are a run of it alone. -/
theorem WinSystem.exec_ticks (s : WinSystem C) {os : ℕ → WinMoment}
    (hcloned : ∀ n, (os n).cloned = true) (n : ℕ) :
    exec WinSystem.step s (WinSystem.ticks os n) =
      exec (fun u (m : Cloning) => u.step (.worker m.1)) s
        ((List.range n).map fun i => ⟨os i, hcloned i⟩) := by
  have hmap := @exec_map _ _ WinSystem.step Cloning (fun m => WinMove.worker m.1) s
    ((List.range n).map fun i => ⟨os i, hcloned i⟩)
  rw [List.map_map] at hmap
  exact hmap

/-- What a step of the worker can do. -/
inductive WinWork (s : WinSystem C) (m : WinMoment) : WinSystem C → Prop
  /-- A step that makes no call of an attempt. -/
  | protocol (e : WorkerEvent) (system : System C) (slept : Duration)
      (hstep : s.system.workerStep e = some system) (hquiet : ∀ event, e ≠ .call event)
      (hawake : s.system.worker ≠ .sleeping → slept = 0) :
      WinWork s m { s with system, clock := s.clock + slept }
  | call (timeout : Duration) (response : Option ℕ) (pc : AttemptPc) (event : AttemptEvent)
      (a : Attempt C) (process : WinProcess) (slept : Duration) (system : System C)
      (hw : s.system.worker = .attempting timeout response pc)
      (hstep : s.system.workerStep (.call event) = some system)
      (hsystem : system = { s.system with
        worker := .attempting timeout response a.pc
        child := a.child
        reaped := takenOut s.system.child a.child ++ s.system.reaped })
      (hmove : WinCall s m timeout s.system.child pc a process slept) :
      WinWork s m { s with system, process, clock := s.clock + slept }
  /-- A call of an attempt that panics. -/
  | panicked (timeout : Duration) (response : Option ℕ) (pc : AttemptPc)
      (hw : s.system.worker = .attempting timeout response pc) (hrun : ∀ r, pc ≠ .returned r)
      (hcloned : m.cloned = false) :
      WinWork s m { s with system := s.system.unwound, panicked := true }

namespace WinSystem

variable {s t : WinSystem C} {m : WinMoment}

/-- The next step of the worker, unless it panics, is one of its moves. -/
theorem next_move {e : WorkerEvent} {process : WinProcess} {slept : Duration} {system : System C}
    (hnext : s.next m = some (some (e, process, slept))) (hsystem : s.system.workerStep e = some system) :
    WinWork s m { s with system, process, clock := s.clock + slept } := by
  have hquiet (hprocess : process = s.process) (hquiet : ∀ event, e ≠ .call event)
      (hawake : s.system.worker ≠ .sleeping → slept = 0) :
      WinWork s m { s with system, process, clock := s.clock + slept } := by
    rw [hprocess]
    exact .protocol e system slept hsystem hquiet hawake
  unfold next at hnext
  split at hnext
  · obtain ⟨rfl, rfl, rfl⟩ := hnext
    refine hquiet rfl (fun event => ?_) fun _ => rfl
    split_ifs
    · simp
    · simp
  · next timeout response pc hw =>
      split at hnext
      · next event _ _ hcall =>
          obtain ⟨rfl, rfl, rfl⟩ := hnext
          have hstep := hsystem
          simp only [System.workerStep, hw] at hstep
          obtain ⟨a, ha, hsame⟩ := Option.map_eq_some_iff.mp hstep
          exact .call timeout response pc event a _ _ _ hw hsystem hsame.symm (call_move hcall ha)
      · cases hnext
      · obtain ⟨rfl, rfl, rfl⟩ := hnext
        exact hquiet rfl (by simp) fun _ => rfl
  · obtain ⟨rfl, rfl, rfl⟩ := hnext
    exact hquiet rfl (by simp) fun _ => rfl
  · obtain ⟨rfl, rfl, rfl⟩ := hnext
    exact hquiet rfl (by simp) fun _ => rfl
  · next hw =>
      obtain ⟨rfl, rfl, rfl⟩ := hnext
      exact hquiet rfl (by simp) fun hne => absurd hw hne
  · cases hnext

/-- The worker panics in a call of an attempt whose clone fails. -/
theorem next_panics (hnext : s.next m = some none) :
    WinWork s m { s with system := s.system.unwound, panicked := true } := by
  unfold next at hnext
  split at hnext
  case h_2 timeout response pc hw =>
    split at hnext
    · cases hnext
    · next hcall =>
        obtain ⟨hcloned, hrun⟩ := call_panics hcall
        exact .panicked timeout response pc hw hrun hcloned
    · cases hnext
  all_goals cases hnext

/-- Every step of the worker is one of its moves. -/
theorem work_move (h : s.work m = some t) : WinWork s m t := by
  unfold work at h
  split at h
  · next hnext =>
      obtain ⟨system, hsystem, rfl⟩ := Option.map_eq_some_iff.mp h
      exact next_move hnext hsystem
  · next hnext =>
      obtain rfl := Option.some.inj h
      exact next_panics hnext
  · cases h

/-- A step of the worker that does not panic is a step of the protocol. -/
theorem work_system (h : WinWork s m t) (hintact : t.panicked = false) :
    s.panicked = false ∧ ∃ e, s.system.workerStep e = some t.system := by
  cases h with
  | protocol e system slept hstep hquiet hawake => exact ⟨hintact, e, hstep⟩
  | call timeout response pc event a process slept system hw hstep hsystem hmove =>
      exact ⟨hintact, .call event, hstep⟩
  | panicked timeout response pc hw hrun hcloned => cases hintact

/-- A step that panics is a call of an attempt, and unwinds the worker. -/
theorem work_panics (h : WinWork s m t) (hs : s.panicked = false) (ht : t.panicked = true) :
    ∃ timeout response pc, s.system.worker = .attempting timeout response pc ∧
      (∀ r, pc ≠ .returned r) ∧ t.system = s.system.unwound := by
  cases h with
  | panicked timeout response pc hw hrun hcloned => exact ⟨timeout, response, pc, hw, hrun, rfl⟩
  | _ =>
      have hpanicked : s.panicked = true := ht
      rw [hs] at hpanicked
      cases hpanicked

/-- A worker that has ended takes no step. -/
theorem work_ended (hw : s.system.worker = .ended) : s.work m = none := by
  unfold work next
  simp only [hw]

/-- If its clone succeeds, a step of the worker does not panic. -/
theorem work_intact (hcloned : m.cloned = true) (h : WinWork s m t) : t.panicked = s.panicked := by
  cases h with
  | panicked timeout response pc hw hrun hfails =>
      rw [hcloned] at hfails
      cases hfails
  | _ => rfl

/-- A call keeps an exit that shows, and takes the child out of the slot only for one. -/
theorem showsExit_call {timeout : Duration} {child : Option C} {pc : AttemptPc} {a : Attempt C}
    {process : WinProcess} {slept : Duration} (h : WinCall s m timeout child pc a process slept) :
    (s.process.ShowsExit → process.ShowsExit) ∧ (a.child = child ∨ process.ShowsExit) := by
  cases h with
  | seen pc hpc hshows => exact ⟨id, .inr hshows⟩
  | terminated hgranted => exact ⟨fun hshows => (hshows.kept m).2, .inl rfl⟩
  | refused e => exact ⟨fun hshows => (hshows.kept m).2, .inl rfl⟩
  | _ => exact ⟨id, .inl rfl⟩

end WinSystem

/-! ## The invariant -/

/-- **The invariant of the recovery and its process.** -/
structure WinDrained (s : WinSystem C) : Prop where
  owned : s.panicked = false → Owned s.system
  /-- A child is taken out of the slot only when its exit shows. -/
  reaped : s.system.reaped ≠ [] → s.process.ShowsExit

namespace WinSystem

variable {s t : WinSystem C} {m : WinMoment}

/-- A fresh protocol. -/
theorem drained_prepare (process : WinProcess) (clock : Instant) :
    WinDrained (prepare process clock : WinSystem C) :=
  ⟨fun _ => .prepare, fun hne => absurd rfl hne⟩

/-- An exit that shows is for good. -/
theorem showsExit_step {move : WinMove C} (hshows : s.process.ShowsExit)
    (ht : s.step move = some t) : t.process.ShowsExit := by
  rcases move with e | m
  · obtain ⟨system, -, rfl⟩ := Option.map_eq_some_iff.mp ht
    exact hshows
  · have hnow : (s.elapse m).process.ShowsExit := (hshows.kept m).1
    cases work_move ht with
    | protocol e system slept hstep hquiet hawake => exact hnow
    | call timeout response pc event a process slept system hw hstep hsystem hmove =>
        exact (showsExit_call hmove).1 hnow
    | panicked timeout response pc hw hrun hcloned => exact hnow

/-- A move that does not panic is a step of the protocol. -/
theorem step_system {move : WinMove C} (ht : s.step move = some t) (hintact : t.panicked = false) :
    s.panicked = false ∧ ∃ e, s.system.step e = some t.system := by
  rcases move with e | m
  · obtain ⟨system, hsystem, rfl⟩ := Option.map_eq_some_iff.mp ht
    exact ⟨hintact, .client e, hsystem⟩
  · obtain ⟨hs, e, he⟩ := work_system (work_move ht) hintact
    exact ⟨hs, .worker e, he⟩

/-- A panic is for good. -/
theorem panicked_step {move : WinMove C} (hs : s.panicked = true) (ht : s.step move = some t) :
    t.panicked = true := by
  rcases hintact : t.panicked with _ | _
  · rw [(step_system ht hintact).1] at hs
    cases hs
  · rfl

/-- What a move takes out of the slot is a child whose exit shows. -/
theorem reaped_step {move : WinMove C} (ht : s.step move = some t) :
    t.system.reaped = s.system.reaped ∨ t.process.ShowsExit := by
  rcases move with e | m
  · obtain ⟨system, hsystem, rfl⟩ := Option.map_eq_some_iff.mp ht
    left
    cases clientStep_move hsystem <;> rfl
  · cases work_move ht with
    | protocol e system slept hstep hquiet hawake => exact .inl (workerStep_reaped hstep hquiet)
    | call timeout response pc event a process slept system hw hstep hsystem hmove =>
        rcases (showsExit_call hmove).2 with hchild | hshows
        · left
          rw [hsystem]
          show takenOut s.system.child a.child ++ s.system.reaped = s.system.reaped
          rw [show a.child = s.system.child from hchild, takenOut_self, List.nil_append]
        · exact .inr hshows
    | panicked timeout response pc hw hrun hcloned => exact .inl rfl

/-- **The step lemma.** -/
theorem drained_step {move : WinMove C} (h : WinDrained s) (ht : s.step move = some t) :
    WinDrained t := by
  refine ⟨fun hintact => ?_, fun hne => ?_⟩
  · obtain ⟨hs, e, he⟩ := step_system ht hintact
    exact (h.owned hs).step he
  · rcases reaped_step ht with hsame | hshows
    · rw [hsame] at hne
      exact showsExit_step (h.reaped hne) ht
    · exact hshows

/-- A step of the worker leaves the client and the attached child as they are. -/
theorem worker_step_client (ht : s.step (.worker m) = some t) :
    t.system.client = s.system.client ∧ t.system.attached = s.system.attached := by
  have hsame {e : WorkerEvent} {system : System C} (hstep : s.system.workerStep e = some system) :
      system.client = s.system.client ∧ system.attached = s.system.attached := by
    cases workerStep_move hstep <;> exact ⟨rfl, rfl⟩
  cases work_move ht with
  | protocol e system slept hstep hquiet hawake => exact hsame hstep
  | call timeout response pc event a process slept system hw hstep hsystem hmove => exact hsame hstep
  | panicked timeout response pc hw hrun hcloned => exact ⟨rfl, rfl⟩

end WinSystem

/-! ## The worker without a client -/

/-- The steps that are left of an attempt whose next poll sees the exit. `done` and `again` are what is
left after its return, with the slot empty or not. -/
def AttemptPc.pollLeft (done again : ℕ) (child : Option C) : AttemptPc → ℕ
  | .firstPoll => done + 1
  | .kill => again + 1
  | .deadline => done + 2
  | .poll _ => done + 1
  | .guard _ => again + 3
  | .sleep _ => done + 2
  | .returned _ => if child.isNone then done else again

/-- What is left after a return. -/
theorem AttemptPc.pollLeft_returned {done again : ℕ} (hle : done ≤ again) (child : Option C)
    (result : IoResult Bool) : (AttemptPc.returned result).pollLeft done again child ≤ again := by
  unfold pollLeft
  split_ifs
  · exact hle
  · exact Nat.le_refl _

/-- **A call** of an attempt whose polls see the exit leaves fewer of them. -/
theorem AttemptPc.pollLeft_lt {s : WinSystem C} {m : WinMoment} {timeout : Duration} {child : Option C}
    {pc : AttemptPc} {a : Attempt C} {process : WinProcess} {slept : Duration}
    (h : WinCall s m timeout child pc a process slept) (hqueried : m.queried = true)
    (hshows : s.process.ShowsExit) {done again : ℕ} (hle : done ≤ again) :
    a.pc.pollLeft done again a.child < pc.pollLeft done again child := by
  cases h with
  | seen pc hpc _ =>
      rcases hpc with rfl | ⟨d, rfl⟩
      · exact Nat.lt_succ_self done
      · exact Nat.lt_succ_self done
  | unseen hunseen => exact absurd ⟨hqueried, hshows⟩ hunseen
  | unseenAgain d hunseen => exact absurd ⟨hqueried, hshows⟩ hunseen
  | terminated hgranted => exact absurd hgranted (hshows.not_terminated m)
  | refused e => exact Nat.lt_succ_of_le (pollLeft_returned hle child _)
  | deadline => exact Nat.lt_succ_self _
  | early d hearly =>
      show done + 2 < again + 3
      omega
  | late d =>
      have hreturned := pollLeft_returned hle child (.ok false)
      exact Nat.lt_of_le_of_lt hreturned (Nat.lt_add_of_pos_right (by decide))
  | slept d => exact Nat.lt_succ_self _

/-- The steps that are left when the client is gone and every poll sees the exit: those for the
messages, then those of the loop after the receive loop. -/
def System.callsLeft (s : System C) : ℕ :=
  match s.worker with
  | .recv => 4 * s.queue.length + 8
  | .attempting _ (some _) pc =>
      pc.pollLeft (4 * s.queue.length + 10) (4 * s.queue.length + 10) s.child
  | .attempting _ none pc => pc.pollLeft 2 6 s.child
  | .responding _ _ => 4 * s.queue.length + 9
  | .checking => if s.child.isSome then 4 else 1
  | .sleeping => 5
  | .ended => 0

/-- A fresh attempt is at most one poll. -/
theorem Attempt.pollLeft_enter (done : ℕ) (child : Option C) :
    (Attempt.enter child).pc.pollLeft done done child ≤ done + 1 := by
  rcases child with _ | c
  · exact Nat.le_succ done
  · exact Nat.le_refl (done + 1)

/-- **A step without a call** leaves fewer steps. -/
theorem callsLeft_lt_of_quiet {s t : System C} {e : WorkerEvent} (h : s.workerStep e = some t)
    (hquiet : ∀ event, e ≠ .call event) : t.callsLeft < s.callsLeft := by
  cases workerStep_move h with
  | adopt child queue hw hq => simp [System.callsLeft, hw, hq]
  | attempt timeout response queue hw hq =>
      have hfresh := Attempt.pollLeft_enter (4 * queue.length + 10) s.child
      simp only [System.callsLeft, hw, hq, List.length_cons]
      omega
  | disconnected hw hq hc =>
      simp only [System.callsLeft, hw, hq]
      split_ifs
      · simp
      · simp
  | call timeout response pc event a hw ha => exact absurd rfl (hquiet event)
  | store timeout response result hw => simp [System.callsLeft, hw, AttemptPc.pollLeft]
  | drainStore timeout result hw =>
      rcases hchild : s.child with _ | c
      · simp [System.callsLeft, hw, hchild, AttemptPc.pollLeft]
      · simp [System.callsLeft, hw, hchild, AttemptPc.pollLeft]
  | respond response result hw => simp [System.callsLeft, hw]
  | again child hw hs => simp [System.callsLeft, hw, hs, Attempt.enter, AttemptPc.pollLeft]
  | stop hw hs => simp [System.callsLeft, hw, hs]
  | slept hw =>
      simp only [System.callsLeft, hw]
      split_ifs
      · simp
      · simp

namespace WinSystem

variable {s t : WinSystem C} {m : WinMoment}

/-- There is no child to wait for, or its exit shows. -/
def Settled (s : WinSystem C) : Prop := s.system.attached = none ∨ s.process.ShowsExit

/-- An attempt whose next step is a call works on an attached child. -/
theorem attached_of_calling (h : Owned s.system) {timeout : Duration} {response : Option ℕ}
    {pc : AttemptPc} (hw : s.system.worker = .attempting timeout response pc)
    (hrun : ∀ r, pc ≠ .returned r) : s.system.attached ≠ none := by
  intro hnone
  have hfits := h.fits
  rw [hw, (h.empty_of_unattached hnone).1] at hfits
  have hholds := (AttemptPc.holds_iff_of_ne (hrun (.ok true))).mp hfits
  cases hholds

/-- A step of the worker is its next one, if the protocol can take it. -/
theorem work_of_next {e : WorkerEvent} {process : WinProcess} {slept : Duration} {system : System C}
    (hnext : s.next m = some (some (e, process, slept)))
    (hsystem : s.system.workerStep e = some system) :
    s.work m = some { s with system, process, clock := s.clock + slept } := by
  unfold work
  rw [hnext]
  dsimp only
  rw [hsystem, Option.map_some]

/-- **The worker can go on** unless it has ended, or waits for a message of a client. -/
theorem work_enabled (hrun : s.system.worker ≠ .ended)
    (hrecv : s.system.worker = .recv → s.system.queue = [] → s.system.client = .dropped)
    (hcloned : m.cloned = true) : ∃ t, s.work m = some t := by
  have hnext {e : WorkerEvent} {process : WinProcess} {slept : Duration}
      (hnext : s.next m = some (some (e, process, slept))) (hsome : (s.system.workerStep e).isSome) :
      ∃ t, s.work m = some t := by
    obtain ⟨system, hsystem⟩ := Option.isSome_iff_exists.mp hsome
    exact ⟨_, work_of_next hnext hsystem⟩
  rcases hw : s.system.worker with _ | ⟨timeout, response, pc⟩ | ⟨response, result⟩ | _ | _ | _
  case recv =>
    rcases hq : s.system.queue with _ | ⟨child | ⟨timeout, response⟩, queue⟩
    · apply @hnext .disconnected s.process 0
      · simp [next, hw, hq]
      · simp [System.workerStep, hw, hq, hrecv hw hq, ClientPc.isDropped]
    · apply @hnext .recv s.process 0
      · simp [next, hw, hq]
      · simp [System.workerStep, hw, hq]
    · apply @hnext .recv s.process 0
      · simp [next, hw, hq]
      · simp [System.workerStep, hw, hq]
  case attempting =>
    by_cases hreturned : ∃ r, pc = .returned r
    · obtain ⟨r, rfl⟩ := hreturned
      apply @hnext .store s.process 0
      · simp [next, call, hw]
      · rcases response with _ | response
        · simp [System.workerStep, hw]
        · simp [System.workerStep, hw]
    · obtain ⟨event, process, slept, a, hcall, ha⟩ :=
        s.call_enabled hcloned timeout s.system.child fun r hr => hreturned ⟨r, hr⟩
      apply @hnext (.call event) process slept
      · simp [next, hw, hcall]
      · simp [System.workerStep, hw, ha]
  case responding =>
    apply @hnext .respond s.process 0
    · simp [next, hw]
    · simp [System.workerStep, hw]
  case checking =>
    apply @hnext .check s.process 0
    · simp [next, hw]
    · simp [System.workerStep, hw]
  case sleeping =>
    apply @hnext .slept s.process pause
    · simp [next, hw]
    · simp [System.workerStep, hw]
  case ended => exact absurd hw hrun

/-- **What a step leaves** once nothing is left to wait for, if its poll does not fail. -/
theorem callsLeft_lt (h : Owned s.system) (ht : s.work m = some t) (hcloned : m.cloned = true)
    (hqueried : m.queried = true) (hsettled : s.Settled) :
    t.system.callsLeft < s.system.callsLeft := by
  cases work_move ht with
  | protocol e system slept hstep hquiet hawake => exact callsLeft_lt_of_quiet hstep hquiet
  | panicked timeout response pc hw hrun hfails =>
      rw [hcloned] at hfails
      cases hfails
  | call timeout response pc event a process slept system hw hstep hsystem hmove =>
      have hrun : ∀ r, pc ≠ .returned r := by
        rintro r rfl
        cases hmove with
        | seen _ hpc _ => simp at hpc
      have hshows := hsettled.resolve_left (attached_of_calling h hw hrun)
      rw [hsystem]
      unfold System.callsLeft
      rw [hw]
      rcases response with _ | response
      · exact AttemptPc.pollLeft_lt hmove hqueried hshows (by decide)
      · exact AttemptPc.pollLeft_lt hmove hqueried hshows (Nat.le_refl _)

end WinSystem

/-- The invariant, with the controller dropped, a given child attached and no panic so far. -/
structure WinAbandoned (attached : Option C) (s : WinSystem C) : Prop where
  drained : WinDrained s
  intact : s.panicked = false
  client : s.system.client = .dropped
  attached : s.system.attached = attached

/-- A step of the worker whose clone succeeds, which also keeps what is settled. -/
theorem WinAbandoned.step {attached : Option C} {s t : WinSystem C} {m : Cloning}
    (h : WinAbandoned attached s) (ht : s.step (.worker m.1) = some t) :
    WinAbandoned attached t ∧ (s.Settled → t.Settled) := by
  obtain ⟨hclient, hattached⟩ := WinSystem.worker_step_client ht
  have hintact : t.panicked = (s.elapse m.1).panicked :=
    WinSystem.work_intact m.2 (WinSystem.work_move ht)
  refine ⟨⟨WinSystem.drained_step h.drained ht, hintact.trans h.intact, hclient.trans h.client,
    hattached.trans h.attached⟩, ?_⟩
  rintro (hnone | hshows)
  · exact .inl (hattached.trans hnone)
  · exact .inr (WinSystem.showsExit_step hshows ht)

/-- What a step leaves. -/
theorem WinAbandoned.callsLeft_lt {attached : Option C} {s t : WinSystem C} {m : Cloning}
    (h : WinAbandoned attached s) (ht : s.step (.worker m.1) = some t) (hqueried : m.1.queried = true)
    (hsettled : s.Settled) : t.system.callsLeft < s.system.callsLeft := by
  have hnow : (s.elapse m.1).Settled := hsettled.imp id fun hshows => (hshows.kept m.1).1
  exact @WinSystem.callsLeft_lt _ (s.elapse m.1) t m.1 (h.drained.owned h.intact) ht m.2 hqueried hnow

/-- What a recovery leaves behind whose worker has ended. -/
theorem WinAbandoned.ended {attached : Option C} {s : WinSystem C} (h : WinAbandoned attached s)
    (hended : s.system.worker = .ended) :
    s.system.queue = [] ∧ s.system.child = none ∧ s.system.reaped = attached.toList ∧
      s.system.overwritten = [] := by
  obtain ⟨hdrained, hintact, -, rfl⟩ := h
  exact (hdrained.owned hintact).ended hended

/-- **When the worker of a dropped controller ends**, and what it leaves behind then. -/
theorem WinDrained.ends_iff {s : WinSystem C} (h : WinDrained s) (hintact : s.panicked = false)
    (hclient : s.system.client = .dropped) {os : ℕ → WinMoment}
    (hcloned : ∀ n, (os n).cloned = true) {N : ℕ} (hqueried : ∀ n, N < n → (os n).queried = true) :
    ((∃ n t, exec WinSystem.step s (WinSystem.ticks os n) = some t ∧ t.system.worker = .ended) ↔
        s.system.attached = none ∨
          ∃ n t, exec WinSystem.step s (WinSystem.ticks os n) = some t ∧ t.process.ShowsExit) ∧
      ∀ n t, exec WinSystem.step s (WinSystem.ticks os n) = some t → t.system.worker = .ended →
        t.system.queue = [] ∧ t.system.child = none ∧
          t.system.reaped = s.system.attached.toList ∧ t.system.overwritten = [] := by
  have hstart : WinAbandoned s.system.attached s := ⟨h, hintact, hclient, rfl⟩
  let work : WinSystem C → Cloning → Option (WinSystem C) := fun u m => u.step (.worker m.1)
  let moments : ℕ → Cloning := fun n => ⟨os n, hcloned n⟩
  have hticks (n : ℕ) : exec WinSystem.step s (WinSystem.ticks os n) =
      exec work s ((List.range n).map moments) := s.exec_ticks hcloned n
  have hkept {n : ℕ} {t : WinSystem C} (ht : exec work s ((List.range n).map moments) = some t) :
      WinAbandoned s.system.attached t :=
    exec_invariant (fun _ _ _ hu hv => (hu.step hv).1) hstart ht
  simp only [hticks]
  refine ⟨⟨?_, ?_⟩, fun n t ht hended => (hkept ht).ended hended⟩
  · rintro ⟨n, t, ht, hended⟩
    obtain ⟨-, -, hreaped, -⟩ := (hkept ht).ended hended
    rcases hattached : s.system.attached with _ | c
    · exact .inl rfl
    · refine .inr ⟨n, t, ht, (hkept ht).drained.reaped ?_⟩
      rw [hreaped, hattached]
      simp
  · intro hsettles
    obtain ⟨n, t, ht, hsettled⟩ : ∃ n t, exec work s ((List.range n).map moments) = some t ∧
        t.Settled := by
      rcases hsettles with hnone | ⟨n, t, ht, hshows⟩
      · exact ⟨0, s, rfl, .inl hnone⟩
      · exact ⟨n, t, ht, .inr hshows⟩
    have hkeep : ∀ u m, WinAbandoned s.system.attached u → u.system.worker ≠ .ended →
        ∃ v, work u m = some v ∧ WinAbandoned s.system.attached v := by
      intro u m hu hworker
      obtain ⟨v, hv⟩ :=
        @WinSystem.work_enabled _ (u.elapse m.1) m.1 hworker (fun _ _ => hu.client) m.2
      exact ⟨v, hv, (hu.step hv).1⟩
    have hstay : ∀ u m v, WinAbandoned s.system.attached u ∧ u.Settled → work u m = some v →
        WinAbandoned s.system.attached v ∧ v.Settled :=
      fun u m v hu hv => ⟨(hu.1.step hv).1, (hu.1.step hv).2 hu.2⟩
    have hlower : ∀ u (m : Cloning) v, m.1.queried = true → WinAbandoned s.system.attached u → u.Settled →
        work u m = some v → v.system.callsLeft < u.system.callsLeft :=
      fun u m v hm hu hsettled hv => hu.callsLeft_lt hv hm hsettled
    obtain ⟨k, u, hu, -, hended⟩ :=
      exec_reaches_from hkeep hstay hlower hqueried hstart ht (hkept ht) hsettled
    exact ⟨k, u, hu, hended⟩

/-- **When a dropped recovery ends on Windows.** Let the controller be dropped at any moment of any
run in which the worker has not panicked, with whatever the worker is doing and whatever is queued; let
every later clone of the process handle succeed, and let no `GetExitCodeProcess` fail from some step on.
Then the worker ends, after finitely many of its steps, exactly if no child was ever attached or the
child comes to an end with an exit code other than 259, by itself or by a `TerminateProcess` of the
worker; and when it ends, the channel and the slot are empty and exactly the attached child was taken
out of the slot.
Source: `lib.rs` `failed_child_recovery_worker`, `attempt_failed_child_recovery`, `win/mod.rs`
`WinChild::is_complete`, `WinChild::do_kill` -/
theorem dropped_win_recovery_ends_iff (process : WinProcess) (clock : Instant)
    {moves : List (WinMove C)} {s : WinSystem C}
    (hrun : exec WinSystem.step (.prepare process clock) moves = some s)
    (hintact : s.panicked = false) (hclient : s.system.client = .dropped) {os : ℕ → WinMoment}
    (hcloned : ∀ n, (os n).cloned = true) {N : ℕ} (hqueried : ∀ n, N < n → (os n).queried = true) :
    ((∃ n t, exec WinSystem.step s (WinSystem.ticks os n) = some t ∧ t.system.worker = .ended) ↔
        s.system.attached = none ∨
          ∃ n t, exec WinSystem.step s (WinSystem.ticks os n) = some t ∧ t.process.ShowsExit) ∧
      ∀ n t, exec WinSystem.step s (WinSystem.ticks os n) = some t → t.system.worker = .ended →
        t.system.queue = [] ∧ t.system.child = none ∧
          t.system.reaped = s.system.attached.toList ∧ t.system.overwritten = [] := by
  have hdrained : WinDrained s := exec_invariant (fun _ _ _ hs ht => WinSystem.drained_step hs ht)
    (WinSystem.drained_prepare process clock) hrun
  exact hdrained.ends_iff hintact hclient hcloned hqueried

/-- The client attaches the child and goes away. -/
def droppedMoves : List (WinMove Unit) :=
  [.client (.attachStore ()), .client .attachSend, .client .drop]

/-- The first `TerminateProcess` is refused, the second one granted, and the process ends at the next
step. -/
def refusedOnce (n : ℕ) : WinMoment where
  exits := if n = 10 then some 0 else none
  cloned := true
  queried := true
  terminate := if n < 8 then some 5 else none
  elapsed := 0

/-- The worker that is left alone ends. -/
theorem dropped_win_recovery_ends_refused_once :
    ∃ s, exec WinSystem.step (.prepare .running 0) droppedMoves = some s ∧
      ∃ n t, exec WinSystem.step s (WinSystem.ticks refusedOnce n) = some t ∧
        t.system.worker = .ended := by
  refine ⟨_, rfl, ?_⟩
  have hends := @dropped_win_recovery_ends_iff Unit .running 0 droppedMoves _ rfl rfl rfl refusedOnce
    (fun _ => rfl) 0 fun _ _ => rfl
  exact hends.1.mpr (.inr ⟨11, _, rfl, 1, rfl, by decide⟩)

end SysprimsPty.Recovery
