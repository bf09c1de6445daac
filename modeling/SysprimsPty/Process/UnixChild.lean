import SysprimsPty.Core.Io
import SysprimsPty.Found.Transition

/-!
# The child handle on Unix

A `std::process::Child`, its process, and the `ProcessSignaller`s cloned from it, which know only
its pid. A `ContainedPtyChild` forwards every call to the `Child` inside it, so the one model serves
both. A state also says whom the pid denotes: the child until the handle has reaped it, and then
possibly a process that the system gave the number to. An event is one call into the operating
system with its answer, an exit of the process, or a reuse of the pid.

* `World.step` — the handle's calls, the cloned killers and the operating system.
* `PidHeld` — the invariant: the pid denotes the child as long as the handle has not reaped it.
* `signals_hit_child_iff` — every signal of a run reached an unreaped child exactly when no `kill` was
  called after the reap.
-/

namespace SysprimsPty.Process

open SysprimsPty.Core
open SysprimsPty.Found

/-- The state of the child process in the operating system. -/
inductive ProcessState
  | running
  | zombie (status : ExitStatus)
  | reaped

/-- Whom the pid of the child denotes. -/
inductive PidOwner
  | child
  | free
  /-- The system has given the number to another process. -/
  | stranger
  deriving DecidableEq

/-- The signals that the crate sends. -/
inductive Signal
  | sighup
  | sigkill
  deriving DecidableEq

/-- A `libc::kill` with the child's pid: whether the handle had reaped the child by then, and whom
the pid denoted. -/
structure SentSignal where
  signal : Signal
  reaped : Bool
  target : PidOwner
  deriving DecidableEq

/-- The point that a `kill` on the handle has reached. -/
inductive KillPc
  | idle
  /-- Before the grace poll number `attempt`. -/
  | grace (attempt : ℕ)
  /-- In the sleep before the grace poll number `attempt`. -/
  | sleeping (attempt : ℕ)
  /-- Before `std::process::Child::kill`. -/
  | escalating
  deriving DecidableEq

/-- The handle, its process and the signals sent so far. -/
structure World where
  process : ProcessState
  pid : PidOwner
  /-- The status that the `std::process::Child` has kept since it reaped the child. -/
  status : Option ExitStatus
  pc : KillPc
  /-- The number of `ProcessSignaller`s cloned from the handle. -/
  killers : ℕ
  /-- The `libc::kill` calls, newest first. -/
  signals : List SentSignal

/-- A call into the operating system with its answer, or a move of the system. A poll or a wait that
fails answers the given error. -/
inductive UnixEvent
  | exit (status : ExitStatus)
  | reuse
  | tryWait (fails : Option IoError)
  | wait (fails : Option IoError)
  /-- The `SIGHUP` of `ChildKiller::kill` on the handle. -/
  | kill (delivered : IoResult Unit)
  | gracePoll (fails : Option IoError)
  | slept
  /-- The `std::process::Child::kill` at the end of `ChildKiller::kill`. -/
  | escalate (delivered : IoResult Unit)
  /-- `clone_killer` of the handle or of another cloned killer. -/
  | cloneKiller
  | killerKill (killer : ℕ) (delivered : IoResult Unit)

/-- The number of grace polls: `for attempt in 0..5`. -/
def gracePolls : ℕ := 5

namespace World

/-- A freshly spawned child. -/
def spawned : World where
  process := .running
  pid := .child
  status := none
  pc := .idle
  killers := 0
  signals := []

/-- A child that a containment guard has reaped before handing out its handle. -/
def finalized (status : ExitStatus) : World where
  process := .reaped
  pid := .free
  status := some status
  pc := .idle
  killers := 0
  signals := []

/-- `libc::kill` with the child's pid. -/
def send (w : World) (signal : Signal) : World :=
  { w with
    signals := { signal, reaped := w.status.isSome, target := w.pid } :: w.signals }

/-- `std::process::Child::try_wait`: a status once seen is kept, and a zombie is reaped. -/
def stdTryWait (w : World) (fails : Option IoError) : World × IoResult (Option ExitStatus) :=
  match w.status, fails, w.process with
  | some status, _, _ => (w, .ok (some status))
  | none, some e, _ => (w, .error e)
  | none, none, .zombie status =>
      ({ w with status := some status, process := .reaped, pid := .free }, .ok (some status))
  | none, none, _ => (w, .ok none)

/-- `std::process::Child::wait` at its return; `none`: it still blocks. -/
def stdWait (w : World) (fails : Option IoError) : Option (World × IoResult ExitStatus) :=
  match w.stdTryWait fails with
  | (w, .ok (some status)) => some (w, .ok status)
  | (w, .error e) => some (w, .error e)
  | (_, .ok none) => none

/-- `std::process::Child::kill`: no signal once a status has been seen. -/
def stdKill (w : World) : World :=
  if w.status.isSome then w else w.send .sigkill

/-- One step.
Source: `lib.rs` `Child for std::process::Child`, `ChildKiller for std::process::Child`,
`ChildKiller for ProcessSignaller` -/
def step (w : World) : UnixEvent → Option World
  | .exit status =>
      match w.process with
      | .running => some { w with process := .zombie status }
      | _ => none
  | .reuse => if w.pid = .free then some { w with pid := .stranger } else none
  | .tryWait fails => if w.pc = .idle then some (w.stdTryWait fails).1 else none
  | .wait fails => if w.pc = .idle then (w.stdWait fails).map Prod.fst else none
  | .kill delivered =>
      if w.pc = .idle then
        match delivered with
        | .ok () => some { w.send .sighup with pc := .grace 0 }
        | .error _ => some (w.send .sighup)
      else none
  | .gracePoll fails =>
      match w.pc with
      | .grace attempt =>
          match w.stdTryWait fails with
          | (w, .ok (some _)) => some { w with pc := .idle }
          | (w, _) =>
              some { w with
                pc := if attempt + 1 < gracePolls then .sleeping (attempt + 1) else .escalating }
      | _ => none
  | .slept =>
      match w.pc with
      | .sleeping attempt => some { w with pc := .grace attempt }
      | _ => none
  | .escalate _ =>
      match w.pc with
      | .escalating => some { w.stdKill with pc := .idle }
      | _ => none
  | .cloneKiller => some { w with killers := w.killers + 1 }
  | .killerKill killer _ => if killer < w.killers then some (w.send .sighup) else none

end World

/-- A call of `ChildKiller::kill`, on the handle or on a cloned killer. -/
def UnixEvent.isKillCall : UnixEvent → Bool
  | .kill _ => true
  | .killerKill _ _ => true
  | _ => false

/-- **No signal strays**: every `libc::kill` was issued before the handle reaped the child, while the
pid denoted it. -/
def SignalsHitChild (w : World) : Prop :=
  ∀ s ∈ w.signals, s.reaped = false ∧ s.target = .child

/-- A kill is called only before the handle has reaped the child. -/
def CallsKillInTime (w : World) (e : UnixEvent) : Prop :=
  e.isKillCall = true → w.status = none

/-- The pid denotes the child until the handle has reaped it. -/
def PidHeld (w : World) : Prop := w.status = none → w.pid = .child

/-! ## One step -/

/-- A poll sends no signal and keeps the pid until it reaps. -/
theorem stdTryWait_spec {w : World} (h : PidHeld w) (fails : Option IoError) :
    PidHeld (w.stdTryWait fails).1 ∧ (w.stdTryWait fails).1.signals = w.signals := by
  unfold World.stdTryWait
  split
  · exact ⟨h, rfl⟩
  · exact ⟨h, rfl⟩
  · exact ⟨nofun, rfl⟩
  · exact ⟨h, rfl⟩

/-- A `wait` that returns has polled. -/
theorem stdWait_eq_some {w t : World} {fails : Option IoError} {r : IoResult ExitStatus}
    (h : w.stdWait fails = some (t, r)) : t = (w.stdTryWait fails).1 := by
  unfold World.stdWait at h
  split at h
  · next hpoll =>
      cases h
      rw [hpoll]
  · next hpoll =>
      cases h
      rw [hpoll]
  · cases h

/-- What a step does to the process and to the status that the handle keeps. -/
inductive ProcessMove (w t : World) : UnixEvent → Prop
  | exit (status : ExitStatus) (hrunning : w.process = .running)
      (hprocess : t.process = .zombie status) (hstatus : t.status = w.status) :
      ProcessMove w t (.exit status)
  | polled (e : UnixEvent) (fails : Option IoError) (hexit : ∀ status, e ≠ .exit status)
      (hprocess : t.process = (w.stdTryWait fails).1.process)
      (hstatus : t.status = (w.stdTryWait fails).1.status) : ProcessMove w t e
  | kept (e : UnixEvent) (hexit : ∀ status, e ≠ .exit status) (hprocess : t.process = w.process)
      (hstatus : t.status = w.status) : ProcessMove w t e

/-- Every step is an exit, a poll, or leaves the process alone. -/
theorem process_move {w t : World} {e : UnixEvent} (ht : w.step e = some t) : ProcessMove w t e := by
  cases e with
  | exit status =>
      simp only [World.step] at ht
      split at ht
      · next hrunning =>
          obtain rfl := Option.some.inj ht
          exact .exit status hrunning rfl rfl
      · cases ht
  | reuse =>
      simp only [World.step] at ht
      split_ifs at ht
      obtain rfl := Option.some.inj ht
      exact .kept _ (by simp) rfl rfl
  | tryWait fails =>
      simp only [World.step] at ht
      split_ifs at ht
      obtain rfl := Option.some.inj ht
      exact .polled _ fails (by simp) rfl rfl
  | wait fails =>
      simp only [World.step] at ht
      split_ifs at ht
      obtain ⟨⟨w', r⟩, hwait, rfl⟩ := Option.map_eq_some_iff.mp ht
      rw [stdWait_eq_some hwait]
      exact .polled _ fails (by simp) rfl rfl
  | kill delivered =>
      simp only [World.step] at ht
      split_ifs at ht
      split at ht
      · obtain rfl := Option.some.inj ht
        exact .kept _ (by simp) rfl rfl
      · obtain rfl := Option.some.inj ht
        exact .kept _ (by simp) rfl rfl
  | gracePoll fails =>
      simp only [World.step] at ht
      split at ht
      · split at ht
        · next hpoll =>
            obtain rfl := Option.some.inj ht
            exact .polled _ fails (by simp) (by rw [hpoll]) (by rw [hpoll])
        · next hpoll =>
            obtain rfl := Option.some.inj ht
            exact .polled _ fails (by simp) (by rw [hpoll]) (by rw [hpoll])
      · cases ht
  | slept =>
      simp only [World.step] at ht
      split at ht
      · obtain rfl := Option.some.inj ht
        exact .kept _ (by simp) rfl rfl
      · cases ht
  | escalate delivered =>
      simp only [World.step] at ht
      split at ht
      · obtain rfl := Option.some.inj ht
        unfold World.stdKill
        split_ifs
        · exact .kept _ (by simp) rfl rfl
        · exact .kept _ (by simp) rfl rfl
      · cases ht
  | cloneKiller =>
      obtain rfl := Option.some.inj ht
      exact .kept _ (by simp) rfl rfl
  | killerKill killer delivered =>
      simp only [World.step] at ht
      split_ifs at ht
      obtain rfl := Option.some.inj ht
      exact .kept _ (by simp) rfl rfl

/-- Sending a signal is harmless exactly before the reap. -/
theorem signalsHitChild_send_iff {w : World} (h : PidHeld w) (signal : Signal) :
    SignalsHitChild (w.send signal) ↔ SignalsHitChild w ∧ w.status = none := by
  unfold SignalsHitChild World.send
  simp only [List.forall_mem_cons, Option.isSome_eq_false_iff, Option.isNone_iff_eq_none]
  constructor
  · rintro ⟨⟨hstatus, -⟩, hall⟩
    exact ⟨hall, hstatus⟩
  · rintro ⟨hall, hstatus⟩
    exact ⟨⟨hstatus, h hstatus⟩, hall⟩

/-- `std::process::Child::kill` is harmless. -/
theorem signalsHitChild_stdKill {w : World} (h : PidHeld w) :
    SignalsHitChild w.stdKill ↔ SignalsHitChild w := by
  unfold World.stdKill
  split_ifs with hstatus
  · rfl
  · rw [signalsHitChild_send_iff h]
    exact and_iff_left (Option.not_isSome_iff_eq_none.mp hstatus)

/-- An event that is no kill call is never too late. -/
theorem callsKillInTime_of_quiet {w : World} {e : UnixEvent} (he : e.isKillCall = false) :
    CallsKillInTime w e := by
  intro hkill
  rw [he] at hkill
  cases hkill

/-- An event that is no kill call and sends nothing keeps the property. -/
theorem signalsHitChild_quiet {w t : World} {e : UnixEvent} (hs : t.signals = w.signals)
    (he : e.isKillCall = false) : SignalsHitChild t ↔ SignalsHitChild w ∧ CallsKillInTime w e := by
  rw [SignalsHitChild, hs]
  exact (and_iff_left (callsKillInTime_of_quiet he)).symm

/-- A kill call keeps the property exactly when it comes before the reap. -/
theorem signalsHitChild_call {w t : World} {e : UnixEvent} (h : PidHeld w)
    (hs : t.signals = (w.send .sighup).signals) (he : e.isKillCall = true) :
    SignalsHitChild t ↔ SignalsHitChild w ∧ CallsKillInTime w e := by
  rw [SignalsHitChild, hs]
  refine (signalsHitChild_send_iff h .sighup).trans (and_congr_right fun _ => ?_)
  exact ⟨fun hstatus _ => hstatus, fun htime => htime he⟩

/-- **The step lemma.** Every step keeps the pid held, and keeps all signals on the child unless it
is a kill call after the reap. -/
theorem signals_step {w t : World} {e : UnixEvent} (h : PidHeld w) (ht : w.step e = some t) :
    PidHeld t ∧ (SignalsHitChild t ↔ SignalsHitChild w ∧ CallsKillInTime w e) := by
  cases e with
  | exit status =>
      simp only [World.step] at ht
      split at ht
      · cases ht
        exact ⟨h, signalsHitChild_quiet rfl rfl⟩
      · cases ht
  | reuse =>
      simp only [World.step] at ht
      split_ifs at ht with hfree
      cases ht
      refine ⟨fun hstatus => ?_, signalsHitChild_quiet rfl rfl⟩
      have hchild : w.pid = .child := h hstatus
      rw [hfree] at hchild
      cases hchild
  | tryWait fails =>
      simp only [World.step] at ht
      split_ifs at ht
      cases ht
      obtain ⟨hheld, hsignals⟩ := stdTryWait_spec h fails
      exact ⟨hheld, signalsHitChild_quiet hsignals rfl⟩
  | wait fails =>
      simp only [World.step] at ht
      split_ifs at ht
      obtain ⟨hheld, hsignals⟩ := stdTryWait_spec h fails
      rw [Option.map_eq_some_iff] at ht
      obtain ⟨⟨w', r⟩, hwait, rfl⟩ := ht
      rw [stdWait_eq_some hwait]
      exact ⟨hheld, signalsHitChild_quiet hsignals rfl⟩
  | kill delivered =>
      simp only [World.step] at ht
      split_ifs at ht
      split at ht
      · cases ht
        exact ⟨h, signalsHitChild_call h rfl rfl⟩
      · cases ht
        exact ⟨h, signalsHitChild_call h rfl rfl⟩
  | gracePoll fails =>
      simp only [World.step] at ht
      obtain ⟨hheld, hsignals⟩ := stdTryWait_spec h fails
      split at ht
      · split at ht
        · next hpoll =>
            cases ht
            rw [hpoll] at hheld hsignals
            exact ⟨hheld, signalsHitChild_quiet hsignals rfl⟩
        · next hpoll =>
            cases ht
            rw [hpoll] at hheld hsignals
            exact ⟨hheld, signalsHitChild_quiet hsignals rfl⟩
      · cases ht
  | slept =>
      simp only [World.step] at ht
      split at ht
      · cases ht
        exact ⟨h, signalsHitChild_quiet rfl rfl⟩
      · cases ht
  | escalate delivered =>
      simp only [World.step] at ht
      split at ht
      · cases ht
        have htime : CallsKillInTime w (.escalate delivered) := callsKillInTime_of_quiet rfl
        refine ⟨?_, ((signalsHitChild_stdKill h).trans (and_iff_left htime).symm)⟩
        unfold World.stdKill
        split_ifs
        · exact h
        · exact h
      · cases ht
  | cloneKiller =>
      cases ht
      exact ⟨h, signalsHitChild_quiet rfl rfl⟩
  | killerKill killer delivered =>
      simp only [World.step] at ht
      split_ifs at ht
      cases ht
      exact ⟨h, signalsHitChild_call h rfl rfl⟩

/-! ## Whole runs -/

/-- The handle as the crate hands it out: of a freshly spawned child, or of a child that a guard has
finalized. -/
def HandedOut (w : World) : Prop := w = .spawned ∨ ∃ status, w = .finalized status

/-- **When no signal reaches a stranger.** Along every run of the handle's calls and the cloned
killers, under every answer and with the exit and the reuse of the pid at any moment: every
`libc::kill` with the child's pid was issued before the handle reaped the child if and only if every
`kill`, on the handle or on a cloned killer, was called before that.
Source: `lib.rs` `ChildKiller for std::process::Child`, `ChildKiller for ProcessSignaller` -/
theorem signals_hit_child_iff {w₀ w : World} (h0 : HandedOut w₀) {events : List UnixEvent}
    (hrun : exec World.step w₀ events = some w) :
    SignalsHitChild w ↔ Along World.step CallsKillInTime w₀ events := by
  have hheld : PidHeld w₀ := by
    rcases h0 with rfl | ⟨status, rfl⟩
    · exact fun _ => rfl
    · exact nofun
  have hnone : SignalsHitChild w₀ := by
    rcases h0 with rfl | ⟨status, rfl⟩
    · exact nofun
    · exact nofun
  rw [exec_iff_along (fun _ _ _ hI ht => signals_step hI ht) hheld hrun]
  exact and_iff_right hnone

/-- A kill that comes in time: the child ignores `SIGHUP` and is killed after the grace period. -/
def stubbornRun : List UnixEvent :=
  [.tryWait none, .kill (.ok ()), .gracePoll none, .slept, .gracePoll none, .slept, .gracePoll none,
    .slept, .gracePoll none, .slept, .gracePoll none, .escalate (.ok ()),
    .exit (ExitStatus.withExitCode 1), .wait none]

/-- Both signals of the stubborn run reach the child. -/
theorem signals_hit_child_stubborn :
    ∃ w, exec World.step .spawned stubbornRun = some w ∧ w.signals.length = 2 ∧
      Along World.step CallsKillInTime .spawned stubbornRun := by
  refine ⟨_, rfl, rfl, (signals_hit_child_iff (.inl rfl) rfl).mp ?_⟩
  intro s hs
  revert s
  decide

/-- The child exits and is reaped by a poll, and the system reuses its pid before the handle's
`kill`. -/
def lateKillRun : List UnixEvent :=
  [.exit (ExitStatus.withExitCode 0), .tryWait none, .reuse, .kill (.ok ())]

/-- The child exits and is reaped by a `wait`, and the system reuses its pid before the `kill` of a
cloned killer. -/
def lateKillerRun : List UnixEvent :=
  [.cloneKiller, .exit (ExitStatus.withExitCode 0), .wait none, .reuse, .killerKill 0 (.ok ())]

/-- Both late kills send `SIGHUP` to a stranger after the handle reaped its child. -/
theorem late_kills_hit_stranger :
    (∃ w, exec World.step .spawned lateKillRun = some w ∧
      w.signals = [{ signal := .sighup, reaped := true, target := .stranger }] ∧
      ¬ SignalsHitChild w) ∧
    ∃ w, exec World.step .spawned lateKillerRun = some w ∧
      w.signals = [{ signal := .sighup, reaped := true, target := .stranger }] ∧
      ¬ SignalsHitChild w := by
  refine ⟨⟨_, rfl, rfl, ?_⟩, _, rfl, rfl, ?_⟩
  · intro h
    cases (h _ List.mem_cons_self).1
  · intro h
    cases (h _ List.mem_cons_self).1

end SysprimsPty.Process
