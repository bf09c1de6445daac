import SysprimsPty.Recovery.Attempt
import SysprimsPty.Process.UnixChild

/-!
# One recovery attempt on Unix

`attempt_failed_child_recovery` and the `ChildKiller::kill` that it calls on a Unix child, as the
machine of the attempt and that of the child handle put together, with a clock. The label of a step is
what the system answers at that moment to whichever call comes next, so that a stream of labels is one
behaviour of the operating system and every behaviour is such a stream.

* `UnixAttempt.step` — the next call, with its answer.
* `exec_machines` — a run is a run of the two machines that it is made of.
* `BoundedExact` — what is expected of an attempt that has returned.
* `Orderly` — each signal is sent after the calls that must precede it.
-/

namespace SysprimsPty.Recovery

open SysprimsPty.Core
open SysprimsPty.Found
open SysprimsPty.Process

/-! ## The composed machine -/

/-- What the system answers at one moment. -/
structure OsMoment where
  /-- The child has exited by then, if it still ran. -/
  exits : Option ExitStatus
  /-- `waitpid` fails. -/
  waitFails : Option IoError
  sighup : IoResult Unit
  sigkill : IoResult Unit
  /-- The time that passes before the call, and beyond the duration of a sleep. -/
  elapsed : Duration

/-- A call on the child, with its answer. -/
inductive UnixCall
  /-- A `try_wait`, of the attempt or of the grace period. -/
  | poll (answer : IoResult (Option ExitStatus))
  | sighup (answer : IoResult Unit)
  | sigkill (answer : IoResult Unit)
  deriving DecidableEq

namespace UnixCall

def isPoll : UnixCall → Bool
  | .poll _ => true
  | _ => false

def isSighup : UnixCall → Bool
  | .sighup _ => true
  | _ => false

def isSigkill : UnixCall → Bool
  | .sigkill _ => true
  | _ => false

/-- A poll that reported the exit. -/
def reportsExit : UnixCall → Bool
  | .poll (.ok (some _)) => true
  | _ => false

/-- A poll that saw no exit: it found the child running, or failed. -/
def Unseen (c : UnixCall) : Prop := c.isPoll = true ∧ c.reportsExit = false

end UnixCall

/-- The attempt with its slot, the child handle, the clock and the calls on the child, newest
first. -/
structure UnixAttempt (C : Type) where
  attempt : Attempt C
  world : World
  clock : Instant
  calls : List UnixCall

/-- The sleep between two grace polls: `Duration::from_millis(50)`. -/
def gracePause : Duration := Duration.fromMillis 50

variable {C : Type}

namespace UnixAttempt

/-- The attempt is called on a slot; no other call on the handle is in progress. -/
def enter (slot : Option C) (world : World) (clock : Instant) : UnixAttempt C where
  attempt := .enter slot
  world := { world with pc := .idle }
  clock
  calls := []

/-- What happens before the call. -/
def elapse (s : UnixAttempt C) (os : OsMoment) : UnixAttempt C :=
  { s with
    world := (os.exits.bind fun status => s.world.step (.exit status)).getD s.world
    clock := s.clock + os.elapsed }

/-- A step of the attempt. -/
def andThen (s : UnixAttempt C) (timeout : Duration) (e : AttemptEvent) : Option (UnixAttempt C) :=
  (attemptStep timeout s.attempt e).map fun attempt => { s with attempt }

/-- `Child::try_wait` in the attempt. -/
def poll (s : UnixAttempt C) (timeout : Duration) (os : OsMoment) : Option (UnixAttempt C) :=
  let answer := (s.world.stdTryWait os.waitFails).2
  (s.world.step (.tryWait os.waitFails)).bind fun world =>
    andThen { s with world, calls := .poll answer :: s.calls } timeout (.tryWait answer)

/-- `libc::kill(self.id(), SIGHUP)` -/
def hangUp (s : UnixAttempt C) (timeout : Duration) (os : OsMoment) : Option (UnixAttempt C) :=
  (s.world.step (.kill os.sighup)).bind fun world =>
    let s := { s with world, calls := .sighup os.sighup :: s.calls }
    match os.sighup with
    | .ok () => some s
    | .error e => s.andThen timeout (.kill (.error e))

/-- `self.try_wait()` in the grace period. -/
def gracePoll (s : UnixAttempt C) (timeout : Duration) (os : OsMoment) : Option (UnixAttempt C) :=
  let answer := (s.world.stdTryWait os.waitFails).2
  (s.world.step (.gracePoll os.waitFails)).bind fun world =>
    let s := { s with world, calls := .poll answer :: s.calls }
    match answer with
    | .ok (some _) => s.andThen timeout (.kill (.ok ()))
    | _ => some s

/-- `std::thread::sleep` in the grace period. -/
def graceSleep (s : UnixAttempt C) : Option (UnixAttempt C) :=
  (s.world.step .slept).map fun world => { s with world, clock := s.clock + gracePause }

/-- `std::process::Child::kill(self)`, which sends nothing once a status has been seen. -/
def escalate (s : UnixAttempt C) (timeout : Duration) (os : OsMoment) : Option (UnixAttempt C) :=
  (s.world.step (.escalate os.sigkill)).bind fun world =>
    if s.world.status.isSome then andThen { s with world } timeout (.kill (.ok ()))
    else
      andThen { s with world, calls := .sigkill os.sigkill :: s.calls } timeout (.kill os.sigkill)

/-- The next call and what follows its answer; `none`: the attempt has returned.
Source: `lib.rs` `attempt_failed_child_recovery`, `ChildKiller for std::process::Child` -/
def call (s : UnixAttempt C) (timeout : Duration) (os : OsMoment) : Option (UnixAttempt C) :=
  match s.attempt.pc with
  | .firstPoll => s.poll timeout os
  | .kill =>
      match s.world.pc with
      | .idle => s.hangUp timeout os
      | .grace _ => s.gracePoll timeout os
      | .sleeping _ => s.graceSleep
      | .escalating => s.escalate timeout os
  | .deadline => s.andThen timeout (.now s.clock)
  | .poll _ => s.poll timeout os
  | .guard _ => s.andThen timeout (.now s.clock)
  | .sleep _ => andThen { s with clock := s.clock + pause } timeout .slept
  | .returned _ => none

/-- One step. -/
def step (timeout : Duration) (s : UnixAttempt C) (os : OsMoment) : Option (UnixAttempt C) :=
  (s.elapse os).call timeout os

/-- The `try_wait`s made so far. -/
def polls (s : UnixAttempt C) : ℕ := s.calls.countP UnixCall.isPoll

/-- A poll of a running child can get any answer. -/
theorem exists_moment {s : UnixAttempt C} (hprocess : s.world.process = .running)
    (hstatus : s.world.status = none) (answer : IoResult (Option ExitStatus)) :
    ∃ os, ((s.elapse os).world.stdTryWait os.waitFails).2 = answer := by
  let os : OsMoment :=
    { exits := none, waitFails := none, sighup := .ok (), sigkill := .ok (), elapsed := 0 }
  rcases answer with e | _ | status
  · exact ⟨{ os with waitFails := some e }, by simp [elapse, World.stdTryWait, hstatus, os]⟩
  · exact ⟨os, by simp [elapse, World.stdTryWait, hstatus, hprocess, os]⟩
  · exact ⟨{ os with exits := some status },
      by simp [elapse, World.step, World.stdTryWait, hstatus, hprocess, os]⟩

end UnixAttempt

/-! ## The two machines in it -/

/-- `t` follows `s` by a run of the attempt and a run of the child handle. -/
def Machines (timeout : Duration) (s t : UnixAttempt C) : Prop :=
  (∃ es, exec (attemptStep timeout) s.attempt es = some t.attempt) ∧
    ∃ es, exec World.step s.world es = some t.world

namespace UnixAttempt

variable {timeout : Duration} {s t : UnixAttempt C}

/-- A step of the handle, and a step of the attempt after it. -/
theorem machines_andThen {world : World} {clock : Instant} {calls : List UnixCall} {w : UnixEvent}
    {e : AttemptEvent} (hworld : s.world.step w = some world)
    (h : andThen { s with world, clock, calls } timeout e = some t) : Machines timeout s t := by
  unfold andThen at h
  obtain ⟨a, ha, rfl⟩ := Option.map_eq_some_iff.mp h
  exact ⟨⟨[e], exec_single ha⟩, [w], exec_single hworld⟩

/-- A step of the attempt alone. -/
theorem machines_attempt {clock : Instant} {e : AttemptEvent}
    (h : andThen { s with clock } timeout e = some t) : Machines timeout s t := by
  unfold andThen at h
  obtain ⟨a, ha, rfl⟩ := Option.map_eq_some_iff.mp h
  exact ⟨⟨[e], exec_single ha⟩, [], rfl⟩

/-- A step of the handle alone. -/
theorem machines_world {world : World} {clock : Instant} {calls : List UnixCall} {w : UnixEvent}
    (hworld : s.world.step w = some world) : Machines timeout s { s with world, clock, calls } :=
  ⟨⟨[], rfl⟩, [w], exec_single hworld⟩

/-- A call is made of steps of the two machines. -/
theorem machines_call {os : OsMoment} (h : s.call timeout os = some t) : Machines timeout s t := by
  unfold call at h
  split at h
  case h_1 | h_4 =>
    unfold poll at h
    obtain ⟨w, hw, h⟩ := Option.bind_eq_some_iff.mp h
    exact machines_andThen hw h
  case h_2 =>
    split at h
    · unfold hangUp at h
      obtain ⟨w, hw, h⟩ := Option.bind_eq_some_iff.mp h
      dsimp only at h
      split at h
      · obtain rfl := Option.some.inj h
        exact machines_world hw
      · exact machines_andThen hw h
    · unfold gracePoll at h
      obtain ⟨w, hw, h⟩ := Option.bind_eq_some_iff.mp h
      dsimp only at h
      split at h
      · exact machines_andThen hw h
      · obtain rfl := Option.some.inj h
        exact machines_world hw
    · unfold graceSleep at h
      obtain ⟨w, hw, rfl⟩ := Option.map_eq_some_iff.mp h
      exact machines_world hw
    · unfold escalate at h
      obtain ⟨w, hw, h⟩ := Option.bind_eq_some_iff.mp h
      split_ifs at h
      · exact machines_andThen hw h
      · exact machines_andThen hw h
  case h_3 | h_5 | h_6 => exact machines_attempt h
  case h_7 => cases h

/-- **A run of the composed machine** is a run of the attempt, as the recovery protocol makes it, and
a run of the child handle. -/
theorem exec_machines {os : List OsMoment} (h : exec (step timeout) s os = some t) :
    Machines timeout s t := by
  have hstep : ∀ (s : UnixAttempt C) (os : OsMoment) (t : UnixAttempt C),
      s.step timeout os = some t → Machines timeout s t := by
    intro s os t ht
    obtain ⟨hattempt, es, hes⟩ := machines_call ht
    refine ⟨hattempt, ?_⟩
    rcases hexit : os.exits.bind fun status => s.world.step (.exit status) with _ | w
    · exact ⟨es, by simpa [elapse, hexit] using hes⟩
    · obtain ⟨status, -, hw⟩ := Option.bind_eq_some_iff.mp hexit
      refine ⟨.exit status :: es, ?_⟩
      rw [exec_cons, hw]
      simpa [elapse, hexit] using hes
  constructor
  · exact exec_simulates (fun s os t ht => (hstep s os t ht).1) h
  · exact exec_simulates (fun s os t ht => (hstep s os t ht).2) h

end UnixAttempt

/-! ## What is expected of an attempt -/

/-- The bound on the polls: the first one, the grace polls, and one more than the sleeps that cover
the timeout. -/
def maxPolls (timeout : Duration) : ℕ := 1 + gracePolls + (naps (min timeout attemptCap) + 1)

/-- `SIGHUP` was delivered, after polls that saw no exit, and then came `k` grace polls that saw no
exit either. -/
def HungUp (k : ℕ) (calls : List UnixCall) : Prop :=
  ∃ grace first, calls = grace ++ .sighup (.ok ()) :: first ∧ grace.length = k ∧
    (∀ c ∈ grace, c.Unseen) ∧ ∀ c ∈ first, c.Unseen

/-- **What an attempt on `slot` leaves behind** when it has returned. -/
structure BoundedExact (timeout : Duration) (slot : Option C) (s : UnixAttempt C)
    (result : IoResult Bool) : Prop where
  polls : s.polls ≤ maxPolls timeout
  /-- `Ok(true)` says that the slot is empty. -/
  resolved : result = .ok true ↔ s.attempt.child = none
  /-- The slot was emptied by a poll that reported the exit, and by no other call. -/
  emptied : s.attempt.child = none → slot ≠ none →
    ∃ status past, s.calls = .poll (.ok (some status)) :: past
  /-- Every other result leaves the child in the slot. -/
  kept : result ≠ .ok true → s.attempt.child = slot ∧ slot ≠ none
  one_sighup : s.calls.countP UnixCall.isSighup ≤ 1
  one_sigkill : s.calls.countP UnixCall.isSigkill ≤ 1
  /-- `SIGKILL` comes after a delivered `SIGHUP` and all grace polls, none of which saw an exit. -/
  sigkill : ∀ answer past, .sigkill answer :: past <:+ s.calls → HungUp gracePolls past
  /-- No signal is sent after a poll reported the exit. -/
  no_signal_after_exit : ∀ c past, c :: past <:+ s.calls → c.isPoll = false →
    ∀ p ∈ past, p.reportsExit = false

/-! ## The order of the calls -/

/-- What must have been called before a signal. -/
def UnixCall.InOrder (past : List UnixCall) : UnixCall → Prop
  | .poll _ => True
  | .sighup _ => ∀ c ∈ past, c.Unseen
  | .sigkill _ => HungUp gracePolls past

/-- Every signal was sent in order. -/
def Orderly : List UnixCall → Prop
  | [] => True
  | c :: past => c.InOrder past ∧ Orderly past

/-- A call of an orderly list was made in order. -/
theorem Orderly.of_suffix {calls past : List UnixCall} {c : UnixCall} (h : Orderly calls)
    (hsuffix : c :: past <:+ calls) : c.InOrder past := by
  induction calls with
  | nil => simp at hsuffix
  | cons d calls ih =>
      rcases List.suffix_cons_iff.mp hsuffix with heq | hsuffix
      · obtain ⟨rfl, rfl⟩ := List.cons.inj heq
        exact h.1
      · exact ih h.2 hsuffix

/-- No signal among polls. -/
theorem countP_signal_of_unseen {calls : List UnixCall} (h : ∀ c ∈ calls, c.Unseen) :
    calls.countP UnixCall.isSighup = 0 ∧ calls.countP UnixCall.isSigkill = 0 := by
  constructor <;>
  · rw [List.countP_eq_zero]
    intro c hc
    have hpoll := (h c hc).1
    rcases c with answer | answer | answer <;> simp_all [UnixCall.isPoll, UnixCall.isSighup,
      UnixCall.isSigkill]

/-- After the `SIGHUP` and the grace polls there is no other signal. -/
theorem HungUp.countP_sigkill {k : ℕ} {calls : List UnixCall} (h : HungUp k calls) :
    calls.countP UnixCall.isSigkill = 0 := by
  obtain ⟨grace, first, rfl, -, hgrace, hfirst⟩ := h
  rw [List.countP_append, (countP_signal_of_unseen hgrace).2, List.countP_cons_of_neg (by decide),
    (countP_signal_of_unseen hfirst).2]

/-- One more grace poll that sees no exit. -/
theorem HungUp.poll {k : ℕ} {calls : List UnixCall} (h : HungUp k calls) {c : UnixCall}
    (hc : c.Unseen) : HungUp (k + 1) (c :: calls) := by
  obtain ⟨grace, first, rfl, hlength, hgrace, hfirst⟩ := h
  refine ⟨c :: grace, first, rfl, by simp [hlength], ?_, hfirst⟩
  exact List.forall_mem_cons.mpr ⟨hc, hgrace⟩

/-- An orderly list has at most one signal of each kind. -/
theorem Orderly.signals_le {calls : List UnixCall} (h : Orderly calls) :
    calls.countP UnixCall.isSighup ≤ 1 ∧ calls.countP UnixCall.isSigkill ≤ 1 := by
  induction calls with
  | nil => simp
  | cons c calls ih =>
      obtain ⟨hc, hcalls⟩ := h
      obtain ⟨ihup, ikill⟩ := ih hcalls
      rcases c with answer | answer | answer
      · rw [List.countP_cons_of_neg (by simp [UnixCall.isSighup]),
          List.countP_cons_of_neg (by simp [UnixCall.isSigkill])]
        exact ⟨ihup, ikill⟩
      · obtain ⟨hhup, -⟩ := countP_signal_of_unseen hc
        rw [List.countP_cons_of_pos (by rfl), List.countP_cons_of_neg (by simp [UnixCall.isSigkill]),
          hhup]
        exact ⟨Nat.le_refl 1, ikill⟩
      · rw [List.countP_cons_of_neg (by simp [UnixCall.isSighup]), List.countP_cons_of_pos (by rfl),
          hc.countP_sigkill]
        exact ⟨ihup, Nat.le_refl 1⟩

/-- In an orderly list no exit was reported before a signal. -/
theorem Orderly.no_exit_before {calls past : List UnixCall} {c : UnixCall} (h : Orderly calls)
    (hsuffix : c :: past <:+ calls) (hsignal : c.isPoll = false) :
    ∀ p ∈ past, p.reportsExit = false := by
  have hc := h.of_suffix hsuffix
  rcases c with answer | answer | answer
  · simp [UnixCall.isPoll] at hsignal
  · exact fun p hp => (hc p hp).2
  · obtain ⟨grace, first, rfl, -, hgrace, hfirst⟩ := hc
    intro p hp
    rcases List.mem_append.mp hp with hp | hp
    · exact (hgrace p hp).2
    · rcases List.mem_cons.mp hp with rfl | hp
      · rfl
      · exact (hfirst p hp).2

end SysprimsPty.Recovery
