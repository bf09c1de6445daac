import SysprimsPty.Recovery.UnixAttempt

/-!
# The bound on a recovery attempt on Unix

Every attempt returns, whatever the system answers. The measure counts the polls that are left: those
of the grace period, and for the loop one more than the sleeps of 10 ms that cover the time to the
deadline.

* `UnixAttempt.pollsLeft`, `UnixAttempt.rank` — the polls and the calls that are left.
* `UnixAttempt.Stage`, `AttemptSound` — the invariant: what has been called at each point, the slot,
  and a budget of polls.
* `UnixAttempt.step_advances` — the step lemma.
* `unix_attempt_bounded_exact` — every attempt ends, within the bound on its polls, with a result that
  says whether the slot is empty.
-/

namespace SysprimsPty.Recovery

open SysprimsPty.Core
open SysprimsPty.Found
open SysprimsPty.Process

variable {C : Type}

/-! ## The polls that are left -/

namespace UnixAttempt

/-- The polls that are left at each point, at most. -/
def pollsLeft (timeout : Duration) (s : UnixAttempt C) : ℕ :=
  match s.attempt.pc with
  | .firstPoll => maxPolls timeout
  | .kill =>
      match s.world.pc with
      | .idle => gracePolls + (naps (min timeout attemptCap) + 1)
      | .grace k => gracePolls - k + (naps (min timeout attemptCap) + 1)
      | .sleeping k => gracePolls - k + (naps (min timeout attemptCap) + 1)
      | .escalating => naps (min timeout attemptCap) + 1
  | .deadline => naps (min timeout attemptCap) + 1
  | .poll d => naps (d - s.clock) + 1
  | .guard d => naps (d - s.clock)
  | .sleep d => naps (d - (s.clock + pause)) + 1
  | .returned _ => 0

/-- The calls before the next poll, at most. -/
def phase (s : UnixAttempt C) : ℕ :=
  match s.attempt.pc with
  | .firstPoll => 0
  | .kill =>
      match s.world.pc with
      | .idle => 2
      | .grace _ => 1
      | .sleeping _ => 2
      | .escalating => 2
  | .deadline => 1
  | .poll _ => 0
  | .guard _ => 2
  | .sleep _ => 1
  | .returned _ => 0

/-- The calls that are left, at most. -/
def rank (timeout : Duration) (s : UnixAttempt C) : ℕ := 3 * s.pollsLeft timeout + s.phase

/-- What has been called when the attempt is at a point. -/
def Stage (s : UnixAttempt C) : Prop :=
  match s.attempt.pc with
  | .firstPoll => s.calls = []
  | .kill =>
      match s.world.pc with
      | .idle => ∀ c ∈ s.calls, c.Unseen
      | .grace k => k < gracePolls ∧ HungUp k s.calls
      | .sleeping k => k < gracePolls ∧ HungUp k s.calls
      | .escalating => HungUp gracePolls s.calls
  | _ => True

end UnixAttempt

/-- The slot of the attempt, the slot that it was called on and the calls made so far. -/
structure SlotSound (slot : Option C) (a : Attempt C) (calls : List UnixCall) : Prop where
  holds : a.pc.Holds a.child
  kept : a.child.isSome → a.child = slot
  emptied : a.child = none → slot ≠ none → ∃ status past, calls = .poll (.ok (some status)) :: past

/-- The invariant of an attempt. -/
structure AttemptSound (timeout : Duration) (slot : Option C) (s : UnixAttempt C) : Prop where
  idle : s.attempt.pc ≠ .kill → s.world.pc = .idle
  slot : SlotSound slot s.attempt s.calls
  stage : s.Stage
  orderly : Orderly s.calls
  budget : s.polls + s.pollsLeft timeout ≤ maxPolls timeout

/-- A step of the attempt keeps the slot sound. -/
theorem SlotSound.step {timeout : Duration} {slot : Option C} {a b : Attempt C}
    {calls calls' : List UnixCall} {e : AttemptEvent} (h : SlotSound slot a calls)
    (hab : attemptStep timeout a e = some b)
    (hexit : e.reportsExit = true → ∃ status past, calls' = .poll (.ok (some status)) :: past) :
    SlotSound slot b calls' := by
  have hholds := attemptStep_holds h.holds hab
  rcases attemptStep_cases hab with ⟨hchild, -, hpc⟩ | ⟨hchild, hreports, -⟩
  · have hsome : b.child.isSome := (AttemptPc.holds_iff_of_ne hpc).mp hholds
    refine ⟨hholds, fun hb => ?_, fun hb => ?_⟩
    · rw [hchild] at hb ⊢
      exact h.kept hb
    · simp [hb] at hsome
  · refine ⟨hholds, fun hb => ?_, fun _ _ => hexit hreports⟩
    simp [hchild] at hb

/-- A step that is no poll that reported the exit keeps the slot sound, whatever was called. -/
theorem SlotSound.quiet {timeout : Duration} {slot : Option C} {a b : Attempt C}
    {calls calls' : List UnixCall} {e : AttemptEvent} (h : SlotSound slot a calls)
    (hab : attemptStep timeout a e = some b) (hquiet : e.reportsExit = false) :
    SlotSound slot b calls' := by
  apply h.step hab
  intro hexit
  rw [hquiet] at hexit
  cases hexit

/-- Calls in the kill that are no step of the attempt keep the slot sound. -/
theorem SlotSound.stay {slot : Option C} {a : Attempt C} {calls calls' : List UnixCall}
    (h : SlotSound slot a calls) (hkill : a.pc = .kill) : SlotSound slot a calls' := by
  have hrun : a.pc ≠ .returned (.ok true) := by simp [hkill]
  have hsome : a.child.isSome := (AttemptPc.holds_iff_of_ne hrun).mp h.holds
  refine ⟨h.holds, h.kept, fun hnone => ?_⟩
  simp [hnone] at hsome

/-! ## One step -/

/-- A poll of the handle does not touch a `kill` in progress. -/
theorem stdTryWait_pc (w : World) (fails : Option IoError) : (w.stdTryWait fails).1.pc = w.pc := by
  unfold World.stdTryWait
  split <;> rfl

namespace UnixAttempt

variable {timeout : Duration} {slot : Option C} {s : UnixAttempt C}

/-- An exit does not touch a `kill` in progress. -/
theorem elapse_pc (s : UnixAttempt C) (os : OsMoment) : (s.elapse os).world.pc = s.world.pc := by
  unfold elapse
  rcases os.exits with _ | status
  · rfl
  · simp only [Option.bind_some, World.step]
    split <;> rfl

/-- Time only shortens what is left. -/
theorem pollsLeft_elapse (s : UnixAttempt C) (os : OsMoment) :
    (s.elapse os).pollsLeft timeout ≤ s.pollsLeft timeout := by
  have hclock : s.clock ≤ (s.elapse os).clock := Nat.le_add_right _ _
  unfold pollsLeft
  rw [elapse_pc]
  simp only [elapse] at hclock ⊢
  split
  case h_4 => exact Nat.add_le_add_right (naps_mono (Nat.sub_le_sub_left hclock _)) 1
  case h_5 => exact naps_mono (Nat.sub_le_sub_left hclock _)
  case h_6 => exact Nat.add_le_add_right (naps_mono (by omega)) 1
  all_goals exact Nat.le_refl _

/-- What happens before a call keeps the invariant and the rank. -/
theorem elapse_sound (h : AttemptSound timeout slot s) (os : OsMoment) :
    AttemptSound timeout slot (s.elapse os) ∧ (s.elapse os).rank timeout ≤ s.rank timeout := by
  have hleft := @pollsLeft_elapse _ timeout s os
  have hphase : (s.elapse os).phase = s.phase := by
    unfold phase
    rw [elapse_pc]
    rfl
  refine ⟨⟨?_, h.slot, ?_, h.orderly, ?_⟩, ?_⟩
  · rw [elapse_pc]
    exact h.idle
  · have hstage := h.stage
    unfold Stage at hstage ⊢
    rw [elapse_pc]
    exact hstage
  · exact Nat.le_trans (Nat.add_le_add_left hleft _) h.budget
  · unfold rank
    omega

/-- `t` follows `s`: the invariant holds, and fewer calls are left. -/
def Advances (timeout : Duration) (slot : Option C) (s t : UnixAttempt C) : Prop :=
  AttemptSound timeout slot t ∧ t.rank timeout < s.rank timeout

/-- The return of the attempt. -/
theorem advances_returned {t : UnixAttempt C} {result : IoResult Bool}
    (hpc : t.attempt.pc = .returned result) (hidle : t.world.pc = .idle)
    (hslot : SlotSound slot t.attempt t.calls) (horderly : Orderly t.calls)
    (hpolls : t.polls ≤ maxPolls timeout) (hrank : 0 < s.rank timeout) :
    Advances timeout slot s t := by
  refine ⟨⟨fun _ => hidle, hslot, ?_, horderly, ?_⟩, ?_⟩
  · simp [Stage, hpc]
  · simpa [pollsLeft, hpc] using hpolls
  · simpa [rank, pollsLeft, phase, hpc] using hrank

/-- One more poll. -/
theorem polls_cons (a : Attempt C) (w : World) (clock : Instant) (answer : IoResult (Option ExitStatus))
    (calls : List UnixCall) :
    polls { attempt := a, world := w, clock, calls := .poll answer :: calls } =
      calls.countP UnixCall.isPoll + 1 :=
  List.countP_cons_of_pos rfl

/-- A signal is no poll. -/
theorem polls_signal (a : Attempt C) (w : World) (clock : Instant) (calls : List UnixCall)
    (c : UnixCall) (hc : c.isPoll = false) :
    polls { attempt := a, world := w, clock, calls := c :: calls } =
      calls.countP UnixCall.isPoll :=
  List.countP_cons_of_neg (by simp [hc])

/-- A poll of the attempt returns with an error or with the exit; `hrunning` is about the state it
leads to when the child runs. -/
theorem poll_advances {pc next : AttemptPc} {child : Option C} {world : World} {clock : Instant}
    {calls : List UnixCall} (h : AttemptSound timeout slot ⟨⟨pc, child⟩, world, clock, calls⟩)
    (hidle : world.pc = .idle) (hpolls : calls.countP UnixCall.isPoll + 1 ≤ maxPolls timeout)
    (hrank : 0 < rank timeout ⟨⟨pc, child⟩, world, clock, calls⟩)
    (herror : ∀ e, attemptStep timeout ⟨pc, child⟩ (.tryWait (.error e)) =
      some ⟨.returned (.error e), child⟩)
    (hexit : ∀ status, attemptStep timeout ⟨pc, child⟩ (.tryWait (.ok (some status))) =
      some ⟨.returned (.ok true), none⟩)
    (hnone : attemptStep timeout ⟨pc, child⟩ (.tryWait (.ok none)) = some ⟨next, child⟩)
    (hrunning : ∀ w : World, w.pc = .idle →
      SlotSound slot ⟨next, child⟩ (.poll (.ok none) :: calls) →
      Advances timeout slot ⟨⟨pc, child⟩, world, clock, calls⟩
        ⟨⟨next, child⟩, w, clock, .poll (.ok none) :: calls⟩) (os : OsMoment) :
    ∃ t, poll ⟨⟨pc, child⟩, world, clock, calls⟩ timeout os = some t ∧
      Advances timeout slot ⟨⟨pc, child⟩, world, clock, calls⟩ t := by
  have hworld := (stdTryWait_pc world os.waitFails).trans hidle
  have hpoll : poll ⟨⟨pc, child⟩, world, clock, calls⟩ timeout os =
      andThen ⟨⟨pc, child⟩, (world.stdTryWait os.waitFails).1, clock,
        .poll (world.stdTryWait os.waitFails).2 :: calls⟩ timeout
        (.tryWait (world.stdTryWait os.waitFails).2) := by
    simp [poll, World.step, hidle]
  rw [hpoll]
  unfold andThen
  rcases (world.stdTryWait os.waitFails).2 with e | _ | status
  · have hslot : SlotSound slot ⟨.returned (.error e), child⟩ (.poll (.error e) :: calls) :=
      h.slot.quiet (herror e) rfl
    refine ⟨_, congrArg (Option.map _) (herror e), ?_⟩
    refine advances_returned rfl hworld hslot ⟨trivial, h.orderly⟩ ?_ hrank
    rw [polls_cons]
    exact hpolls
  · refine ⟨_, congrArg (Option.map _) hnone, ?_⟩
    exact hrunning _ hworld (h.slot.quiet hnone rfl)
  · have hslot : SlotSound slot ⟨.returned (.ok true), none⟩ (.poll (.ok (some status)) :: calls) :=
      h.slot.step (hexit status) fun _ => ⟨status, calls, rfl⟩
    refine ⟨_, congrArg (Option.map _) (hexit status), ?_⟩
    refine advances_returned rfl hworld hslot ⟨trivial, h.orderly⟩ ?_ hrank
    rw [polls_cons]
    exact hpolls

/-- The first poll. -/
theorem firstPoll_advances (h : AttemptSound timeout slot s) (hpc : s.attempt.pc = .firstPoll)
    (os : OsMoment) : ∃ t, s.poll timeout os = some t ∧ Advances timeout slot s t := by
  obtain ⟨⟨pc, child⟩, world, clock, calls⟩ := s
  obtain rfl : pc = .firstPoll := hpc
  have hidle : world.pc = .idle := h.idle nofun
  obtain rfl : calls = [] := h.stage
  apply poll_advances h hidle ?_ ?_ (fun _ => rfl) (fun _ => rfl) rfl ?_ os
  · rw [List.countP_nil]
    unfold maxPolls
    omega
  · simp only [rank, pollsLeft, maxPolls]
    omega
  · -- a running child leads to the kill, with the grace polls and those of the loop left
    intro w hw hslot
    refine ⟨⟨fun hne => absurd rfl hne, hslot, ?_, ⟨trivial, trivial⟩, ?_⟩, ?_⟩
    · simp [Stage, hw, UnixCall.Unseen, UnixCall.isPoll, UnixCall.reportsExit]
    · simp only [polls_cons, pollsLeft, hw, maxPolls, List.countP_nil]
      omega
    · simp only [rank, pollsLeft, phase, hw, maxPolls]
      omega

/-- A poll of the loop. -/
theorem loopPoll_advances (h : AttemptSound timeout slot s) {d : Instant}
    (hpc : s.attempt.pc = .poll d) (os : OsMoment) :
    ∃ t, s.poll timeout os = some t ∧ Advances timeout slot s t := by
  obtain ⟨⟨pc, child⟩, world, clock, calls⟩ := s
  obtain rfl : pc = .poll d := hpc
  have hidle : world.pc = .idle := h.idle nofun
  have hbudget : calls.countP UnixCall.isPoll + (naps (d - clock) + 1) ≤ maxPolls timeout := h.budget
  apply poll_advances h hidle ?_ ?_ (fun _ => rfl) (fun _ => rfl) rfl ?_ os
  · omega
  · simp only [rank, pollsLeft]
    omega
  · -- a running child leads to the guard, with the sleeps to the deadline left
    intro w hw hslot
    refine ⟨⟨fun _ => hw, hslot, trivial, ⟨trivial, h.orderly⟩, ?_⟩, ?_⟩
    · simp only [polls_cons, pollsLeft]
      omega
    · simp only [rank, pollsLeft, phase]
      omega

/-- The `SIGHUP`. -/
theorem hangUp_advances (h : AttemptSound timeout slot s) (hpc : s.attempt.pc = .kill)
    (hidle : s.world.pc = .idle) (os : OsMoment) :
    ∃ t, s.hangUp timeout os = some t ∧ Advances timeout slot s t := by
  obtain ⟨⟨pc, child⟩, world, clock, calls⟩ := s
  obtain rfl : pc = .kill := hpc
  have hidle : world.pc = .idle := hidle
  have hseen : ∀ c ∈ calls, c.Unseen := by
    have hstage := h.stage
    simpa only [Stage, hidle] using hstage
  have hbudget : calls.countP UnixCall.isPoll + (gracePolls + (naps (min timeout attemptCap) + 1)) ≤
      maxPolls timeout := by
    have hbudget := h.budget
    simpa only [polls, pollsLeft, hidle] using hbudget
  rcases hanswer : os.sighup with e | _
  · have hcall : hangUp ⟨⟨.kill, child⟩, world, clock, calls⟩ timeout os =
        andThen ⟨⟨.kill, child⟩, world.send .sighup, clock, .sighup (.error e) :: calls⟩ timeout
          (.kill (.error e)) := by
      simp [hangUp, World.step, hidle, hanswer]
    have hslot := @SlotSound.quiet _ timeout _ _ _ _ (.sighup (.error e) :: calls) (.kill (.error e))
      h.slot rfl rfl
    rw [hcall]
    refine ⟨_, rfl, advances_returned rfl hidle hslot ⟨hseen, h.orderly⟩ ?_ ?_⟩
    · rw [polls_signal _ _ _ _ _ rfl]
      omega
    · simp only [rank, pollsLeft, phase, hidle]
      omega
  · have hcall : hangUp ⟨⟨.kill, child⟩, world, clock, calls⟩ timeout os =
        some ⟨⟨.kill, child⟩, { world.send .sighup with pc := .grace 0 }, clock,
          .sighup (.ok ()) :: calls⟩ := by
      simp [hangUp, World.step, hidle, hanswer]
    rw [hcall]
    have hgrace : 0 < gracePolls := by decide
    refine ⟨_, rfl, ⟨fun hne => absurd rfl hne, h.slot.stay rfl, ?_, ⟨hseen, h.orderly⟩, ?_⟩, ?_⟩
    · exact ⟨hgrace, [], calls, rfl, rfl, by simp, hseen⟩
    · simp only [polls_signal _ _ _ _ (.sighup (.ok ())) rfl, pollsLeft]
      omega
    · simp only [rank, pollsLeft, phase, hidle]
      omega

/-- A grace poll that sees no exit. -/
theorem gracePoll_unseen {child : Option C} {world world' : World} {clock : Instant}
    {calls : List UnixCall} {k : ℕ} {answer : IoResult (Option ExitStatus)}
    (h : AttemptSound timeout slot ⟨⟨.kill, child⟩, world, clock, calls⟩)
    (hgrace : world.pc = .grace k)
    (hworld : world'.pc = if k + 1 < gracePolls then .sleeping (k + 1) else .escalating)
    (hanswer : (UnixCall.poll answer).Unseen) :
    Advances timeout slot ⟨⟨.kill, child⟩, world, clock, calls⟩
      ⟨⟨.kill, child⟩, world', clock, .poll answer :: calls⟩ := by
  have hstage := h.stage
  have hbudget := h.budget
  simp only [Stage, hgrace] at hstage
  simp only [polls, pollsLeft, hgrace] at hbudget
  obtain ⟨hk, hhung⟩ := hstage
  have hhung' := hhung.poll hanswer
  split_ifs at hworld with hlast
  · refine ⟨⟨fun hne => absurd rfl hne, h.slot.stay rfl, ?_, ⟨trivial, h.orderly⟩, ?_⟩, ?_⟩
    · simp only [Stage, hworld]
      exact ⟨hlast, hhung'⟩
    · simp only [polls_cons, pollsLeft, hworld]
      omega
    · simp only [rank, pollsLeft, phase, hgrace, hworld]
      omega
  · have hfive : k + 1 = gracePolls := by omega
    refine ⟨⟨fun hne => absurd rfl hne, h.slot.stay rfl, ?_, ⟨trivial, h.orderly⟩, ?_⟩, ?_⟩
    · simp only [Stage, hworld]
      rwa [hfive] at hhung'
    · simp only [polls_cons, pollsLeft, hworld]
      omega
    · simp only [rank, pollsLeft, phase, hgrace, hworld]
      omega

/-- A grace poll. -/
theorem gracePoll_advances (h : AttemptSound timeout slot s) (hpc : s.attempt.pc = .kill) {k : ℕ}
    (hgrace : s.world.pc = .grace k) (os : OsMoment) :
    ∃ t, s.gracePoll timeout os = some t ∧ Advances timeout slot s t := by
  obtain ⟨⟨pc, child⟩, world, clock, calls⟩ := s
  obtain rfl : pc = .kill := hpc
  have hgrace : world.pc = .grace k := hgrace
  rcases hpoll : world.stdTryWait os.waitFails with ⟨world', e | _ | status⟩
  · refine ⟨_, by simp [gracePoll, World.step, hgrace, hpoll]; rfl, ?_⟩
    exact gracePoll_unseen h hgrace rfl ⟨rfl, rfl⟩
  · refine ⟨_, by simp [gracePoll, World.step, hgrace, hpoll]; rfl, ?_⟩
    exact gracePoll_unseen h hgrace rfl ⟨rfl, rfl⟩
  · -- the kill returns, and the attempt goes on to its loop
    have hcall : gracePoll ⟨⟨.kill, child⟩, world, clock, calls⟩ timeout os =
        some ⟨⟨.deadline, child⟩, { world' with pc := .idle }, clock,
          .poll (.ok (some status)) :: calls⟩ := by
      simp [gracePoll, World.step, hgrace, hpoll, andThen, attemptStep]
    have hslot := @SlotSound.quiet _ timeout _ _ _ _ (.poll (.ok (some status)) :: calls)
      (.kill (.ok ())) h.slot rfl rfl
    have hstage := h.stage
    have hbudget := h.budget
    simp only [Stage, hgrace] at hstage
    simp only [polls, pollsLeft, hgrace] at hbudget
    refine ⟨_, hcall, ⟨fun _ => rfl, hslot, trivial, ⟨trivial, h.orderly⟩, ?_⟩, ?_⟩
    · simp only [polls_cons, pollsLeft]
      omega
    · simp only [rank, pollsLeft, phase, hgrace]
      omega

/-- A sleep in the grace period. -/
theorem graceSleep_advances (h : AttemptSound timeout slot s) (hpc : s.attempt.pc = .kill) {k : ℕ}
    (hsleeping : s.world.pc = .sleeping k) :
    ∃ t, s.graceSleep = some t ∧ Advances timeout slot s t := by
  obtain ⟨⟨pc, child⟩, world, clock, calls⟩ := s
  obtain rfl : pc = .kill := hpc
  have hsleeping : world.pc = .sleeping k := hsleeping
  have hcall : graceSleep ⟨⟨.kill, child⟩, world, clock, calls⟩ =
      some ⟨⟨.kill, child⟩, { world with pc := .grace k }, clock + gracePause, calls⟩ := by
    simp [graceSleep, World.step, hsleeping]
  have hstage := h.stage
  have hbudget := h.budget
  simp only [Stage, hsleeping] at hstage
  simp only [polls, pollsLeft, hsleeping] at hbudget
  refine ⟨_, hcall, ⟨fun hne => absurd rfl hne, h.slot.stay rfl, hstage, h.orderly, hbudget⟩, ?_⟩
  simp only [rank, pollsLeft, phase, hsleeping]
  omega

/-- The `SIGKILL`, unless a status has been seen. -/
theorem escalate_advances (h : AttemptSound timeout slot s) (hpc : s.attempt.pc = .kill)
    (hescalating : s.world.pc = .escalating) (os : OsMoment) :
    ∃ t, s.escalate timeout os = some t ∧ Advances timeout slot s t := by
  obtain ⟨⟨pc, child⟩, world, clock, calls⟩ := s
  obtain rfl : pc = .kill := hpc
  have hescalating : world.pc = .escalating := hescalating
  have hstage := h.stage
  have hbudget := h.budget
  simp only [Stage, hescalating] at hstage
  simp only [polls, pollsLeft, hescalating] at hbudget
  have hrank : 0 < rank timeout ⟨⟨.kill, child⟩, world, clock, calls⟩ := by
    simp only [rank, pollsLeft, hescalating]
    omega
  rcases hstatus : world.status with _ | status
  · have hcall : escalate ⟨⟨.kill, child⟩, world, clock, calls⟩ timeout os =
        andThen ⟨⟨.kill, child⟩, { world.send .sigkill with pc := .idle }, clock,
          .sigkill os.sigkill :: calls⟩ timeout (.kill os.sigkill) := by
      simp [escalate, World.step, hescalating, World.stdKill, hstatus]
    rw [hcall]
    rcases os.sigkill with e | _
    · have hslot := @SlotSound.quiet _ timeout _ _ _ _ (.sigkill (.error e) :: calls)
        (.kill (.error e)) h.slot rfl rfl
      refine ⟨_, rfl, advances_returned rfl rfl hslot ⟨hstage, h.orderly⟩ ?_ hrank⟩
      rw [polls_signal _ _ _ _ _ rfl]
      omega
    · have hslot := @SlotSound.quiet _ timeout _ _ _ _ (.sigkill (.ok ()) :: calls)
        (.kill (.ok ())) h.slot rfl rfl
      refine ⟨_, rfl, ⟨fun _ => rfl, hslot, trivial, ⟨hstage, h.orderly⟩, ?_⟩, ?_⟩
      · simp only [polls_signal _ _ _ _ (.sigkill (.ok ())) rfl, pollsLeft]
        exact hbudget
      · simp only [rank, pollsLeft, phase, hescalating]
        omega
  · have hcall : escalate ⟨⟨.kill, child⟩, world, clock, calls⟩ timeout os =
        some ⟨⟨.deadline, child⟩, { world with pc := .idle }, clock, calls⟩ := by
      simp [escalate, World.step, hescalating, World.stdKill, hstatus, andThen, attemptStep]
    have hslot := @SlotSound.quiet _ timeout _ _ _ _ calls (.kill (.ok ())) h.slot rfl rfl
    refine ⟨_, hcall, ⟨fun _ => rfl, hslot, trivial, h.orderly, hbudget⟩, ?_⟩
    simp only [rank, pollsLeft, phase, hescalating]
    omega

/-- Reading the clock for the deadline. -/
theorem deadline_advances (h : AttemptSound timeout slot s) (hpc : s.attempt.pc = .deadline) :
    ∃ t, s.andThen timeout (.now s.clock) = some t ∧ Advances timeout slot s t := by
  obtain ⟨⟨pc, child⟩, world, clock, calls⟩ := s
  obtain rfl : pc = .deadline := hpc
  have hidle : world.pc = .idle := h.idle nofun
  have hslot := @SlotSound.quiet _ timeout _ _ _ _ calls (.now clock) h.slot rfl rfl
  have hleft : clock + min timeout attemptCap - clock = min timeout attemptCap :=
    Nat.add_sub_cancel_left _ _
  refine ⟨_, rfl, ⟨fun _ => hidle, hslot, trivial, h.orderly, ?_⟩, ?_⟩
  · have hbudget := h.budget
    simp only [polls, pollsLeft] at hbudget ⊢
    rwa [hleft]
  · simp only [rank, pollsLeft, phase]
    rw [hleft]
    omega

/-- Reading the clock at the end of a round of the loop. -/
theorem guard_advances (h : AttemptSound timeout slot s) {d : Instant}
    (hpc : s.attempt.pc = .guard d) :
    ∃ t, s.andThen timeout (.now s.clock) = some t ∧ Advances timeout slot s t := by
  obtain ⟨⟨pc, child⟩, world, clock, calls⟩ := s
  obtain rfl : pc = .guard d := hpc
  have hidle : world.pc = .idle := h.idle nofun
  have hslot := @SlotSound.quiet _ timeout _ _ _ _ calls (.now clock) h.slot rfl rfl
  have hbudget : calls.countP UnixCall.isPoll + naps (d - clock) ≤ maxPolls timeout := h.budget
  refine ⟨_, rfl, ?_⟩
  by_cases hlate : clock < d
  · have hnap : naps (d - clock) = naps (d - (clock + pause)) + 1 := by
      rw [naps_pos (Nat.sub_pos_of_lt hlate), Nat.sub_sub]
    rw [if_pos hlate] at hslot ⊢
    refine ⟨⟨fun _ => hidle, hslot, trivial, h.orderly, ?_⟩, ?_⟩
    · rw [hnap] at hbudget
      exact hbudget
    · simp only [rank, pollsLeft, phase]
      omega
  · rw [if_neg hlate] at hslot ⊢
    refine advances_returned rfl hidle hslot h.orderly ?_ ?_
    · simp only [polls]
      omega
    · simp only [rank, phase]
      omega

/-- A sleep of the loop. -/
theorem sleep_advances (h : AttemptSound timeout slot s) {d : Instant}
    (hpc : s.attempt.pc = .sleep d) :
    ∃ t, andThen { s with clock := s.clock + pause } timeout .slept = some t ∧
      Advances timeout slot s t := by
  obtain ⟨⟨pc, child⟩, world, clock, calls⟩ := s
  obtain rfl : pc = .sleep d := hpc
  have hidle : world.pc = .idle := h.idle nofun
  have hslot := @SlotSound.quiet _ timeout _ _ _ _ calls .slept h.slot rfl rfl
  refine ⟨_, rfl, ⟨fun _ => hidle, hslot, trivial, h.orderly, h.budget⟩, ?_⟩
  simp only [rank, pollsLeft, phase]
  omega

/-- **The step lemma**: until the attempt returns, the next call can be made whatever the system
answers, and leaves fewer calls. -/
theorem step_advances (h : AttemptSound timeout slot s) (hrun : ¬ ∃ r, s.attempt.pc = .returned r)
    (os : OsMoment) : ∃ t, s.step timeout os = some t ∧ AttemptSound timeout slot t ∧
      t.rank timeout < s.rank timeout := by
  obtain ⟨he, hrank⟩ := elapse_sound h os
  have hadvances : ∃ t, (s.elapse os).call timeout os = some t ∧
      Advances timeout slot (s.elapse os) t := by
    unfold call
    rcases hpc : (s.elapse os).attempt.pc with _ | _ | _ | d | d | d | r
    · exact firstPoll_advances he hpc os
    · rcases hkill : (s.elapse os).world.pc with _ | k | k | _
      · exact hangUp_advances he hpc hkill os
      · exact gracePoll_advances he hpc hkill os
      · exact graceSleep_advances he hpc hkill
      · exact escalate_advances he hpc hkill os
    · exact deadline_advances he hpc
    · exact loopPoll_advances he hpc os
    · exact guard_advances he hpc
    · exact sleep_advances he hpc
    · exact absurd ⟨r, hpc⟩ hrun
  obtain ⟨t, ht, hsound, hlt⟩ := hadvances
  exact ⟨t, ht, hsound, Nat.lt_of_lt_of_le hlt hrank⟩

end UnixAttempt

/-! ## Whole attempts -/

/-- An attempt that has just been called. -/
theorem AttemptSound.enter (timeout : Duration) (slot : Option C) (world : World) (clock : Instant) :
    AttemptSound timeout slot (.enter slot world clock) := by
  rcases slot with _ | c
  · refine ⟨fun _ => rfl, ⟨rfl, nofun, fun _ hne => absurd rfl hne⟩, trivial, trivial, ?_⟩
    exact Nat.zero_le _
  · refine ⟨fun _ => rfl, ⟨rfl, fun _ => rfl, nofun⟩, rfl, trivial, ?_⟩
    exact Nat.le_of_eq (Nat.zero_add _)

/-- What the invariant says at the return. -/
theorem AttemptSound.boundedExact {timeout : Duration} {slot : Option C} {s : UnixAttempt C}
    (h : AttemptSound timeout slot s) {result : IoResult Bool}
    (hreturned : s.attempt.pc = .returned result) : BoundedExact timeout slot s result := by
  have hholds := h.slot.holds
  rw [hreturned] at hholds
  have hkept : result ≠ .ok true → s.attempt.child.isSome := by
    intro hne
    rwa [AttemptPc.holds_iff_of_ne (by simpa using hne)] at hholds
  refine ⟨?_, ⟨?_, ?_⟩, h.slot.emptied, ?_, h.orderly.signals_le.1, h.orderly.signals_le.2, ?_, ?_⟩
  · exact Nat.le_trans (Nat.le_add_right _ _) h.budget
  · rintro rfl
    exact hholds
  · intro hnone
    by_contra hne
    have hsome := hkept hne
    simp [hnone] at hsome
  · intro hne
    have hsome := hkept hne
    have hslot := h.slot.kept hsome
    refine ⟨hslot, ?_⟩
    rw [← hslot]
    exact Option.isSome_iff_ne_none.mp hsome
  · exact fun answer past hsuffix => h.orderly.of_suffix hsuffix
  · exact fun c past hsuffix hsignal => h.orderly.no_exit_before hsuffix hsignal

/-- **One attempt is bounded and exact.** For every slot, every state of the child in it, every
timeout and every stream of answers of the system, the attempt returns, and then: it has made no more
polls than the bound; it returned `Ok(true)` exactly if the slot is empty, which only a poll that
reported the exit has emptied; every other result leaves the same child in the slot; and it sent at
most one `SIGHUP` and one `SIGKILL`, the latter only after the `SIGHUP` was delivered and all grace
polls saw no exit, and neither after a poll reported the exit.
Source: `lib.rs` `attempt_failed_child_recovery`, `ChildKiller for std::process::Child` -/
theorem unix_attempt_bounded_exact (timeout : Duration) (slot : Option C) (world : World)
    (clock : Instant) (os : ℕ → OsMoment) :
    ∃ n s result,
      exec (UnixAttempt.step timeout) (.enter slot world clock) ((List.range n).map os) = some s ∧
      s.attempt.pc = .returned result ∧ BoundedExact timeout slot s result := by
  obtain ⟨n, -, s, hrun, hsound, result, hreturned⟩ :=
    exec_reaches (fun _ os hs hrun => UnixAttempt.step_advances hs hrun os)
      (AttemptSound.enter timeout slot world clock) os
  exact ⟨n, s, result, hrun, hreturned, hsound.boundedExact hreturned⟩

end SysprimsPty.Recovery
