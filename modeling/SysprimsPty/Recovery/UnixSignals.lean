import SysprimsPty.Recovery.UnixAttempt

/-!
# The signals of a recovery attempt on Unix

An attempt polls before it kills, and its kill polls before it escalates, so that no signal of an
attempt comes after the reap of the child.

* `HitsChild` — the invariant: the child is unreaped when the attempt comes to the `SIGHUP`.
* `unix_attempt_hits_child` — every signal of an attempt reaches the unreaped child.
-/

namespace SysprimsPty.Recovery

open SysprimsPty.Core
open SysprimsPty.Found
open SysprimsPty.Process

variable {C : Type}

/-- All signals so far reached the unreaped child, and before the `SIGHUP` it is still unreaped. -/
structure HitsChild (s : UnixAttempt C) : Prop where
  held : PidHeld s.world
  hits : SignalsHitChild s.world
  unreaped : s.attempt.pc = .kill → s.world.pc = .idle → s.world.status = none

/-- A poll that finds the child running has not reaped it. -/
theorem status_of_running {w : World} {fails : Option IoError}
    (h : (w.stdTryWait fails).2 = .ok none) : (w.stdTryWait fails).1.status = none := by
  rcases hstatus : w.status with _ | status
  · unfold World.stdTryWait at h ⊢
    rcases fails with _ | e
    · rcases hprocess : w.process with _ | status | _
      · simp [hstatus]
      · simp [hstatus, hprocess] at h
      · simp [hstatus]
    · simp [hstatus] at h
  · simp [World.stdTryWait, hstatus] at h

/-- The attempt comes to its kill from a poll that finds the child running. -/
theorem eq_tryWait_of_kill {timeout : Duration} {a b : Attempt C} {e : AttemptEvent}
    (h : attemptStep timeout a e = some b) (hb : b.pc = .kill) : e = .tryWait (.ok none) := by
  unfold attemptStep at h
  split at h
  · split at h <;> cases h <;> first | rfl | cases hb
  · split at h <;> cases h <;> cases hb
  · split at h <;> cases h
    · cases hb
    · dsimp only at hb
      split_ifs at hb
  · split at h <;> cases h
    cases hb

namespace UnixAttempt

variable {timeout : Duration} {s t : UnixAttempt C}

/-- A step of the handle that is no late kill, and a step of the attempt after it. -/
theorem hitsChild_andThen (h : HitsChild s) {world : World} {clock : Instant} {calls : List UnixCall}
    {w : UnixEvent} {e : AttemptEvent} (hworld : s.world.step w = some world)
    (htime : CallsKillInTime s.world w)
    (ht : andThen { s with world, clock, calls } timeout e = some t)
    (hrunning : e = .tryWait (.ok none) → world.status = none) : HitsChild t := by
  unfold andThen at ht
  obtain ⟨a, ha, rfl⟩ := Option.map_eq_some_iff.mp ht
  obtain ⟨hheld, hiff⟩ := signals_step h.held hworld
  exact ⟨hheld, hiff.mpr ⟨h.hits, htime⟩, fun hkill _ => hrunning (eq_tryWait_of_kill ha hkill)⟩

/-- A step of the handle in the middle of its kill. -/
theorem hitsChild_world (h : HitsChild s) {world : World} {clock : Instant} {calls : List UnixCall}
    {w : UnixEvent} (hworld : s.world.step w = some world) (htime : CallsKillInTime s.world w)
    (hbusy : world.pc ≠ .idle) : HitsChild { s with world, clock, calls } := by
  obtain ⟨hheld, hiff⟩ := signals_step h.held hworld
  exact ⟨hheld, hiff.mpr ⟨h.hits, htime⟩, fun _ hidle => absurd hidle hbusy⟩

/-- A step of the attempt alone. -/
theorem hitsChild_attempt (h : HitsChild s) {clock : Instant} {e : AttemptEvent}
    (ht : andThen { s with clock } timeout e = some t) (hquiet : e ≠ .tryWait (.ok none)) :
    HitsChild t := by
  unfold andThen at ht
  obtain ⟨a, ha, rfl⟩ := Option.map_eq_some_iff.mp ht
  exact ⟨h.held, h.hits, fun hkill _ => absurd (eq_tryWait_of_kill ha hkill) hquiet⟩

/-- A call keeps the signals on the child. -/
theorem hitsChild_call (h : HitsChild s) {os : OsMoment} (ht : s.call timeout os = some t) :
    HitsChild t := by
  unfold call at ht
  split at ht
  case h_1 | h_4 =>
    unfold poll at ht
    obtain ⟨w, hw, ht⟩ := Option.bind_eq_some_iff.mp ht
    refine hitsChild_andThen h hw (callsKillInTime_of_quiet rfl) ht fun hanswer => ?_
    have hrunning := status_of_running (AttemptEvent.tryWait.inj hanswer)
    simp only [World.step] at hw
    split_ifs at hw
    rwa [← Option.some.inj hw]
  case h_2 hpc =>
    split at ht
    · next hidle =>
      unfold hangUp at ht
      obtain ⟨w, hw, ht⟩ := Option.bind_eq_some_iff.mp ht
      -- the child was running at the first poll, and nothing has reaped it since
      have htime : CallsKillInTime s.world (.kill os.sighup) := fun _ => h.unreaped hpc hidle
      dsimp only at ht
      split at ht
      · next hdelivered =>
        obtain rfl := Option.some.inj ht
        refine hitsChild_world h hw htime ?_
        simp only [World.step, hidle, hdelivered, if_true, Option.some.injEq] at hw
        simp [← hw]
      · exact hitsChild_andThen h hw htime ht (by simp)
    · next k hgrace =>
      unfold gracePoll at ht
      obtain ⟨w, hw, ht⟩ := Option.bind_eq_some_iff.mp ht
      dsimp only at ht
      split at ht
      · exact hitsChild_andThen h hw (callsKillInTime_of_quiet rfl) ht (by simp)
      · obtain rfl := Option.some.inj ht
        refine hitsChild_world h hw (callsKillInTime_of_quiet rfl) ?_
        simp only [World.step, hgrace] at hw
        split at hw
        · simp [← Option.some.inj hw]
        · simp [← Option.some.inj hw]
    · next k hsleeping =>
      unfold graceSleep at ht
      obtain ⟨w, hw, rfl⟩ := Option.map_eq_some_iff.mp ht
      refine hitsChild_world h hw (callsKillInTime_of_quiet rfl) ?_
      simp only [World.step, hsleeping, Option.some.injEq] at hw
      simp [← hw]
    · unfold escalate at ht
      obtain ⟨w, hw, ht⟩ := Option.bind_eq_some_iff.mp ht
      split_ifs at ht
      · exact hitsChild_andThen h hw (callsKillInTime_of_quiet rfl) ht (by simp)
      · exact hitsChild_andThen h hw (callsKillInTime_of_quiet rfl) ht (by simp)
  case h_3 | h_5 | h_6 => exact hitsChild_attempt h ht (by simp)
  case h_7 => cases ht

/-- What happens before a call keeps the signals on the child. -/
theorem hitsChild_elapse (h : HitsChild s) (os : OsMoment) : HitsChild (s.elapse os) := by
  rcases hexit : os.exits.bind fun status => s.world.step (.exit status) with _ | w
  · unfold elapse
    rw [hexit]
    exact ⟨h.held, h.hits, h.unreaped⟩
  · obtain ⟨status, -, hw⟩ := Option.bind_eq_some_iff.mp hexit
    obtain ⟨hheld, hiff⟩ := signals_step h.held hw
    unfold elapse
    rw [hexit]
    refine ⟨hheld, hiff.mpr ⟨h.hits, callsKillInTime_of_quiet rfl⟩, fun hkill hidle => ?_⟩
    simp only [World.step] at hw
    split at hw
    · obtain rfl := Option.some.inj hw
      exact h.unreaped hkill hidle
    · cases hw

end UnixAttempt

/-- **The signals of an attempt reach the child.** If no signal strayed before the attempt, then none
strays in it: at every `SIGHUP` and `SIGKILL` the child is unreaped, and its pid denotes it. -/
theorem unix_attempt_hits_child {timeout : Duration} {slot : Option C} {world : World}
    {clock : Instant} (hheld : PidHeld world) (hhits : SignalsHitChild world) {os : List OsMoment}
    {s : UnixAttempt C}
    (h : exec (UnixAttempt.step timeout) (.enter slot world clock) os = some s) :
    SignalsHitChild s.world := by
  have hstart : HitsChild (UnixAttempt.enter slot world clock) := by
    refine ⟨hheld, hhits, fun hkill => ?_⟩
    rcases slot with _ | c <;> cases hkill
  have hend := exec_invariant
    (fun _ os _ hs ht => UnixAttempt.hitsChild_call (UnixAttempt.hitsChild_elapse hs os) ht) hstart h
  exact hend.hits

end SysprimsPty.Recovery
