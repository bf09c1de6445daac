import SysprimsPty.Recovery.UnixSystem

/-!
# The time of a recovery attempt on Unix

The sleeps of an attempt are those of the grace period, 50 ms each, and those of its loop, 10 ms each
and only before the deadline. A potential counts, at each point of the attempt, the latest instant at
which it can return if no time passes but in its sleeps.

* `UnixAttempt.endBy` — the potential, which only the time beside the sleeps raises.
* `unix_attempt_ends_by` — an attempt is over 200 ms for the grace period, its timeout and one sleep
  after its call, and the time that passes beside the sleeps.
* `response_in_window` — the response to a client whose worker is idle comes in the window of its
  `recv_timeout`, if no more than 40 ms pass beside the sleeps.
-/

namespace SysprimsPty.Recovery

open SysprimsPty.Core
open SysprimsPty.Found
open SysprimsPty.Process

variable {C : Type}

/-! ## The potential -/

namespace UnixAttempt

variable {timeout : Duration} {s t : UnixAttempt C}

/-- The latest instant of the return, if time passes only in the sleeps. -/
def endBy (timeout : Duration) (s : UnixAttempt C) : Instant :=
  match s.attempt.pc with
  | .firstPoll => s.clock + 4 * gracePause + min timeout attemptCap + pause
  | .kill =>
      match s.world.pc with
      | .idle => s.clock + 4 * gracePause + min timeout attemptCap + pause
      | .grace k => s.clock + (4 - k) * gracePause + min timeout attemptCap + pause
      | .sleeping k => s.clock + (5 - k) * gracePause + min timeout attemptCap + pause
      | .escalating => s.clock + min timeout attemptCap + pause
  | .deadline => s.clock + min timeout attemptCap + pause
  | .poll d => max s.clock (d + pause)
  | .guard d => max s.clock (d + pause)
  | .sleep d => max (s.clock + pause) (d + pause)
  | .returned _ => s.clock

/-- The attempt is over no earlier than now. -/
theorem clock_le_endBy (s : UnixAttempt C) : s.clock ≤ s.endBy timeout := by
  unfold endBy
  split
  case h_2 => split <;> (show (_ : ℕ) ≤ _; omega)
  all_goals (show (_ : ℕ) ≤ _; omega)

/-- Time that passes beside the sleeps moves the end by as much. -/
theorem endBy_elapse (s : UnixAttempt C) (os : OsMoment) :
    (s.elapse os).endBy timeout ≤ s.endBy timeout + os.elapsed := by
  have hclock : (s.elapse os).clock = s.clock + os.elapsed := rfl
  unfold endBy
  rw [hclock, elapse_pc]
  simp only [elapse]
  split
  case h_2 => split <;> (show (_ : ℕ) ≤ _; omega)
  all_goals (show (_ : ℕ) ≤ _; omega)

/-- A return does not move the end. -/
theorem endBy_returned {r : IoResult Bool} (hpc : t.attempt.pc = .returned r)
    (hclock : t.clock = s.clock) : t.endBy timeout ≤ s.endBy timeout := by
  have hnow : t.endBy timeout = t.clock := by
    unfold endBy
    rw [hpc]
  rw [hnow, hclock]
  exact s.clock_le_endBy

variable {child : Option C} {world : World} {clock : Instant} {calls : List UnixCall} {os : OsMoment}

/-- A poll of the attempt: the first one, or one of the loop. -/
theorem endBy_poll {pc : AttemptPc} (hpc : pc = .firstPoll ∨ ∃ d, pc = .poll d)
    (hidle : world.pc = .idle) (h : poll ⟨⟨pc, child⟩, world, clock, calls⟩ timeout os = some t) :
    t.endBy timeout ≤ endBy timeout ⟨⟨pc, child⟩, world, clock, calls⟩ := by
  have hafter := stdTryWait_pc world os.waitFails
  rcases hpoll : world.stdTryWait os.waitFails with ⟨w, answer⟩
  have hcall : poll ⟨⟨pc, child⟩, world, clock, calls⟩ timeout os =
      andThen ⟨⟨pc, child⟩, w, clock, .poll answer :: calls⟩ timeout (.tryWait answer) := by
    simp [poll, World.step, hidle, hpoll]
  rw [hcall] at h
  obtain ⟨a, ha, rfl⟩ := Option.map_eq_some_iff.mp h
  have hw : w.pc = .idle := by
    rw [hpoll] at hafter
    exact hafter.trans hidle
  rcases hpc with rfl | ⟨d, rfl⟩
  · rcases answer with e | _ | status
    · obtain rfl := Option.some.inj ha
      exact endBy_returned rfl rfl
    · -- a running child is killed next
      obtain rfl := Option.some.inj ha
      simp only [endBy, hw, Nat.le_refl]
    · obtain rfl := Option.some.inj ha
      exact endBy_returned rfl rfl
  · rcases answer with e | _ | status
    · obtain rfl := Option.some.inj ha
      exact endBy_returned rfl rfl
    · obtain rfl := Option.some.inj ha
      exact Nat.le_refl _
    · obtain rfl := Option.some.inj ha
      exact endBy_returned rfl rfl

/-- The `SIGHUP`. -/
theorem endBy_hangUp (hidle : world.pc = .idle)
    (h : hangUp ⟨⟨.kill, child⟩, world, clock, calls⟩ timeout os = some t) :
    t.endBy timeout ≤ endBy timeout ⟨⟨.kill, child⟩, world, clock, calls⟩ := by
  rcases hanswer : os.sighup with e | _
  · have hcall : hangUp ⟨⟨.kill, child⟩, world, clock, calls⟩ timeout os =
        andThen ⟨⟨.kill, child⟩, world.send .sighup, clock, .sighup (.error e) :: calls⟩ timeout
          (.kill (.error e)) := by
      simp [hangUp, World.step, hidle, hanswer]
    rw [hcall] at h
    obtain rfl := Option.some.inj h
    exact endBy_returned rfl rfl
  · have hcall : hangUp ⟨⟨.kill, child⟩, world, clock, calls⟩ timeout os =
        some ⟨⟨.kill, child⟩, { world.send .sighup with pc := .grace 0 }, clock,
          .sighup (.ok ()) :: calls⟩ := by
      simp [hangUp, World.step, hidle, hanswer]
    rw [hcall] at h
    obtain rfl := Option.some.inj h
    simp only [endBy, hidle, Nat.sub_zero, Nat.le_refl]

/-- A grace poll that sees no exit. -/
theorem endBy_unseen {world' : World} {calls' : List UnixCall} {k : ℕ} (hgrace : world.pc = .grace k)
    (hworld : world'.pc = if k + 1 < gracePolls then .sleeping (k + 1) else .escalating) :
    endBy timeout ⟨⟨.kill, child⟩, world', clock, calls'⟩ ≤
      endBy timeout ⟨⟨.kill, child⟩, world, clock, calls⟩ := by
  simp only [endBy, hgrace]
  split_ifs at hworld with hlast
  · simp only [hworld]
    have hleft : 5 - (k + 1) = 4 - k := by omega
    exact Nat.le_of_eq (by rw [hleft])
  · simp only [hworld]
    show (_ : ℕ) ≤ _
    omega

/-- A grace poll. -/
theorem endBy_gracePoll {k : ℕ} (hgrace : world.pc = .grace k)
    (h : gracePoll ⟨⟨.kill, child⟩, world, clock, calls⟩ timeout os = some t) :
    t.endBy timeout ≤ endBy timeout ⟨⟨.kill, child⟩, world, clock, calls⟩ := by
  rcases hpoll : world.stdTryWait os.waitFails with ⟨world', e | _ | status⟩
  · simp only [gracePoll, World.step, hgrace, hpoll, Option.bind_some, Option.some.injEq] at h
    obtain rfl := h
    exact endBy_unseen hgrace rfl
  · simp only [gracePoll, World.step, hgrace, hpoll, Option.bind_some, Option.some.injEq] at h
    obtain rfl := h
    exact endBy_unseen hgrace rfl
  · have hcall : gracePoll ⟨⟨.kill, child⟩, world, clock, calls⟩ timeout os =
        some ⟨⟨.deadline, child⟩, { world' with pc := .idle }, clock,
          .poll (.ok (some status)) :: calls⟩ := by
      simp [gracePoll, World.step, hgrace, hpoll, andThen, attemptStep]
    rw [hcall] at h
    obtain rfl := Option.some.inj h
    simp only [endBy, hgrace]
    show (_ : ℕ) ≤ _
    omega

/-- A sleep in the grace period. -/
theorem endBy_graceSleep {k : ℕ} (hk : k < gracePolls) (hsleeping : world.pc = .sleeping k)
    (h : graceSleep ⟨⟨.kill, child⟩, world, clock, calls⟩ = some t) :
    t.endBy timeout ≤ endBy timeout ⟨⟨.kill, child⟩, world, clock, calls⟩ := by
  have hcall : graceSleep ⟨⟨.kill, child⟩, world, clock, calls⟩ =
      some ⟨⟨.kill, child⟩, { world with pc := .grace k }, clock + gracePause, calls⟩ := by
    simp [graceSleep, World.step, hsleeping]
  rw [hcall] at h
  obtain rfl := Option.some.inj h
  have hleft : (5 - k) * gracePause = gracePause + (4 - k) * gracePause := by
    have hk' : 5 - k = 1 + (4 - k) := by
      have : gracePolls = 5 := rfl
      omega
    rw [hk', Nat.add_mul, Nat.one_mul]
  simp only [endBy, hsleeping, hleft, ← Nat.add_assoc, Nat.le_refl]

/-- The `SIGKILL`, unless a status has been seen. -/
theorem endBy_escalate (hescalating : world.pc = .escalating)
    (h : escalate ⟨⟨.kill, child⟩, world, clock, calls⟩ timeout os = some t) :
    t.endBy timeout ≤ endBy timeout ⟨⟨.kill, child⟩, world, clock, calls⟩ := by
  unfold escalate at h
  obtain ⟨w, -, h⟩ := Option.bind_eq_some_iff.mp h
  have hafter : ∀ {answer : IoResult Unit} {calls' : List UnixCall},
      andThen ⟨⟨.kill, child⟩, w, clock, calls'⟩ timeout (.kill answer) = some t →
      t.endBy timeout ≤ endBy timeout ⟨⟨.kill, child⟩, world, clock, calls⟩ := by
    intro answer calls' ht
    rcases answer with e | _
    · obtain rfl := Option.some.inj ht
      exact endBy_returned rfl rfl
    · obtain rfl := Option.some.inj ht
      simp only [endBy, hescalating, Nat.le_refl]
  split_ifs at h
  · exact hafter h
  · exact hafter h

/-- A call does not move the end. -/
theorem endBy_call {slot : Option C} (hs : AttemptSound timeout slot s)
    (h : s.call timeout os = some t) : t.endBy timeout ≤ s.endBy timeout := by
  obtain ⟨⟨pc, child⟩, world, clock, calls⟩ := s
  have hidle : pc ≠ .kill → world.pc = .idle := hs.idle
  have hstage := hs.stage
  rcases pc with _ | _ | _ | d | d | d | r
  · exact endBy_poll (.inl rfl) (hidle (by simp)) h
  · simp only [Stage] at hstage
    simp only [call] at h
    rcases hkill : world.pc with _ | k | k | _
    all_goals simp only [hkill] at h hstage
    · exact endBy_hangUp hkill h
    · exact endBy_gracePoll hkill h
    · exact endBy_graceSleep hstage.1 hkill h
    · exact endBy_escalate hkill h
  · obtain rfl := Option.some.inj h
    simp only [endBy]
    show (_ : ℕ) ≤ _
    omega
  · exact endBy_poll (.inr ⟨d, rfl⟩) (hidle (by simp)) h
  · obtain rfl := Option.some.inj h
    by_cases hlate : clock < d
    · rw [if_pos hlate]
      apply Nat.max_le.mpr
      refine ⟨Nat.le_trans ?_ (Nat.le_max_right _ _), Nat.le_max_right _ _⟩
      exact Nat.add_le_add_right (Nat.le_of_lt hlate) pause
    · rw [if_neg hlate]
      exact endBy_returned rfl rfl
  · obtain rfl := Option.some.inj h
    exact Nat.le_refl _
  · cases h

/-- **The step lemma**: only the time beside the sleeps moves the end. -/
theorem endBy_step {slot : Option C} (hs : AttemptSound timeout slot s)
    (h : s.step timeout os = some t) :
    AttemptSound timeout slot t ∧ t.endBy timeout ≤ s.endBy timeout + os.elapsed := by
  obtain ⟨hsound, -⟩ := elapse_sound hs os
  exact ⟨hsound.call h, Nat.le_trans (endBy_call hsound h) (endBy_elapse s os)⟩

end UnixAttempt

/-- The most that an attempt sleeps: the grace period, and the loop up to one sleep past its deadline. -/
def maxSleep (timeout : Duration) : Duration := 4 * gracePause + min timeout attemptCap + pause

/-- An attempt that has just been called ends by then. -/
theorem endBy_enter (timeout : Duration) (slot : Option C) (world : World) (clock : Instant) :
    (UnixAttempt.enter slot world clock).endBy timeout ≤ clock + maxSleep timeout := by
  rcases slot with _ | c
  · exact Nat.le_add_right _ _
  · simp only [UnixAttempt.endBy, UnixAttempt.enter, Attempt.enter, maxSleep, ← Nat.add_assoc,
      Nat.le_refl]

/-- **When an attempt is over**: whatever the system answers, no point of the attempt, and so not its
return, comes later than its end, moved by the time that passed beside the sleeps.
Source: `lib.rs` `attempt_failed_child_recovery`, `ChildKiller for std::process::Child` -/
theorem clock_le_of_exec {timeout : Duration} {slot : Option C} {s t : UnixAttempt C}
    {os : List OsMoment} (hs : AttemptSound timeout slot s)
    (h : exec (UnixAttempt.step timeout) s os = some t) :
    t.clock ≤ s.endBy timeout + (os.map OsMoment.elapsed).sum :=
  Nat.le_trans t.clock_le_endBy
    (exec_potential_le (fun _ _ _ hu ht => UnixAttempt.endBy_step hu ht) hs h)

/-! ## The response to a waiting client -/

namespace UnixSystem

variable {s t : UnixSystem C}

/-- The worker's steps through a run of the attempt in progress. -/
theorem exec_attempt {timeout : Duration} {response : Option ℕ} {pc : AttemptPc}
    {os : List OsMoment} {a : UnixAttempt C}
    (hw : s.system.worker = .attempting timeout response pc)
    (h : exec (UnixAttempt.step timeout) (s.attempt pc) os = some a) :
    ∃ u, exec step s (os.map .worker) = some u ∧
      u.system.worker = .attempting timeout response a.attempt.pc ∧ u.attempt a.attempt.pc = a ∧
      u.system.client = s.system.client ∧ u.system.responses = s.system.responses := by
  induction os generalizing s pc with
  | nil =>
      obtain rfl := Option.some.inj h
      exact ⟨s, rfl, hw, rfl, rfl, rfl⟩
  | cons o os ih =>
      rw [exec_cons, Option.bind_eq_some_iff] at h
      obtain ⟨b, hb, hrest⟩ := h
      obtain ⟨u, hu⟩ := @ih ((s.elapse o).withAttempt timeout response b) b.attempt.pc rfl hrest
      refine ⟨u, ?_⟩
      rw [List.map_cons, exec_cons, step_of_attempt hw hb]
      exact hu

/-- The worker answers an attempt that it has received. -/
theorem exec_respond {timeout : Duration} {response : ℕ} {result : IoResult Bool}
    (hw : s.system.worker = .attempting timeout (some response) (.returned result))
    (first second : OsMoment) :
    ∃ t, exec step s [.worker first, .worker second] = some t ∧ t.system.client = s.system.client ∧
      t.system.responses = (response, result) :: s.system.responses ∧
      t.clock = s.clock + first.elapsed + second.elapsed := by
  have hstore : s.system.workerStep .store = some { s.system with
      pending := s.system.child.isSome, worker := .responding response result } := by
    simp [System.workerStep, hw]
  have hfirst := @work_of_protocol _ s _ _ first (by simp [work, elapse, hw]) hstore
  rw [exec_cons, hfirst]
  exact ⟨_, rfl, rfl, rfl, rfl⟩

/-- The worker's steps from a point of an attempt to the answer. -/
theorem exec_serve {timeout : Duration} {response : ℕ} {pc : AttemptPc} {slot : Option C}
    (hw : s.system.worker = .attempting timeout (some response) pc)
    (hs : AttemptSound timeout slot (s.attempt pc)) (os : ℕ → OsMoment) :
    ∃ n t result, exec step s (ticks os n) = some t ∧ t.system.client = s.system.client ∧
      t.system.responses = (response, result) :: s.system.responses ∧
      t.clock ≤ (s.attempt pc).endBy timeout + ((List.range n).map fun i => (os i).elapsed).sum := by
  obtain ⟨m, -, a, hattempt, -, result, hresult⟩ :=
    exec_reaches (fun _ o hu hr => UnixAttempt.step_advances hu hr o) hs os
  have hclock := clock_le_of_exec hs hattempt
  obtain ⟨u, hserved, hworker, hrest, huclient, huresponses⟩ := exec_attempt hw hattempt
  have hnow : u.clock = a.clock := congrArg UnixAttempt.clock hrest
  rw [hresult] at hworker
  obtain ⟨t, ht, hclient, hresponses, hlast⟩ := exec_respond hworker (os m) (os (m + 1))
  refine ⟨m + 2, t, result, ?_, hclient.trans huclient, ?_, ?_⟩
  · unfold ticks
    rw [List.range_succ, List.range_succ, List.append_assoc, List.map_append, exec_append]
    rw [List.map_map] at hserved
    have hserved : exec step s ((List.range m).map fun i => .worker (os i)) = some u := hserved
    rw [hserved]
    exact ht
  · rw [hresponses, huresponses]
  · rw [List.map_map] at hclock
    have hsum : ((List.range (m + 2)).map fun i => (os i).elapsed).sum =
        ((List.range m).map fun i => (os i).elapsed).sum + (os m).elapsed + (os (m + 1)).elapsed := by
      simp [List.range_succ, Nat.add_assoc]
    rw [hlast, hnow, hsum, ← Nat.add_assoc, ← Nat.add_assoc]
    exact Nat.add_le_add_right (Nat.add_le_add_right hclock _) _

/-- The worker's steps through the one request in its channel. -/
theorem exec_request (h : SystemSound s) (hworker : s.system.worker = .recv) {timeout : Duration}
    {response : ℕ} (hqueue : s.system.queue = [.attempt timeout response]) (os : ℕ → OsMoment) :
    ∃ n t result, exec step s (ticks os n) = some t ∧ t.system.client = s.system.client ∧
      t.system.responses = (response, result) :: s.system.responses ∧
      t.clock ≤ s.clock + maxSleep timeout + ((List.range n).map fun i => (os i).elapsed).sum := by
  have hstep : s.system.workerStep .recv = some { s.system with
      queue := []
      worker := .attempting timeout (some response) (Attempt.enter s.system.child).pc } := by
    simp [System.workerStep, hworker, hqueue]
  have hrecv := @work_of_protocol _ s _ _ (os 0) (by simp [work, elapse, hworker, hqueue]) hstep
  have hidle : (s.elapse (os 0)).world.pc = .idle := by
    have hserves := (sound_elapse h (os 0)).serves
    have hsame : (s.elapse (os 0)).system.worker = .recv := hworker
    rwa [hsame] at hserves
  have hfresh := @attempt_enter _ { s.elapse (os 0) with calls := [] } hidle rfl
  obtain ⟨n, t, result, ht, hclient, hresponses, hclock⟩ :=
    @exec_serve _ { s.elapse (os 0) with
      system := { s.system with
        queue := []
        worker := .attempting timeout (some response) (Attempt.enter s.system.child).pc }
      calls := [] } timeout response _ s.system.child rfl
      (hfresh.symm ▸ .enter timeout _ _ _) fun i => os (i + 1)
  refine ⟨n + 1, t, result, ?_, hclient, hresponses, ?_⟩
  · unfold ticks at ht ⊢
    rw [List.range_succ_eq_map, List.map_cons, List.map_map, exec_cons, hrecv]
    exact ht
  · have hend := endBy_enter timeout s.system.child (s.elapse (os 0)).world (s.elapse (os 0)).clock
    have hsame := congrArg (UnixAttempt.endBy timeout) hfresh
    have hsum : ((List.range (n + 1)).map fun i => (os i).elapsed).sum =
        (os 0).elapsed + ((List.range n).map fun i => (os (i + 1)).elapsed).sum := by
      rw [List.range_succ_eq_map, List.map_cons, List.map_map, List.sum_cons]
      rfl
    rw [hsum, ← Nat.add_assoc, Nat.add_right_comm s.clock]
    exact Nat.le_trans hclock (Nat.add_le_add_right (Nat.le_trans (Nat.le_of_eq hsame) hend) _)

end UnixSystem

/-- The longest sleep of an attempt and 40 ms fit in the window of its client. -/
theorem maxSleep_le_responseWindow (timeout : Duration) :
    maxSleep (min timeout attemptCap) + Duration.fromMillis 40 = responseWindow timeout := by
  unfold maxSleep responseWindow
  rw [Nat.min_assoc, Nat.min_self]
  simp only [gracePause, pause, Duration.fromMillis]
  show (_ : ℕ) = _
  omega

/-- **The window of the client is long enough.** In every reachable state in which the worker waits for
a message with nothing queued, a request of the client is served after finitely many steps of the
worker, whatever the system answers, and the client then returns the worker's answer. The answer comes
in the window of `recv_timeout`, if no more than 40 ms pass beside the sleeps until then.
Source: `lib.rs` `FailedChildRecovery::attempt_inner`, `failed_child_recovery_worker` -/
theorem response_in_window {world : World} (h0 : HandedOut world) (clock : Instant)
    {moves : List (UnixMove C)} {s : UnixSystem C}
    (hrun : exec UnixSystem.step (.prepare world clock) moves = some s) {timeout : Duration}
    (hclient : s.system.client = .sending timeout) (hworker : s.system.worker = .recv)
    (hqueue : s.system.queue = []) (os : ℕ → OsMoment) :
    ∃ n t result, exec UnixSystem.step s
        (.client .attemptSend :: UnixSystem.ticks os n ++ [.client .attemptReceive]) = some t ∧
      t.system.client = .returning .worker result ∧
      (((List.range n).map fun i => (os i).elapsed).sum ≤ Duration.fromMillis 40 →
        t.clock ≤ s.clock + responseWindow timeout) := by
  have hsound : SystemSound s := exec_invariant (fun _ _ _ hs ht => UnixSystem.sound_step hs ht)
    (UnixSystem.sound_handedOut h0 clock) hrun
  have hsend : s.system.clientStep .attemptSend = some { s.system with
      queue := [.attempt (min timeout attemptCap) s.system.nextResponse]
      client := .waiting s.system.nextResponse
      nextResponse := s.system.nextResponse + 1 } := by
    simp [System.clientStep, hclient, hworker, hqueue, WorkerPc.isEnded]
  have hstep : s.step (.client .attemptSend) = _ := congrArg (Option.map _) hsend
  obtain ⟨n, t, result, ht, htclient, hresponses, hclock⟩ :=
    UnixSystem.exec_request (UnixSystem.sound_step hsound hstep) hworker rfl os
  have hreceive : t.step (.client .attemptReceive) =
      some { t with system := { t.system with client := .returning .worker result } } := by
    simp [UnixSystem.step, System.clientStep, htclient, hresponses]
  refine ⟨n, { t with system := { t.system with client := .returning .worker result } }, result, ?_,
    rfl, fun hquick => ?_⟩
  · rw [List.cons_append, exec_cons, hstep, Option.map_some, Option.bind_some, exec_append, ht,
      Option.bind_some]
    exact exec_single hreceive
  · rw [← maxSleep_le_responseWindow, ← Nat.add_assoc]
    exact Nat.le_trans hclock (Nat.add_le_add_left hquick _)

/-- The worker has adopted the child, and the client is about to ask for an attempt. -/
def askingMoves (os : OsMoment) : List (UnixMove Unit) :=
  [.client (.attachStore ()), .client .attachSend, .worker os, .client (.attemptLoad 0)]

/-- One millisecond passes before each call, and the child ignores the signals. -/
def stubbornMoment : OsMoment where
  exits := none
  waitFails := none
  sighup := .ok ()
  sigkill := .ok ()
  elapsed := Duration.fromMillis 1

/-- A request on a child that ignores its signals is answered in the window. -/
theorem response_in_window_stubborn :
    ∃ s, exec UnixSystem.step (.prepare .spawned 0) (askingMoves stubbornMoment) = some s ∧
      ∃ n t result, exec UnixSystem.step s
          (.client .attemptSend :: UnixSystem.ticks (fun _ => stubbornMoment) n ++
            [.client .attemptReceive]) = some t ∧
        t.system.client = .returning .worker result ∧
        (((List.range n).map fun _ => stubbornMoment.elapsed).sum ≤ Duration.fromMillis 40 →
          t.clock ≤ s.clock + responseWindow 0) :=
  ⟨_, rfl, @response_in_window Unit .spawned (.inl rfl) 0 (askingMoves stubbornMoment) _ rfl 0 rfl rfl
    rfl fun _ => stubbornMoment⟩

end SysprimsPty.Recovery
