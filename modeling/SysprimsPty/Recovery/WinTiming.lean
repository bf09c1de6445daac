import SysprimsPty.Recovery.Status
import SysprimsPty.Recovery.WinSystem

/-!
# The time of the recovery on Windows

An attempt on Windows sleeps only in its loop, 10 ms each time and only before the deadline. A rank
counts the calls that are left of it, and a potential the latest instant at which it can return if no
time passes but in its sleeps; both are summed over the requests that wait in the channel.

* `System.rank`, `System.endBy` — the rank and the potential of the recovery.
* `WinServing.step` — the step lemma: a step lowers the rank, and only the time beside the sleeps
  raises the potential.
* `win_request_answered` — while the clones succeed, every request whose client waits is answered,
  within a bound on the time.
-/

namespace SysprimsPty.Recovery

open SysprimsPty.Core
open SysprimsPty.Found
open SysprimsPty.Process

variable {C : Type}

/-! ## One attempt -/

/-- The calls that are left of an attempt, at most. -/
def AttemptPc.rank (timeout : Duration) (clock : Instant) : AttemptPc → ℕ
  | .firstPoll => 3 * naps (min timeout attemptCap) + 5
  | .kill => 3 * naps (min timeout attemptCap) + 4
  | .deadline => 3 * naps (min timeout attemptCap) + 3
  | .poll d => 3 * naps (d - clock) + 2
  | .guard d => 3 * naps (d - clock) + 1
  | .sleep d => 3 * naps (d - (clock + pause)) + 3
  | .returned _ => 0

/-- The latest instant of the return, if time passes only in the sleeps. -/
def AttemptPc.endBy (timeout : Duration) (clock : Instant) : AttemptPc → Instant
  | .firstPoll => clock + min timeout attemptCap + pause
  | .kill => clock + min timeout attemptCap + pause
  | .deadline => clock + min timeout attemptCap + pause
  | .poll d => max clock (d + pause)
  | .guard d => max clock (d + pause)
  | .sleep d => max (clock + pause) (d + pause)
  | .returned _ => clock

/-- Time that passes beside the sleeps leaves no more calls, and moves the end by as much. -/
theorem AttemptPc.elapse (timeout : Duration) (clock : Instant) (elapsed : Duration) (pc : AttemptPc) :
    pc.rank timeout (clock + elapsed) ≤ pc.rank timeout clock ∧
      pc.endBy timeout (clock + elapsed) ≤ pc.endBy timeout clock + elapsed := by
  have hnaps {now later : Instant} (h : now ≤ later) (d : Instant) : naps (d - later) ≤ naps (d - now) :=
    naps_mono (Nat.sub_le_sub_left h d)
  rcases pc with _ | _ | _ | d | d | d | r
  case poll | guard =>
    have hleft := hnaps (Nat.le_add_right clock elapsed) d
    constructor
    · simp only [rank]
      omega
    · simp only [endBy]
      show (_ : ℕ) ≤ _
      omega
  case sleep =>
    have hlater : clock + pause ≤ clock + elapsed + pause :=
      Nat.add_le_add_right (Nat.le_add_right clock elapsed) pause
    have hleft := hnaps hlater d
    constructor
    · simp only [rank]
      omega
    · simp only [endBy]
      show (_ : ℕ) ≤ _
      omega
  all_goals
    constructor
    · exact Nat.le_refl _
    · simp only [endBy]
      show (_ : ℕ) ≤ _
      omega

/-- No attempt ends before now. -/
theorem AttemptPc.clock_le_endBy (timeout : Duration) (clock : Instant) (pc : AttemptPc) :
    clock ≤ pc.endBy timeout clock := by
  unfold endBy
  split
  all_goals
    show (_ : ℕ) ≤ _
    omega

/-- **A call** lowers the rank and does not move the end. -/
theorem AttemptPc.timed {s : WinSystem C} {m : WinMoment} {timeout : Duration} {child : Option C}
    {pc : AttemptPc} {a : Attempt C} {process : WinProcess} {slept : Duration}
    (h : WinCall s m timeout child pc a process slept) :
    a.pc.rank timeout (s.clock + slept) < pc.rank timeout s.clock ∧
      a.pc.endBy timeout (s.clock + slept) ≤ pc.endBy timeout s.clock := by
  have hreturned (pc : AttemptPc) (hrank : 0 < pc.rank timeout s.clock) (result : IoResult Bool) :
      (AttemptPc.returned result).rank timeout (s.clock + 0) < pc.rank timeout s.clock ∧
        (AttemptPc.returned result).endBy timeout (s.clock + 0) ≤ pc.endBy timeout s.clock :=
    ⟨hrank, pc.clock_le_endBy timeout s.clock⟩
  cases h with
  | seen pc hpc hshows =>
      apply hreturned
      rcases hpc with rfl | ⟨d, rfl⟩
      · exact Nat.succ_pos _
      · exact Nat.succ_pos _
  | unseen hunseen => exact ⟨Nat.lt_succ_self _, Nat.le_refl _⟩
  | unseenAgain d hunseen => exact ⟨Nat.lt_succ_self _, Nat.le_refl _⟩
  | terminated hgranted => exact ⟨Nat.lt_succ_self _, Nat.le_refl _⟩
  | refused e => exact hreturned .kill (Nat.succ_pos _) _
  | deadline =>
      have hleft : s.clock + min timeout attemptCap - s.clock = min timeout attemptCap :=
        Nat.add_sub_cancel_left _ _
      simp only [rank, endBy, Nat.add_zero, hleft]
      refine ⟨Nat.lt_succ_self _, Nat.max_le.mpr ⟨?_, Nat.le_refl _⟩⟩
      rw [Nat.add_assoc]
      exact Nat.le_add_right _ _
  | early d hearly =>
      have hleft := naps_pos (Nat.sub_pos_of_lt hearly)
      rw [Nat.sub_sub] at hleft
      simp only [rank, endBy, Nat.add_zero]
      refine ⟨by omega, Nat.max_le.mpr ⟨?_, Nat.le_max_right _ _⟩⟩
      exact Nat.le_trans (Nat.add_le_add_right (Nat.le_of_lt hearly) pause) (Nat.le_max_right _ _)
  | late d => exact hreturned (.guard d) (Nat.succ_pos _) _
  | slept d => exact ⟨Nat.lt_succ_self _, Nat.le_refl _⟩

/-! ## The recovery -/

/-- The steps that a message takes, at most. -/
def FailedChildRecoveryCommand.rank : FailedChildRecoveryCommand C → ℕ
  | .adopt _ => 1
  | .attempt timeout _ => 3 * naps (min timeout attemptCap) + 8

/-- The longest sleep over a message. -/
def FailedChildRecoveryCommand.sleeps : FailedChildRecoveryCommand C → Duration
  | .adopt _ => 0
  | .attempt timeout _ => min timeout attemptCap + pause

/-- The steps that the worker takes for its request. -/
def WorkerPc.rank (clock : Instant) : WorkerPc → ℕ
  | .attempting timeout _ pc => pc.rank timeout clock + 2
  | .responding _ _ => 1
  | _ => 0

/-- The instant at which the worker has answered its request, if time passes only in its sleeps. -/
def WorkerPc.endBy (clock : Instant) : WorkerPc → Instant
  | .attempting timeout _ pc => pc.endBy timeout clock
  | _ => clock

/-- The steps up to the answer of the last request, at most. -/
def System.rank (s : System C) (clock : Instant) : ℕ :=
  s.worker.rank clock + (s.queue.map FailedChildRecoveryCommand.rank).sum

/-- The latest instant of the answer of the last request, if time passes only in the sleeps. -/
def System.endBy (s : System C) (clock : Instant) : Instant :=
  s.worker.endBy clock + (s.queue.map FailedChildRecoveryCommand.sleeps).sum

/-- Time that passes beside the sleeps. -/
theorem System.elapse (s : System C) (clock : Instant) (elapsed : Duration) :
    s.rank (clock + elapsed) ≤ s.rank clock ∧ s.endBy (clock + elapsed) ≤ s.endBy clock + elapsed := by
  have hworker : s.worker.rank (clock + elapsed) ≤ s.worker.rank clock ∧
      s.worker.endBy (clock + elapsed) ≤ s.worker.endBy clock + elapsed := by
    rcases s.worker with _ | ⟨timeout, response, pc⟩ | ⟨response, result⟩ | _ | _ | _
    case attempting =>
      obtain ⟨hrank, hend⟩ := pc.elapse timeout clock elapsed
      exact ⟨Nat.add_le_add_right hrank 2, hend⟩
    all_goals exact ⟨Nat.le_refl _, Nat.le_refl _⟩
  obtain ⟨hrank, hend⟩ := hworker
  unfold System.rank System.endBy
  refine ⟨Nat.add_le_add_right hrank _, ?_⟩
  rw [Nat.add_right_comm]
  exact Nat.add_le_add_right hend _

/-- A fresh attempt. -/
theorem Attempt.timed_enter (timeout : Duration) (clock : Instant) (child : Option C) :
    (Attempt.enter child).pc.rank timeout clock ≤ 3 * naps (min timeout attemptCap) + 5 ∧
      (Attempt.enter child).pc.endBy timeout clock ≤ clock + (min timeout attemptCap + pause) := by
  rcases child with _ | c
  · exact ⟨Nat.zero_le _, Nat.le_add_right _ _⟩
  · exact ⟨Nat.le_refl _, Nat.le_of_eq (Nat.add_assoc _ _ _)⟩

/-- **A step without a call** in the receive loop. -/
theorem System.timed_of_quiet {s t : System C} {e : WorkerEvent} (h : s.workerStep e = some t)
    (hquiet : ∀ event, e ≠ .call event) (hloop : s.worker.isDraining = false)
    (hclient : s.client ≠ .dropped) (clock : Instant) :
    t.rank clock < s.rank clock ∧ t.endBy clock ≤ s.endBy clock := by
  cases workerStep_move h with
  | adopt child queue hw hq =>
      simp [System.rank, System.endBy, hw, hq, FailedChildRecoveryCommand.rank,
        FailedChildRecoveryCommand.sleeps]
  | attempt timeout response queue hw hq =>
      obtain ⟨hrank, hend⟩ := Attempt.timed_enter timeout clock s.child
      simp only [System.rank, System.endBy, WorkerPc.rank, WorkerPc.endBy, hw, hq, List.map_cons,
        List.sum_cons, FailedChildRecoveryCommand.rank, FailedChildRecoveryCommand.sleeps]
      refine ⟨by omega, ?_⟩
      rw [← Nat.add_assoc]
      exact Nat.add_le_add_right hend _
  | disconnected hw hq hc => exact absurd hc hclient
  | call timeout response pc event a hw ha => exact absurd rfl (hquiet event)
  | store timeout response result hw =>
      simp [System.rank, System.endBy, hw, WorkerPc.rank, WorkerPc.endBy, AttemptPc.rank,
        AttemptPc.endBy]
  | respond response result hw =>
      simp [System.rank, System.endBy, hw, WorkerPc.rank, WorkerPc.endBy]
  | drainStore timeout result hw => simp [hw, WorkerPc.isDraining] at hloop
  | again child hw hs => simp [hw, WorkerPc.isDraining] at hloop
  | stop hw hs => simp [hw, WorkerPc.isDraining] at hloop
  | slept hw => simp [hw, WorkerPc.isDraining] at hloop

/-! ## The request of a waiting client -/

/-- The invariant, with a client that waits for a response. -/
structure WinServing (response : ℕ) (s : WinSystem C) : Prop where
  intact : s.panicked = false
  owned : Owned s.system
  awaited : Awaited s.system
  client : s.system.client = .waiting response

namespace WinServing

variable {response : ℕ} {s t : WinSystem C}

/-- The worker of a waiting client is in its receive loop. -/
theorem in_loop (h : WinServing response s) :
    s.system.worker.isDraining = false ∧ s.system.client ≠ .dropped := by
  constructor
  · exact h.owned.not_draining (by rw [h.client]; rfl)
  · rw [h.client]
    simp

/-- A step that does not panic keeps the client waiting. -/
theorem kept {m : Cloning} (h : WinServing response s) (ht : s.step (.worker m.1) = some t) :
    WinServing response t := by
  have hintact : t.panicked = (s.elapse m.1).panicked :=
    WinSystem.work_intact m.2 (WinSystem.work_move ht)
  obtain ⟨-, e, he⟩ := WinSystem.step_system ht (hintact.trans h.intact)
  exact ⟨hintact.trans h.intact, h.owned.step he, awaited_step h.awaited he,
    (WinSystem.worker_step_client ht).1.trans h.client⟩

/-- **The step lemma**: a step lowers the rank, and moves the end by the time beside the sleeps. -/
theorem step {m : Cloning} (h : WinServing response s) (ht : s.step (.worker m.1) = some t) :
    WinServing response t ∧ t.system.rank t.clock < s.system.rank s.clock ∧
      t.system.endBy t.clock ≤ s.system.endBy s.clock + m.1.elapsed := by
  obtain ⟨hloop, hclient⟩ := h.in_loop
  have hwork : WinWork (s.elapse m.1) m.1 t := WinSystem.work_move ht
  obtain ⟨hrank, hend⟩ := s.system.elapse s.clock m.1.elapsed
  have hlower {u : WinSystem C} (hu : u.system.rank u.clock < s.system.rank (s.clock + m.1.elapsed) ∧
      u.system.endBy u.clock ≤ s.system.endBy (s.clock + m.1.elapsed)) :
      u.system.rank u.clock < s.system.rank s.clock ∧
        u.system.endBy u.clock ≤ s.system.endBy s.clock + m.1.elapsed :=
    ⟨Nat.lt_of_lt_of_le hu.1 hrank, Nat.le_trans hu.2 hend⟩
  refine ⟨h.kept ht, hlower ?_⟩
  cases hwork with
  | protocol e system slept hstep hquiet hawake =>
      have hsleeping : s.system.worker ≠ .sleeping := by
        intro hw
        rw [hw] at hloop
        cases hloop
      rw [hawake hsleeping]
      exact System.timed_of_quiet hstep hquiet hloop hclient _
  | call timeout response' pc event a process slept system hw hstep hsystem hmove =>
      obtain ⟨hrank, hend⟩ := AttemptPc.timed hmove
      have hw' : s.system.worker = .attempting timeout response' pc := hw
      rw [hsystem]
      unfold System.rank System.endBy
      rw [hw']
      exact ⟨Nat.add_lt_add_right (Nat.add_lt_add_right hrank 2) _, Nat.add_le_add_right hend _⟩
  | panicked timeout response' pc hw hrun hfails =>
      rw [m.2] at hfails
      cases hfails

/-- **The worker goes on** until nothing is left to answer. -/
theorem enabled (h : WinServing response s)
    (hleft : ¬(s.system.worker = .recv ∧ s.system.queue = [])) (m : Cloning) :
    ∃ t, s.step (.worker m.1) = some t := by
  refine @WinSystem.work_enabled _ (s.elapse m.1) m.1 ?_ (fun hw hq => absurd ⟨hw, hq⟩ hleft) m.2
  intro hended
  have hloop := h.in_loop.1
  have hw : s.system.worker = .ended := hended
  rw [hw] at hloop
  cases hloop

end WinServing

/-- The window of the client holds an attempt on Windows and 240 ms. -/
theorem sleeps_le_responseWindow (timeout : Duration) :
    min timeout attemptCap + pause + Duration.fromMillis 240 = responseWindow timeout := by
  unfold responseWindow
  rw [Nat.add_assoc]
  rfl

/-- **Every request is answered.** In every reachable state in which the worker has not panicked and a
client waits for its response, whatever the worker is doing, whatever older requests are queued that the
client has given up on, and whatever the system answers as long as the clones of the process handle
succeed, the worker comes after finitely many of its steps to the answer, which the client then returns.
The time until then is at most that of the sleeps of the requests that are left and the time that passes
beside them; if nothing else is queued, the answer comes in the window of `recv_timeout` whenever no
more than 240 ms pass beside the sleeps.
Source: `lib.rs` `FailedChildRecovery::attempt_inner`, `failed_child_recovery_worker`,
`attempt_failed_child_recovery` -/
theorem win_request_answered (process : WinProcess) (clock : Instant) {moves : List (WinMove C)}
    {s : WinSystem C} (hrun : exec WinSystem.step (.prepare process clock) moves = some s)
    (hintact : s.panicked = false) {response : ℕ} (hclient : s.system.client = .waiting response)
    (os : ℕ → WinMoment) (hcloned : ∀ n, (os n).cloned = true) :
    ∃ n t result, exec WinSystem.step s (WinSystem.ticks os n ++ [.client .attemptReceive]) = some t ∧
      t.system.client = .returning .worker result ∧ t.system.outstanding = [] ∧
      t.clock ≤ s.system.endBy s.clock + ((List.range n).map fun i => (os i).elapsed).sum ∧
      ∀ timeout, s.system.worker = .recv → s.system.queue = [.attempt timeout response] →
        ((List.range n).map fun i => (os i).elapsed).sum ≤ Duration.fromMillis 240 →
          t.clock ≤ s.clock + responseWindow timeout := by
  have hsound : s.panicked = false → Owned s.system ∧ Awaited s.system := by
    refine @exec_invariant _ _ WinSystem.step
      (fun u => u.panicked = false → Owned u.system ∧ Awaited u.system)
      (fun u move v hu hv hv' => ?_) moves _ _ (fun _ => ⟨.prepare, awaited_prepare⟩) hrun
    obtain ⟨hu', e, he⟩ := WinSystem.step_system hv hv'
    exact ⟨(hu hu').1.step he, awaited_step (hu hu').2 he⟩
  have hstart : WinServing response s := ⟨hintact, (hsound hintact).1, (hsound hintact).2, hclient⟩
  let work : WinSystem C → Cloning → Option (WinSystem C) := fun u m => u.step (.worker m.1)
  have hstep : ∀ u m, WinServing response u → ¬(u.system.worker = .recv ∧ u.system.queue = []) →
      ∃ v, work u m = some v ∧ WinServing response v ∧
        v.system.rank v.clock < u.system.rank u.clock := by
    intro u m hu hleft
    obtain ⟨v, hv⟩ := hu.enabled hleft m
    obtain ⟨hserving, hrank, -⟩ := hu.step hv
    exact ⟨v, hv, hserving, hrank⟩
  obtain ⟨n, -, t, ht, hserving, hworker, hqueue⟩ :=
    exec_reaches hstep hstart fun n => ⟨os n, hcloned n⟩
  have hend := exec_potential_le (fun u m v hu hv => ⟨(hu.step hv).1, (hu.step hv).2.2⟩) hstart ht
  have hclock : t.system.endBy t.clock = t.clock := by
    simp [System.endBy, WorkerPc.endBy, hworker, hqueue]
  have hnone : t.system.outstanding = [] := by
    simp [System.outstanding, hworker, hqueue, WorkerPc.response?]
  obtain ⟨result, hresult⟩ : ∃ result, t.system.responses.lookup response = some result := by
    rcases hserving.awaited response hserving.client with hout | ⟨result, hresult⟩
    · rw [hnone] at hout
      cases hout
    · rw [← Option.isSome_iff_exists, List.lookup_isSome_iff]
      exact ⟨_, hresult, beq_self_eq_true _⟩
  have hreceive : t.step (.client .attemptReceive) =
      some { t with system := { t.system with client := .returning .worker result } } := by
    simp [WinSystem.step, System.clientStep, hserving.client, hresult]
  rw [hclock, List.map_map] at hend
  refine ⟨n, { t with system := { t.system with client := .returning .worker result } }, result, ?_, rfl,
    hnone, hend, fun timeout hw hq hquick => ?_⟩
  · have hticks : exec WinSystem.step s (WinSystem.ticks os n) = some t :=
      (s.exec_ticks hcloned n).trans ht
    rw [exec_append, hticks]
    exact exec_single hreceive
  · have hnow : s.system.endBy s.clock = s.clock + (min timeout attemptCap + pause) := by
      simp [System.endBy, WorkerPc.endBy, hw, hq, FailedChildRecoveryCommand.sleeps]
    rw [← sleeps_le_responseWindow, ← Nat.add_assoc, ← hnow]
    exact Nat.le_trans hend (Nat.add_le_add_left hquick _)

/-- The worker has adopted a child that does not end, and a client asks for an attempt of 20 ms. -/
def waitingMoves : List (WinMove Unit) :=
  let quiet : WinMoment :=
    { exits := none, cloned := true, queried := true, terminate := none, elapsed := 0 }
  [.client (.attachStore ()), .client .attachSend, .worker quiet,
    .client (.attemptLoad (Duration.fromMillis 20)), .client .attemptSend]

/-- One millisecond passes before each call, and `TerminateProcess` is granted without effect. -/
def hangingMoment : WinMoment where
  exits := none
  cloned := true
  queried := true
  terminate := none
  elapsed := Duration.fromMillis 1

/-- That client is answered. -/
theorem win_request_answered_hanging :
    ∃ s, exec WinSystem.step (.prepare .running 0) waitingMoves = some s ∧
      ∃ n t result, exec WinSystem.step s
          (WinSystem.ticks (fun _ => hangingMoment) n ++ [.client .attemptReceive]) = some t ∧
        t.system.client = .returning .worker result ∧ t.system.outstanding = [] := by
  refine ⟨_, rfl, ?_⟩
  obtain ⟨n, t, result, ht, hclient, hnone, -⟩ := @win_request_answered Unit .running 0 waitingMoves _
    rfl rfl 0 rfl (fun _ => hangingMoment) fun _ => rfl
  exact ⟨n, t, result, ht, hclient, hnone⟩

end SysprimsPty.Recovery
