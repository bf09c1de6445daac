import SysprimsPty.Recovery.UnixSystem

/-!
# The worker of a dropped recovery on Unix

Once the controller is dropped, the worker serves the attempts that are still queued, leaves its
receive loop, and then attempts again and again, with a sleep of 10 ms between, until its slot is
empty.

* `ProcessFits`, `Drained` — the invariants: the status that the handle keeps is that of a reaped
  process, and a child taken out of the slot has been reaped.
* `UnixSystem.callsLeft` — the measure, for a child that has exited: the messages, then the attempts.
* `dropped_recovery_reaps` — if the child exits at some moment and the polls after it do not fail, the
  worker ends, and by then it has reaped the child.
-/

namespace SysprimsPty.Recovery

open SysprimsPty.Core
open SysprimsPty.Found
open SysprimsPty.Process

variable {C : Type}

/-! ## The process behind the handle -/

/-- The handle keeps a status exactly when the process has been reaped. -/
def ProcessFits (w : World) : Prop := w.status.isSome ↔ w.process = .reaped

/-- The process has exited. -/
def Exited (w : World) : Prop := w.process ≠ .running

/-- What a step keeps of the process: an exit is for good, and so is the reap. -/
def Ages (w t : World) : Prop :=
  ProcessFits t ∧ (Exited w → Exited t) ∧ (w.status.isSome → t.status.isSome)

/-- A poll. -/
theorem ages_stdTryWait {w : World} (h : ProcessFits w) (fails : Option IoError) :
    Ages w (w.stdTryWait fails).1 := by
  unfold World.stdTryWait
  split
  · exact ⟨h, id, id⟩
  · exact ⟨h, id, id⟩
  · exact ⟨by simp [ProcessFits], by simp [Exited], by simp⟩
  · exact ⟨h, id, id⟩

/-- It is about the process and the status that the handle keeps. -/
theorem Ages.of_eq {w t u : World} (h : Ages w u) (hprocess : t.process = u.process)
    (hstatus : t.status = u.status) : Ages w t := by
  unfold Ages ProcessFits Exited at h ⊢
  rw [hprocess, hstatus]
  exact h

/-- One step of the handle. -/
theorem ages_step {w t : World} {e : UnixEvent} (h : ProcessFits w) (ht : w.step e = some t) :
    Ages w t := by
  cases process_move ht with
  | exit status hrunning hprocess hstatus =>
      unfold ProcessFits at h
      refine ⟨?_, by simp [Exited, hprocess], by rw [hstatus]; exact id⟩
      rw [ProcessFits, hstatus, h, hrunning, hprocess]
      simp
  | polled _ fails hexit hprocess hstatus => exact (ages_stdTryWait h fails).of_eq hprocess hstatus
  | kept _ hexit hprocess hstatus => exact Ages.of_eq ⟨h, id, id⟩ hprocess hstatus

/-- A run of the handle. -/
theorem ages_exec {w t : World} {events : List UnixEvent} (h : ProcessFits w)
    (hrun : exec World.step w events = some t) : Ages w t := by
  refine exec_invariant (fun u e v hu hv => ?_) (⟨h, id, id⟩ : Ages w w) hrun
  obtain ⟨hfits, hexited, hstatus⟩ := hu
  obtain ⟨hfits', hexited', hstatus'⟩ := ages_step hfits hv
  exact ⟨hfits', hexited' ∘ hexited, hstatus' ∘ hstatus⟩

/-- A poll of a process that has exited reports the exit, unless it fails. -/
theorem stdTryWait_exited {w : World} (h : ProcessFits w) (hexited : Exited w) :
    ∃ status, (w.stdTryWait none).2 = .ok (some status) := by
  rcases hstatus : w.status with _ | status
  · rcases hprocess : w.process with _ | status | _
    · exact absurd hprocess hexited
    · exact ⟨status, by simp [World.stdTryWait, hstatus, hprocess]⟩
    · have hsome := h.mpr hprocess
      simp [hstatus] at hsome
  · exact ⟨status, by simp [World.stdTryWait, hstatus]⟩

/-- A poll that reports the exit has reaped the child. -/
theorem status_of_reported {w : World} {fails : Option IoError} {status : ExitStatus}
    (h : (w.stdTryWait fails).2 = .ok (some status)) : (w.stdTryWait fails).1.status.isSome := by
  unfold World.stdTryWait at h ⊢
  split at h
  · next hstatus => simp [hstatus]
  · cases h
  · rfl
  · cases h

/-! ## One attempt -/

/-- A step of the attempt that changes the slot is a poll that reported the exit. -/
theorem reported_of_child_ne {timeout : Duration} {a b : Attempt C} {e : AttemptEvent}
    (h : attemptStep timeout a e = some b) (hne : b.child ≠ a.child) :
    ∃ status, e = .tryWait (.ok (some status)) := by
  rcases attemptStep_cases h with ⟨hchild, -, -⟩ | ⟨-, hreports, -⟩
  · exact absurd hchild hne
  · unfold AttemptEvent.reportsExit at hreports
    split at hreports
    · exact ⟨_, rfl⟩
    · cases hreports

/-- No step of an attempt leads back to its first poll. -/
theorem attemptStep_ne_firstPoll {timeout : Duration} {a b : Attempt C} {e : AttemptEvent}
    (h : attemptStep timeout a e = some b) : b.pc ≠ .firstPoll := by
  unfold attemptStep at h
  split at h
  · split at h <;> cases h <;> simp
  · split at h <;> cases h <;> simp
  · split at h <;> cases h
    · simp
    · dsimp only
      split_ifs <;> simp
  · split at h <;> cases h
    simp

namespace UnixAttempt

variable {timeout : Duration} {s t : UnixAttempt C}

/-- A call that takes the child out of the slot has reaped it. -/
theorem status_of_call {os : OsMoment} (h : s.call timeout os = some t)
    (hne : t.attempt.child ≠ s.attempt.child) : t.world.status.isSome := by
  have hquiet : ∀ {world clock calls e}, andThen { s with world, clock, calls } timeout e = some t →
      ∃ status, e = .tryWait (.ok (some status)) := by
    intro world clock calls e hut
    obtain ⟨a, ha, rfl⟩ := Option.map_eq_some_iff.mp hut
    exact reported_of_child_ne ha hne
  unfold call at h
  split at h
  case h_1 | h_4 =>
    unfold poll at h
    obtain ⟨w, hw, h⟩ := Option.bind_eq_some_iff.mp h
    obtain ⟨status, hstatus⟩ := hquiet h
    have hreaped := status_of_reported (AttemptEvent.tryWait.inj hstatus)
    obtain ⟨a, -, rfl⟩ := Option.map_eq_some_iff.mp h
    simp only [World.step] at hw
    split_ifs at hw
    rwa [← Option.some.inj hw]
  case h_2 =>
    split at h
    · unfold hangUp at h
      obtain ⟨w, hw, h⟩ := Option.bind_eq_some_iff.mp h
      dsimp only at h
      split at h
      · obtain rfl := Option.some.inj h
        exact absurd rfl hne
      · obtain ⟨status, hstatus⟩ := hquiet h
        cases hstatus
    · unfold gracePoll at h
      obtain ⟨w, hw, h⟩ := Option.bind_eq_some_iff.mp h
      dsimp only at h
      split at h
      · obtain ⟨status, hstatus⟩ := hquiet h
        cases hstatus
      · obtain rfl := Option.some.inj h
        exact absurd rfl hne
    · unfold graceSleep at h
      obtain ⟨w, hw, rfl⟩ := Option.map_eq_some_iff.mp h
      exact absurd rfl hne
    · unfold escalate at h
      obtain ⟨w, hw, h⟩ := Option.bind_eq_some_iff.mp h
      split_ifs at h
      · obtain ⟨status, hstatus⟩ := hquiet h
        cases hstatus
      · obtain ⟨status, hstatus⟩ := hquiet h
        cases hstatus
  case h_3 | h_5 | h_6 =>
    obtain ⟨status, hstatus⟩ := hquiet h
    cases hstatus
  case h_7 => cases h

/-- An attempt past its first poll does not come back to it. -/
theorem call_ne_firstPoll {os : OsMoment} (h : s.call timeout os = some t)
    (hne : s.attempt.pc ≠ .firstPoll) : t.attempt.pc ≠ .firstPoll := by
  obtain ⟨⟨es, hes⟩, -⟩ := machines_call h
  exact @exec_invariant _ _ (attemptStep timeout) (fun a => a.pc ≠ .firstPoll)
    (fun _ _ _ _ hab => attemptStep_ne_firstPoll hab) es _ _ hne hes

/-- The first poll after the exit of the child ends the attempt. -/
theorem firstPoll_exited {os : OsMoment} (h : s.call timeout os = some t)
    (hpc : s.attempt.pc = .firstPoll) (hfits : ProcessFits s.world) (hexited : Exited s.world)
    (hwait : os.waitFails = none) :
    t.attempt = { pc := .returned (.ok true), child := none } := by
  obtain ⟨status, hstatus⟩ := stdTryWait_exited hfits hexited
  obtain ⟨⟨pc, child⟩, world, clock, calls⟩ := s
  obtain rfl : pc = .firstPoll := hpc
  have hcall : poll ⟨⟨.firstPoll, child⟩, world, clock, calls⟩ timeout os = some t := h
  unfold poll at hcall
  obtain ⟨w, -, hcall⟩ := Option.bind_eq_some_iff.mp hcall
  rw [hwait] at hcall
  simp only [hstatus] at hcall
  obtain ⟨a, ha, rfl⟩ := Option.map_eq_some_iff.mp hcall
  exact (Option.some.inj ha).symm

end UnixAttempt

/-! ## The invariant -/

/-- **The invariant of the recovery and its child.** -/
structure Drained (s : UnixSystem C) : Prop where
  sound : SystemSound s
  owned : Owned s.system
  fits : ProcessFits s.world
  /-- A child is taken out of the slot only when it has been reaped. -/
  reaped : s.system.reaped ≠ [] → s.world.status.isSome

namespace UnixSystem

variable {s t : UnixSystem C}

/-- A fresh protocol over a handle as the crate hands it out. -/
theorem drained_prepare {world : World} (h : HandedOut world) (clock : Instant) :
    Drained (prepare world clock : UnixSystem C) := by
  refine ⟨sound_handedOut h clock, .prepare, ?_, fun hne => absurd rfl hne⟩
  rcases h with rfl | ⟨status, rfl⟩
  · simp [ProcessFits, prepare, World.spawned]
  · simp [ProcessFits, prepare, World.finalized]

/-- What a move keeps of the process. -/
theorem ages_move {move : UnixMove C} (h : ProcessFits s.world) (ht : s.step move = some t) :
    Ages s.world t.world := by
  obtain ⟨es, hes⟩ := exec_world (exec_single ht)
  exact ages_exec h hes

/-- **The step lemma.** -/
theorem drained_step {move : UnixMove C} (h : Drained s) (ht : s.step move = some t) :
    Drained t := by
  obtain ⟨hfits, -, hstatus⟩ := ages_move h.fits ht
  refine ⟨sound_step h.sound ht, ?_, hfits, fun hreaped => ?_⟩
  · obtain ⟨es, hes⟩ := exec_system (exec_single ht)
    exact exec_invariant (fun _ _ _ hs hst => Owned.step hs hst) h.owned hes
  · have hkept : t.system.reaped = s.system.reaped → t.world.status.isSome := by
      intro hsame
      rw [hsame] at hreaped
      exact hstatus (h.reaped hreaped)
    rcases move with e | os | _
    · obtain ⟨system, hsystem, rfl⟩ := Option.map_eq_some_iff.mp ht
      apply hkept
      cases clientStep_move hsystem <;> rfl
    · cases work_move ht with
      | protocol e system clock hstep hquiet => exact hkept (workerStep_reaped hstep hquiet)
      | call timeout response pc a hw ha =>
          by_cases hsame : a.attempt.child = s.system.child
          · apply hkept
            show takenOut s.system.child a.attempt.child ++ s.system.reaped = s.system.reaped
            rw [hsame, takenOut_self, List.nil_append]
          · exact UnixAttempt.status_of_call ha hsame
    · obtain ⟨world, -, rfl⟩ := Option.map_eq_some_iff.mp ht
      exact hkept rfl

end UnixSystem

/-! ## The worker without a client -/

/-- The calls that are left of an attempt on a child that has exited: its first poll ends it, and any
other point leads past it. `done` and `again` are what is left after its return, with the slot empty
or not. -/
def UnixAttempt.exitLeft (timeout : Duration) (done again : ℕ) (a : UnixAttempt C) : ℕ :=
  match a.attempt.pc with
  | .firstPoll => done + 1
  | .returned _ => if a.attempt.child.isNone then done else again
  | _ => a.rank timeout + again

/-- A call of an attempt on a child that has exited. -/
theorem UnixAttempt.exitLeft_lt {timeout : Duration} {done again : ℕ} (hle : done ≤ again)
    {s t : UnixAttempt C} {os : OsMoment} (h : s.step timeout os = some t)
    (hrank : t.rank timeout < s.rank timeout) (hfits : ProcessFits (s.elapse os).world)
    (hexited : Exited (s.elapse os).world) (hwait : os.waitFails = none) :
    t.exitLeft timeout done again < s.exitLeft timeout done again := by
  by_cases hpc : s.attempt.pc = .firstPoll
  · have ht := firstPoll_exited h hpc hfits hexited hwait
    unfold exitLeft
    rw [hpc, ht]
    simp
  · have hpc' : t.attempt.pc ≠ .firstPoll := call_ne_firstPoll h hpc
    have hbefore : s.exitLeft timeout done again = s.rank timeout + again := by
      unfold exitLeft
      split
      · next hfirst => exact absurd hfirst hpc
      · next hreturned =>
          exfalso
          simp [rank, pollsLeft, phase, hreturned] at hrank
      · rfl
    rw [hbefore]
    unfold exitLeft
    split
    · next hfirst => exact absurd hfirst hpc'
    · split_ifs
      · omega
      · omega
    · omega

namespace UnixSystem

variable {s t : UnixSystem C}

/-- The steps that are left when the client is gone and the child has exited: those for the messages,
then those of the loop after the receive loop. -/
def callsLeft (s : UnixSystem C) : ℕ :=
  match s.system.worker with
  | .recv => 4 * s.system.queue.length + 8
  | .attempting timeout (some _) pc =>
      (s.attempt pc).exitLeft timeout (4 * s.system.queue.length + 10)
        (4 * s.system.queue.length + 10)
  | .attempting timeout none pc => (s.attempt pc).exitLeft timeout 2 6
  | .responding _ _ => 4 * s.system.queue.length + 9
  | .checking => if s.system.child.isSome then 4 else 1
  | .sleeping => 5
  | .ended => 0

/-- A fresh attempt on a child that has exited is at most one call. -/
theorem exitLeft_enter (timeout : Duration) (done : ℕ) (child : Option C) (world : World)
    (clock : Instant) (calls : List UnixCall) :
    UnixAttempt.exitLeft timeout done done
      ⟨⟨(Attempt.enter child).pc, child⟩, world, clock, calls⟩ ≤ done + 1 := by
  unfold UnixAttempt.exitLeft Attempt.enter
  rcases child with _ | c
  · simp
  · simp

/-- The worker receives a message, or the disconnect. -/
theorem drains_recv (hclient : s.system.client = .dropped)
    (hw : s.system.worker = .recv) (os : OsMoment) :
    ∃ t, s.step (.worker os) = some t ∧ t.callsLeft < s.callsLeft := by
  have hbefore : s.callsLeft = 4 * s.system.queue.length + 8 := by
    unfold callsLeft
    rw [hw]
  rcases hq : s.system.queue with _ | ⟨child | ⟨timeout, response⟩, queue⟩
  · have hstep : s.system.workerStep .disconnected = some { s.system with worker := .checking } := by
      simp [System.workerStep, hw, hq, hclient, ClientPc.isDropped]
    refine ⟨_, work_of_protocol (by simp [work, elapse, hw, hq]) hstep, ?_⟩
    rw [hbefore]
    simp only [callsLeft]
    split_ifs <;> omega
  · have hstep : s.system.workerStep .recv = some { s.system with
        queue, child := some child, overwritten := s.system.child.toList ++ s.system.overwritten } := by
      simp [System.workerStep, hw, hq]
    refine ⟨_, work_of_protocol (by simp [work, elapse, hw, hq]) hstep, ?_⟩
    rw [hbefore, hq]
    simp [callsLeft, hw]
  · have hstep : s.system.workerStep .recv = some { s.system with
        queue
        worker := .attempting timeout (some response) (Attempt.enter s.system.child).pc } := by
      simp [System.workerStep, hw, hq]
    refine ⟨_, work_of_protocol (by simp [work, elapse, hw, hq]) hstep, ?_⟩
    have hfresh := exitLeft_enter timeout (4 * queue.length + 10) s.system.child
      (s.elapse os).world (s.elapse os).clock []
    rw [hbefore, hq, List.length_cons]
    exact Nat.lt_of_le_of_lt hfresh (by omega)

/-- The worker stores the result of an attempt that has returned. -/
theorem drains_store {timeout : Duration} {response : Option ℕ} {result : IoResult Bool}
    (hw : s.system.worker = .attempting timeout response (.returned result)) (os : OsMoment) :
    ∃ t, s.step (.worker os) = some t ∧ t.callsLeft < s.callsLeft := by
  rcases response with _ | response
  · have hstep : s.system.workerStep .store = some { s.system with
        pending := s.system.child.isSome
        worker := if s.system.child.isSome then .sleeping else .checking } := by
      simp [System.workerStep, hw]
    refine ⟨_, work_of_protocol (by simp [work, elapse, hw]) hstep, ?_⟩
    rcases hchild : s.system.child with _ | c
    · simp [callsLeft, hw, hchild, attempt, UnixAttempt.exitLeft]
    · simp [callsLeft, hw, hchild, attempt, UnixAttempt.exitLeft]
  · have hstep : s.system.workerStep .store = some { s.system with
        pending := s.system.child.isSome, worker := .responding response result } := by
      simp [System.workerStep, hw]
    refine ⟨_, work_of_protocol (by simp [work, elapse, hw]) hstep, ?_⟩
    simp [callsLeft, hw, attempt, UnixAttempt.exitLeft]

/-- The attempt in progress makes its next call. -/
theorem drains_call (h : Drained s) {timeout : Duration} {response : Option ℕ} {pc : AttemptPc}
    (hw : s.system.worker = .attempting timeout response pc) (hrun : ∀ r, pc ≠ .returned r)
    (os : OsMoment) :
    ∃ t, s.step (.worker os) = some t ∧
      (Exited (s.elapse os).world → os.waitFails = none → t.callsLeft < s.callsLeft) := by
  have hserves := h.sound.serves
  rw [hw] at hserves
  obtain ⟨⟨slot, hattempt⟩, -⟩ := hserves
  obtain ⟨a, ha, -, hrank⟩ :=
    UnixAttempt.step_advances hattempt (fun hreturned => hrun _ hreturned.choose_spec) os
  have hstep := @step_of_attempt _ _ _ response _ _ _ hw ha
  refine ⟨_, hstep, fun hexited hwait => ?_⟩
  have hfits : ProcessFits ((s.attempt pc).elapse os).world := by
    obtain ⟨es, hes⟩ := s.exec_elapse os
    exact (ages_exec h.fits hes).1
  have hlt : ∀ {done again : ℕ}, done ≤ again →
      a.exitLeft timeout done again < (s.attempt pc).exitLeft timeout done again :=
    fun hle => UnixAttempt.exitLeft_lt hle ha hrank hfits hexited hwait
  have hbefore : ∀ {u : UnixSystem C} {b : UnixAttempt C},
      u.system.worker = .attempting timeout response b.attempt.pc → u.attempt b.attempt.pc = b →
      u.callsLeft = match response with
        | some _ => b.exitLeft timeout (4 * u.system.queue.length + 10)
            (4 * u.system.queue.length + 10)
        | none => b.exitLeft timeout 2 6 := by
    intro u b hu hb
    unfold callsLeft
    rw [hu]
    rcases response with _ | response
    · dsimp only
      rw [hb]
    · dsimp only
      rw [hb]
  rw [@hbefore s (s.attempt pc) hw rfl,
    @hbefore ((s.elapse os).withAttempt timeout response a) a rfl rfl]
  rcases response with _ | response
  · exact hlt (by omega)
  · exact hlt (Nat.le_refl _)

/-- **What the worker does without its client**: until it has ended it takes a step, and once the child
has exited each step whose poll does not fail leaves fewer of them. -/
theorem drains_step (h : Drained s) (hclient : s.system.client = .dropped)
    (hrun : s.system.worker ≠ .ended) (os : OsMoment) :
    ∃ t, s.step (.worker os) = some t ∧
      (Exited (s.elapse os).world → os.waitFails = none → t.callsLeft < s.callsLeft) := by
  rcases hw : s.system.worker with _ | ⟨timeout, response, pc⟩ | ⟨response, result⟩ | _ | _ | _
  case recv =>
    obtain ⟨t, ht, hlt⟩ := drains_recv hclient hw os
    exact ⟨t, ht, fun _ _ => hlt⟩
  case attempting =>
    by_cases hreturned : ∃ r, pc = .returned r
    · obtain ⟨r, rfl⟩ := hreturned
      obtain ⟨t, ht, hlt⟩ := drains_store hw os
      exact ⟨t, ht, fun _ _ => hlt⟩
    · exact drains_call h hw (fun r hr => hreturned ⟨r, hr⟩) os
  case responding =>
    have hstep : s.system.workerStep .respond = some { s.system with
        responses := (response, result) :: s.system.responses, worker := .recv } := by
      simp [System.workerStep, hw]
    refine ⟨_, work_of_protocol (by simp [work, elapse, hw]) hstep, fun _ _ => ?_⟩
    simp [callsLeft, hw]
  case checking =>
    have hstep : s.system.workerStep .check = some { s.system with
        worker := if s.system.child.isSome then
            .attempting attemptCap none (Attempt.enter s.system.child).pc
          else .ended } := by
      simp [System.workerStep, hw]
    refine ⟨_, work_of_protocol (by simp [work, elapse, hw]) hstep, fun _ _ => ?_⟩
    rcases hchild : s.system.child with _ | c
    · simp [callsLeft, hw, hchild]
    · simp [callsLeft, hw, hchild, attempt, UnixAttempt.exitLeft, Attempt.enter]
  case sleeping =>
    refine ⟨{ s.elapse os with
      system := { s.system with worker := .checking }
      clock := (s.elapse os).clock + pause, calls := [] }, ?_, fun _ _ => ?_⟩
    · simp [step, work, protocol, elapse, hw, System.workerStep]
    · simp only [callsLeft, hw]
      split_ifs
      · omega
      · omega
  case ended => exact absurd hw hrun

/-- A step of the worker leaves the dropped client and the attached child as they are. -/
theorem worker_step_client {os : OsMoment} (ht : s.step (.worker os) = some t) :
    t.system.client = s.system.client ∧ t.system.attached = s.system.attached := by
  have hsystem : (s.elapse os).system = s.system := rfl
  cases work_move ht with
  | protocol e system clock hstep hquiet =>
      rw [hsystem] at hstep
      cases workerStep_move hstep <;> exact ⟨rfl, rfl⟩
  | call timeout response pc a hw ha => exact ⟨rfl, rfl⟩

/-- A child that has exited by the moment of a step has exited after it. -/
theorem exited_step {os : OsMoment} (h : Drained s) (ht : s.step (.worker os) = some t) :
    (Exited s.world ∨ os.exits.isSome → Exited (s.elapse os).world) ∧
      (Exited (s.elapse os).world → Exited t.world) := by
  constructor
  · intro hexits
    unfold elapse
    rcases hprocess : s.world.process with _ | status | _
    · have hsome : os.exits.isSome := hexits.resolve_left fun hexited => hexited hprocess
      obtain ⟨status, hstatus⟩ := Option.isSome_iff_exists.mp hsome
      simp [hstatus, World.step, hprocess, Exited]
    · rcases os.exits with _ | status <;> simp [World.step, hprocess, Exited]
    · rcases os.exits with _ | status <;> simp [World.step, hprocess, Exited]
  · intro hexited
    obtain ⟨es, hes⟩ := s.exec_elapse os
    have hfits := (ages_exec h.fits hes).1
    cases work_move ht with
    | protocol e system clock hstep hquiet => exact hexited
    | call timeout response pc a hw ha =>
        obtain ⟨-, fs, hfs⟩ := UnixAttempt.machines_call ha
        exact (ages_exec hfits hfs).2.1 hexited

end UnixSystem

/-- The invariant, with the controller dropped and a given child attached. -/
structure Abandoned (attached : Option C) (s : UnixSystem C) : Prop where
  drained : Drained s
  client : s.system.client = .dropped
  attached : s.system.attached = attached

/-- A step of the worker. -/
theorem Abandoned.step {attached : Option C} {s t : UnixSystem C} {os : OsMoment}
    (h : Abandoned attached s) (ht : s.step (.worker os) = some t) : Abandoned attached t := by
  obtain ⟨hclient, hattached⟩ := UnixSystem.worker_step_client ht
  exact ⟨UnixSystem.drained_step h.drained ht, hclient.trans h.client, hattached.trans h.attached⟩

/-- The worker of a dropped controller takes a step until it has ended. -/
theorem Abandoned.keeps {attached : Option C} {s : UnixSystem C} (h : Abandoned attached s)
    (hrun : s.system.worker ≠ .ended) (os : OsMoment) :
    ∃ t, s.step (.worker os) = some t ∧ Abandoned attached t := by
  obtain ⟨t, ht, -⟩ := UnixSystem.drains_step h.drained h.client hrun os
  exact ⟨t, ht, h.step ht⟩

/-- A step after the exit leaves the child exited, and fewer steps if its poll does not fail. -/
theorem Abandoned.step_exited {attached : Option C} {s t : UnixSystem C} {os : OsMoment}
    (h : Abandoned attached s) (hexited : Exited s.world) (ht : s.step (.worker os) = some t) :
    Exited t.world ∧ (os.waitFails = none → t.callsLeft < s.callsLeft) := by
  obtain ⟨hbefore, hafter⟩ := UnixSystem.exited_step h.drained ht
  have hnow := hbefore (.inl hexited)
  refine ⟨hafter hnow, fun hwait => ?_⟩
  have hrun : s.system.worker ≠ .ended := by
    intro hended
    have hended' : (s.elapse os).system.worker = .ended := hended
    simp [UnixSystem.step, UnixSystem.work, hended'] at ht
  obtain ⟨t', ht', hlt⟩ := UnixSystem.drains_step h.drained h.client hrun os
  obtain rfl : t' = t := Option.some.inj (ht'.symm.trans ht)
  exact hlt hnow hwait

/-- Once the child has exited and no poll fails any more, the worker ends. -/
theorem Abandoned.ends {attached : Option C} {s t : UnixSystem C} (h : Abandoned attached s)
    {os : ℕ → OsMoment} {N n : ℕ} (hwait : ∀ n, N < n → (os n).waitFails = none)
    (ht : exec UnixSystem.step s (UnixSystem.ticks os n) = some t) (hexited : Exited t.world) :
    ∃ n t, exec UnixSystem.step s (UnixSystem.ticks os n) = some t ∧ t.system.worker = .ended := by
  let work : UnixSystem C → OsMoment → Option (UnixSystem C) := fun u m => u.step (.worker m)
  rw [s.exec_ticks os n] at ht
  have hkept : Abandoned attached t := exec_invariant (fun _ _ _ hu hv => hu.step hv) h ht
  have hstay : ∀ u m v, Abandoned attached u ∧ Exited u.world → work u m = some v →
      Abandoned attached v ∧ Exited v.world :=
    fun u m v hu hv => ⟨hu.1.step hv, (hu.1.step_exited hu.2 hv).1⟩
  have hlower : ∀ u m v, m.waitFails = none → Abandoned attached u → Exited u.world →
      work u m = some v → v.callsLeft < u.callsLeft :=
    fun u m v hm hu hx hv => (hu.step_exited hx hv).2 hm
  obtain ⟨k, u, hu, -, hended⟩ := exec_reaches_from (fun u m hu hrun => hu.keeps hrun m) hstay hlower
    hwait h ht hkept hexited
  exact ⟨k, u, (s.exec_ticks os k).trans hu, hended⟩

/-- What a worker that has ended leaves behind. -/
theorem Abandoned.ended {attached : Option C} {s : UnixSystem C} (h : Abandoned attached s)
    (hended : s.system.worker = .ended) :
    s.system.queue = [] ∧ s.system.child = none ∧ s.system.reaped = attached.toList ∧
      s.system.overwritten = [] ∧ (attached.isSome → s.world.process = .reaped) := by
  obtain ⟨hdrained, -, rfl⟩ := h
  obtain ⟨hqueue, hslot, hreaped, hkept⟩ := hdrained.owned.ended hended
  refine ⟨hqueue, hslot, hreaped, hkept, fun hsome => ?_⟩
  obtain ⟨c, hc⟩ := Option.isSome_iff_exists.mp hsome
  apply hdrained.fits.mp
  apply hdrained.reaped
  rw [hreaped]
  simp [hc]

/-- If the child exits at some moment, the worker comes to a state in which it has exited, or ends
before. -/
theorem Abandoned.comes_to_exit {attached : Option C} {s : UnixSystem C} (h : Abandoned attached s)
    {os : ℕ → OsMoment} {N : ℕ} (hexits : (os N).exits.isSome) :
    ∃ n t, exec UnixSystem.step s (UnixSystem.ticks os n) = some t ∧
      (t.system.worker = .ended ∨ Exited t.world) := by
  rcases exec_runs_or_final os (fun u m hu hrun => hu.keeps hrun m) h N with
    ⟨n, t, ht, -, hended⟩ | ⟨t, ht, hkept⟩
  · exact ⟨n, t, (s.exec_ticks os n).trans ht, .inl hended⟩
  · rw [← s.exec_ticks os N] at ht
    by_cases hended : t.system.worker = .ended
    · exact ⟨N, t, ht, .inl hended⟩
    · obtain ⟨u, hu, -⟩ := hkept.keeps hended (os N)
      obtain ⟨hbefore, hafter⟩ := UnixSystem.exited_step hkept.drained hu
      refine ⟨N + 1, u, ?_, .inr (hafter (hbefore (.inr hexits)))⟩
      rw [UnixSystem.ticks, List.range_succ, List.map_append, exec_append]
      show (exec UnixSystem.step s (UnixSystem.ticks os N)).bind _ = _
      rw [ht]
      exact exec_single hu

/-- **A dropped recovery reaps its child.** Let the controller be dropped at any moment of any run,
with whatever the worker is doing and whatever is queued. If the child exits at some moment and no
poll after it fails, then the worker ends after finitely many of its steps, and by then the channel
and the slot are empty, the attached child was taken out of the slot after a poll reported its exit,
none was dropped from it, and the process has been reaped. Until then every step can be taken.
Source: `lib.rs` `failed_child_recovery_worker`, `attempt_failed_child_recovery` -/
theorem dropped_recovery_reaps {world : World} (h0 : HandedOut world) (clock : Instant)
    {moves : List (UnixMove C)} {s : UnixSystem C}
    (hrun : exec UnixSystem.step (.prepare world clock) moves = some s)
    (hclient : s.system.client = .dropped) {os : ℕ → OsMoment} {N : ℕ}
    (hexits : (os N).exits.isSome) (hwait : ∀ n, N < n → (os n).waitFails = none) :
    ∃ n t, exec UnixSystem.step s (UnixSystem.ticks os n) = some t ∧
      t.system.worker = .ended ∧ t.system.queue = [] ∧ t.system.child = none ∧
      t.system.reaped = s.system.attached.toList ∧ t.system.overwritten = [] ∧
      (s.system.attached.isSome → t.world.process = .reaped) := by
  have hdrained : Drained s := exec_invariant (fun _ _ _ hs ht => UnixSystem.drained_step hs ht)
    (UnixSystem.drained_prepare h0 clock) hrun
  have hstart : Abandoned s.system.attached s := ⟨hdrained, hclient, rfl⟩
  obtain ⟨n, t, ht, hended⟩ : ∃ n t, exec UnixSystem.step s (UnixSystem.ticks os n) = some t ∧
      t.system.worker = .ended := by
    obtain ⟨n, t, ht, hended | hexited⟩ := hstart.comes_to_exit hexits
    · exact ⟨n, t, ht, hended⟩
    · exact hstart.ends hwait ht hexited
  have hkept : Abandoned s.system.attached t := by
    rw [s.exec_ticks os n] at ht
    exact exec_invariant (fun _ _ _ hu hv => hu.step hv) hstart ht
  exact ⟨n, t, ht, hended, hkept.ended hended⟩

/-- The client gives up on an attempt and goes away before the worker has received anything. -/
def givenUpMoves : List (UnixMove Unit) :=
  [.client (.attachStore ()), .client .attachSend, .client (.attemptLoad 0), .client .attemptSend,
    .client (.attemptGiveUp .timeout), .client .drop]

/-- The signals are refused throughout, and the child exits at the moment number 12. -/
def lateExit (n : ℕ) : OsMoment where
  exits := if n = 12 then some (ExitStatus.withExitCode 0) else none
  waitFails := none
  sighup := .error (.os 1)
  sigkill := .error (.os 1)
  elapsed := 0

/-- The worker that was given up on reaps its child. -/
theorem dropped_recovery_reaps_given_up :
    ∃ s, exec UnixSystem.step (.prepare .spawned 0) givenUpMoves = some s ∧
      ∃ n t, exec UnixSystem.step s (UnixSystem.ticks lateExit n) = some t ∧
        t.system.worker = .ended ∧ t.system.queue = [] ∧ t.system.child = none ∧
        t.system.reaped = s.system.attached.toList ∧ t.system.overwritten = [] ∧
        (s.system.attached.isSome → t.world.process = .reaped) :=
  ⟨_, rfl, @dropped_recovery_reaps Unit .spawned (.inl rfl) 0 givenUpMoves _ rfl rfl lateExit 12 rfl
    fun _ _ => rfl⟩

end SysprimsPty.Recovery
