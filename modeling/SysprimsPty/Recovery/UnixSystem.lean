import SysprimsPty.Recovery.Ownership
import SysprimsPty.Recovery.UnixBound
import SysprimsPty.Recovery.UnixSignals

/-!
# The recovery protocol over a Unix child

The protocol, the child handle that its worker polls and kills, and a clock, put together. A move is a
step of the client, the worker's next step with what the system answers at that moment, or a reuse of
the pid; a run of moves is one interleaving under one behaviour of the system.

* `UnixSystem.step` — the moves.
* `exec_system`, `exec_world` — a run is a run of the protocol, and a run of the child handle.
* `SystemSound` — the invariant: the ownership invariant of the protocol, and for an attempt in
  progress its own invariants.
* `recovery_signals_hit_child` — no signal of the worker strays, in the whole life of the protocol.
-/

namespace SysprimsPty.Recovery

open SysprimsPty.Core
open SysprimsPty.Found
open SysprimsPty.Process

/-! ## The system -/

/-- The protocol, the child behind it, the clock and the calls of the attempt in progress, newest
first. -/
structure UnixSystem (C : Type) where
  system : System C
  world : World
  clock : Instant
  calls : List UnixCall

/-- A move of the client, of the worker or of the operating system. -/
inductive UnixMove (C : Type)
  | client (event : ClientEvent C)
  /-- The next step of the worker. -/
  | worker (os : OsMoment)
  /-- The system gives the free pid to another process. -/
  | reuse

variable {C : Type}

namespace UnixSystem

/-- A fresh protocol beside a child on whose handle no call is in progress. -/
def prepare (world : World) (clock : Instant) : UnixSystem C where
  system := .prepare
  world := { world with pc := .idle }
  clock
  calls := []

/-- The attempt in progress at the point `pc`. -/
def attempt (s : UnixSystem C) (pc : AttemptPc) : UnixAttempt C where
  attempt := { pc, child := s.system.child }
  world := s.world
  clock := s.clock
  calls := s.calls

/-- The attempt has moved on to `a`. -/
def withAttempt (s : UnixSystem C) (timeout : Duration) (response : Option ℕ) (a : UnixAttempt C) :
    UnixSystem C where
  system := { s.system with
    worker := .attempting timeout response a.attempt.pc
    child := a.attempt.child
    reaped := takenOut s.system.child a.attempt.child ++ s.system.reaped }
  world := a.world
  clock := a.clock
  calls := a.calls

/-- What happens before a step of the worker. -/
def elapse (s : UnixSystem C) (os : OsMoment) : UnixSystem C :=
  { s with
    world := (os.exits.bind fun status => s.world.step (.exit status)).getD s.world
    clock := s.clock + os.elapsed }

/-- A step of the worker that makes no call on the child. -/
def protocol (s : UnixSystem C) (e : WorkerEvent) : Option (UnixSystem C) :=
  (s.system.workerStep e).map fun system => { s with system, calls := [] }

/-- The next step of the worker; `none`: it is blocked in `recv`, or has returned.
Source: `lib.rs` `failed_child_recovery_worker` -/
def work (s : UnixSystem C) (os : OsMoment) : Option (UnixSystem C) :=
  match s.system.worker with
  | .recv => s.protocol (if s.system.queue.isEmpty then .disconnected else .recv)
  | .attempting _ _ (.returned _) => s.protocol .store
  | .attempting timeout response pc =>
      ((s.attempt pc).call timeout os).map (s.withAttempt timeout response)
  | .responding _ _ => s.protocol .respond
  | .checking => s.protocol .check
  | .sleeping => (s.protocol .slept).map fun s => { s with clock := s.clock + pause }
  | .ended => none

/-- One move. -/
def step (s : UnixSystem C) : UnixMove C → Option (UnixSystem C)
  | .client e => (s.system.clientStep e).map fun system => { s with system }
  | .worker os => (s.elapse os).work os
  | .reuse => (s.world.step .reuse).map fun world => { s with world }

/-- The steps of the worker under a stream of answers. -/
def ticks (os : ℕ → OsMoment) (n : ℕ) : List (UnixMove C) :=
  (List.range n).map fun i => .worker (os i)

end UnixSystem

/-- The steps of the worker are a run of it alone. -/
theorem UnixSystem.exec_ticks (s : UnixSystem C) (os : ℕ → OsMoment) (n : ℕ) :
    exec UnixSystem.step s (UnixSystem.ticks os n) =
      exec (fun u m => u.step (.worker m)) s ((List.range n).map os) := by
  have hmap := @exec_map _ _ UnixSystem.step _ UnixMove.worker s ((List.range n).map os)
  rw [List.map_map] at hmap
  exact hmap

/-! ## The protocol and the child handle in it -/

/-- An attempt that has returned makes no call. -/
theorem attemptStep_returned (timeout : Duration) (result : IoResult Bool) (child : Option C)
    (e : AttemptEvent) : attemptStep timeout ⟨.returned result, child⟩ e = none := by
  rcases e with answer | answer | t | _
  · rcases answer with e | _ | status <;> rfl
  · rcases answer with e | _ <;> rfl
  · rfl
  · rfl

/-- The child is taken out at most once along a run of an attempt. -/
theorem takenOut_append_takenOut {timeout : Duration} {a b c : Attempt C} {e : AttemptEvent}
    {es : List AttemptEvent} (h : attemptStep timeout a e = some b)
    (hrun : exec (attemptStep timeout) b es = some c) :
    takenOut b.child c.child ++ takenOut a.child b.child = takenOut a.child c.child := by
  rcases attemptStep_cases h with ⟨hchild, -, -⟩ | ⟨-, -, hpc⟩
  · rw [hchild, takenOut_self, List.append_nil]
  · obtain ⟨bpc, bchild⟩ := b
    obtain rfl : bpc = .returned (.ok true) := hpc
    rcases es with _ | ⟨e', es⟩
    · obtain rfl := Option.some.inj hrun
      rw [takenOut_self, List.nil_append]
    · rw [exec_cons, attemptStep_returned] at hrun
      cases hrun

/-- A run of an attempt is a run of the worker inside it. -/
theorem exec_worker_calls {timeout : Duration} {response : Option ℕ} {s : System C} {a b : Attempt C}
    {es : List AttemptEvent} (h : exec (attemptStep timeout) a es = some b) :
    exec System.step { s with worker := .attempting timeout response a.pc, child := a.child }
        (es.map fun e => .worker (.call e)) =
      some { s with
        worker := .attempting timeout response b.pc
        child := b.child
        reaped := takenOut a.child b.child ++ s.reaped } := by
  induction es generalizing a s with
  | nil =>
      obtain rfl := Option.some.inj h
      rw [takenOut_self]
      rfl
  | cons e es ih =>
      rw [exec_cons, Option.bind_eq_some_iff] at h
      obtain ⟨c, hc, hrest⟩ := h
      have hstep : ({ s with worker := .attempting timeout response a.pc, child := a.child } :
          System C).step (.worker (.call e)) = some { s with
            worker := .attempting timeout response c.pc
            child := c.child
            reaped := takenOut a.child c.child ++ s.reaped } := by
        simp [System.step, System.workerStep, hc]
      have hrest' := @ih { s with reaped := takenOut a.child c.child ++ s.reaped } c hrest
      rw [List.map_cons, exec_cons, hstep, Option.bind_some, hrest', ← List.append_assoc,
        takenOut_append_takenOut hc hrest]

/-- What a step of the worker can do. -/
inductive WorkMove (s : UnixSystem C) (os : OsMoment) : UnixSystem C → Prop
  /-- A step that makes no call on the child; an attempt begins without calls. -/
  | protocol (e : WorkerEvent) (system : System C) (clock : Instant)
      (hstep : s.system.workerStep e = some system) (hquiet : ∀ event, e ≠ .call event) :
      WorkMove s os { s with system, clock, calls := [] }
  | call (timeout : Duration) (response : Option ℕ) (pc : AttemptPc) (a : UnixAttempt C)
      (hw : s.system.worker = .attempting timeout response pc)
      (ha : (s.attempt pc).call timeout os = some a) :
      WorkMove s os (s.withAttempt timeout response a)

namespace UnixSystem

variable {s t : UnixSystem C}

/-- A step of the worker that makes no call on the child. -/
theorem protocol_move {e : WorkerEvent} {os : OsMoment} (h : s.protocol e = some t)
    (hquiet : ∀ event, e ≠ .call event) : WorkMove s os t := by
  obtain ⟨system, hsystem, rfl⟩ := Option.map_eq_some_iff.mp h
  exact .protocol e system s.clock hsystem hquiet

/-- Every step of the worker is one of its moves. -/
theorem work_move {os : OsMoment} (h : s.work os = some t) : WorkMove s os t := by
  unfold work at h
  split at h
  · split at h
    · exact protocol_move h (by simp)
    · exact protocol_move h (by simp)
  · exact protocol_move h (by simp)
  · next timeout response pc _ hw =>
      obtain ⟨a, ha, rfl⟩ := Option.map_eq_some_iff.mp h
      exact .call timeout response pc a hw ha
  · exact protocol_move h (by simp)
  · exact protocol_move h (by simp)
  · obtain ⟨u, hu, rfl⟩ := Option.map_eq_some_iff.mp h
    obtain ⟨system, hsystem, rfl⟩ := Option.map_eq_some_iff.mp hu
    exact .protocol .slept system _ hsystem (by simp)
  · cases h

/-- The step that `e` is of the worker, where it makes no call on the child. -/
theorem work_of_protocol {e : WorkerEvent} {system : System C} {os : OsMoment}
    (hwork : (s.elapse os).work os = (s.elapse os).protocol e)
    (h : s.system.workerStep e = some system) :
    s.step (.worker os) = some { s.elapse os with system, calls := [] } := by
  have hsame : (s.elapse os).system.workerStep e = some system := h
  show (s.elapse os).work os = _
  rw [hwork, protocol, hsame]
  rfl

/-- A step of the attempt in progress is a step of the worker. -/
theorem step_of_attempt {timeout : Duration} {response : Option ℕ} {pc : AttemptPc} {os : OsMoment}
    {a : UnixAttempt C} (hw : s.system.worker = .attempting timeout response pc)
    (ha : (s.attempt pc).step timeout os = some a) :
    s.step (.worker os) = some ((s.elapse os).withAttempt timeout response a) := by
  have hw' : (s.elapse os).system.worker = .attempting timeout response pc := hw
  have hcall : ((s.elapse os).attempt pc).call timeout os = some a := ha
  show (s.elapse os).work os = _
  unfold work
  rw [hw']
  rcases pc with _ | _ | _ | d | d | d | r
  case returned => cases hcall
  all_goals exact congrArg (Option.map _) hcall

/-- What happens before a step of the worker is nothing or an exit. -/
theorem exec_elapse (s : UnixSystem C) (os : OsMoment) :
    ∃ es, exec World.step s.world es = some (s.elapse os).world := by
  unfold elapse
  rcases hexit : os.exits.bind fun status => s.world.step (.exit status) with _ | w
  · exact ⟨[], rfl⟩
  · obtain ⟨status, -, hw⟩ := Option.bind_eq_some_iff.mp hexit
    exact ⟨[.exit status], exec_single hw⟩

/-- **A run is a run of the protocol.** -/
theorem exec_system {moves : List (UnixMove C)} (h : exec step s moves = some t) :
    ∃ es, exec System.step s.system es = some t.system := by
  refine exec_simulates (fun s move t ht => ?_) h
  rcases move with e | os | _
  · obtain ⟨system, hsystem, rfl⟩ := Option.map_eq_some_iff.mp ht
    exact ⟨[.client e], exec_single hsystem⟩
  · have hsame : (s.elapse os).system = s.system := rfl
    cases work_move ht with
    | protocol e system clock hstep hquiet => exact ⟨[.worker e], exec_single hstep⟩
    | call timeout response pc a hw ha =>
        obtain ⟨⟨es, hes⟩, -⟩ := UnixAttempt.machines_call ha
        refine ⟨es.map fun e => .worker (.call e), ?_⟩
        have hrun := @exec_worker_calls _ timeout response s.system _ _ _ hes
        have hstart : ({ s.system with
            worker := .attempting timeout response pc, child := s.system.child } : System C) =
              s.system := by rw [← hw, hsame]
        rw [← hstart]
        exact hrun
  · obtain ⟨world, -, rfl⟩ := Option.map_eq_some_iff.mp ht
    exact ⟨[], rfl⟩

/-- **A run is a run of the child handle.** -/
theorem exec_world {moves : List (UnixMove C)} (h : exec step s moves = some t) :
    ∃ es, exec World.step s.world es = some t.world := by
  refine exec_simulates (fun s move t ht => ?_) h
  rcases move with e | os | _
  · obtain ⟨system, -, rfl⟩ := Option.map_eq_some_iff.mp ht
    exact ⟨[], rfl⟩
  · obtain ⟨es, hes⟩ := s.exec_elapse os
    cases work_move ht with
    | protocol e system clock hstep hquiet => exact ⟨es, hes⟩
    | call timeout response pc a hw ha =>
        obtain ⟨-, fs, hfs⟩ := UnixAttempt.machines_call ha
        refine ⟨es ++ fs, ?_⟩
        rw [exec_append, hes]
        exact hfs
  · obtain ⟨world, hworld, rfl⟩ := Option.map_eq_some_iff.mp ht
    exact ⟨[.reuse], exec_single hworld⟩

end UnixSystem

/-! ## The invariant -/

/-- What the worker's point says about the child handle: outside of attempts no kill is in progress,
and the attempt in progress keeps its own invariants. -/
def UnixSystem.Serves (s : UnixSystem C) : WorkerPc → Prop
  | .attempting timeout _ pc =>
      (∃ slot, AttemptSound timeout slot (s.attempt pc)) ∧ HitsChild (s.attempt pc)
  | _ => s.world.pc = .idle

/-- **The invariant of the system**: no signal has strayed, and the worker's point fits. -/
structure SystemSound (s : UnixSystem C) : Prop where
  held : PidHeld s.world
  hits : SignalsHitChild s.world
  serves : s.Serves s.system.worker

/-- The invariants of an attempt ask of the world only the point of the kill. -/
theorem AttemptSound.of_world {timeout : Duration} {slot : Option C} {s : UnixAttempt C}
    (h : AttemptSound timeout slot s) {world : World} (hpc : world.pc = s.world.pc) :
    AttemptSound timeout slot { s with world } := by
  refine ⟨?_, h.slot, ?_, h.orderly, ?_⟩
  · intro hne
    exact hpc.trans (h.idle hne)
  · have hstage := h.stage
    unfold UnixAttempt.Stage at hstage ⊢
    dsimp only
    rw [hpc]
    exact hstage
  · have hbudget := h.budget
    unfold UnixAttempt.pollsLeft at hbudget ⊢
    dsimp only
    rw [hpc]
    exact hbudget

/-- A call keeps the invariant, as a step before which nothing happens. -/
theorem AttemptSound.call {timeout : Duration} {slot : Option C} {s t : UnixAttempt C}
    {os : OsMoment} (h : AttemptSound timeout slot s) (ht : s.call timeout os = some t) :
    AttemptSound timeout slot t := by
  have hrun : ¬ ∃ r, s.attempt.pc = .returned r := by
    rintro ⟨r, hr⟩
    unfold UnixAttempt.call at ht
    rw [hr] at ht
    cases ht
  obtain ⟨u, hu, hsound, -⟩ :=
    UnixAttempt.step_advances h hrun { os with exits := none, elapsed := 0 }
  have hsame : some t = some u := ht.symm.trans hu
  rwa [Option.some.inj hsame]

namespace UnixSystem

variable {s t : UnixSystem C}

/-- A fresh attempt on the slot of the worker, while the handle is at rest. -/
theorem attempt_enter (hidle : s.world.pc = .idle) (hcalls : s.calls = []) :
    s.attempt (Attempt.enter s.system.child).pc = .enter s.system.child s.world s.clock := by
  obtain ⟨system, world, clock, calls⟩ := s
  obtain rfl : calls = [] := hcalls
  obtain ⟨process, pid, status, pc, killers, signals⟩ := world
  obtain rfl : pc = .idle := hidle
  unfold attempt UnixAttempt.enter Attempt.enter
  rcases system.child with _ | c <;> rfl

/-- A fresh attempt keeps its own invariants. -/
theorem serves_enter (h : SystemSound s) (hidle : s.world.pc = .idle) (hcalls : s.calls = [])
    (timeout : Duration) (response : Option ℕ) :
    s.Serves (.attempting timeout response (Attempt.enter s.system.child).pc) := by
  refine ⟨⟨s.system.child, ?_⟩, h.held, h.hits, fun hkill => ?_⟩
  · rw [attempt_enter hidle hcalls]
    exact .enter timeout _ _ _
  · rw [attempt_enter hidle hcalls] at hkill
    unfold UnixAttempt.enter Attempt.enter at hkill
    rcases hchild : s.system.child with _ | c
    · simp [hchild] at hkill
    · simp [hchild] at hkill

/-- A step of the worker that makes no call on the child. -/
theorem sound_protocol (h : SystemSound s) {e : WorkerEvent} {system : System C} {clock : Instant}
    (hstep : s.system.workerStep e = some system) (hquiet : ∀ event, e ≠ .call event) :
    SystemSound { s with system, clock, calls := [] } := by
  have hserves := h.serves
  -- between attempts the handle is at rest, so that the next attempt starts afresh
  have hnext : s.world.pc = .idle → ∀ timeout response, SystemSound { s with
      system := { s.system with
        worker := .attempting timeout response (Attempt.enter s.system.child).pc }
      clock, calls := [] } := by
    intro hidle timeout response
    have hrest : SystemSound { s with system := { s.system with worker := .recv }, clock, calls := [] } :=
      ⟨h.held, h.hits, hidle⟩
    exact ⟨h.held, h.hits, serves_enter hrest hidle rfl timeout response⟩
  cases workerStep_move hstep with
  | adopt child queue hw hq =>
      rw [hw] at hserves
      refine ⟨h.held, h.hits, ?_⟩
      dsimp only
      rw [hw]
      exact hserves
  | attempt timeout response queue hw hq =>
      rw [hw] at hserves
      exact ⟨h.held, h.hits, (hnext hserves timeout (some response)).serves⟩
  | disconnected hw hq hc =>
      rw [hw] at hserves
      exact ⟨h.held, h.hits, hserves⟩
  | call timeout response pc event a hw ha => exact absurd rfl (hquiet event)
  | store timeout response result hw =>
      rw [hw] at hserves
      obtain ⟨⟨slot, hattempt⟩, -⟩ := hserves
      exact ⟨h.held, h.hits, hattempt.idle (by simp [UnixSystem.attempt])⟩
  | drainStore timeout result hw =>
      rw [hw] at hserves
      obtain ⟨⟨slot, hattempt⟩, -⟩ := hserves
      have hidle : s.world.pc = .idle := hattempt.idle (by simp [UnixSystem.attempt])
      refine ⟨h.held, h.hits, ?_⟩
      dsimp only
      split_ifs
      · exact hidle
      · exact hidle
  | respond response result hw =>
      rw [hw] at hserves
      exact ⟨h.held, h.hits, hserves⟩
  | again child hw hs =>
      rw [hw] at hserves
      exact hnext hserves attemptCap none
  | stop hw hs =>
      rw [hw] at hserves
      exact ⟨h.held, h.hits, hserves⟩
  | slept hw =>
      rw [hw] at hserves
      exact ⟨h.held, h.hits, hserves⟩

/-- Before and after a change of the world that leaves the kill at its point. -/
theorem serves_world (h : SystemSound s) {world : World} (hpc : world.pc = s.world.pc)
    {clock : Instant}
    (hattempt : ∀ timeout response pc, s.system.worker = .attempting timeout response pc →
      (∃ slot, AttemptSound timeout slot ({ s with world, clock }.attempt pc)) ∧
        HitsChild ({ s with world, clock }.attempt pc)) :
    { s with world, clock }.Serves s.system.worker := by
  have hserves := h.serves
  rcases hw : s.system.worker with _ | ⟨timeout, response, pc⟩ | ⟨response, result⟩ | _ | _ | _
  all_goals rw [hw] at hserves
  case attempting => exact hattempt timeout response pc hw
  all_goals exact hpc.trans hserves

/-- What happens before a step of the worker. -/
theorem sound_elapse (h : SystemSound s) (os : OsMoment) : SystemSound (s.elapse os) := by
  have hrest : HitsChild (UnixAttempt.mk ⟨.firstPoll, s.system.child⟩ s.world s.clock s.calls) :=
    ⟨h.held, h.hits, by simp⟩
  have hafter := UnixAttempt.hitsChild_elapse hrest os
  refine ⟨hafter.held, hafter.hits, ?_⟩
  apply serves_world h
  · exact UnixAttempt.elapse_pc (s.attempt .firstPoll) os
  · intro timeout response pc hw
    have hserves := h.serves
    rw [hw] at hserves
    obtain ⟨⟨slot, hattempt⟩, hhits⟩ := hserves
    exact ⟨⟨slot, (UnixAttempt.elapse_sound hattempt os).1⟩, UnixAttempt.hitsChild_elapse hhits os⟩

/-- A call of the attempt in progress. -/
theorem sound_call (h : SystemSound s) {timeout : Duration} {response : Option ℕ} {pc : AttemptPc}
    {os : OsMoment} {a : UnixAttempt C} (hw : s.system.worker = .attempting timeout response pc)
    (ha : (s.attempt pc).call timeout os = some a) :
    SystemSound (s.withAttempt timeout response a) := by
  have hserves := h.serves
  rw [hw] at hserves
  obtain ⟨⟨slot, hattempt⟩, hhits⟩ := hserves
  have hsound := hattempt.call ha
  have hafter := UnixAttempt.hitsChild_call hhits ha
  exact ⟨hafter.held, hafter.hits, ⟨slot, hsound⟩, hafter⟩

/-- A step of the worker. -/
theorem sound_work (h : SystemSound s) {os : OsMoment} (ht : s.work os = some t) :
    SystemSound t := by
  cases work_move ht with
  | protocol e system clock hstep hquiet => exact sound_protocol h hstep hquiet
  | call timeout response pc a hw ha => exact sound_call h hw ha

/-- A step of the client touches neither the worker nor its slot. -/
theorem sound_client (h : SystemSound s) {e : ClientEvent C} {system : System C}
    (hstep : s.system.clientStep e = some system) : SystemSound { s with system } := by
  have hsame : system.worker = s.system.worker ∧ system.child = s.system.child := by
    cases clientStep_move hstep <;> exact ⟨rfl, rfl⟩
  obtain ⟨hworker, hchild⟩ := hsame
  refine ⟨h.held, h.hits, ?_⟩
  dsimp only
  rw [hworker]
  have hserves := h.serves
  unfold Serves attempt at hserves ⊢
  rw [hchild]
  exact hserves

/-- A reuse of the pid. -/
theorem sound_reuse (h : SystemSound s) {world : World} (hstep : s.world.step .reuse = some world) :
    SystemSound { s with world } := by
  obtain ⟨hheld, hiff⟩ := signals_step h.held hstep
  have hhits : SignalsHitChild world := hiff.mpr ⟨h.hits, callsKillInTime_of_quiet rfl⟩
  have hsame : world.pc = s.world.pc ∧ world.status = s.world.status := by
    simp only [World.step] at hstep
    split_ifs at hstep
    obtain rfl := Option.some.inj hstep
    exact ⟨rfl, rfl⟩
  obtain ⟨hpc, hstatus⟩ := hsame
  refine ⟨hheld, hhits, serves_world h hpc fun timeout response pc hw => ?_⟩
  have hserves := h.serves
  rw [hw] at hserves
  obtain ⟨⟨slot, hattempt⟩, hattemptHits⟩ := hserves
  refine ⟨⟨slot, hattempt.of_world hpc⟩, hheld, hhits, fun hkill hidle => ?_⟩
  exact hstatus.trans (hattemptHits.unreaped hkill (hpc.symm.trans hidle))

/-- **The step lemma.** -/
theorem sound_step (h : SystemSound s) {move : UnixMove C} (ht : s.step move = some t) :
    SystemSound t := by
  rcases move with e | os | _
  · obtain ⟨system, hsystem, rfl⟩ := Option.map_eq_some_iff.mp ht
    exact sound_client h hsystem
  · exact sound_work (sound_elapse h os) ht
  · obtain ⟨world, hworld, rfl⟩ := Option.map_eq_some_iff.mp ht
    exact sound_reuse h hworld

/-- A fresh protocol. -/
theorem sound_prepare {world : World} (hheld : PidHeld world) (hhits : SignalsHitChild world)
    (clock : Instant) : SystemSound (prepare world clock : UnixSystem C) :=
  ⟨hheld, hhits, rfl⟩

/-- A fresh protocol over a handle as the crate hands it out. -/
theorem sound_handedOut {world : World} (h : HandedOut world) (clock : Instant) :
    SystemSound (prepare world clock : UnixSystem C) := by
  rcases h with rfl | ⟨status, rfl⟩
  · exact sound_prepare (fun _ => rfl) (by simp [SignalsHitChild, World.spawned]) clock
  · exact sound_prepare (by simp [PidHeld, World.finalized])
      (by simp [SignalsHitChild, World.finalized]) clock

end UnixSystem

/-! ## Whole runs -/

/-- **No signal of the recovery strays.** If no signal strayed before the handle was given to the
recovery, then along every interleaving of the client's calls, the worker's steps through all its
attempts, the exit of the child and a reuse of its pid, whatever the system answers, every `SIGHUP`
and every `SIGKILL` reaches the unreaped child.
Source: `lib.rs` `failed_child_recovery_worker`, `attempt_failed_child_recovery` -/
theorem recovery_signals_hit_child {world : World} (hheld : PidHeld world)
    (hhits : SignalsHitChild world) (clock : Instant) {moves : List (UnixMove C)} {s : UnixSystem C}
    (h : exec UnixSystem.step (.prepare world clock) moves = some s) : SignalsHitChild s.world :=
  (exec_invariant (fun _ _ _ hs ht => UnixSystem.sound_step hs ht)
    (UnixSystem.sound_prepare hheld hhits clock) h).hits

/-- An attempt fails at its `SIGHUP`, the client goes away, the child exits before the next poll of the
worker, and then the system reuses the pid. -/
def abandonedMoves : List (UnixMove Unit) :=
  let quiet : OsMoment :=
    { exits := none, waitFails := none, sighup := .error (.os 1), sigkill := .ok (), elapsed := 0 }
  [.client (.attachStore ()), .client .attachSend, .worker quiet,
    .client (.attemptLoad 0), .client .attemptSend, .worker quiet, .worker quiet, .worker quiet,
    .worker quiet, .client .drop, .worker quiet, .worker quiet, .worker quiet,
    .worker { quiet with exits := some (ExitStatus.withExitCode 0) }, .reuse, .worker quiet,
    .worker quiet]

/-- The `SIGHUP` of the abandoned recovery reached the child. -/
theorem recovery_signals_hit_child_abandoned :
    ∃ s, exec UnixSystem.step (.prepare .spawned 0) abandonedMoves = some s ∧
      s.system.worker = .ended ∧ s.world.pid = .stranger ∧ s.world.signals.length = 1 ∧
      SignalsHitChild s.world := by
  have hheld : PidHeld .spawned := fun _ => rfl
  have hhits : SignalsHitChild .spawned := by simp [SignalsHitChild, World.spawned]
  refine ⟨_, rfl, rfl, rfl, rfl, ?_⟩
  exact @recovery_signals_hit_child Unit .spawned hheld hhits 0 abandonedMoves _ rfl

end SysprimsPty.Recovery
