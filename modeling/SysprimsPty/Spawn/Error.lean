import SysprimsPty.Recovery.Status

/-!
# The error of a guarded spawn

`ContainedPtySpawnError` with its two constructors and the two calls its holder can make. The
`recovery` field holds the protocol state behind the `FailedChildRecovery`; a run of the error is a
run of that protocol, so the calls interleave with the worker. Without recovery state `recover`
answers `Ok(true)` and `recovery_pending` answers `false` at once.

* `exec_recovery` — a run of an error with recovery state is a run of the protocol.
* `after_spawn_status` — every error that `after_spawn` builds reports its status truthfully.
-/

namespace SysprimsPty.Spawn

open SysprimsPty.Core
open SysprimsPty.Found
open SysprimsPty.Recovery

/-- Source: `lib.rs` `ContainedPtySpawnErrorStage` -/
inductive ContainedPtySpawnErrorStage
  | beforeSpawn
  | receipt
  | adoption
  | resume
  deriving DecidableEq

/-- Source: `lib.rs` `ContainedPtySpawnError` -/
structure ContainedPtySpawnError (C : Type) where
  stage : ContainedPtySpawnErrorStage
  source : Error
  recovery : Option (System C)

/-- A failed adoption by `sysprims_timeout`: the error and the child it hands back. -/
structure AdoptionError (C : Type) where
  error : Error
  child : C

namespace ContainedPtySpawnError

variable {C : Type}

/-- Source: `lib.rs` `ContainedPtySpawnError::before_spawn` -/
def beforeSpawn (source : Error) : ContainedPtySpawnError C :=
  { stage := .beforeSpawn, source, recovery := none }

/-- Attach the child and build the error. The `recover` that `after_spawn` makes before it returns
is the first call of the runs from here. `none`: `attach` aborted the process.
Source: `lib.rs` `ContainedPtySpawnError::after_spawn` -/
def afterSpawn (stage : ContainedPtySpawnErrorStage) (source : Error) (child : C)
    (recovery : System C) : Option (ContainedPtySpawnError C) :=
  (recovery.attach child).map fun recovery => { stage, source, recovery := some recovery }

/-- Source: `lib.rs` `ContainedPtySpawnError::recovery_pending` -/
def recoveryPending (e : ContainedPtySpawnError C) : Bool := e.recovery.any System.pending

/-- One step while the error is held: a step of the protocol behind it, or, without recovery state,
the immediate answer of one of the two calls.
Source: `lib.rs` `ContainedPtySpawnError::{recover, recovery_pending}` -/
def step (e : ContainedPtySpawnError C) (event : Event C) : Option (ContainedPtySpawnError C) :=
  match e.recovery with
  | some s => (s.step event).map fun t => { e with recovery := some t }
  | none =>
      match event with
      | .client (.attemptReturn .noRecovery (.ok true)) => some e
      | .client (.isPending false) => some e
      | _ => none

/-- The worker behind the error has reaped the child. -/
def Reaped (e : ContainedPtySpawnError C) (c : C) : Prop :=
  ∃ s, e.recovery = some s ∧ c ∈ s.reaped

/-- The child is in the hands of the worker behind the error. -/
def Owns (e : ContainedPtySpawnError C) (c : C) : Prop :=
  ∃ s, e.recovery = some s ∧ (s.At c .channel ∨ s.At c .slot)

/-- `recover` returns `result`. -/
abbrev returns (source : AttemptSource) (result : IoResult Bool) : Event C :=
  .client (.attemptReturn source result)

/-- `recovery_pending` returns `answer`. -/
abbrev reports (answer : Bool) : Event C := .client (.isPending answer)

/-- **What a holder of the error may rely on**, along every run from it. -/
structure TruthfulStatus (c : C) (e : ContainedPtySpawnError C) : Prop where
  /-- `Ok(true)`: the child has been reaped. -/
  resolved : ∀ as source t,
    exec step e (as ++ [returns source (.ok true)]) = some t → t.Reaped c
  /-- Not pending: the child has been reaped. -/
  not_pending : ∀ as t, exec step e (as ++ [reports false]) = some t → t.Reaped c
  /-- After `Ok(b)` and before the next call of `recover`, `recovery_pending` is `not b`. -/
  agrees : ∀ as source b mid answer t, (∀ m ∈ mid, m.isLoad = false) →
    exec step e (as ++ returns source (.ok b) :: (mid ++ [reports answer])) = some t → answer = !b
  /-- After an error that the worker sent, recovery is still pending. -/
  worker_error : ∀ as err mid answer t, (∀ m ∈ mid, m.isLoad = false) →
    exec step e (as ++ returns .worker (.error err) :: (mid ++ [reports answer])) = some t →
      answer = true
  /-- After an error of its own the flag is false only if the child has been reaped. -/
  own_error : ∀ as source err t, source ≠ .worker →
    exec step e (as ++ [returns source (.error err)]) = some t →
      t.recoveryPending = false → t.Reaped c
  /-- Once not pending, never pending again. -/
  stays : ∀ as mid answer t,
    exec step e (as ++ reports false :: (mid ++ [reports answer])) = some t → answer = false

/-- A run of an error with recovery state is a run of the protocol behind it. -/
theorem exec_recovery (stage : ContainedPtySpawnErrorStage) (source : Error) (s : System C)
    (as : List (Event C)) :
    exec step { stage, source, recovery := some s } as =
      (exec System.step s as).map fun t => { stage, source, recovery := some t } := by
  induction as generalizing s with
  | nil => rfl
  | cons a as ih =>
      rw [exec_cons, exec_cons]
      cases h : s.step a with
      | none => simp [step, h]
      | some t =>
          simp only [step, h, Option.map_some, Option.bind_some]
          exact ih t

/-- A run that ends an error in `t` ends the protocol behind it in the state that `t` holds. -/
theorem exec_recovery_some {stage : ContainedPtySpawnErrorStage} {source : Error} {s : System C}
    {as : List (Event C)} {t : ContainedPtySpawnError C}
    (h : exec step { stage, source, recovery := some s } as = some t) :
    ∃ u, exec System.step s as = some u ∧ t = { stage, source, recovery := some u } := by
  rw [exec_recovery, Option.map_eq_some_iff] at h
  obtain ⟨u, hu, rfl⟩ := h
  exact ⟨u, hu, rfl⟩

end ContainedPtySpawnError

/-! ## The protocol after `attach` -/

section attached

variable {C : Type} {c : C}

/-- The states of a run after the child `c` was attached. -/
structure AfterAttach (c : C) (s : System C) : Prop where
  owned : Owned s
  reported : Reported s
  attached : s.attached = some c

theorem AfterAttach.step {s t : System C} {e : Event C} (h : AfterAttach c s)
    (ht : s.step e = some t) : AfterAttach c t := by
  obtain ⟨hO, hR⟩ := Reported.step ⟨h.owned, h.reported⟩ ht
  exact ⟨hO, hR, attached_step h.owned h.attached ht⟩

/-- `attach` on a freshly prepared recovery queues the child. -/
theorem attach_prepare (c : C) :
    ∃ s, System.prepare.attach c = some s ∧ AfterAttach c s := by
  refine ⟨_, rfl, ?_⟩
  have hI := exec_invariant (fun _ _ _ hI ht => Reported.step hI ht)
    ⟨Owned.prepare, Reported.prepare⟩ (rfl : System.prepare.attach c = some _)
  exact ⟨hI.1, hI.2, rfl⟩

/-- Returning from `attempt`: the state backs the result, and only the client's point changes. -/
theorem AfterAttach.backs {s t : System C} {source : AttemptSource} {r : IoResult Bool}
    (h : AfterAttach c s) (ht : s.step (.client (.attemptReturn source r)) = some t) :
    s.Backs r source ∧ t = { s with client := .idle } := by
  have hm : ClientMove s (.attemptReturn source r) t := clientStep_move ht
  cases hm with
  | ret _ _ hc => exact ⟨h.reported.returning source r hc, rfl⟩

/-- Asking `is_pending`: the answer is the flag, and nothing changes. -/
theorem pending_of_reports {s t : System C} {answer : Bool}
    (ht : s.step (.client (.isPending answer)) = some t) :
    s.client = .idle ∧ answer = s.pending ∧ t = s := by
  have hm : ClientMove s (.isPending answer) t := clientStep_move ht
  cases hm with
  | isPending hc => exact ⟨hc, rfl, rfl⟩

/-- A result `Ok(true)` goes with a false flag. -/
theorem pending_of_backs_true {s : System C} {source : AttemptSource}
    (h : s.Backs (.ok true) source) : s.pending = false := by
  cases source with
  | flag => exact h.2
  | worker => exact h.2
  | brokenPipe =>
      obtain ⟨e, he⟩ := h
      cases he
  | timedOut =>
      obtain ⟨e, he⟩ := h
      cases he
  | noRecovery => exact h.elim

/-- A false flag stays false along a run. -/
theorem AfterAttach.pending_exec {s t : System C} {as : List (Event C)} (h : AfterAttach c s)
    (hp : s.pending = false) (ht : exec System.step s as = some t) : t.pending = false := by
  refine (@exec_invariant _ _ System.step (fun x => AfterAttach c x ∧ x.pending = false)
    ?_ as s t ⟨h, hp⟩ ht).2
  intro x a y hx hy
  exact ⟨hx.1.step hy, hx.1.owned.pending_step hx.1.attached hx.2 hy⟩

/-- Between an answer and the next call the flag stays what the answer said. -/
theorem AfterAttach.quiet_exec {flag : Bool} {s t : System C} {mid : List (Event C)}
    (h : AfterAttach c s) (hq : Quiet flag s) (hmid : ∀ m ∈ mid, m.isLoad = false)
    (ht : exec System.step s mid = some t) : Quiet flag t := by
  refine (@exec_keeps _ _ System.step (fun x => AfterAttach c x ∧ Quiet flag x)
    (fun m => m.isLoad = false) ?_ mid s t hmid ⟨h, hq⟩ ht).2
  intro x a y ha hx hy
  exact ⟨hx.1.step hy, hx.2.step hx.1.owned hx.1.attached ha hy⟩

/-- A report at the end of a run: the run up to it, and the flag in the state it ends in. -/
theorem reports_last {s t : System C} {as : List (Event C)} {answer : Bool}
    (ht : exec System.step s (as ++ [.client (.isPending answer)]) = some t) :
    exec System.step s as = some t ∧ t.client = .idle ∧ answer = t.pending := by
  obtain ⟨u, v, hu, huv, hv⟩ := exec_append_cons System.step ht
  obtain ⟨hclient, hanswer, rfl⟩ := pending_of_reports huv
  cases hv
  exact ⟨hu, hclient, hanswer⟩

/-- After the worker's answer `r` the next report is `flagAfter r`. -/
theorem AfterAttach.report_after_worker {s t u : System C} {r : IoResult Bool} {answer : Bool}
    {mid : List (Event C)} (h : AfterAttach c s)
    (ht : s.step (.client (.attemptReturn .worker r)) = some t)
    (hmid : ∀ m ∈ mid, m.isLoad = false)
    (hu : exec System.step t (mid ++ [.client (.isPending answer)]) = some u) :
    answer = flagAfter r := by
  have hafter := h.step ht
  obtain ⟨hb, rfl⟩ := h.backs ht
  obtain ⟨hrun, hclient, hanswer⟩ := reports_last hu
  have hquiet : Quiet (flagAfter r) { s with client := .idle } := ⟨hb.1, rfl, fun _ => hb.2⟩
  rw [hanswer]
  exact (hafter.quiet_exec hquiet hmid hrun).pending (by rw [hclient]; rfl)

end attached

/-! ## The status of an error built by `after_spawn` -/

/-- An error whose recovery holds the attached child reports that child's fate truthfully. -/
theorem AfterAttach.truthful {C : Type} {c : C} {s : System C} (h0 : AfterAttach c s)
    (stage : ContainedPtySpawnErrorStage) (source : Error) :
    ContainedPtySpawnError.TruthfulStatus c { stage, source, recovery := some s } := by
  have hkeep : ∀ x a y, AfterAttach c x → System.step x a = some y → AfterAttach c y :=
    fun x a y hx hy => hx.step hy
  constructor
  · intro as src t ht
    obtain ⟨u, hu, rfl⟩ := ContainedPtySpawnError.exec_recovery_some ht
    obtain ⟨x, y, hx, hxy, hy, hyu⟩ := exec_ending hkeep h0 hu
    cases hyu
    obtain ⟨hb, rfl⟩ := hx.backs hxy
    have hp := pending_of_backs_true hb
    exact ⟨_, rfl, (hy.owned.reaped_of_not_pending hy.attached hp).2⟩
  · intro as t ht
    obtain ⟨u, hu, rfl⟩ := ContainedPtySpawnError.exec_recovery_some ht
    obtain ⟨hrun, -, hanswer⟩ := reports_last hu
    have hend := exec_invariant hkeep h0 hrun
    exact ⟨u, rfl, (hend.owned.reaped_of_not_pending hend.attached hanswer.symm).2⟩
  · intro as src b mid answer t hmid ht
    obtain ⟨u, hu, rfl⟩ := ContainedPtySpawnError.exec_recovery_some ht
    obtain ⟨x, y, hx, hxy, hy, hyu⟩ := exec_ending hkeep h0 hu
    cases src with
    | worker => exact hx.report_after_worker hxy hmid hyu
    | flag =>
        obtain ⟨hb, rfl⟩ := hx.backs hxy
        obtain ⟨hrun, -, hanswer⟩ := reports_last hyu
        rw [hanswer, hy.pending_exec hb.2 hrun]
        cases hb.1
        rfl
    | brokenPipe =>
        obtain ⟨⟨err, herr⟩, -⟩ := hx.backs hxy
        cases herr
    | timedOut =>
        obtain ⟨⟨err, herr⟩, -⟩ := hx.backs hxy
        cases herr
    | noRecovery => exact (hx.backs hxy).1.elim
  · intro as err mid answer t hmid ht
    obtain ⟨u, hu, rfl⟩ := ContainedPtySpawnError.exec_recovery_some ht
    obtain ⟨x, y, hx, hxy, -, hyu⟩ := exec_ending hkeep h0 hu
    exact hx.report_after_worker hxy hmid hyu
  · intro as src err t hsrc ht hp
    obtain ⟨u, hu, rfl⟩ := ContainedPtySpawnError.exec_recovery_some ht
    have hend := exec_invariant hkeep h0 hu
    exact ⟨u, rfl, (hend.owned.reaped_of_not_pending hend.attached hp).2⟩
  · intro as mid answer t ht
    obtain ⟨u, hu, rfl⟩ := ContainedPtySpawnError.exec_recovery_some ht
    obtain ⟨x, y, hx, hxy, hy, hyu⟩ := exec_ending hkeep h0 hu
    obtain ⟨-, hanswer, rfl⟩ := pending_of_reports hxy
    obtain ⟨hrun, -, hlast⟩ := reports_last hyu
    rw [hlast]
    exact hy.pending_exec hanswer.symm hrun

/-- Along a run the attached child has been reaped or is in the worker's hands. -/
theorem AfterAttach.reaped_or_owns {C : Type} {c : C} {s : System C} (h0 : AfterAttach c s)
    {stage : ContainedPtySpawnErrorStage} {source : Error} {as : List (Event C)}
    {t : ContainedPtySpawnError C}
    (ht : exec ContainedPtySpawnError.step { stage, source, recovery := some s } as = some t) :
    t.Reaped c ∨ t.Owns c := by
  obtain ⟨u, hu, rfl⟩ := ContainedPtySpawnError.exec_recovery_some ht
  have hend : AfterAttach c u := exec_invariant (fun _ _ _ hx hy => hx.step hy) h0 hu
  obtain ⟨place, hplace, -⟩ := hend.owned.at_unique hend.attached
  cases place with
  | channel => exact .inr ⟨u, rfl, .inl hplace⟩
  | slot => exact .inr ⟨u, rfl, .inr hplace⟩
  | reaped => exact .inl ⟨u, rfl, hplace⟩

/-- What `after_spawn` builds on a prepared recovery: its own stage and source, and a recovery to
which the child is attached. -/
theorem afterSpawn_eq_some {C : Type} {stage : ContainedPtySpawnErrorStage} {source : Error} {c : C}
    {e : ContainedPtySpawnError C}
    (h : ContainedPtySpawnError.afterSpawn stage source c System.prepare = some e) :
    ∃ s, System.prepare.attach c = some s ∧ AfterAttach c s ∧
      e = { stage, source, recovery := some s } := by
  obtain ⟨s, hs, hafter⟩ := attach_prepare c
  rw [ContainedPtySpawnError.afterSpawn, hs] at h
  cases h
  exact ⟨s, hs, hafter, rfl⟩

/-- `after_spawn` on a prepared recovery returns. -/
theorem exists_afterSpawn {C : Type} (stage : ContainedPtySpawnErrorStage) (source : Error)
    (c : C) : ∃ e, ContainedPtySpawnError.afterSpawn stage source c System.prepare = some e :=
  ⟨_, rfl⟩

/-- **Truthfulness of the reported recovery status.** Whatever the stage and the source error, an
error that `after_spawn` builds on a prepared recovery reports the child's fate truthfully along
every run of its holder's calls, interleaved in any way with the worker and under every pattern of
answers of the operating system.
Source: `lib.rs` `ContainedPtySpawnError::after_spawn`, `FailedChildRecovery::attempt_inner` -/
theorem after_spawn_status {C : Type} (stage : ContainedPtySpawnErrorStage) (source : Error)
    (c : C) :
    ∃ e, ContainedPtySpawnError.afterSpawn stage source c System.prepare = some e ∧
      ContainedPtySpawnError.TruthfulStatus c e := by
  obtain ⟨e, he⟩ := exists_afterSpawn stage source c
  obtain ⟨s, -, hafter, rfl⟩ := afterSpawn_eq_some he
  exact ⟨_, he, hafter.truthful stage source⟩

end SysprimsPty.Spawn
