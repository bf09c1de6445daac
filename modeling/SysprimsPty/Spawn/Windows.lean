import SysprimsPty.Spawn.Error

/-!
# The guarded spawn on Windows

`ConPtySlavePty::spawn_contained_command_inner` as a function of what each step answers. The answers
are a `WindowsSteps`; the outcome is what the call returns and the trace of what it did to the child
process. `sysprims_timeout` and the Win32 calls are outside the repository, so they are fields of
`WindowsSteps`, and what the code relies on about the adoption is `HandsBackChild`.

* `SpawnPath`, `spawn_path` — the ways through the function; the results below split on them.
* `resumed_only_after_containment` — no step of the child's primary thread runs before the child is
  contained, and the guard is returned exactly for a single resume that reported a count of 1.
* `failure_accounts_for_child_iff` — when an error returned after the child was created accounts for
  that child.
-/

namespace SysprimsPty.Spawn

open SysprimsPty.Core
open SysprimsPty.Found
open SysprimsPty.Recovery

/-- The part of `sysprims_timeout::TerminateTreeConfig` that the crate sets. -/
structure TerminateTreeConfig where
  graceTimeoutMs : ℕ
  killTimeoutMs : ℕ

/-- The part of the outcome of `ContainmentGuard::terminate` that says what became of the child. -/
structure TerminateOutcome where
  exited : Bool

/-- What every step of the Windows spawn answers: `C` is the type of the children, `R` of the
receipts and `G` of the guards. -/
structure WindowsSteps (C R G : Type) where
  /-- `PreparedWindowsJob::new()` -/
  newJob : Except Error Unit
  /-- The thread spawn in `FailedChildRecovery::prepare()`. -/
  prepareRecovery : IoResult Unit
  /-- `ProcThreadAttributeList::with_capacity(1)` -/
  attributeList : Except Error Unit
  /-- `attrs.set_pty(self.con)` -/
  setPty : Except Error Unit
  /-- `cmd.cmdline()` -/
  cmdline : Except Error Unit
  /-- `CreateProcessW`; an error is a zero result. -/
  createProcess : Except Error C
  /-- `prepared_job.assign_process(process)` -/
  assignProcess : C → Except Error R
  /-- `sysprims_timeout::contain_acquired_windows_job(child, receipt)` -/
  contain : C → R → Except (AdoptionError C) G
  /-- The gate `before_resume(&guard)`. -/
  beforeResume : G → Except Error Unit
  /-- The value of `ResumeThread`. -/
  resumeThread : UInt32
  /-- The code of `IoError::last_os_error()` after a failed `ResumeThread`. -/
  lastError : ℤ
  /-- `guard.terminate(config)` -/
  terminate : G → TerminateTreeConfig → Except Error TerminateOutcome

/-- What the call does to the child process, in order. -/
inductive WindowsEvent (C : Type)
  | createProcess (flags : UInt32) (child : C)
  | assigned (child : C)
  | adopted (child : C)
  | gatePassed
  /-- `ResumeThread` was called and returned `previous`. -/
  | resumed (previous : UInt32)
  /-- `guard.terminate` was called; `exited` if it reported that the child exited. -/
  | terminated (exited : Bool)
  deriving DecidableEq

/-- What the call returns (`none`: it aborted the process) and what it did. -/
structure WindowsOutcome (C G : Type) where
  result : Option (Except (ContainedPtySpawnError C) G)
  trace : List (WindowsEvent C)

/-- `winapi` `EXTENDED_STARTUPINFO_PRESENT` -/
def extendedStartupinfoPresent : UInt32 := 0x00080000

/-- `winapi` `CREATE_UNICODE_ENVIRONMENT` -/
def createUnicodeEnvironment : UInt32 := 0x00000400

/-- `winapi` `CREATE_SUSPENDED` -/
def createSuspended : UInt32 := 0x00000004

/-- The flags of the `CreateProcessW` call in `spawn_suspended_command`. -/
def suspendedFlags : UInt32 :=
  extendedStartupinfoPresent ||| createUnicodeEnvironment ||| createSuspended

/-- The configuration of both `guard.terminate` calls. -/
def resolveConfig : TerminateTreeConfig := { graceTimeoutMs := 0, killTimeoutMs := 2000 }

/-- Consume the sole resume authority. `u32::MAX` is the failure value of `ResumeThread`.
Source: `win/mod.rs` `SuspendedThread::resume` -/
def resume (previousSuspendCount : UInt32) (lastError : ℤ) : IoResult Unit :=
  if previousSuspendCount = 0xFFFFFFFF then .error (.os lastError)
  else if previousSuspendCount ≠ 1 then
    .error (.custom .other
      ("unexpected primary-thread suspend count " ++ toString previousSuspendCount))
  else .ok ()

/-- `terminate` reported that the child exited. -/
def reportsExited : Except Error TerminateOutcome → Bool
  | .ok outcome => outcome.exited
  | .error _ => false

variable {C R G : Type}

namespace WindowsSteps

/-- Source: `win/psuedocon.rs` `PsuedoCon::spawn_suspended_command` -/
def spawnSuspendedCommand (w : WindowsSteps C R G) : Except Error C := do
  w.attributeList
  w.setPty
  w.cmdline
  w.createProcess

/-- The return after a refused gate or a failed resume: terminate the guard, ignore the result, and
return an error without recovery state.
Source: `win/conpty.rs` `spawn_contained_command_inner`, the two `Resume` exits -/
def refuse (w : WindowsSteps C R G) (guard : G) (source : Error) (trace : List (WindowsEvent C)) :
    WindowsOutcome C G where
  result := some (.error { stage := .resume, source, recovery := none })
  trace := trace ++ [.terminated (reportsExited (w.terminate guard resolveConfig))]

/-- Source: `win/conpty.rs` `ConPtySlavePty::spawn_contained_command_inner` -/
def spawnContainedCommandInner (w : WindowsSteps C R G) : WindowsOutcome C G :=
  match w.newJob with
  | .error e => { result := some (.error (.beforeSpawn e)), trace := [] }
  | .ok () =>
  match w.prepareRecovery with
  | .error e => { result := some (.error (.beforeSpawn (.io e))), trace := [] }
  | .ok () =>
  match w.spawnSuspendedCommand with
  | .error e => { result := some (.error (.beforeSpawn e)), trace := [] }
  | .ok child =>
  let created := [.createProcess suspendedFlags child]
  match w.assignProcess child with
  | .error e =>
      { result := (ContainedPtySpawnError.afterSpawn .receipt e child System.prepare).map .error
        trace := created }
  | .ok receipt =>
  let assigned := created ++ [.assigned child]
  match w.contain child receipt with
  | .error adoption =>
      { result := (ContainedPtySpawnError.afterSpawn .adoption adoption.error adoption.child
          System.prepare).map .error
        trace := assigned }
  | .ok guard =>
  let adopted := assigned ++ [.adopted child]
  match w.beforeResume guard with
  | .error e => w.refuse guard e adopted
  | .ok () =>
  let resumed := adopted ++ [.gatePassed, .resumed w.resumeThread]
  match resume w.resumeThread w.lastError with
  | .error e => w.refuse guard (.io e) resumed
  | .ok () => { result := some (.ok guard), trace := resumed }

/-- A failed adoption hands back the child it was given. -/
def HandsBackChild (w : WindowsSteps C R G) : Prop :=
  ∀ c r adoption, w.contain c r = .error adoption → adoption.child = c

/-- Every step up to `CreateProcessW` succeeds, and it returns the child `c`. -/
structure Creates (w : WindowsSteps C R G) (c : C) : Prop where
  newJob : w.newJob = .ok ()
  prepareRecovery : w.prepareRecovery = .ok ()
  attributeList : w.attributeList = .ok ()
  setPty : w.setPty = .ok ()
  cmdline : w.cmdline = .ok ()
  createProcess : w.createProcess = .ok c

/-- The child that the call creates is assigned to the Job and adopted into `g`. -/
def Contains (w : WindowsSteps C R G) (c : C) (g : G) : Prop :=
  w.Creates c ∧ ∃ r, w.assignProcess c = .ok r ∧ w.contain c r = .ok g

/-- `spawn_suspended_command` succeeds exactly if its four steps do. -/
theorem spawnSuspendedCommand_eq_ok_iff {w : WindowsSteps C R G} {c : C} :
    w.spawnSuspendedCommand = .ok c ↔
      w.attributeList = .ok () ∧ w.setPty = .ok () ∧ w.cmdline = .ok () ∧ w.createProcess = .ok c := by
  simp only [spawnSuspendedCommand, seq_eq_ok_iff]

/-- The child is created exactly if the Job, the preparation and the suspended spawn succeed. -/
theorem creates_iff {w : WindowsSteps C R G} {c : C} :
    w.Creates c ↔
      w.newJob = .ok () ∧ w.prepareRecovery = .ok () ∧ w.spawnSuspendedCommand = .ok c := by
  rw [spawnSuspendedCommand_eq_ok_iff]
  constructor
  · rintro ⟨hjob, hprep, hlist, hpty, hcmdline, hcreate⟩
    exact ⟨hjob, hprep, hlist, hpty, hcmdline, hcreate⟩
  · rintro ⟨hjob, hprep, hlist, hpty, hcmdline, hcreate⟩
    exact ⟨hjob, hprep, hlist, hpty, hcmdline, hcreate⟩

/-- The gate refuses the guard, or the resume does not report a count of exactly 1. -/
def Refuses (w : WindowsSteps C R G) (g : G) : Prop :=
  w.beforeResume g ≠ .ok () ∨ w.resumeThread ≠ 1

end WindowsSteps

/-- The resume succeeds exactly for the count 1. -/
theorem resume_eq_ok_iff {previous : UInt32} {lastError : ℤ} :
    resume previous lastError = .ok () ↔ previous = 1 := by
  unfold resume
  constructor
  · intro h
    split at h
    · cases h
    · split at h
      · cases h
      · next hne => exact not_not.mp hne
  · rintro rfl
    rfl

/-- The ways through `spawn_contained_command_inner`. -/
inductive SpawnPath (w : WindowsSteps C R G) : WindowsOutcome C G → Prop
  | notCreated (e : Error) (h : ∀ c, ¬ w.Creates c) :
      SpawnPath w { result := some (.error (.beforeSpawn e)), trace := [] }
  | notAssigned (c : C) (e : Error) (error : ContainedPtySpawnError C) (hc : w.Creates c)
      (ha : w.assignProcess c = .error e)
      (he : ContainedPtySpawnError.afterSpawn .receipt e c System.prepare = some error) :
      SpawnPath w { result := some (.error error), trace := [.createProcess suspendedFlags c] }
  | notAdopted (c : C) (r : R) (adoption : AdoptionError C) (error : ContainedPtySpawnError C)
      (hc : w.Creates c) (ha : w.assignProcess c = .ok r) (hg : w.contain c r = .error adoption)
      (he : ContainedPtySpawnError.afterSpawn .adoption adoption.error adoption.child
        System.prepare = some error) :
      SpawnPath w { result := some (.error error)
                    trace := [.createProcess suspendedFlags c, .assigned c] }
  | refused (c : C) (g : G) (e : Error) (hc : w.Contains c g) (hr : w.beforeResume g = .error e) :
      SpawnPath w (w.refuse g e [.createProcess suspendedFlags c, .assigned c, .adopted c])
  | notResumed (c : C) (g : G) (e : IoError) (hc : w.Contains c g) (hr : w.beforeResume g = .ok ())
      (he : resume w.resumeThread w.lastError = .error e) :
      SpawnPath w (w.refuse g (.io e) [.createProcess suspendedFlags c, .assigned c, .adopted c,
        .gatePassed, .resumed w.resumeThread])
  | spawned (c : C) (g : G) (hc : w.Contains c g) (hr : w.beforeResume g = .ok ())
      (h1 : w.resumeThread = 1) :
      SpawnPath w { result := some (.ok g)
                    trace := [.createProcess suspendedFlags c, .assigned c, .adopted c,
                      .gatePassed, .resumed w.resumeThread] }

/-- Every outcome of the call is one of its paths. -/
theorem spawn_path (w : WindowsSteps C R G) : SpawnPath w w.spawnContainedCommandInner := by
  unfold WindowsSteps.spawnContainedCommandInner
  split
  · next e hjob =>
      refine .notCreated e ?_
      intro c hc
      have h := hc.newJob
      rw [hjob] at h
      cases h
  · next hjob =>
      split
      · next e hprep =>
          refine .notCreated (.io e) ?_
          intro c hc
          have h := hc.prepareRecovery
          rw [hprep] at h
          cases h
      · next hprep =>
          split
          · next e hspawn =>
              refine .notCreated e ?_
              intro c hc
              obtain ⟨-, -, h⟩ := WindowsSteps.creates_iff.mp hc
              rw [hspawn] at h
              cases h
          · next c hspawn =>
              have hc : w.Creates c := WindowsSteps.creates_iff.mpr ⟨hjob, hprep, hspawn⟩
              dsimp only
              split
              · next e ha =>
                  obtain ⟨error, he⟩ := exists_afterSpawn .receipt e c
                  rw [he]
                  exact .notAssigned c e error hc ha he
              · next r ha =>
                  split
                  · next adoption hg =>
                      obtain ⟨error, he⟩ :=
                        exists_afterSpawn .adoption adoption.error adoption.child
                      rw [he]
                      exact .notAdopted c r adoption error hc ha hg he
                  · next g hg =>
                      have hcontains : w.Contains c g := ⟨hc, r, ha, hg⟩
                      split
                      · next e hgate => exact .refused c g e hcontains hgate
                      · next hgate =>
                          split
                          · next e he => exact .notResumed c g e hcontains hgate he
                          · next he =>
                              exact .spawned c g hcontains hgate (resume_eq_ok_iff.mp he)

/-! ## What happens to the primary thread -/

/-- The suspend count, if the event is a call of `ResumeThread`. -/
def WindowsEvent.resumed? : WindowsEvent C → Option UInt32
  | .resumed previous => some previous
  | _ => none

/-- What the calls of `ResumeThread` returned, in order. -/
def WindowsOutcome.resumes (o : WindowsOutcome C G) : List UInt32 :=
  o.trace.filterMap WindowsEvent.resumed?

/-- The child that the call creates is determined. -/
theorem WindowsSteps.Creates.unique {w : WindowsSteps C R G} {c c' : C} (h : w.Creates c)
    (h' : w.Creates c') : c = c' :=
  Except.ok.inj (h.createProcess.symm.trans h'.createProcess)

/-- The contained child and its guard are determined. -/
theorem WindowsSteps.Contains.unique {w : WindowsSteps C R G} {c c' : C} {g g' : G}
    (h : w.Contains c g) (h' : w.Contains c' g') : c = c' ∧ g = g' := by
  obtain ⟨hc, r, ha, hg⟩ := h
  obtain ⟨hc', r', ha', hg'⟩ := h'
  obtain rfl := hc.unique hc'
  obtain rfl : r = r' := Except.ok.inj (ha.symm.trans ha')
  exact ⟨rfl, Except.ok.inj (hg.symm.trans hg')⟩

/-- Without a created child nothing is contained. -/
theorem WindowsSteps.not_contains {w : WindowsSteps C R G} (h : ∀ c, ¬ w.Creates c) (c : C)
    (g : G) : ¬ w.Contains c g :=
  fun hc => h c hc.1

/-- A child that is not assigned to the Job is not contained. -/
theorem WindowsSteps.not_contains_of_assign {w : WindowsSteps C R G} {c : C} {e : Error}
    (hc : w.Creates c) (ha : w.assignProcess c = .error e) (c' : C) (g : G) :
    ¬ w.Contains c' g := by
  rintro ⟨hc', r, hr, -⟩
  obtain rfl := hc.unique hc'
  rw [ha] at hr
  cases hr

/-- A child that is not adopted is not contained. -/
theorem WindowsSteps.not_contains_of_adoption {w : WindowsSteps C R G} {c : C} {r : R}
    {adoption : AdoptionError C} (hc : w.Creates c) (ha : w.assignProcess c = .ok r)
    (hg : w.contain c r = .error adoption) (c' : C) (g : G) : ¬ w.Contains c' g := by
  rintro ⟨hc', r', hr', hg'⟩
  obtain rfl := hc.unique hc'
  obtain rfl : r = r' := Except.ok.inj (ha.symm.trans hr')
  rw [hg] at hg'
  cases hg'

/-- **The child runs only inside its containment**: what an outcome promises about the primary
thread. -/
structure WindowsSteps.RunsContained (w : WindowsSteps C R G) (o : WindowsOutcome C G) : Prop where
  at_most_once : o.resumes.length ≤ 1
  /-- Before a resume the child was created suspended, assigned and adopted, and the gate passed. -/
  contained_first : ∀ before previous after, o.trace = before ++ .resumed previous :: after →
    ∃ c g, w.Contains c g ∧ w.beforeResume g = .ok () ∧ previous = w.resumeThread ∧
      before = [.createProcess suspendedFlags c, .assigned c, .adopted c, .gatePassed]
  guard_iff : (∃ g, o.result = some (.ok g)) ↔ o.resumes = [1]
  /-- A returned guard is the one that holds the child. -/
  guard_contains : ∀ g, o.result = some (.ok g) → ∃ c, w.Contains c g
  /-- A failure before the resume leaves the thread suspended. -/
  never_resumed : (∀ c g, w.Contains c g → w.beforeResume g ≠ .ok ()) → o.resumes = []
  /-- A contained child whose gate passes and whose resume reports 1 is resumed, and its guard is
  returned. -/
  resumed : ∀ c g, w.Contains c g → w.beforeResume g = .ok () → w.resumeThread = 1 →
    o.resumes = [1] ∧ o.result = some (.ok g)
  /-- A refused gate or a failed resume ends in `terminate` and an error without a guard. -/
  terminated : ∀ c g, w.Contains c g → w.Refuses g →
    (∃ before, o.trace =
        before ++ [.terminated (reportsExited (w.terminate g resolveConfig))]) ∧
      ∃ e, o.result = some (.error e) ∧ e.stage = .resume ∧ e.recovery = none

/-- An event that is not a resume is not the resume of a split trace. -/
theorem resumes_eq_nil_iff {o : WindowsOutcome C G} :
    o.resumes = [] ↔ ∀ before previous after, o.trace ≠ before ++ .resumed previous :: after := by
  unfold WindowsOutcome.resumes
  rw [List.filterMap_eq_nil_iff]
  constructor
  · intro h before previous after htrace
    have hmem : WindowsEvent.resumed previous ∈ o.trace := by simp [htrace]
    cases h _ hmem
  · intro h event hmem
    cases event with
    | resumed previous =>
        obtain ⟨before, after, htrace⟩ := List.append_of_mem hmem
        exact absurd htrace (h before previous after)
    | _ => rfl

/-- An outcome without a resume and without a guard, on a path on which nothing is contained. -/
theorem WindowsSteps.RunsContained.of_not_contains {w : WindowsSteps C R G}
    {o : WindowsOutcome C G} (h : ∀ c g, ¬ w.Contains c g) (hr : o.resumes = [])
    (hresult : ∀ g, o.result ≠ some (.ok g)) : w.RunsContained o where
  at_most_once := by simp [hr]
  contained_first := fun before previous after htrace =>
    absurd htrace (resumes_eq_nil_iff.mp hr before previous after)
  guard_iff := by simp [hr, hresult]
  guard_contains := fun g hg => absurd hg (hresult g)
  never_resumed := fun _ => hr
  resumed := fun c g hc => absurd hc (h c g)
  terminated := fun c g hc => absurd hc (h c g)

/-- The one way to split the trace of a resumed child at its resume. -/
theorem split_at_resume {c : C} {n m : UInt32} {before after rest : List (WindowsEvent C)}
    (hrest : rest.filterMap WindowsEvent.resumed? = [])
    (h : [.createProcess suspendedFlags c, .assigned c, .adopted c, .gatePassed, .resumed n] ++
      rest = before ++ .resumed m :: after) :
    m = n ∧ before = [.createProcess suspendedFlags c, .assigned c, .adopted c, .gatePassed] := by
  rcases before with _ | ⟨e₁, _ | ⟨e₂, _ | ⟨e₃, _ | ⟨e₄, _ | ⟨e₅, before⟩⟩⟩⟩⟩
  · simp at h
  · simp at h
  · simp at h
  · simp at h
  · simp only [List.cons_append, List.nil_append, List.cons.injEq,
      WindowsEvent.resumed.injEq] at h
    obtain ⟨rfl, rfl, rfl, rfl, rfl, -⟩ := h
    exact ⟨rfl, rfl⟩
  · simp only [List.cons_append, List.nil_append, List.cons.injEq] at h
    obtain ⟨-, -, -, -, -, rfl⟩ := h
    rw [List.filterMap_append] at hrest
    simp [WindowsEvent.resumed?] at hrest

/-- Every path keeps the promises about the primary thread. -/
theorem SpawnPath.runsContained {w : WindowsSteps C R G} {o : WindowsOutcome C G}
    (h : SpawnPath w o) : w.RunsContained o := by
  cases h with
  | notCreated e h => exact .of_not_contains (w.not_contains h) rfl nofun
  | notAssigned c e error hc ha he =>
      exact .of_not_contains (w.not_contains_of_assign hc ha) rfl nofun
  | notAdopted c r adoption error hc ha hg he =>
      exact .of_not_contains (w.not_contains_of_adoption hc ha hg) rfl nofun
  | refused c g e hc hr =>
      have hnone : (w.refuse g e
          [.createProcess suspendedFlags c, .assigned c, .adopted c]).resumes = [] := rfl
      refine ⟨by simp [hnone], ?_, ?_, nofun, fun _ => hnone, ?_, ?_⟩
      · intro before previous after htrace
        exact absurd htrace (resumes_eq_nil_iff.mp hnone before previous after)
      · rw [hnone]
        simp [WindowsSteps.refuse]
      · intro c' g' hc' hgate
        obtain ⟨rfl, rfl⟩ := hc.unique hc'
        rw [hr] at hgate
        cases hgate
      · intro c' g' hc' _
        obtain ⟨rfl, rfl⟩ := hc.unique hc'
        exact ⟨⟨_, rfl⟩, _, rfl, rfl, rfl⟩
  | notResumed c g e hc hr he =>
      have hne : w.resumeThread ≠ 1 := by
        intro h1
        rw [resume_eq_ok_iff.mpr h1] at he
        cases he
      have hone : (w.refuse g (.io e) [.createProcess suspendedFlags c, .assigned c, .adopted c,
          .gatePassed, .resumed w.resumeThread]).resumes = [w.resumeThread] := rfl
      refine ⟨by simp [hone], ?_, ?_, nofun, ?_, ?_, ?_⟩
      · intro before previous after htrace
        obtain ⟨rfl, rfl⟩ := split_at_resume rfl htrace
        exact ⟨c, g, hc, hr, rfl, rfl⟩
      · rw [hone]
        simp [WindowsSteps.refuse, hne]
      · intro hgate
        exact absurd hr (hgate c g hc)
      · intro c' g' _ _ hcount
        exact absurd hcount hne
      · intro c' g' hc' _
        obtain ⟨rfl, rfl⟩ := hc.unique hc'
        exact ⟨⟨_, rfl⟩, _, rfl, rfl, rfl⟩
  | spawned c g hc hr h1 =>
      have hone : @WindowsOutcome.resumes C G ⟨some (.ok g),
          [.createProcess suspendedFlags c, .assigned c, .adopted c, .gatePassed,
            .resumed w.resumeThread]⟩ = [1] := congrArg (fun n => [n]) h1
      refine ⟨by simp [hone], ?_, by simp [hone], ?_, ?_, ?_, ?_⟩
      · intro before previous after htrace
        rw [← List.append_nil (_ :: _)] at htrace
        obtain ⟨rfl, rfl⟩ := split_at_resume rfl htrace
        exact ⟨c, g, hc, hr, rfl, rfl⟩
      · intro g' hg'
        cases hg'
        exact ⟨c, hc⟩
      · intro hgate
        exact absurd hr (hgate c g hc)
      · intro c' g' hc' _ _
        obtain ⟨rfl, rfl⟩ := hc.unique hc'
        exact ⟨hone, rfl⟩
      · intro c' g' hc' hrefuses
        obtain ⟨rfl, rfl⟩ := hc.unique hc'
        rcases hrefuses with hgate | hcount
        · exact absurd hr hgate
        · exact absurd h1 hcount

/-- The child is created suspended. -/
theorem suspendedFlags_suspended : suspendedFlags &&& createSuspended = createSuspended := by
  decide

/-- **A contained child never runs before it is contained.** For every answer of every step,
every gate and every value of `ResumeThread`, the outcome keeps the promises about the primary
thread, and the process it belongs to was created suspended.
Source: `win/conpty.rs` `spawn_contained_command_inner`, `win/mod.rs` `SuspendedThread::resume` -/
theorem resumed_only_after_containment (w : WindowsSteps C R G) :
    w.RunsContained w.spawnContainedCommandInner ∧
      suspendedFlags &&& createSuspended = createSuspended :=
  ⟨(spawn_path w).runsContained, suspendedFlags_suspended⟩

/-! ## Which errors account for the child -/

section accounts

open ContainedPtySpawnError

/-- The child has been observed to exit: by `terminate`, or by the worker behind the error. -/
def Gone (trace : List (WindowsEvent C)) (c : C) (e : ContainedPtySpawnError C) : Prop :=
  .terminated true ∈ trace ∨ e.Reaped c

/-- **The error accounts for the child**, along every run of its holder's calls. -/
structure Accounts (trace : List (WindowsEvent C)) (c : C) (e : ContainedPtySpawnError C) :
    Prop where
  /-- `recover` returns `Ok(true)` only for a child that has exited. -/
  resolved : ∀ as source t,
    exec step e (as ++ [returns source (.ok true)]) = some t → Gone trace c t
  /-- `recovery_pending` returns `false` only for a child that has exited. -/
  not_pending : ∀ as t, exec step e (as ++ [reports false]) = some t → Gone trace c t
  /-- A child that has not been seen to exit is still owned by the error. -/
  owned : ∀ as t, exec step e as = some t → Gone trace c t ∨ t.Owns c

/-- An error that `after_spawn` builds on a prepared recovery accounts for its child. -/
theorem accounts_of_afterSpawn {stage : ContainedPtySpawnErrorStage} {source : Error} {c : C}
    {e : ContainedPtySpawnError C} (trace : List (WindowsEvent C))
    (h : afterSpawn stage source c System.prepare = some e) : Accounts trace c e := by
  obtain ⟨s, -, hafter, rfl⟩ := afterSpawn_eq_some h
  have htruth := hafter.truthful stage source
  constructor
  · intro as src t ht
    exact .inr (htruth.resolved as src t ht)
  · intro as t ht
    exact .inr (htruth.not_pending as t ht)
  · intro as t ht
    rcases hafter.reaped_or_owns ht with hreaped | howns
    · exact .inl (.inr hreaped)
    · exact .inr howns

/-- An error without recovery state accounts for a child exactly when `terminate` reported its
exit: it answers `Ok(true)` and `false` at once. -/
theorem accounts_no_recovery_iff {stage : ContainedPtySpawnErrorStage} {source : Error} {c : C}
    {trace : List (WindowsEvent C)} :
    Accounts trace c { stage, source, recovery := none } ↔ .terminated true ∈ trace := by
  constructor
  · intro h
    rcases h.not_pending [] _ rfl with hexit | ⟨s, hs, -⟩
    · exact hexit
    · cases hs
  · intro hexit
    exact ⟨fun _ _ _ _ => .inl hexit, fun _ _ _ => .inl hexit, fun _ _ _ => .inl (.inl hexit)⟩

/-- `terminate` is the last thing a refusal does, so the trace says what it reported. -/
theorem terminated_mem_refuse {w : WindowsSteps C R G} {g : G} {source : Error}
    {trace : List (WindowsEvent C)} (h : ∀ exited, .terminated exited ∉ trace) :
    .terminated true ∈ (w.refuse g source trace).trace ↔
      reportsExited (w.terminate g resolveConfig) = true := by
  unfold WindowsSteps.refuse
  rw [List.mem_append, List.mem_singleton, WindowsEvent.terminated.injEq]
  constructor
  · rintro (hmem | heq)
    · exact absurd hmem (h true)
    · exact heq.symm
  · intro heq
    exact .inr heq.symm

/-- After a refusal the error accounts for the contained child exactly when `terminate` reported
its exit. -/
theorem accounts_refuse_iff {w : WindowsSteps C R G} {c : C} {g : G} {source : Error}
    {trace : List (WindowsEvent C)} (hc : w.Contains c g) (hr : w.Refuses g)
    (h : ∀ exited, .terminated exited ∉ trace) :
    (∀ c' e, w.Creates c' → (w.refuse g source trace).result = some (.error e) →
        Accounts (w.refuse g source trace).trace c' e) ↔
      ∀ c' g', w.Contains c' g' → w.Refuses g' →
        reportsExited (w.terminate g' resolveConfig) = true := by
  constructor
  · intro haccounts c' g' hc' _
    obtain ⟨rfl, rfl⟩ := hc.unique hc'
    rw [← terminated_mem_refuse h]
    exact accounts_no_recovery_iff.mp (haccounts c _ hc.1 rfl)
  · intro hexit c' e _ he
    cases he
    rw [accounts_no_recovery_iff, terminated_mem_refuse h]
    exact hexit c g hc hr

/-- Every path on which a child was created and an error returned accounts for the child exactly
when every refusal saw its exit. -/
theorem SpawnPath.accounts_iff {w : WindowsSteps C R G} {o : WindowsOutcome C G}
    (hw : w.HandsBackChild) (h : SpawnPath w o) :
    (∀ c e, w.Creates c → o.result = some (.error e) → Accounts o.trace c e) ↔
      ∀ c g, w.Contains c g → w.Refuses g →
        reportsExited (w.terminate g resolveConfig) = true := by
  cases h with
  | notCreated e h =>
      constructor
      · intro _ c g hc
        exact absurd hc (w.not_contains h c g)
      · intro _ c e hc
        exact absurd hc (h c)
  | notAssigned c e error hc ha he =>
      constructor
      · intro _ c' g hc'
        exact absurd hc' (w.not_contains_of_assign hc ha c' g)
      · intro _ c' e' hc' he'
        obtain rfl := hc.unique hc'
        cases he'
        exact accounts_of_afterSpawn _ he
  | notAdopted c r adoption error hc ha hg he =>
      constructor
      · intro _ c' g hc'
        exact absurd hc' (w.not_contains_of_adoption hc ha hg c' g)
      · intro _ c' e' hc' he'
        obtain rfl := hc.unique hc'
        cases he'
        rw [hw c r adoption hg] at he
        exact accounts_of_afterSpawn _ he
  | refused c g e hc hr =>
      refine accounts_refuse_iff hc (.inl ?_) (by simp)
      rw [hr]
      nofun
  | notResumed c g e hc hr he =>
      refine accounts_refuse_iff hc (.inr ?_) (by simp)
      intro h1
      rw [resume_eq_ok_iff.mpr h1] at he
      cases he
  | spawned c g hc hr h1 =>
      constructor
      · intro _ c' g' hc' hrefuses
        obtain ⟨rfl, rfl⟩ := hc.unique hc'
        rcases hrefuses with hgate | hcount
        · exact absurd hr hgate
        · exact absurd h1 hcount
      · intro _ c' e _ he
        cases he

/-- **When a failed spawn accounts for its child.** Every error returned after the child was created
reports it as resolved only when it has exited, and owns it until then, if and only if `terminate`
reports the exit in the two `Resume` exits: their errors carry no recovery state and their
`terminate` result is discarded.
Source: `win/conpty.rs` `spawn_contained_command_inner`, `lib.rs` `ContainedPtySpawnError` -/
theorem failure_accounts_for_child_iff {w : WindowsSteps C R G} (hw : w.HandsBackChild) :
    (∀ c e, w.Creates c → w.spawnContainedCommandInner.result = some (.error e) →
        Accounts w.spawnContainedCommandInner.trace c e) ↔
      ∀ c g, w.Contains c g → w.Refuses g →
        reportsExited (w.terminate g resolveConfig) = true :=
  (spawn_path w).accounts_iff hw

/-- Every step succeeds up to a `ResumeThread` that fails with access denied, and `terminate` then
reports `exited`. -/
def unresumedSteps (exited : Bool) : WindowsSteps ℕ Unit Unit where
  newJob := .ok ()
  prepareRecovery := .ok ()
  attributeList := .ok ()
  setPty := .ok ()
  cmdline := .ok ()
  createProcess := .ok 7
  assignProcess _ := .ok ()
  contain _ _ := .ok ()
  beforeResume _ := .ok ()
  resumeThread := 0xFFFFFFFF
  lastError := 5
  terminate _ _ := .ok { exited }

/-- The error that the call returns with these answers. -/
def unresumedError : ContainedPtySpawnError ℕ :=
  { stage := .resume, source := .io (.os 5), recovery := none }

/-- With its exit reported, the error of the failed resume accounts for child 7. -/
theorem failure_accounts_for_unresumed_child :
    Accounts (unresumedSteps true).spawnContainedCommandInner.trace 7 unresumedError :=
  (failure_accounts_for_child_iff (w := unresumedSteps true) (fun _ _ _ h => nomatch h)).mpr
    (fun _ _ _ _ => rfl) 7 _ ⟨rfl, rfl, rfl, rfl, rfl, rfl⟩ rfl

/-- The resume fails and `terminate` does not see the exit: the error of child 7, which was never
seen to exit, answers that nothing is left to recover. -/
theorem unresumed_child_reported_resolved :
    (unresumedSteps false).HandsBackChild ∧ (unresumedSteps false).Creates 7 ∧
      (unresumedSteps false).spawnContainedCommandInner.result = some (.error unresumedError) ∧
      exec step unresumedError [returns .noRecovery (.ok true), reports false] =
        some unresumedError ∧
      ¬ Gone (unresumedSteps false).spawnContainedCommandInner.trace 7 unresumedError ∧
      ¬ unresumedError.Owns 7 := by
  refine ⟨fun _ _ _ h => (nomatch h), ⟨rfl, rfl, rfl, rfl, rfl, rfl⟩, rfl, rfl, ?_, ?_⟩
  · rintro (hmem | ⟨s, hs, -⟩)
    · revert hmem
      decide
    · cases hs
  · rintro ⟨s, hs, -⟩
    cases hs

end accounts

end SysprimsPty.Spawn
