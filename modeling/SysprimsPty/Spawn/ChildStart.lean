import SysprimsPty.Spawn.Unix
import SysprimsPty.Found.ReportPipe

/-!
# Starting the child on Unix

The child's side of the two Unix spawns. `std::process::Command::spawn` forks, runs the `pre_exec`
closure and execs in the child, and reports a failure of either through a close-on-exec pipe; the two
spawns pass closures of their own. What the child's calls answer is a `ChildWorld`. The resets of
signal dispositions and masks and the `umask` cannot fail and touch no descriptor.

* `closeRandomFds` — the closing of everything but the standard streams.
* `legacyPreExec`, `containedPreExec` — the two closures.
* `spawnCommand`, `UnixSteps.started` — the two spawns over them.
* `failed_start_reported_iff` — when both report every child that failed to start.
-/

namespace SysprimsPty.Spawn

open SysprimsPty.Core
open SysprimsPty.Found

/-! ## Closing descriptors -/

/-- `n.parse::<libc::c_int>()` -/
def parseCInt (n : String) : Option ℤ :=
  let (negative, digits) :=
    match n.toList with
    | '-' :: digits => (true, digits)
    | '+' :: digits => (false, digits)
    | digits => (false, digits)
  if digits.isEmpty || !digits.all Char.isDigit then none
  else
    let value : ℤ := digits.foldl (fun value d => 10 * value + (d.toNat - '0'.toNat)) 0
    let value := if negative then -value else value
    if -2147483648 ≤ value ∧ value ≤ 2147483647 then some value else none

/-- `libc::close`; a descriptor that is not open is ignored. -/
def closeFd (fds : List ℤ) (fd : ℤ) : List ℤ := fds.filter (· ≠ fd)

/-- Close what `/dev/fd` lists beyond the standard streams. `none`: the directory, an entry of it or
a file name that is not Unicode could not be read.
Source: `unix.rs` `close_random_fds` -/
def closeRandomFds (devFd : Option (List (Option String))) (fds : List ℤ) : List ℤ :=
  match devFd with
  | none => fds
  | some entries =>
      ((entries.filterMap fun name => name.bind parseCInt).filter (2 < ·)).foldl closeFd fds

/-- What closing leaves open. -/
theorem mem_foldl_closeFd {nums fds : List ℤ} {fd : ℤ} :
    fd ∈ nums.foldl closeFd fds ↔ fd ∈ fds ∧ fd ∉ nums := by
  induction nums generalizing fds with
  | nil => simp
  | cons num nums ih => simp [ih, closeFd, and_assoc]

/-- A listed descriptor beyond the standard streams is closed. -/
theorem notMem_closeRandomFds {entries : List (Option String)} {fds : List ℤ} {fd : ℤ} {name : String}
    (hlisted : some name ∈ entries) (hname : parseCInt name = some fd) (hfd : 2 < fd) :
    fd ∉ closeRandomFds (some entries) fds := by
  rw [closeRandomFds, mem_foldl_closeFd]
  rintro ⟨-, hopen⟩
  apply hopen
  rw [List.mem_filter, List.mem_filterMap]
  exact ⟨⟨some name, hlisted, hname⟩, by simpa using hfd⟩

/-! ## The two closures -/

/-- What the calls in the child answer, and the descriptors that it begins with. -/
structure ChildWorld where
  /-- The descriptors that are open in the parent. -/
  parentFds : List ℤ
  /-- The write end of the report pipe. -/
  pipe : ℤ
  /-- What `/dev/fd` lists in the child. -/
  devFd : Option (List (Option String))
  setsid : IoResult Unit
  /-- `hook.acquire()`, with the descriptors that it leaves open. -/
  acquire : List ℤ → IoResult Unit × List ℤ
  /-- `libc::ioctl(0, libc::TIOCSCTTY, 0)` -/
  tiocsctty : IoResult Unit
  /-- The exec of the resolved program; an exec that succeeds does not return. -/
  exec : IoResult Unit

namespace ChildWorld

/-- The descriptors of the child before the closure: the standard streams, the pipe and what it
inherits. -/
def childFds (w : ChildWorld) : List ℤ := [0, 1, 2] ++ w.pipe :: w.parentFds

/-- Source: `unix.rs` `PtyFd::spawn_command`, `pre_exec` -/
def legacyPreExec (w : ChildWorld) (controllingTty : Bool) (fds : List ℤ) : IoResult Unit × List ℤ :=
  match w.setsid with
  | .error e => (.error e, fds)
  | .ok () =>
  match if controllingTty then w.tiocsctty else .ok () with
  | .error e => (.error e, fds)
  | .ok () => (.ok (), closeRandomFds w.devFd fds)

/-- Source: `unix.rs` `PtyFd::spawn_contained_command_with_fault`, `pre_exec` -/
def containedPreExec (w : ChildWorld) (controllingTty : Bool) (fds : List ℤ) :
    IoResult Unit × List ℤ :=
  match w.acquire fds with
  | (.error e, fds) => (.error e, fds)
  | (.ok (), fds) =>
  match if controllingTty then w.tiocsctty else .ok () with
  | .error e => (.error e, fds)
  | .ok () => (.ok (), fds)

/-- The start of the child of `spawn_command`. -/
def legacyRun (w : ChildWorld) (controllingTty : Bool) : IoResult Unit × List ℤ :=
  runChild (w.legacyPreExec controllingTty) w.exec w.childFds

/-- The start of the child of `spawn_contained_command`. -/
def containedRun (w : ChildWorld) (controllingTty : Bool) : IoResult Unit × List ℤ :=
  runChild (w.containedPreExec controllingTty) w.exec w.childFds

/-- What `std` and the session hook are documented to do: the pipe is beyond the standard streams,
`/dev/fd` lists every open descriptor, and the hook closes none. -/
structure Documented (w : ChildWorld) : Prop where
  pipe : 2 < w.pipe
  listed : ∃ entries, w.devFd = some entries ∧
    ∀ fd ∈ w.childFds, ∃ name, some name ∈ entries ∧ parseCInt name = some fd
  hook : ∀ fds, ∀ fd ∈ fds, fd ∈ (w.acquire fds).2

end ChildWorld

/-- What a failure is read as: `std` writes the code of the error, or `EINVAL`. -/
def writtenError : IoError → IoError
  | .os code => .os code
  | .custom _ _ => .os 22

/-! ## The two spawns -/

/-- What the steps of `spawn_command` in the parent answer. -/
structure CommandSteps (C : Type) where
  /-- `builder.as_command()` -/
  asCommand : Except Error Unit
  stdin : Except Error Unit
  stdout : Except Error Unit
  stderr : Except Error Unit
  /-- The fork in `cmd.spawn()`, and what comes before it. -/
  fork : IoResult C

variable {C R G : Type}

/-- The steps of `spawn_command` before the spawn.
Source: `unix.rs` `PtyFd::spawn_command`, up to `pre_exec` -/
def CommandSteps.configure (c : CommandSteps C) : Except Error Unit := do
  c.asCommand
  c.stdin
  c.stdout
  c.stderr

/-- The four steps of `spawn_command` before the spawn succeed. -/
structure CommandSteps.Configured (c : CommandSteps C) : Prop where
  asCommand : c.asCommand = .ok ()
  stdin : c.stdin = .ok ()
  stdout : c.stdout = .ok ()
  stderr : c.stderr = .ok ()

/-- `configure` succeeds exactly if its four steps do. -/
theorem CommandSteps.configure_eq_ok_iff {c : CommandSteps C} :
    c.configure = .ok () ↔ c.Configured := by
  simp only [CommandSteps.configure, seq_eq_ok_iff]
  constructor
  · rintro ⟨hcommand, hin, hout, herr⟩
    exact ⟨hcommand, hin, hout, herr⟩
  · rintro ⟨hcommand, hin, hout, herr⟩
    exact ⟨hcommand, hin, hout, herr⟩

/-- Source: `unix.rs` `PtyFd::spawn_command` -/
def CommandSteps.spawnCommand (c : CommandSteps C) (w : ChildWorld) (controllingTty : Bool) :
    Except Error C :=
  match c.configure with
  | .error e => .error e
  | .ok () =>
      (spawnReporting writtenError c.fork w.pipe (w.legacyRun controllingTty)).mapError .io

/-- The guarded spawn over a fork whose child runs the contained closure. -/
def UnixSteps.started (u : UnixSteps C R G) (w : ChildWorld) (controllingTty : Bool)
    (fork : IoResult C) : UnixSteps C R G :=
  { u with spawn := spawnReporting writtenError fork w.pipe (w.containedRun controllingTty) }

/-- **Both spawns report a child that failed to start**: each returns success only if the child
reached a successful exec, and an error if a step of the child failed. -/
structure ReportsFailedStarts (c : CommandSteps C) (u : UnixSteps C R G) (w : ChildWorld)
    (controllingTty : Bool) (fork : IoResult C) : Prop where
  legacy_ok : ∀ child, c.spawnCommand w controllingTty = .ok child →
    (w.legacyRun controllingTty).1 = .ok ()
  legacy_error : ∀ e, (w.legacyRun controllingTty).1 = .error e →
    ∃ error, c.spawnCommand w controllingTty = .error error
  contained_ok : ∀ guard,
    (u.started w controllingTty fork).spawnContainedCommand.result = some (.ok guard) →
    (w.containedRun controllingTty).1 = .ok ()
  contained_error : ∀ e, (w.containedRun controllingTty).1 = .error e →
    ∃ error, (u.started w controllingTty fork).spawnContainedCommand.result = some (.error error)

/-! ## Which closures keep the pipe -/

namespace ChildWorld

/-- The steps of the legacy closure succeed. -/
def Prepared (w : ChildWorld) (controllingTty : Bool) : Prop :=
  w.setsid = .ok () ∧ (controllingTty = true → w.tiocsctty = .ok ())

/-- A legacy closure that succeeds has closed what `/dev/fd` lists. -/
theorem legacyRun_of_prepared {w : ChildWorld} {controllingTty : Bool}
    (h : w.Prepared controllingTty) :
    w.legacyRun controllingTty = (w.exec, closeRandomFds w.devFd w.childFds) := by
  obtain ⟨hsetsid, htty⟩ := h
  have hcontrol : (if controllingTty = true then w.tiocsctty else .ok ()) = .ok () := by
    split_ifs with hc
    · exact htty hc
    · rfl
  unfold legacyRun runChild legacyPreExec
  simp only [hsetsid, hcontrol]

/-- A legacy closure that fails has closed nothing. -/
theorem legacyRun_of_not_prepared {w : ChildWorld} {controllingTty : Bool}
    (h : ¬ w.Prepared controllingTty) : (w.legacyRun controllingTty).2 = w.childFds := by
  unfold legacyRun runChild legacyPreExec
  rcases hsetsid : w.setsid with e | _
  · rfl
  · rcases hcontrol : (if controllingTty = true then w.tiocsctty else .ok ()) with e | _
    · simp only
    · refine absurd ⟨hsetsid, fun htty => ?_⟩ h
      rwa [if_pos htty] at hcontrol

/-- The pipe is among the descriptors of the child. -/
theorem pipe_mem_childFds (w : ChildWorld) : w.pipe ∈ w.childFds := by
  simp [childFds]

/-- The legacy closure loses the pipe exactly if it succeeds. -/
theorem Documented.pipe_kept_iff {w : ChildWorld} (h : w.Documented) {controllingTty : Bool} :
    w.pipe ∈ (w.legacyRun controllingTty).2 ↔ ¬ w.Prepared controllingTty := by
  constructor
  · intro hkept hprepared
    obtain ⟨entries, hentries, hlisted⟩ := h.listed
    obtain ⟨name, hname, hparse⟩ := hlisted _ w.pipe_mem_childFds
    rw [legacyRun_of_prepared hprepared, hentries] at hkept
    exact notMem_closeRandomFds hname hparse h.pipe hkept
  · intro hnot
    rw [legacyRun_of_not_prepared hnot]
    exact w.pipe_mem_childFds

/-- The contained closure keeps the pipe. -/
theorem Documented.pipe_kept {w : ChildWorld} (h : w.Documented) (controllingTty : Bool) :
    w.pipe ∈ (w.containedRun controllingTty).2 := by
  have hacquire := h.hook w.childFds w.pipe w.pipe_mem_childFds
  apply runChild_of_kept
  unfold containedPreExec
  rcases hresult : w.acquire w.childFds with ⟨e | _, fds⟩
  · rwa [hresult] at hacquire
  · rw [hresult] at hacquire
    dsimp only
    split <;> exact hacquire

end ChildWorld

/-! ## What the parent returns -/

/-- `spawn_command` returns what the spawn returns, once the command is configured. -/
theorem CommandSteps.spawnCommand_eq_ok_iff {c : CommandSteps C} {w : ChildWorld}
    {controllingTty : Bool} {child : C} :
    c.spawnCommand w controllingTty = .ok child ↔ c.Configured ∧
      spawnReporting writtenError c.fork w.pipe (w.legacyRun controllingTty) = .ok child := by
  rw [← CommandSteps.configure_eq_ok_iff]
  unfold CommandSteps.spawnCommand
  rcases c.configure with e | _
  · simp
  · rcases spawnReporting writtenError c.fork w.pipe (w.legacyRun controllingTty) with e | child'
    · simp [Except.mapError]
    · simp [Except.mapError]

/-- The guarded spawn returns an error, or the guard of a child whose spawn succeeded. -/
theorem UnixSteps.result_cases (u : UnixSteps C R G) :
    (∃ error, u.spawnContainedCommand.result = some (.error error)) ∨
      ∃ guard child, u.spawnContainedCommand.result = some (.ok guard) ∧ u.spawn = .ok child := by
  have hpath := unix_path u
  generalize u.spawnContainedCommand = o at hpath
  cases hpath with
  | notCreated e => exact .inl ⟨_, rfl⟩
  | failed c c' e => exact .inl ⟨_, rfl⟩
  | guarded c g h => exact .inr ⟨g, c, rfl, h.1.spawn⟩

/-- **When a child that failed to start is reported.** For every outcome of every step of the child
and every set of descriptors that are open in the parent: the two spawns report every failed start if
and only if in `spawn_command`, once the steps before the exec have succeeded, the exec succeeds. The
legacy closure closes the pipe over which a failed exec would be reported.
Source: `unix.rs` `PtyFd::spawn_command`, `close_random_fds`,
`PtyFd::spawn_contained_command_with_fault` -/
theorem failed_start_reported_iff (c : CommandSteps C) (u : UnixSteps C R G) {w : ChildWorld}
    (controllingTty : Bool) (fork : IoResult C) (h : w.Documented) :
    ReportsFailedStarts c u w controllingTty fork ↔
      (c.Configured → (∃ child, c.fork = .ok child) → w.Prepared controllingTty →
        w.exec = .ok ()) := by
  constructor
  · rintro ⟨hok, -, -, -⟩ hconfigure ⟨child, hfork⟩ hprepared
    have hlost : w.pipe ∉ (w.legacyRun controllingTty).2 :=
      fun hkept => h.pipe_kept_iff.mp hkept hprepared
    have hspawn := hok child (CommandSteps.spawnCommand_eq_ok_iff.mpr
      ⟨hconfigure, spawnReporting_eq_ok_iff.mpr ⟨hfork, fun _ _ => hlost⟩⟩)
    rwa [ChildWorld.legacyRun_of_prepared hprepared] at hspawn
  · intro hexec
    have hlegacy : ∀ child, c.spawnCommand w controllingTty = .ok child →
        (w.legacyRun controllingTty).1 = .ok () := by
      intro child hchild
      obtain ⟨hconfigure, hspawn⟩ := CommandSteps.spawnCommand_eq_ok_iff.mp hchild
      by_cases hprepared : w.Prepared controllingTty
      · rw [ChildWorld.legacyRun_of_prepared hprepared]
        exact hexec hconfigure ⟨child, (spawnReporting_eq_ok_iff.mp hspawn).1⟩ hprepared
      · exact spawnReporting_of_kept (h.pipe_kept_iff.mpr hprepared) hspawn
    have hcontained : ∀ child, (u.started w controllingTty fork).spawn = .ok child →
        (w.containedRun controllingTty).1 = .ok () :=
      fun child hchild => spawnReporting_of_kept (h.pipe_kept controllingTty) hchild
    refine ⟨hlegacy, ?_, ?_, ?_⟩
    · intro e he
      rcases hresult : c.spawnCommand w controllingTty with error | child
      · exact ⟨error, rfl⟩
      · rw [hlegacy child hresult] at he
        cases he
    · intro guard hguard
      rcases (u.started w controllingTty fork).result_cases with ⟨error, herror⟩ |
        ⟨guard', child, -, hspawn⟩
      · rw [herror] at hguard
        cases hguard
      · exact hcontained child hspawn
    · intro e he
      rcases (u.started w controllingTty fork).result_cases with herror | ⟨guard', child, -, hspawn⟩
      · exact herror
      · rw [hcontained child hspawn] at he
        cases he

/-- A child whose steps before the exec succeed; the pipe is 3. -/
def readyChild (exec : IoResult Unit) : ChildWorld where
  parentFds := []
  pipe := 3
  devFd := some [some "0", some "1", some "2", some "3"]
  setsid := .ok ()
  acquire fds := (.ok (), fds)
  tiocsctty := .ok ()
  exec

/-- Steps of the parent that all succeed, with child 7. -/
def startingSteps : CommandSteps ℕ where
  asCommand := .ok ()
  stdin := .ok ()
  stdout := .ok ()
  stderr := .ok ()
  fork := .ok 7

theorem readyChild_documented (exec : IoResult Unit) : (readyChild exec).Documented := by
  refine ⟨show (2 : ℤ) < 3 by decide, ⟨_, rfl, ?_⟩, fun _ _ h => h⟩
  intro fd hfd
  rcases List.mem_cons.mp hfd with rfl | hfd
  · exact ⟨"0", by decide, rfl⟩
  rcases List.mem_cons.mp hfd with rfl | hfd
  · exact ⟨"1", by decide, rfl⟩
  rcases List.mem_cons.mp hfd with rfl | hfd
  · exact ⟨"2", by decide, rfl⟩
  · obtain rfl := List.mem_singleton.mp hfd
    exact ⟨"3", by decide, rfl⟩

/-- Where the exec succeeds both spawns report. -/
theorem failed_start_reported_started :
    ReportsFailedStarts startingSteps unadoptedSteps (readyChild (.ok ())) true (.ok 7) :=
  (failed_start_reported_iff startingSteps unadoptedSteps true (.ok 7)
    (readyChild_documented (.ok ()))).mpr fun _ _ _ => rfl

/-- Where the exec fails with `ENOENT`, as for a script whose interpreter is missing, `spawn_command`
returns the child, while the contained spawn returns the error. -/
theorem failed_exec_not_reported :
    (readyChild (.error (.os 2))).Documented ∧
      ((readyChild (.error (.os 2))).legacyRun true).1 = .error (.os 2) ∧
      startingSteps.spawnCommand (readyChild (.error (.os 2))) true = .ok 7 ∧
      (∃ error, (unadoptedSteps.started (readyChild (.error (.os 2))) true
        (.ok 7)).spawnContainedCommand.result = some (.error error) ∧
        error.stage = .beforeSpawn) ∧
      ¬ ReportsFailedStarts startingSteps unadoptedSteps (readyChild (.error (.os 2))) true
        (.ok 7) := by
  refine ⟨readyChild_documented _, rfl, rfl, ⟨_, rfl, rfl⟩, fun h => ?_⟩
  have hstarted := h.legacy_ok 7 rfl
  cases hstarted

end SysprimsPty.Spawn
