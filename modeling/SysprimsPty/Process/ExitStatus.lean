import SysprimsPty.Process.UnixChild

/-!
# What a Unix child reports of its end

The way of a status from the end of the child to the caller: the system encodes the end in a status
word, `std` keeps the word and takes it apart, and the crate turns it into an `ExitStatus`. The names
of the signals are those of the C library, as a parameter.

* `ChildEnd.word`, `ExitStatus.ofStd` — the encoding of the system, and the conversion of the crate.
* `ofStd_word` — the conversion gives back the end.
* `child_end_reported_iff` — in every run of calls on the child, a poll reports an end exactly if the
  child has come to it, and the report reads as that end.
-/

namespace SysprimsPty.Process

open SysprimsPty.Core
open SysprimsPty.Found

/-! ## Status words -/

/-- How a process ends. -/
inductive ChildEnd
  | exited (code : UInt8)
  | signaled (signal : ℕ) (core : Bool) (hsignal : 0 < signal ∧ signal < 127)
  deriving DecidableEq

/-- The status word that `waitpid` gives for a process that has ended. -/
def ChildEnd.word : ChildEnd → ℕ
  | .exited code => code.toNat * 256
  | .signaled signal core _ => signal + if core then 128 else 0

/-- `libc::WTERMSIG` -/
def wtermsig (word : ℕ) : ℕ := word % 128

/-- `ExitStatusExt::signal`: `WTERMSIG`, if `WIFSIGNALED` -/
def stdSignal (word : ℕ) : Option ℕ :=
  if 0 < wtermsig word ∧ wtermsig word < 127 then some (wtermsig word) else none

/-- `std::process::ExitStatus::code`: `WEXITSTATUS`, if `WIFEXITED` -/
def stdCode (word : ℕ) : Option ℕ :=
  if wtermsig word = 0 then some (word / 256 % 256) else none

/-- `std::process::ExitStatus::success` -/
def stdSuccess (word : ℕ) : Bool := word == 0

/-! ## The crate's status -/

/-- `strsignal` is `libc::strsignal`; `none`: a null pointer.
Source: `lib.rs` `From<std::process::ExitStatus> for ExitStatus` -/
def ExitStatus.ofStd (strsignal : ℕ → Option String) (word : ℕ) : ExitStatus :=
  match stdSignal word with
  | some signal =>
      let name :=
        match strsignal signal with
        | none => "Signal " ++ toString signal
        | some signame => signame
      { code := ((stdCode word).map UInt32.ofNat).getD 1, signal := some name }
  | none =>
      let code := ((stdCode word).map UInt32.ofNat).getD (if stdSuccess word then 0 else 1)
      { code, signal := none }

/-- Source: `lib.rs` `ExitStatus::success` -/
def ExitStatus.success (status : ExitStatus) : Bool :=
  match status.signal with
  | none => status.code == 0
  | some _ => false

/-- Source: `lib.rs` `Display for ExitStatus` -/
def ExitStatus.display (status : ExitStatus) : String :=
  if ExitStatus.success status then "Success"
  else
    match status.signal with
    | some sig => "Terminated by " ++ sig
    | none => "Exited with code " ++ toString status.code

/-! ## The round trip -/

/-- The name of a signal. -/
def signalName (strsignal : ℕ → Option String) (signal : ℕ) : String :=
  (strsignal signal).getD ("Signal " ++ toString signal)

/-- The status that says how a process has ended. -/
def ChildEnd.status (strsignal : ℕ → Option String) : ChildEnd → ExitStatus
  | .exited code => { code := UInt32.ofNat code.toNat, signal := none }
  | .signaled signal _ _ => { code := 1, signal := some (signalName strsignal signal) }

/-- What `std` makes of the word of an exit. -/
theorem std_exited (code : UInt8) :
    stdSignal (ChildEnd.exited code).word = none ∧
      stdCode (ChildEnd.exited code).word = some code.toNat := by
  have hcode : code.toNat < 256 := code.toNat_lt
  have hterm : wtermsig (ChildEnd.exited code).word = 0 := by
    simp only [wtermsig, ChildEnd.word]
    omega
  have hstatus : (ChildEnd.exited code).word / 256 % 256 = code.toNat := by
    simp only [ChildEnd.word]
    omega
  simp [stdSignal, stdCode, hterm, hstatus]

/-- What `std` makes of the word of a signal. -/
theorem std_signaled (signal : ℕ) (core : Bool) (hsignal : 0 < signal ∧ signal < 127) :
    stdSignal (ChildEnd.signaled signal core hsignal).word = some signal ∧
      stdCode (ChildEnd.signaled signal core hsignal).word = none := by
  have hterm : wtermsig (ChildEnd.signaled signal core hsignal).word = signal := by
    simp only [wtermsig, ChildEnd.word]
    split_ifs
    · omega
    · omega
  have hne : signal ≠ 0 := by omega
  simp [stdSignal, stdCode, hterm, hsignal, hne]

/-- **The conversion gives back the end.** -/
theorem ofStd_word (strsignal : ℕ → Option String) (e : ChildEnd) :
    ExitStatus.ofStd strsignal e.word = e.status strsignal := by
  rcases e with code | ⟨signal, core, hsignal⟩
  · obtain ⟨hnone, hcode⟩ := std_exited code
    simp [ExitStatus.ofStd, hnone, hcode, ChildEnd.status]
  · obtain ⟨hsome, hnone⟩ := std_signaled signal core hsignal
    simp only [ExitStatus.ofStd, hsome, hnone, ChildEnd.status, signalName]
    rcases strsignal signal with _ | signame
    · rfl
    · rfl

/-- The status of an exit is a success exactly for the code 0. -/
theorem success_status_iff (strsignal : ℕ → Option String) (e : ChildEnd) :
    ExitStatus.success (e.status strsignal) = true ↔ e = .exited 0 := by
  rcases e with code | ⟨signal, core, hsignal⟩
  · have hcode : code.toNat < 2 ^ 32 := Nat.lt_trans code.toNat_lt (by decide)
    simp only [ChildEnd.status, ExitStatus.success, beq_iff_eq, ChildEnd.exited.injEq]
    rw [← UInt32.toNat_inj, UInt32.toNat_ofNat_of_lt' hcode, ← UInt8.toNat_inj]
    rfl
  · simp [ChildEnd.status, ExitStatus.success]

/-- What the status reads as. -/
def ChildEnd.text (strsignal : ℕ → Option String) : ChildEnd → String
  | .exited code => if code = 0 then "Success" else "Exited with code " ++ toString code.toNat
  | .signaled signal _ _ => "Terminated by " ++ signalName strsignal signal

/-- The text of a status says how the process has ended. -/
theorem display_status (strsignal : ℕ → Option String) (e : ChildEnd) :
    ExitStatus.display (e.status strsignal) = e.text strsignal := by
  unfold ExitStatus.display
  have hsuccess := success_status_iff strsignal e
  split_ifs with h
  · obtain rfl := hsuccess.mp h
    rfl
  · rcases e with code | ⟨signal, core, hsignal⟩
    · have hne : code ≠ 0 := fun heq => h (hsuccess.mpr (congrArg _ heq))
      have hcode : code.toNat < 2 ^ 32 := Nat.lt_trans code.toNat_lt (by decide)
      simp only [ChildEnd.status, ChildEnd.text, if_neg hne]
      show "Exited with code " ++ toString (UInt32.ofNat code.toNat).toNat = _
      rw [UInt32.toNat_ofNat_of_lt' hcode]
    · rfl

/-! ## Reports -/

/-- The child ends with the status that the crate makes of its word. -/
def ended (strsignal : ℕ → Option String) (e : ChildEnd) : UnixEvent :=
  .exit (ExitStatus.ofStd strsignal e.word)

namespace World

/-- The status with which the child has ended, if it has. -/
def endStatus (w : World) : Option ExitStatus :=
  match w.process with
  | .running => none
  | .zombie status => some status
  | .reaped => w.status

/-- **The invariant**: the handle has a status exactly once it has reaped the child. -/
def KeepsStatus (w : World) : Prop :=
  match w.process with
  | .running | .zombie _ => w.status = none
  | .reaped => True

variable {w t : World}

/-- A poll finds the status with which the child has ended. -/
theorem stdTryWait_reports (hw : w.KeepsStatus) : (w.stdTryWait none).2 = .ok w.endStatus := by
  unfold KeepsStatus at hw
  unfold stdTryWait endStatus
  rcases hprocess : w.process with _ | status | _
  all_goals rw [hprocess] at hw
  · rw [hw]
  · rw [hw]
  · rcases w.status with _ | status
    · rfl
    · rfl

/-- A poll, failed or not, changes neither that status nor the invariant. -/
theorem endStatus_stdTryWait (hw : w.KeepsStatus) (fails : Option IoError) :
    (w.stdTryWait fails).1.KeepsStatus ∧ (w.stdTryWait fails).1.endStatus = w.endStatus := by
  unfold KeepsStatus at hw
  unfold stdTryWait
  split
  · exact ⟨hw, rfl⟩
  · exact ⟨hw, rfl⟩
  · next hzombie => simp [KeepsStatus, endStatus, hzombie]
  · exact ⟨hw, rfl⟩

/-- Both are about the process and the status that the handle keeps. -/
theorem endStatus_of_eq {u : World} (hu : u.KeepsStatus ∧ u.endStatus = w.endStatus)
    (hprocess : t.process = u.process) (hstatus : t.status = u.status) :
    t.KeepsStatus ∧ t.endStatus = w.endStatus := by
  unfold KeepsStatus endStatus at hu ⊢
  rw [hprocess, hstatus]
  exact hu

/-- **The step lemma**: the child comes to an end by its exit, once, and by nothing else. -/
theorem endStatus_step (hw : w.KeepsStatus) {e : UnixEvent} (ht : w.step e = some t) :
    t.KeepsStatus ∧ ∀ status, t.endStatus = some status ↔
      w.endStatus = some status ∨ e = .exit status := by
  have hquiet (h : t.KeepsStatus ∧ t.endStatus = w.endStatus) (hexit : ∀ status, e ≠ .exit status) :
      t.KeepsStatus ∧ ∀ status, t.endStatus = some status ↔
        w.endStatus = some status ∨ e = .exit status := by
    refine ⟨h.1, fun status => ?_⟩
    rw [h.2, or_iff_left (hexit status)]
  cases process_move ht with
  | exit status hrunning hprocess hstatus =>
      unfold KeepsStatus at hw ⊢
      rw [hrunning] at hw
      rw [hprocess, hstatus]
      refine ⟨hw, fun status' => ?_⟩
      simp [endStatus, hprocess, hrunning]
  | polled _ fails hexit hprocess hstatus =>
      exact hquiet (endStatus_of_eq (endStatus_stdTryWait hw fails) hprocess hstatus) hexit
  | kept _ hexit hprocess hstatus =>
      exact hquiet (endStatus_of_eq ⟨hw, rfl⟩ hprocess hstatus) hexit

/-- **The run lemma.** -/
theorem endStatus_exec (hw : w.KeepsStatus) {events : List UnixEvent}
    (ht : exec step w events = some t) :
    t.KeepsStatus ∧ ∀ status, t.endStatus = some status ↔
      w.endStatus = some status ∨ .exit status ∈ events := by
  induction events generalizing w with
  | nil =>
      obtain rfl := Option.some.inj ht
      exact ⟨hw, by simp⟩
  | cons e events ih =>
      rw [exec_cons, Option.bind_eq_some_iff] at ht
      obtain ⟨u, hu, ht⟩ := ht
      obtain ⟨hkeeps, hstep⟩ := endStatus_step hw hu
      obtain ⟨hend, hrun⟩ := ih hkeeps ht
      refine ⟨hend, fun status => ?_⟩
      rw [hrun, hstep, List.mem_cons, or_assoc, eq_comm (a := UnixEvent.exit status)]

end World

/-- **A poll reports the end of the child.** In every run of polls, waits, kills and cloned killers on
a spawned child, with failures of any of them, whose child ends in any way at any moment: a poll that
does not fail reports an end exactly if the child has come to it, with the code of its exit or the
name of its signal; the report reads as that end, and is a success exactly after an exit with code 0.
Source: `lib.rs` `Child for std::process::Child`, `From<std::process::ExitStatus> for ExitStatus`,
`ExitStatus::success`, `Display for ExitStatus` -/
theorem child_end_reported_iff {strsignal : ℕ → Option String} {events : List UnixEvent} {w : World}
    (hends : ∀ status, UnixEvent.exit status ∈ events →
      ∃ e : ChildEnd, status = ExitStatus.ofStd strsignal e.word)
    (hrun : exec World.step .spawned events = some w) (status : ExitStatus) :
    ((w.stdTryWait none).2 = .ok (some status) ↔
        ∃ e, ended strsignal e ∈ events ∧ status = e.status strsignal ∧
          ExitStatus.display status = e.text strsignal) ∧
      ((w.stdTryWait none).2 = .ok (some status) →
        (ExitStatus.success status = true ↔ ended strsignal (.exited 0) ∈ events)) := by
  obtain ⟨hkeeps, hend⟩ := World.endStatus_exec (w := .spawned) rfl hrun
  have hreported (status : ExitStatus) :
      (w.stdTryWait none).2 = .ok (some status) ↔ UnixEvent.exit status ∈ events := by
    rw [World.stdTryWait_reports hkeeps, Except.ok.injEq, hend]
    simp [World.endStatus, World.spawned]
  rw [hreported]
  constructor
  · constructor
    · intro hexit
      obtain ⟨e, rfl⟩ := hends status hexit
      refine ⟨e, hexit, ofStd_word strsignal e, ?_⟩
      rw [ofStd_word, display_status]
    · rintro ⟨e, hexit, rfl, -⟩
      rwa [ended, ofStd_word] at hexit
  · intro hexit
    obtain ⟨e, rfl⟩ := hends status hexit
    rw [ofStd_word, success_status_iff]
    constructor
    · rintro rfl
      exact hexit
    · intro hzero
      -- the child ends once, so both ends are the same
      have hfirst := (hend _).mpr (.inr hexit)
      have hsecond := (hend _).mpr (.inr hzero)
      rw [hfirst, Option.some.injEq, ofStd_word, ofStd_word] at hsecond
      rw [← success_status_iff strsignal, hsecond, success_status_iff]

/-- The C library knows the name of one signal. -/
def hangupName (signal : ℕ) : Option String := if signal = 1 then some "Hangup" else none

/-- The child ends by the signal of a `kill`, with a core. -/
def hungUpRun : List UnixEvent :=
  [.tryWait none, .kill (.ok ()), ended hangupName (.signaled 1 true (by decide)), .gracePoll none]

/-- That end is reported by its name, and is no success. -/
theorem child_end_reported_hung_up :
    ∃ w, exec World.step .spawned hungUpRun = some w ∧
      (w.stdTryWait none).2 = .ok (some { code := 1, signal := some "Hangup" }) ∧
      ended hangupName (.exited 0) ∉ hungUpRun := by
  have hends : ∀ status, UnixEvent.exit status ∈ hungUpRun →
      ∃ e : ChildEnd, status = ExitStatus.ofStd hangupName e.word := by
    intro status hexit
    simp only [hungUpRun, ended, List.mem_cons, List.not_mem_nil, or_false, reduceCtorEq, false_or,
      UnixEvent.exit.injEq] at hexit
    exact ⟨_, hexit⟩
  obtain ⟨hreported, hsuccess⟩ := @child_end_reported_iff hangupName hungUpRun _ hends rfl
    { code := 1, signal := some "Hangup" }
  have hreport := hreported.mpr ⟨.signaled 1 true (by decide), by simp [hungUpRun], rfl, rfl⟩
  refine ⟨_, rfl, hreport, fun hzero => ?_⟩
  have hfalse := (hsuccess hreport).mpr hzero
  cases hfalse

end SysprimsPty.Process
