import SysprimsPty.Found.Descriptors
import SysprimsPty.Found.Transition
import SysprimsPty.Master.Writer
import Mathlib.Tactic.Abel

/-!
# The descriptors of a Unix PTY

A process that opens a PTY: the two descriptors of `openpty`, the calls on them that follow, what the
master hands out, and the duplicates that a spawn gives to the child. `libc::openpty` makes descriptors
that are not close-on-exec, and `cloexec` marks them one after the other; the duplicates are made by
`filedescriptor`, and the crate relies on their being close-on-exec. Other code opens and closes
descriptors of its own in the same table at any moment. What a program inherits is the subject of
`SysprimsPty.Master.UnixPrograms`.

* `Duplicates` — the duplicates that `filedescriptor` makes, with what is relied on.
* `UnixHost.step` — the steps of `openpty`, the calls, the drops and other code.
* `HostSound` — the invariant: the open descriptors are those that are held, each once.
* `HostSound.sealed` — once both descriptors are marked, all descriptors of the PTY are close-on-exec.
-/

namespace SysprimsPty.Master

open SysprimsPty.Core
open SysprimsPty.Found

/-! ## The state -/

/-- The number of a descriptor. -/
abbrev Fd := ℕ

/-- What a descriptor denotes. -/
inductive TtyObject
  | master
  | slave
  | other (id : ℕ)
  deriving DecidableEq

/-- The object is no end of the PTY. -/
def TtyObject.isOther : TtyObject → Bool
  | .other _ => true
  | _ => false

/-- The master, close-on-exec. -/
def sealedMaster : Descriptor TtyObject := { object := .master, cloexec := true }

/-- The slave, close-on-exec. -/
def sealedSlave : Descriptor TtyObject := { object := .slave, cloexec := true }

/-- How `filedescriptor` duplicates a descriptor. -/
structure Duplicates where
  /-- `FileDescriptor::try_clone` -/
  tryClone : Descriptor TtyObject → Descriptor TtyObject
  /-- `FileDescriptor::as_stdio` -/
  asStdio : Descriptor TtyObject → Descriptor TtyObject

/-- A duplicate denotes the same and is close-on-exec.
Source: `unix.rs` `PtyFd::spawn_contained_command_with_fault`, the comment in its `pre_exec` -/
structure Duplicates.CloseOnExec (D : Duplicates) : Prop where
  tryClone : ∀ d, D.tryClone d = { d with cloexec := true }
  asStdio : ∀ d, D.asStdio d = { d with cloexec := true }

/-- How far the PTY has come. -/
inductive TtyPhase
  | before
  /-- After `libc::openpty`. -/
  | opened (master slave : Fd)
  /-- After `cloexec` of the master. -/
  | marked (master slave : Fd)
  /-- `openpty` has failed, and its locals go out of scope, first to last. -/
  | failing (locals : List (Fd × Descriptor TtyObject))
  /-- `openpty` has returned; `none`: that end has been dropped. -/
  | returned (master : Option (UnixMasterPty Fd)) (slave : Option Fd)

/-- A spawn on the slave. -/
inductive Spawning
  | idle
  /-- The duplicates that the `Command` has been given so far. -/
  | configuring (stdio : List Fd)
  /-- The `Command` goes out of scope. -/
  | releasing (stdio : List Fd)
  deriving DecidableEq

/-- A process with a PTY. -/
structure UnixHost where
  table : Descriptors Fd TtyObject
  phase : TtyPhase
  spawning : Spawning
  readers : Multiset Fd
  writers : Multiset Fd
  elsewhere : Multiset (Fd × Descriptor TtyObject)

/-- A step of `openpty` or of a spawn, a call, a drop, or a move of other code. New descriptors come
with the numbers that the system gives them. -/
inductive HostEvent
  /-- `libc::openpty` -/
  | openpty (answer : Except String (Fd × Fd))
  /-- `cloexec(master.fd)`, with the answers of its two `fcntl`s. -/
  | markMaster (getfd : Except String ℕ) (setfd : Except String Unit)
  /-- `cloexec(slave.fd)` -/
  | markSlave (getfd : Except String ℕ) (setfd : Except String Unit)
  /-- The next local of a failed `openpty` is dropped. -/
  | dropLocal
  /-- `try_clone_reader`, where the duplication succeeds. -/
  | cloneReader (clone : Fd)
  | takeWriter (dup : Except String Fd)
  | dropMaster
  | dropSlave
  | dropReader (reader : Fd)
  | dropWriter (writer : Fd)
  /-- The next `self.as_stdio()` of a spawn. -/
  | stdio (dup : Except String Fd)
  /-- `cmd.spawn()` returns in the parent. -/
  | forked
  /-- The next duplicate of the `Command` is dropped, or the spawn returns. -/
  | dropStdio
  | opens (fd : Fd) (id : ℕ) (cloexec : Bool)
  | closes (fd : Fd) (id : ℕ) (cloexec : Bool)

/-! ## Who holds what -/

/-- The descriptors of an `openpty` at a point of its life. -/
def TtyPhase.holds : TtyPhase → Multiset (Fd × Descriptor TtyObject)
  | .before => 0
  | .opened master slave =>
      {(master, { sealedMaster with cloexec := false })} +
        {(slave, { sealedSlave with cloexec := false })}
  | .marked master slave =>
      {(master, sealedMaster)} + {(slave, { sealedSlave with cloexec := false })}
  | .failing locals => locals
  | .returned master slave =>
      holding sealedMaster (master.map UnixMasterPty.fd) + holding sealedSlave slave

/-- The duplicates of a `Command`. -/
def Spawning.stdio : Spawning → List Fd
  | .idle => []
  | .configuring stdio | .releasing stdio => stdio

@[simp] theorem Spawning.stdio_configuring (stdio : List Fd) : (configuring stdio).stdio = stdio := rfl

@[simp] theorem Spawning.stdio_releasing (stdio : List Fd) : (releasing stdio).stdio = stdio := rfl

/-- No descriptor of the PTY is still to be marked. -/
def TtyPhase.isSealed : TtyPhase → Bool
  | .before | .returned _ _ => true
  | .opened _ _ | .marked _ _ => false
  | .failing locals => locals.all fun p => p.2.cloexec

namespace UnixHost

/-- What the crate and the holders of its readers and writer hold. -/
def crate (s : UnixHost) : Multiset (Fd × Descriptor TtyObject) :=
  s.phase.holds + (s.readers.map fun reader => (reader, sealedMaster)) +
    (s.writers.map fun writer => (writer, sealedMaster)) +
    ((s.spawning.stdio : Multiset Fd).map fun fd => (fd, sealedSlave))

/-- What the crate and the other code hold. -/
def held (s : UnixHost) : Multiset (Fd × Descriptor TtyObject) := s.crate + s.elsewhere

/-- Before `openpty`. -/
def unopened (table : Descriptors Fd TtyObject) (elsewhere : Multiset (Fd × Descriptor TtyObject)) :
    UnixHost where
  table
  phase := .before
  spawning := .idle
  readers := 0
  writers := 0
  elsewhere

end UnixHost

/-! ## The steps -/

/-- `libc::FD_CLOEXEC` -/
def fdCloexec : ℕ := 1

/-- The new flags of the descriptor; `getfd` and `setfd` are the answers of the two `fcntl`s.
Source: `unix.rs` `cloexec` -/
def cloexec (getfd : Except String ℕ) (setfd : Except String Unit) : Except Error ℕ :=
  match getfd with
  | .error e => .error (.msg ("fcntl to read flags failed: " ++ e))
  | .ok flags =>
  match setfd with
  | .error e => .error (.msg ("fcntl to set CLOEXEC failed: " ++ e))
  | .ok () => .ok (flags ||| fdCloexec)

/-- The flags of a descriptor that `cloexec` has marked. -/
theorem cloexec_marks {getfd : Except String ℕ} {setfd : Except String Unit} {flags : ℕ}
    (h : cloexec getfd setfd = .ok flags) : flags.testBit 0 = true := by
  unfold cloexec at h
  rcases getfd with e | old
  · cases h
  · rcases setfd with e | ⟨⟨⟩⟩
    · cases h
    · obtain rfl := Except.ok.inj h
      simp [fdCloexec]

/-- The duplicates that the `Command` has; `none`: the spawn is past them. -/
def Spawning.given : Spawning → Option (List Fd)
  | .idle => some []
  | .configuring stdio => some stdio
  | .releasing _ => none

namespace UnixHost

/-- One step, where `filedescriptor` duplicates by `D`.
Source: `unix.rs` `openpty`, `cloexec`, `MasterPty for UnixMasterPty`, `PtyFd::spawn_command`,
`PtyFd::spawn_contained_command_with_fault` -/
def step (D : Duplicates) (s : UnixHost) : HostEvent → Option UnixHost
  | .openpty answer =>
      match s.phase, answer with
      | .before, .error _ => some { s with phase := .failing [] }
      | .before, .ok (master, slave) =>
          if s.table master = none ∧ s.table slave = none ∧ slave ≠ master then
            some { s with
              table := (s.table.opened master { sealedMaster with cloexec := false }).opened slave
                { sealedSlave with cloexec := false }
              phase := .opened master slave }
          else none
      | _, _ => none
  | .markMaster getfd setfd =>
      match s.phase with
      | .opened master slave =>
          match cloexec getfd setfd with
          | .error _ =>
              some { s with
                phase := .failing [(slave, { sealedSlave with cloexec := false }),
                  (master, { sealedMaster with cloexec := false })] }
          | .ok flags =>
              some { s with
                table := s.table.opened master { sealedMaster with cloexec := flags.testBit 0 }
                phase := .marked master slave }
      | _ => none
  | .markSlave getfd setfd =>
      match s.phase with
      | .marked master slave =>
          match cloexec getfd setfd with
          | .error _ =>
              some { s with
                phase := .failing [(slave, { sealedSlave with cloexec := false }),
                  (master, sealedMaster)] }
          | .ok flags =>
              some { s with
                table := s.table.opened slave { sealedSlave with cloexec := flags.testBit 0 }
                phase := .returned (some { fd := master, tookWriter := false }) (some slave) }
      | _ => none
  | .dropLocal =>
      match s.phase with
      | .failing (p :: locals) =>
          some { s with table := s.table.closed p.1, phase := .failing locals }
      | _ => none
  | .cloneReader clone =>
      match s.phase with
      | .returned (some _) _ =>
          if s.table clone = none then
            some { s with
              table := s.table.opened clone (D.tryClone sealedMaster)
              readers := clone ::ₘ s.readers }
          else none
      | _ => none
  | .takeWriter dup =>
      match s.phase with
      | .returned (some master) slave =>
          match master.takeWriter dup with
          | (master, .error _) => some { s with phase := .returned (some master) slave }
          | (master, .ok writer) =>
              if s.table writer.fd = none then
                some { s with
                  table := s.table.opened writer.fd (D.tryClone sealedMaster)
                  phase := .returned (some master) slave
                  writers := writer.fd ::ₘ s.writers }
              else none
      | _ => none
  | .dropMaster =>
      match s.phase with
      | .returned (some master) slave =>
          some { s with table := s.table.closed master.fd, phase := .returned none slave }
      | _ => none
  | .dropSlave =>
      match s.phase, s.spawning with
      | .returned master (some slave), .idle =>
          some { s with table := s.table.closed slave, phase := .returned master none }
      | _, _ => none
  | .dropReader reader =>
      if reader ∈ s.readers then
        some { s with table := s.table.closed reader, readers := s.readers.erase reader }
      else none
  | .dropWriter writer =>
      if writer ∈ s.writers then
        some { s with table := s.table.closed writer, writers := s.writers.erase writer }
      else none
  | .stdio dup =>
      match s.phase, s.spawning.given with
      | .returned _ (some _), some stdio =>
          if stdio.length < 3 then
            match dup with
            | .error _ => some { s with spawning := .releasing stdio }
            | .ok fd =>
                if s.table fd = none then
                  some { s with
                    table := s.table.opened fd (D.asStdio sealedSlave)
                    spawning := .configuring (fd :: stdio) }
                else none
          else none
      | _, _ => none
  | .forked =>
      match s.spawning with
      | .configuring stdio =>
          if stdio.length = 3 then some { s with spawning := .releasing stdio } else none
      | _ => none
  | .dropStdio =>
      match s.spawning with
      | .releasing (fd :: stdio) =>
          some { s with table := s.table.closed fd, spawning := .releasing stdio }
      | .releasing [] => some { s with spawning := .idle }
      | _ => none
  | .opens fd id cloexec =>
      if s.table fd = none then
        some { s with
          table := s.table.opened fd { object := .other id, cloexec }
          elsewhere := (fd, { object := .other id, cloexec }) ::ₘ s.elsewhere }
      else none
  | .closes fd id cloexec =>
      if (fd, { object := .other id, cloexec }) ∈ s.elsewhere then
        some { s with
          table := s.table.closed fd
          elsewhere := s.elsewhere.erase (fd, { object := .other id, cloexec }) }
      else none

/-! ## The moves -/

/-- What a step can do. -/
inductive HostMove (s : UnixHost) : HostEvent → UnixHost → Prop
  | openptyFails (e : String) (hphase : s.phase = .before) :
      HostMove s (.openpty (.error e)) { s with phase := .failing [] }
  | openpty (master slave : Fd) (hphase : s.phase = .before) (hmaster : s.table master = none)
      (hslave : s.table slave = none) (hne : slave ≠ master) :
      HostMove s (.openpty (.ok (master, slave))) { s with
        table := (s.table.opened master { sealedMaster with cloexec := false }).opened slave
          { sealedSlave with cloexec := false }
        phase := .opened master slave }
  | markMasterFails (getfd : Except String ℕ) (setfd : Except String Unit) (master slave : Fd)
      (hphase : s.phase = .opened master slave) :
      HostMove s (.markMaster getfd setfd) { s with
        phase := .failing [(slave, { sealedSlave with cloexec := false }),
          (master, { sealedMaster with cloexec := false })] }
  | markMaster (getfd : Except String ℕ) (setfd : Except String Unit) (master slave : Fd)
      (hphase : s.phase = .opened master slave) :
      HostMove s (.markMaster getfd setfd) { s with
        table := s.table.opened master sealedMaster, phase := .marked master slave }
  | markSlaveFails (getfd : Except String ℕ) (setfd : Except String Unit) (master slave : Fd)
      (hphase : s.phase = .marked master slave) :
      HostMove s (.markSlave getfd setfd) { s with
        phase := .failing [(slave, { sealedSlave with cloexec := false }), (master, sealedMaster)] }
  | markSlave (getfd : Except String ℕ) (setfd : Except String Unit) (master slave : Fd)
      (hphase : s.phase = .marked master slave) :
      HostMove s (.markSlave getfd setfd) { s with
        table := s.table.opened slave sealedSlave
        phase := .returned (some { fd := master, tookWriter := false }) (some slave) }
  | dropLocal (p : Fd × Descriptor TtyObject) (locals : List (Fd × Descriptor TtyObject))
      (hphase : s.phase = .failing (p :: locals)) :
      HostMove s .dropLocal { s with table := s.table.closed p.1, phase := .failing locals }
  | cloneReader (clone : Fd) (master : UnixMasterPty Fd) (slave : Option Fd)
      (hphase : s.phase = .returned (some master) slave) (hfree : s.table clone = none) :
      HostMove s (.cloneReader clone)
        { s with table := s.table.opened clone sealedMaster, readers := clone ::ₘ s.readers }
  | writerRefused (dup : Except String Fd) (master master' : UnixMasterPty Fd) (slave : Option Fd)
      (hphase : s.phase = .returned (some master) slave) (hfd : master'.fd = master.fd) :
      HostMove s (.takeWriter dup) { s with phase := .returned (some master') slave }
  | takeWriter (dup : Except String Fd) (master master' : UnixMasterPty Fd) (slave : Option Fd)
      (writer : Fd) (hphase : s.phase = .returned (some master) slave) (hfd : master'.fd = master.fd)
      (hfree : s.table writer = none) :
      HostMove s (.takeWriter dup) { s with
        table := s.table.opened writer sealedMaster
        phase := .returned (some master') slave
        writers := writer ::ₘ s.writers }
  | dropMaster (master : UnixMasterPty Fd) (slave : Option Fd)
      (hphase : s.phase = .returned (some master) slave) :
      HostMove s .dropMaster { s with table := s.table.closed master.fd, phase := .returned none slave }
  | dropSlave (master : Option (UnixMasterPty Fd)) (slave : Fd)
      (hphase : s.phase = .returned master (some slave)) (hidle : s.spawning = .idle) :
      HostMove s .dropSlave { s with table := s.table.closed slave, phase := .returned master none }
  | dropReader (reader : Fd) (hmem : reader ∈ s.readers) :
      HostMove s (.dropReader reader)
        { s with table := s.table.closed reader, readers := s.readers.erase reader }
  | dropWriter (writer : Fd) (hmem : writer ∈ s.writers) :
      HostMove s (.dropWriter writer)
        { s with table := s.table.closed writer, writers := s.writers.erase writer }
  | stdioFails (e : String) (master : Option (UnixMasterPty Fd)) (slave : Fd) (stdio : List Fd)
      (hphase : s.phase = .returned master (some slave)) (hgiven : s.spawning.given = some stdio) :
      HostMove s (.stdio (.error e)) { s with spawning := .releasing stdio }
  | stdio (fd : Fd) (master : Option (UnixMasterPty Fd)) (slave : Fd) (stdio : List Fd)
      (hphase : s.phase = .returned master (some slave)) (hgiven : s.spawning.given = some stdio)
      (hfree : s.table fd = none) :
      HostMove s (.stdio (.ok fd)) { s with
        table := s.table.opened fd sealedSlave, spawning := .configuring (fd :: stdio) }
  | forked (stdio : List Fd) (hspawning : s.spawning = .configuring stdio) :
      HostMove s .forked { s with spawning := .releasing stdio }
  | dropStdio (fd : Fd) (stdio : List Fd) (hspawning : s.spawning = .releasing (fd :: stdio)) :
      HostMove s .dropStdio { s with table := s.table.closed fd, spawning := .releasing stdio }
  | spawned (hspawning : s.spawning = .releasing []) :
      HostMove s .dropStdio { s with spawning := .idle }
  | opens (fd : Fd) (id : ℕ) (cloexec : Bool) (hfree : s.table fd = none) :
      HostMove s (.opens fd id cloexec) { s with
        table := s.table.opened fd { object := .other id, cloexec }
        elsewhere := (fd, { object := .other id, cloexec }) ::ₘ s.elsewhere }
  | closes (fd : Fd) (id : ℕ) (cloexec : Bool)
      (hmem : (fd, { object := .other id, cloexec }) ∈ s.elsewhere) :
      HostMove s (.closes fd id cloexec) { s with
        table := s.table.closed fd
        elsewhere := s.elsewhere.erase (fd, { object := .other id, cloexec }) }

/-- The master keeps its descriptor. -/
theorem takeWriter_fd (m : UnixMasterPty Fd) (dup : Except String Fd) :
    (m.takeWriter dup).1.fd = m.fd := by
  unfold UnixMasterPty.takeWriter
  split_ifs
  · rfl
  · rcases dup with e | fd
    · rfl
    · rfl

section Moves

variable {D : Duplicates} {s t : UnixHost}

/-- `libc::openpty` fails or makes two descriptors. -/
theorem move_openpty {answer : Except String (Fd × Fd)} (ht : s.step D (.openpty answer) = some t) :
    HostMove s (.openpty answer) t := by
  simp only [step] at ht
  split at ht
  · next e hphase =>
    obtain rfl := Option.some.inj ht
    exact .openptyFails e hphase
  · next master slave hphase =>
    split_ifs at ht with hnew
    obtain rfl := Option.some.inj ht
    exact .openpty master slave hphase hnew.1 hnew.2.1 hnew.2.2
  · cases ht

/-- `cloexec` of the master fails or marks it. -/
theorem move_markMaster {getfd : Except String ℕ} {setfd : Except String Unit}
    (ht : s.step D (.markMaster getfd setfd) = some t) : HostMove s (.markMaster getfd setfd) t := by
  simp only [step] at ht
  split at ht
  · next master slave hphase =>
    split at ht
    · obtain rfl := Option.some.inj ht
      exact .markMasterFails getfd setfd master slave hphase
    · next flags hflags =>
      rw [cloexec_marks hflags] at ht
      obtain rfl := Option.some.inj ht
      exact .markMaster getfd setfd master slave hphase
  · cases ht

/-- `cloexec` of the slave fails or marks it. -/
theorem move_markSlave {getfd : Except String ℕ} {setfd : Except String Unit}
    (ht : s.step D (.markSlave getfd setfd) = some t) : HostMove s (.markSlave getfd setfd) t := by
  simp only [step] at ht
  split at ht
  · next master slave hphase =>
    split at ht
    · obtain rfl := Option.some.inj ht
      exact .markSlaveFails getfd setfd master slave hphase
    · next flags hflags =>
      rw [cloexec_marks hflags] at ht
      obtain rfl := Option.some.inj ht
      exact .markSlave getfd setfd master slave hphase
  · cases ht

/-- `try_clone_reader` hands out a duplicate of the master. -/
theorem move_cloneReader (hdup : D.CloseOnExec) {clone : Fd}
    (ht : s.step D (.cloneReader clone) = some t) : HostMove s (.cloneReader clone) t := by
  simp only [step, hdup.tryClone] at ht
  split at ht
  · next master slave hphase =>
    split_ifs at ht with hfree
    obtain rfl := Option.some.inj ht
    exact .cloneReader clone master slave hphase hfree
  · cases ht

/-- `take_writer` is refused or hands out a duplicate of the master. -/
theorem move_takeWriter (hdup : D.CloseOnExec) {dup : Except String Fd}
    (ht : s.step D (.takeWriter dup) = some t) : HostMove s (.takeWriter dup) t := by
  simp only [step, hdup.tryClone] at ht
  split at ht
  · next master slave hphase =>
    have hfd := takeWriter_fd master dup
    split at ht
    · next master' e hcall =>
      rw [hcall] at hfd
      obtain rfl := Option.some.inj ht
      exact .writerRefused dup master master' slave hphase hfd
    · next master' writer hcall =>
      rw [hcall] at hfd
      split_ifs at ht with hfree
      obtain rfl := Option.some.inj ht
      exact .takeWriter dup master master' slave writer.fd hphase hfd hfree
  · cases ht

/-- The `Command` is given one more duplicate of the slave, or the spawn fails. -/
theorem move_stdio (hdup : D.CloseOnExec) {dup : Except String Fd}
    (ht : s.step D (.stdio dup) = some t) : HostMove s (.stdio dup) t := by
  simp only [step, hdup.asStdio] at ht
  split at ht
  · next master slave stdio hphase hgiven =>
    split_ifs at ht with hlength
    split at ht
    · next e =>
      obtain rfl := Option.some.inj ht
      exact .stdioFails e master slave stdio hphase hgiven
    · next fd =>
      split_ifs at ht with hfree
      obtain rfl := Option.some.inj ht
      exact .stdio fd master slave stdio hphase hgiven hfree
  · cases ht

/-- A duplicate of the `Command` is dropped, or the spawn returns. -/
theorem move_dropStdio (ht : s.step D .dropStdio = some t) : HostMove s .dropStdio t := by
  simp only [step] at ht
  split at ht
  · next fd stdio hspawning =>
    obtain rfl := Option.some.inj ht
    exact .dropStdio fd stdio hspawning
  · next hspawning =>
    obtain rfl := Option.some.inj ht
    exact .spawned hspawning
  · cases ht

/-- Every step is one of its moves. -/
theorem step_move (hdup : D.CloseOnExec) {e : HostEvent} (ht : s.step D e = some t) :
    HostMove s e t := by
  cases e with
  | openpty answer => exact move_openpty ht
  | markMaster getfd setfd => exact move_markMaster ht
  | markSlave getfd setfd => exact move_markSlave ht
  | dropLocal =>
      simp only [step] at ht
      split at ht
      · next p locals hphase =>
        obtain rfl := Option.some.inj ht
        exact .dropLocal p locals hphase
      · cases ht
  | cloneReader clone => exact move_cloneReader hdup ht
  | takeWriter dup => exact move_takeWriter hdup ht
  | dropMaster =>
      simp only [step] at ht
      split at ht
      · next master slave hphase =>
        obtain rfl := Option.some.inj ht
        exact .dropMaster master slave hphase
      · cases ht
  | dropSlave =>
      simp only [step] at ht
      split at ht
      · next master slave hphase hidle =>
        obtain rfl := Option.some.inj ht
        exact .dropSlave master slave hphase hidle
      · cases ht
  | dropReader reader =>
      simp only [step] at ht
      split_ifs at ht with hmem
      obtain rfl := Option.some.inj ht
      exact .dropReader reader hmem
  | dropWriter writer =>
      simp only [step] at ht
      split_ifs at ht with hmem
      obtain rfl := Option.some.inj ht
      exact .dropWriter writer hmem
  | stdio dup => exact move_stdio hdup ht
  | forked =>
      simp only [step] at ht
      split at ht
      · next stdio hspawning =>
        split_ifs at ht with hlength
        obtain rfl := Option.some.inj ht
        exact .forked stdio hspawning
      · cases ht
  | dropStdio => exact move_dropStdio ht
  | opens fd id cloexec =>
      simp only [step] at ht
      split_ifs at ht with hfree
      obtain rfl := Option.some.inj ht
      exact .opens fd id cloexec hfree
  | closes fd id cloexec =>
      simp only [step] at ht
      split_ifs at ht with hmem
      obtain rfl := Option.some.inj ht
      exact .closes fd id cloexec hmem

end Moves

end UnixHost

/-! ## The invariant -/

/-- **The invariant.** -/
structure HostSound (s : UnixHost) : Prop where
  custody : Custody s.table s.held
  elsewhere : ∀ p ∈ s.elsewhere, p.2.object.isOther = true
  /-- A spawn borrows the slave. -/
  borrowed : s.spawning = .idle ∨ ∃ master slave, s.phase = .returned master (some slave)

namespace UnixHost

variable {s t : UnixHost}

/-- Before `openpty` all descriptors are those of other code. -/
theorem sound_unopened {table : Descriptors Fd TtyObject}
    {elsewhere : Multiset (Fd × Descriptor TtyObject)} (hcustody : Custody table elsewhere)
    (hother : ∀ p ∈ elsewhere, p.2.object.isOther = true) : HostSound (unopened table elsewhere) := by
  refine ⟨?_, hother, .inl rfl⟩
  simpa [unopened, held, crate, TtyPhase.holds, Spawning.stdio] using hcustody

/-- The duplicates that the `Command` has are those of the spawn. -/
theorem stdio_of_given {spawning : Spawning} {stdio : List Fd} (h : spawning.given = some stdio) :
    spawning.stdio = stdio := by
  rcases spawning with _ | stdio' | stdio'
  · exact Option.some.inj h
  · exact Option.some.inj h
  · cases h

/-- The spawn goes on with the slave that it borrows. -/
theorem sound_spawning (hs : HostSound s) {spawning : Spawning} (hstdio : spawning.stdio = s.spawning.stdio)
    (hborrowed : spawning = .idle ∨ ∃ master slave, s.phase = .returned master (some slave)) :
    HostSound { s with spawning } := by
  refine ⟨?_, hs.elsewhere, hborrowed⟩
  have hheld : held { s with spawning } = s.held := by
    simp only [held, crate, hstdio]
  rw [hheld]
  exact hs.custody

/-- The phase goes on with the same descriptors. -/
theorem sound_phase (hs : HostSound s) {phase : TtyPhase} (hholds : phase.holds = s.phase.holds)
    (hborrowed : s.spawning = .idle ∨ ∃ master slave, phase = .returned master (some slave)) :
    HostSound { s with phase } := by
  refine ⟨?_, hs.elsewhere, hborrowed⟩
  have hheld : held { s with phase } = s.held := by
    simp only [held, crate, hholds]
  rw [hheld]
  exact hs.custody

/-- A descriptor of the PTY is marked. -/
theorem sound_mark (hs : HostSound s) {phase : TtyPhase} {fd : Fd} {d d' : Descriptor TtyObject}
    {rest : Multiset (Fd × Descriptor TtyObject)} (hold : s.phase.holds = (fd, d) ::ₘ rest)
    (hnew : phase.holds = (fd, d') ::ₘ rest)
    (hborrowed : s.spawning = .idle ∨ ∃ master slave, phase = .returned master (some slave)) :
    HostSound { s with table := s.table.opened fd d', phase } := by
  refine ⟨?_, hs.elsewhere, hborrowed⟩
  have hcustody := hs.custody
  simp only [held, crate, hold, Multiset.cons_add] at hcustody
  simp only [held, crate, hnew, Multiset.cons_add]
  exact hcustody.replaced d'

/-- A spawn is in progress only after `openpty`. -/
theorem idle_of_phase (hs : HostSound s)
    (hphase : ∀ master slave, s.phase ≠ .returned master (some slave)) : s.spawning = .idle := by
  rcases hs.borrowed with hidle | ⟨master, slave, hreturned⟩
  · exact hidle
  · exact absurd hreturned (hphase master slave)

/-- `libc::openpty` has made both ends, which are not yet marked. -/
theorem sound_openpty (hs : HostSound s) {master slave : Fd} (hphase : s.phase = .before)
    (hmaster : s.table master = none) (hslave : s.table slave = none) (hne : slave ≠ master) :
    HostSound { s with
      table := (s.table.opened master { sealedMaster with cloexec := false }).opened slave
        { sealedSlave with cloexec := false }
      phase := .opened master slave } := by
  have hfree : s.table.opened master { sealedMaster with cloexec := false } slave = none := by
    rw [s.table.opened_of_ne hne, hslave]
  have hidle := idle_of_phase hs (by simp [hphase])
  refine ⟨(hs.custody.opened hmaster _).opens hfree ?_, hs.elsewhere, .inl hidle⟩
  simp only [held, crate, hphase, TtyPhase.holds]
  simp only [← Multiset.singleton_add]
  abel

/-- The master is marked. -/
theorem sound_markMaster (hs : HostSound s) {master slave : Fd}
    (hphase : s.phase = .opened master slave) :
    HostSound { s with table := s.table.opened master sealedMaster, phase := .marked master slave } := by
  have hidle := idle_of_phase hs (by simp [hphase])
  refine @sound_mark s hs _ master { sealedMaster with cloexec := false } sealedMaster
    {(slave, { sealedSlave with cloexec := false })} ?_ rfl (.inl hidle)
  rw [hphase]
  rfl

/-- The slave is marked, and `openpty` returns. -/
theorem sound_markSlave (hs : HostSound s) {master slave : Fd}
    (hphase : s.phase = .marked master slave) :
    HostSound { s with
      table := s.table.opened slave sealedSlave
      phase := .returned (some { fd := master, tookWriter := false }) (some slave) } := by
  have hidle := idle_of_phase hs (by simp [hphase])
  refine @sound_mark s hs _ slave { sealedSlave with cloexec := false } sealedSlave
    {(master, sealedMaster)} ?_ ?_ (.inl hidle)
  · rw [hphase]
    simp only [TtyPhase.holds, ← Multiset.singleton_add]
    abel
  · simp only [TtyPhase.holds, Option.map_some, holding_some, ← Multiset.singleton_add]
    abel

/-- The `Command` is given one more duplicate of the slave. -/
theorem sound_stdio (hs : HostSound s) {fd : Fd} {master : Option (UnixMasterPty Fd)} {slave : Fd}
    {stdio : List Fd} (hphase : s.phase = .returned master (some slave))
    (hgiven : s.spawning.given = some stdio) (hfree : s.table fd = none) :
    HostSound { s with
      table := s.table.opened fd sealedSlave, spawning := .configuring (fd :: stdio) } := by
  refine ⟨hs.custody.opens hfree ?_, hs.elsewhere, .inr ⟨master, slave, hphase⟩⟩
  simp only [held, crate, stdio_of_given hgiven, Spawning.stdio_configuring,
    ← Multiset.cons_coe, Multiset.map_cons]
  simp only [← Multiset.singleton_add]
  abel

/-- A duplicate of the `Command` is dropped. -/
theorem sound_dropStdio (hs : HostSound s) {fd : Fd} {stdio : List Fd}
    (hspawning : s.spawning = .releasing (fd :: stdio)) :
    HostSound { s with table := s.table.closed fd, spawning := .releasing stdio } := by
  refine ⟨@Custody.closes _ _ _ _ fd sealedSlave _ hs.custody _ ?_, hs.elsewhere, .inr ?_⟩
  · simp only [held, crate, hspawning, Spawning.stdio_releasing, ← Multiset.cons_coe,
      Multiset.map_cons]
    simp only [← Multiset.singleton_add]
    abel
  · simpa [hspawning] using hs.borrowed

/-- Other code opens a descriptor. -/
theorem sound_opens (hs : HostSound s) {fd : Fd} (hfree : s.table fd = none) (id : ℕ)
    (cloexec : Bool) :
    HostSound { s with
      table := s.table.opened fd { object := .other id, cloexec }
      elsewhere := (fd, { object := .other id, cloexec }) ::ₘ s.elsewhere } := by
  refine ⟨hs.custody.opens hfree ?_, ?_, hs.borrowed⟩
  · simp only [held, crate, ← Multiset.singleton_add]
    abel
  · intro p hp
    rcases Multiset.mem_cons.mp hp with rfl | hp
    · rfl
    · exact hs.elsewhere p hp

/-- Other code closes a descriptor of its own. -/
theorem sound_closes (hs : HostSound s) {fd : Fd} {id : ℕ} {cloexec : Bool}
    (hmem : (fd, { object := .other id, cloexec }) ∈ s.elsewhere) :
    HostSound { s with
      table := s.table.closed fd
      elsewhere := s.elsewhere.erase (fd, { object := .other id, cloexec }) } := by
  refine ⟨@Custody.closes _ _ _ _ fd { object := .other id, cloexec } _ hs.custody _ ?_, ?_,
    hs.borrowed⟩
  · simp only [held, crate]
    conv_lhs => rw [← Multiset.cons_erase hmem]
    simp only [← Multiset.singleton_add]
    abel
  · exact fun p hp => hs.elsewhere p (Multiset.mem_of_mem_erase hp)

/-- **The step lemma.** -/
theorem sound_move (hs : HostSound s) {e : HostEvent} (hmove : HostMove s e t) : HostSound t := by
  cases hmove with
  | openptyFails e hphase =>
      exact sound_phase hs (by rw [hphase]; rfl) (.inl (idle_of_phase hs (by simp [hphase])))
  | openpty master slave hphase hmaster hslave hne =>
      exact sound_openpty hs hphase hmaster hslave hne
  | markMasterFails getfd setfd master slave hphase =>
      refine sound_phase hs ?_ (.inl (idle_of_phase hs (by simp [hphase])))
      rw [hphase]
      simp only [TtyPhase.holds, ← Multiset.cons_coe, Multiset.coe_nil, ← Multiset.singleton_add]
      abel
  | markMaster getfd setfd master slave hphase => exact sound_markMaster hs hphase
  | markSlaveFails getfd setfd master slave hphase =>
      refine sound_phase hs ?_ (.inl (idle_of_phase hs (by simp [hphase])))
      rw [hphase]
      simp only [TtyPhase.holds, ← Multiset.cons_coe, Multiset.coe_nil, ← Multiset.singleton_add]
      abel
  | markSlave getfd setfd master slave hphase => exact sound_markSlave hs hphase
  | dropLocal p locals hphase =>
      have hidle := idle_of_phase hs (by simp [hphase])
      refine ⟨@Custody.closes _ _ _ _ p.1 p.2 _ hs.custody _ ?_, hs.elsewhere, .inl hidle⟩
      simp only [held, crate, hphase, TtyPhase.holds, ← Multiset.cons_coe, ← Multiset.singleton_add]
      abel
  | cloneReader clone master slave hphase hfree =>
      refine ⟨hs.custody.opens hfree ?_, hs.elsewhere, hs.borrowed⟩
      simp only [held, crate, Multiset.map_cons]
      simp only [← Multiset.singleton_add]
      abel
  | writerRefused dup master master' slave hphase hfd =>
      refine sound_phase hs ?_ ?_
      · rw [hphase]
        simp only [TtyPhase.holds, Option.map_some, hfd]
      · simpa [hphase] using hs.borrowed
  | takeWriter dup master master' slave writer hphase hfd hfree =>
      refine ⟨hs.custody.opens hfree ?_, hs.elsewhere, by simpa [hphase] using hs.borrowed⟩
      simp only [held, crate, hphase, TtyPhase.holds, Option.map_some, hfd, Multiset.map_cons]
      simp only [← Multiset.singleton_add]
      abel
  | dropMaster master slave hphase =>
      refine ⟨@Custody.closes _ _ _ _ master.fd sealedMaster _ hs.custody _ ?_, hs.elsewhere,
        by simpa [hphase] using hs.borrowed⟩
      simp only [held, crate, hphase, TtyPhase.holds, Option.map_some, Option.map_none, holding_some,
        holding_none, ← Multiset.singleton_add]
      abel
  | dropSlave master slave hphase hidle =>
      refine ⟨@Custody.closes _ _ _ _ slave sealedSlave _ hs.custody _ ?_, hs.elsewhere, .inl hidle⟩
      simp only [held, crate, hphase, TtyPhase.holds, holding_some, holding_none,
        ← Multiset.singleton_add]
      abel
  | dropReader reader hmem =>
      refine ⟨@Custody.closes _ _ _ _ reader sealedMaster _ hs.custody _ ?_, hs.elsewhere, hs.borrowed⟩
      simp only [held, crate]
      rw [map_eq_cons_erase hmem]
      simp only [← Multiset.singleton_add]
      abel
  | dropWriter writer hmem =>
      refine ⟨@Custody.closes _ _ _ _ writer sealedMaster _ hs.custody _ ?_, hs.elsewhere, hs.borrowed⟩
      simp only [held, crate]
      rw [@map_eq_cons_erase _ _ _ _ s.writers writer hmem]
      simp only [← Multiset.singleton_add]
      abel
  | stdioFails e master slave stdio hphase hgiven =>
      exact sound_spawning hs (stdio_of_given hgiven).symm (.inr ⟨master, slave, hphase⟩)
  | stdio fd master slave stdio hphase hgiven hfree => exact sound_stdio hs hphase hgiven hfree
  | forked stdio hspawning =>
      refine sound_spawning hs (by rw [hspawning]; rfl) (.inr ?_)
      simpa [hspawning] using hs.borrowed
  | dropStdio fd stdio hspawning => exact sound_dropStdio hs hspawning
  | spawned hspawning => exact sound_spawning hs (by rw [hspawning]; rfl) (.inl rfl)
  | opens fd id cloexec hfree => exact sound_opens hs hfree id cloexec
  | closes fd id cloexec hmem => exact sound_closes hs hmem

/-- **The invariant is kept.** -/
theorem sound_step {D : Duplicates} (hdup : D.CloseOnExec) (hs : HostSound s) {e : HostEvent}
    (ht : s.step D e = some t) : HostSound t :=
  sound_move hs (step_move hdup ht)

end UnixHost

/-! ## What the process has of the PTY -/

namespace HostSound

variable {s : UnixHost}

/-- **Once both ends are marked, all descriptors of the PTY are close-on-exec.** -/
theorem sealed (hs : HostSound s) (hsealed : s.phase.isSealed = true) {x : TtyObject}
    (hx : x.isOther = false) : s.table.Sealed x := by
  have hphase : ∀ p ∈ s.phase.holds, p.2.cloexec = true := by
    rcases hphase : s.phase with _ | _ | _ | locals | ⟨master, slave⟩
    all_goals rw [hphase] at hsealed
    · simp [TtyPhase.holds]
    · cases hsealed
    · cases hsealed
    · intro p hp
      exact List.all_eq_true.mp hsealed p hp
    · rintro ⟨fd, d⟩ hp
      rcases Multiset.mem_add.mp hp with hp | hp
      · obtain ⟨-, rfl⟩ := mem_holding.mp hp
        rfl
      · obtain ⟨-, rfl⟩ := mem_holding.mp hp
        rfl
  intro fd d hopen hd
  have hmem := (hs.custody.open_iff fd d).mp hopen
  simp only [UnixHost.held, UnixHost.crate, Multiset.mem_add, Multiset.mem_map, Prod.mk.injEq] at hmem
  rcases hmem with (((hmem | ⟨_, -, -, rfl⟩) | ⟨_, -, -, rfl⟩) | ⟨_, -, -, rfl⟩) | hmem
  · exact hphase (fd, d) hmem
  · rfl
  · rfl
  · rfl
  · have hother := hs.elsewhere (fd, d) hmem
    rw [hd, hx] at hother
    cases hother

end HostSound

end SysprimsPty.Master
