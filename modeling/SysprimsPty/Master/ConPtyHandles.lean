import SysprimsPty.Found.Handles
import SysprimsPty.Found.Transition
import SysprimsPty.Master.ConPty
import Mathlib.Tactic.Abel

/-!
# The handles of a ConPTY

The two pipes of `open_conpty` and the console on them, from the first `Pipe::new` to the drop of the
last clone. The console host has ends of its own, duplicates of those that `CreatePseudoConsole` was
given, until the console is closed. Masters and slave share one `Inner`, which is dropped with the last
of them, field by field; readers and the writer that were handed out go on without it. Other code opens
and closes handles in the same table at any moment.

* `ConPtyLife.step` — the steps of `open_conpty`, the clones and drops, the calls, and other code.
* `ConPtyLife.held` — who holds what.
* `Lifetime` — what is expected of a state: the console runs as long as a master or the slave is left,
  a reader comes to its end of file exactly when the console is closed, and nothing leaks.
* `conpty_lifetime` — every reachable state is such a state.
-/

namespace SysprimsPty.Master

open SysprimsPty.Core
open SysprimsPty.Found

/-! ## The world -/

/-- What a handle denotes. -/
inductive PipeObject
  | stdinRead
  | stdinWrite
  | stdoutRead
  | stdoutWrite
  | other (id : ℕ)
  deriving DecidableEq

/-- The object is no pipe end of the ConPTY. -/
def PipeObject.isOther : PipeObject → Bool
  | .other _ => true
  | _ => false

/-- The ends that are meant for the console. -/
def PipeObject.isConsoleEnd : PipeObject → Bool
  | .stdinRead | .stdoutWrite => true
  | _ => false

/-- The console host. -/
inductive ConsoleState
  | absent
  | running
  | closed
  deriving DecidableEq

/-- How far the ConPTY has come. -/
inductive Phase (F H : Type)
  | before
  /-- After the first `Pipe::new`. -/
  | madeStdin (stdin : Pipe F)
  /-- After the second one. -/
  | madeStdout (stdin stdout : Pipe F)
  /-- Values that go out of scope, first to last; `next` is what `open_conpty` goes on to return. -/
  | dropping (locals : List (F × PipeObject)) (next : Option (Inner F H))
  /-- An `Inner` with its counted owners. -/
  | shared (inner : Inner F H) (masters slaves : ℕ)
  /-- The last owner is dropped, and `ClosePseudoConsole` is next. -/
  | closing (inner : Inner F H)

/-- A ConPTY in its process. -/
structure ConPtyLife (F H : Type) where
  table : HandleTable F PipeObject
  phase : Phase F H
  readers : Multiset F
  writers : Multiset F
  elsewhere : Multiset (F × PipeObject)
  console : ConsoleState
  /-- The number of `ClosePseudoConsole` calls. -/
  closes : ℕ

/-- A step of `open_conpty`, a call, a clone or a drop, or a move of other code. New handles come with
the numbers that the system gives them. -/
inductive LifeEvent (F H : Type)
  /-- `Pipe::new()` -/
  | pipe (answer : Except String (Pipe F))
  /-- `PsuedoCon::new`, up to the drop of its arguments. -/
  | create (size : PtySize) (answer : Hresult × H)
  /-- The next value goes out of scope. -/
  | dropLocal
  /-- `open_conpty` has built the `Inner`, and returns master and slave. -/
  | opened
  | cloneMaster
  | dropMaster
  | dropSlave
  /-- The drop of `con`. -/
  | closeConsole
  /-- `try_clone_reader`, where the duplication succeeds. -/
  | cloneReader (clone : F)
  /-- `take_writer` -/
  | takeWriter
  | dropReader (reader : F)
  | dropWriter (writer : F)
  | opens (h : F) (id : ℕ)
  | closes (h : F) (id : ℕ)

variable {F H : Type}

/-! ## Who holds what -/

/-- The two ends of a pipe. -/
def Pipe.holds (p : Pipe F) (read write : PipeObject) : Multiset (F × PipeObject) :=
  {(p.read, read)} + {(p.write, write)}

/-- What an `Inner` holds. -/
def Inner.holds (inner : Inner F H) : Multiset (F × PipeObject) :=
  {(inner.readable, .stdoutRead)} + holding .stdinWrite inner.writable

/-- What is held at a point of the life. -/
def Phase.holds : Phase F H → Multiset (F × PipeObject)
  | .before => 0
  | .madeStdin stdin => stdin.holds .stdinRead .stdinWrite
  | .madeStdout stdin stdout =>
      stdin.holds .stdinRead .stdinWrite + stdout.holds .stdoutRead .stdoutWrite
  | .dropping locals next => locals + (next.map Inner.holds).getD 0
  | .shared inner _ _ => inner.holds
  | .closing inner => inner.holds

namespace ConPtyLife

/-- What the crate and the holders of its readers and writer hold. -/
def crate (s : ConPtyLife F H) : Multiset (F × PipeObject) :=
  s.phase.holds + (s.readers.map fun reader => (reader, .stdoutRead)) +
    s.writers.map fun writer => (writer, .stdinWrite)

/-- What the crate and the other code hold. -/
def held (s : ConPtyLife F H) : Multiset (F × PipeObject) := s.crate + s.elsewhere

/-- A read of `stdout` comes to its end: no write end of it is open. -/
def Eof (s : ConPtyLife F H) : Prop := s.console ≠ .running ∧ ∀ h, s.table h ≠ some .stdoutWrite

/-- Before `open_conpty`. -/
def unopened (table : HandleTable F PipeObject) (elsewhere : Multiset (F × PipeObject)) :
    ConPtyLife F H where
  table
  phase := .before
  readers := 0
  writers := 0
  elsewhere
  console := .absent
  closes := 0

/-! ## The steps -/

/-- The owners that are left. -/
def release (s : ConPtyLife F H) (inner : Inner F H) (masters slaves : ℕ) : ConPtyLife F H :=
  { s with
    phase := if masters + slaves = 0 then .closing inner else .shared inner masters slaves }

variable [DecidableEq F]

/-- The two handles of a new pipe, with numbers that are not open. -/
def openPipe (s : ConPtyLife F H) (p : Pipe F) (read write : PipeObject) :
    Option (HandleTable F PipeObject) :=
  if s.table p.read = none ∧ s.table p.write = none ∧ p.read ≠ p.write then
    some ((s.table.opened p.read read).opened p.write write)
  else none

/-- One step.
Source: `win/conpty.rs` `open_conpty`, `Inner`, `MasterPty for ConPtyMasterPty`; `win/psuedocon.rs`
`PsuedoCon::new`, `Drop for PsuedoCon` -/
def step (s : ConPtyLife F H) : LifeEvent F H → Option (ConPtyLife F H)
  | .pipe answer =>
      match s.phase, answer with
      | .before, .error _ => some { s with phase := .dropping [] none }
      | .before, .ok stdin =>
          (s.openPipe stdin .stdinRead .stdinWrite).map fun table =>
            { s with table, phase := .madeStdin stdin }
      | .madeStdin stdin, .error _ =>
          some { s with
            phase := .dropping [(stdin.read, .stdinRead), (stdin.write, .stdinWrite)] none }
      | .madeStdin stdin, .ok stdout =>
          (s.openPipe stdout .stdoutRead .stdoutWrite).map fun table =>
            { s with table, phase := .madeStdout stdin stdout }
      | _, _ => none
  | .create size answer =>
      match s.phase with
      | .madeStdout stdin stdout =>
          match (openConpty size { stdin := .ok stdin, stdout := .ok stdout, create := answer }).2 with
          | .error _ =>
              some { s with
                phase := .dropping [(stdout.write, .stdoutWrite), (stdin.read, .stdinRead),
                  (stdout.read, .stdoutRead), (stdin.write, .stdinWrite)] none }
          | .ok inner =>
              some { s with
                console := .running
                phase := .dropping [(stdout.write, .stdoutWrite), (stdin.read, .stdinRead)]
                  (some inner) }
      | _ => none
  | .dropLocal =>
      match s.phase with
      | .dropping (p :: locals) next =>
          some { s with table := s.table.closed p.1, phase := .dropping locals next }
      | _ => none
  | .opened =>
      match s.phase with
      | .dropping [] (some inner) => some { s with phase := .shared inner 1 1 }
      | _ => none
  | .cloneMaster =>
      match s.phase with
      | .shared inner (masters + 1) slaves =>
          some { s with phase := .shared inner (masters + 2) slaves }
      | _ => none
  | .dropMaster =>
      match s.phase with
      | .shared inner (masters + 1) slaves => some (s.release inner masters slaves)
      | _ => none
  | .dropSlave =>
      match s.phase with
      | .shared inner masters (slaves + 1) => some (s.release inner masters slaves)
      | _ => none
  | .closeConsole =>
      match s.phase with
      | .closing inner =>
          some { s with
            console := .closed
            closes := s.closes + 1
            phase := .dropping
              ((inner.readable, .stdoutRead) :: (inner.writable.map fun h => (h, .stdinWrite)).toList)
              none }
      | _ => none
  | .cloneReader clone =>
      match s.phase with
      | .shared inner (_ + 1) _ =>
          match s.table inner.readable, s.table clone with
          | some object, none =>
              some { s with table := s.table.opened clone object, readers := clone ::ₘ s.readers }
          | _, _ => none
      | _ => none
  | .takeWriter =>
      match s.phase with
      | .shared inner (masters + 1) slaves =>
          match inner.takeWriter with
          | (inner, .ok writer) =>
              some { s with
                phase := .shared inner (masters + 1) slaves, writers := writer ::ₘ s.writers }
          | (_, .error _) => some s
      | _ => none
  | .dropReader reader =>
      if reader ∈ s.readers then
        some { s with table := s.table.closed reader, readers := s.readers.erase reader }
      else none
  | .dropWriter writer =>
      if writer ∈ s.writers then
        some { s with table := s.table.closed writer, writers := s.writers.erase writer }
      else none
  | .opens h id =>
      if s.table h = none then
        some { s with
          table := s.table.opened h (.other id), elsewhere := (h, .other id) ::ₘ s.elsewhere }
      else none
  | .closes h id =>
      if (h, .other id) ∈ s.elsewhere then
        some { s with
          table := s.table.closed h, elsewhere := s.elsewhere.erase (h, .other id) }
      else none

end ConPtyLife

/-! ## The moves -/

namespace ConPtyLife

/-- The ends that an `Inner` keeps. -/
theorem openConpty_ends {size : PtySize} {stdin stdout : Pipe F} {answer : Hresult × H}
    {inner : Inner F H}
    (h : (openConpty size { stdin := .ok stdin, stdout := .ok stdout, create := answer }).2 =
      .ok inner) : inner.readable = stdout.read ∧ inner.writable = some stdin.write := by
  unfold openConpty PsuedoCon.new at h
  dsimp only at h
  split_ifs at h
  obtain rfl := Except.ok.inj h
  exact ⟨rfl, rfl⟩

variable [DecidableEq F]

/-- What a step can do. -/
inductive LifeMove (s : ConPtyLife F H) : LifeEvent F H → ConPtyLife F H → Prop
  | failFirst (e : String) (hphase : s.phase = .before) :
      LifeMove s (.pipe (.error e)) { s with phase := .dropping [] none }
  | makeStdin (stdin : Pipe F) (table : HandleTable F PipeObject) (hphase : s.phase = .before)
      (htable : s.openPipe stdin .stdinRead .stdinWrite = some table) :
      LifeMove s (.pipe (.ok stdin)) { s with table, phase := .madeStdin stdin }
  | failSecond (e : String) (stdin : Pipe F) (hphase : s.phase = .madeStdin stdin) :
      LifeMove s (.pipe (.error e)) { s with
        phase := .dropping [(stdin.read, .stdinRead), (stdin.write, .stdinWrite)] none }
  | makeStdout (stdin stdout : Pipe F) (table : HandleTable F PipeObject)
      (hphase : s.phase = .madeStdin stdin)
      (htable : s.openPipe stdout .stdoutRead .stdoutWrite = some table) :
      LifeMove s (.pipe (.ok stdout)) { s with table, phase := .madeStdout stdin stdout }
  | createFails (size : PtySize) (answer : Hresult × H) (stdin stdout : Pipe F)
      (hphase : s.phase = .madeStdout stdin stdout) :
      LifeMove s (.create size answer) { s with
        phase := .dropping [(stdout.write, .stdoutWrite), (stdin.read, .stdinRead),
          (stdout.read, .stdoutRead), (stdin.write, .stdinWrite)] none }
  | create (size : PtySize) (answer : Hresult × H) (stdin stdout : Pipe F) (inner : Inner F H)
      (hphase : s.phase = .madeStdout stdin stdout) (hreadable : inner.readable = stdout.read)
      (hwritable : inner.writable = some stdin.write) :
      LifeMove s (.create size answer) { s with
        console := .running
        phase := .dropping [(stdout.write, .stdoutWrite), (stdin.read, .stdinRead)] (some inner) }
  | dropLocal (p : F × PipeObject) (locals : List (F × PipeObject)) (rest : Option (Inner F H))
      (hphase : s.phase = .dropping (p :: locals) rest) :
      LifeMove s .dropLocal { s with table := s.table.closed p.1, phase := .dropping locals rest }
  | opened (inner : Inner F H) (hphase : s.phase = .dropping [] (some inner)) :
      LifeMove s .opened { s with phase := .shared inner 1 1 }
  | cloneMaster (inner : Inner F H) (masters slaves : ℕ)
      (hphase : s.phase = .shared inner (masters + 1) slaves) :
      LifeMove s .cloneMaster { s with phase := .shared inner (masters + 2) slaves }
  | dropMaster (inner : Inner F H) (masters slaves : ℕ)
      (hphase : s.phase = .shared inner (masters + 1) slaves) :
      LifeMove s .dropMaster (s.release inner masters slaves)
  | dropSlave (inner : Inner F H) (masters slaves : ℕ)
      (hphase : s.phase = .shared inner masters (slaves + 1)) :
      LifeMove s .dropSlave (s.release inner masters slaves)
  | closeConsole (inner : Inner F H) (hphase : s.phase = .closing inner) :
      LifeMove s .closeConsole { s with
        console := .closed
        closes := s.closes + 1
        phase := .dropping
          ((inner.readable, .stdoutRead) :: (inner.writable.map fun h => (h, .stdinWrite)).toList)
          none }
  | cloneReader (inner : Inner F H) (masters slaves : ℕ) (clone : F) (object : PipeObject)
      (hphase : s.phase = .shared inner (masters + 1) slaves)
      (hopen : s.table inner.readable = some object) (hfree : s.table clone = none) :
      LifeMove s (.cloneReader clone)
        { s with table := s.table.opened clone object, readers := clone ::ₘ s.readers }
  | takeWriter (inner : Inner F H) (masters slaves : ℕ) (writer : F)
      (hphase : s.phase = .shared inner (masters + 1) slaves)
      (hwritable : inner.writable = some writer) :
      LifeMove s .takeWriter { s with
        phase := .shared { inner with writable := none } (masters + 1) slaves
        writers := writer ::ₘ s.writers }
  | writerTaken : LifeMove s .takeWriter s
  | dropReader (reader : F) (hmem : reader ∈ s.readers) :
      LifeMove s (.dropReader reader)
        { s with table := s.table.closed reader, readers := s.readers.erase reader }
  | dropWriter (writer : F) (hmem : writer ∈ s.writers) :
      LifeMove s (.dropWriter writer)
        { s with table := s.table.closed writer, writers := s.writers.erase writer }
  | opens (h : F) (id : ℕ) (hfree : s.table h = none) :
      LifeMove s (.opens h id) { s with
        table := s.table.opened h (.other id), elsewhere := (h, .other id) ::ₘ s.elsewhere }
  | closes (h : F) (id : ℕ) (hmem : (h, .other id) ∈ s.elsewhere) :
      LifeMove s (.closes h id) { s with
        table := s.table.closed h, elsewhere := s.elsewhere.erase (h, .other id) }

/-- Every step is one of its moves. -/
theorem step_move {s t : ConPtyLife F H} {e : LifeEvent F H} (ht : s.step e = some t) :
    LifeMove s e t := by
  cases e with
  | pipe answer =>
      simp only [step] at ht
      split at ht
      · next e hphase =>
        obtain rfl := Option.some.inj ht
        exact .failFirst e hphase
      · next stdin hphase =>
        obtain ⟨table, htable, rfl⟩ := Option.map_eq_some_iff.mp ht
        exact .makeStdin stdin table hphase htable
      · next stdin e hphase =>
        obtain rfl := Option.some.inj ht
        exact .failSecond e stdin hphase
      · next stdin stdout hphase =>
        obtain ⟨table, htable, rfl⟩ := Option.map_eq_some_iff.mp ht
        exact .makeStdout stdin stdout table hphase htable
      · cases ht
  | create size answer =>
      simp only [step] at ht
      split at ht
      · next stdin stdout hphase =>
        split at ht
        · obtain rfl := Option.some.inj ht
          exact .createFails size answer stdin stdout hphase
        · next inner hinner =>
          obtain rfl := Option.some.inj ht
          obtain ⟨hreadable, hwritable⟩ := openConpty_ends hinner
          exact .create size answer stdin stdout inner hphase hreadable hwritable
      · cases ht
  | dropLocal =>
      simp only [step] at ht
      split at ht
      · next p locals rest hphase =>
        obtain rfl := Option.some.inj ht
        exact .dropLocal p locals rest hphase
      · cases ht
  | opened =>
      simp only [step] at ht
      split at ht
      · next inner hphase =>
        obtain rfl := Option.some.inj ht
        exact .opened inner hphase
      · cases ht
  | cloneMaster =>
      simp only [step] at ht
      split at ht
      · next inner masters slaves hphase =>
        obtain rfl := Option.some.inj ht
        exact .cloneMaster inner masters slaves hphase
      · cases ht
  | dropMaster =>
      simp only [step] at ht
      split at ht
      · next inner masters slaves hphase =>
        obtain rfl := Option.some.inj ht
        exact .dropMaster inner masters slaves hphase
      · cases ht
  | dropSlave =>
      simp only [step] at ht
      split at ht
      · next inner masters slaves hphase =>
        obtain rfl := Option.some.inj ht
        exact .dropSlave inner masters slaves hphase
      · cases ht
  | closeConsole =>
      simp only [step] at ht
      split at ht
      · next inner hphase =>
        obtain rfl := Option.some.inj ht
        exact .closeConsole inner hphase
      · cases ht
  | cloneReader clone =>
      simp only [step] at ht
      split at ht
      · next inner masters slaves hphase =>
        split at ht
        · next object hopen hfree =>
          obtain rfl := Option.some.inj ht
          exact .cloneReader inner masters slaves clone object hphase hopen hfree
        · cases ht
      · cases ht
  | takeWriter =>
      simp only [step] at ht
      split at ht
      · next inner masters slaves hphase =>
        rcases hwritable : inner.writable with _ | writer
        · simp only [Inner.takeWriter, hwritable, Option.some.injEq] at ht
          rw [← ht]
          exact .writerTaken
        · simp only [Inner.takeWriter, hwritable, Option.some.injEq] at ht
          rw [← ht]
          exact .takeWriter inner masters slaves writer hphase hwritable
      · cases ht
  | dropReader reader =>
      simp only [step] at ht
      split_ifs at ht with hmem
      obtain rfl := Option.some.inj ht
      exact .dropReader reader hmem
  | dropWriter writer =>
      simp only [step] at ht
      split_ifs at ht with hmem
      obtain rfl := Option.some.inj ht
      exact .dropWriter writer hmem
  | opens h id =>
      simp only [step] at ht
      split_ifs at ht with hfree
      obtain rfl := Option.some.inj ht
      exact .opens h id hfree
  | closes h id =>
      simp only [step] at ht
      split_ifs at ht with hmem
      obtain rfl := Option.some.inj ht
      exact .closes h id hmem

end ConPtyLife

/-! ## What is expected -/

namespace ConPtyLife

/-- `open_conpty` has returned, and its arguments and locals are dropped. -/
def Returned (s : ConPtyLife F H) : Prop :=
  match s.phase with
  | .shared _ _ _ | .closing _ => True
  | .dropping locals none => locals = [] ∨ s.console = .closed
  | _ => False

end ConPtyLife

/-- **What is expected of a ConPTY.** -/
structure Lifetime (s : ConPtyLife F H) : Prop where
  /-- The handles that someone holds are the open ones, each held once. -/
  custody : Custody s.table s.held
  /-- The console runs as long as a master or the slave is left. -/
  running : ∀ inner masters slaves, s.phase = .shared inner masters slaves → s.console = .running
  /-- It is closed at most once. -/
  closes : s.closes = if s.console = .closed then 1 else 0
  /-- The process keeps none of the ends that it gave the console. -/
  ends : s.Returned → ∀ h x, s.table h = some x → x.isConsoleEnd = false
  /-- Readers come to their end of file exactly when the console no longer runs. -/
  eof : s.Returned → (s.Eof ↔ s.console ≠ .running)
  /-- Once all is dropped, only the handles of other code are open. -/
  no_leak : s.phase = .dropping [] none → s.readers = 0 → s.writers = 0 →
    Custody s.table s.elsewhere

/-! ## The invariant -/

/-- The console and the number of its closes at a point of the life. -/
def Phase.Stage (console : ConsoleState) (closes : ℕ) : Phase F H → Prop
  | .before | .madeStdin _ | .madeStdout _ _ => console = .absent ∧ closes = 0
  | .dropping _ (some _) | .shared _ _ _ | .closing _ => console = .running ∧ closes = 0
  | .dropping locals none => (console = .absent ∧ closes = 0) ∨
      (console = .closed ∧ closes = 1 ∧ ∀ p ∈ locals, p.2.isConsoleEnd = false)

/-- **The invariant.** -/
structure LifeSound (s : ConPtyLife F H) : Prop where
  custody : Custody s.table s.held
  elsewhere : ∀ p ∈ s.elsewhere, p.2.isOther = true
  stage : s.phase.Stage s.console s.closes

namespace ConPtyLife

variable {s t : ConPtyLife F H}

/-- A step that changes the phase and leaves the handles with the crate. -/
theorem sound_phase (hs : LifeSound s) {phase : Phase F H} {console : ConsoleState} {closes : ℕ}
    (hholds : phase.holds = s.phase.holds) (hstage : phase.Stage console closes) :
    LifeSound { s with phase, console, closes } := by
  refine ⟨?_, hs.elsewhere, hstage⟩
  have hheld : held { s with phase, console, closes } = s.held := by
    simp only [held, crate, hholds]
  rw [hheld]
  exact hs.custody

/-- An owner of the `Inner` goes. -/
theorem sound_release (hs : LifeSound s) {inner : Inner F H}
    (hholds : s.phase.holds = inner.holds) (hrunning : s.console = .running ∧ s.closes = 0)
    (masters slaves : ℕ) : LifeSound (s.release inner masters slaves) := by
  unfold release
  split_ifs
  · exact sound_phase hs hholds.symm hrunning
  · exact sound_phase hs hholds.symm hrunning

/-- The pseudo console is created over two of the four ends. -/
theorem sound_create (hs : LifeSound s) {stdin stdout : Pipe F} {inner : Inner F H}
    (hphase : s.phase = .madeStdout stdin stdout) (hreadable : inner.readable = stdout.read)
    (hwritable : inner.writable = some stdin.write) :
    LifeSound { s with
      console := .running
      phase := .dropping [(stdout.write, .stdoutWrite), (stdin.read, .stdinRead)] (some inner) } := by
  have hstage := hs.stage
  rw [hphase] at hstage
  refine @sound_phase _ _ s hs _ .running s.closes ?_ ⟨rfl, hstage.2⟩
  rw [hphase]
  simp only [Phase.holds, Pipe.holds, Inner.holds, hreadable, hwritable, holding_some,
    Option.map_some, Option.getD_some, ← Multiset.cons_coe, Multiset.coe_nil,
    ← Multiset.singleton_add]
  abel

/-- The console is closed, and its ends of the pipes go next. -/
theorem sound_closeConsole (hs : LifeSound s) {inner : Inner F H} (hphase : s.phase = .closing inner) :
    LifeSound { s with
      console := .closed
      closes := s.closes + 1
      phase := .dropping
        ((inner.readable, .stdoutRead) :: (inner.writable.map fun h => (h, .stdinWrite)).toList)
        (none : Option (Inner F H)) } := by
  have hstage := hs.stage
  rw [hphase] at hstage
  refine @sound_phase _ _ s hs _ .closed (s.closes + 1) ?_ (.inr ⟨rfl, ?_, ?_⟩)
  · rw [hphase]
    rcases hwritable : inner.writable with _ | writable
    · simp [Phase.holds, Inner.holds, hwritable]
    · simp only [Phase.holds, Inner.holds, hwritable, holding_some, Option.map_some,
        Option.toList_some, Option.map_none, Option.getD_none, ← Multiset.cons_coe,
        Multiset.coe_nil, ← Multiset.singleton_add]
      abel
  · rw [hstage.2]
  · rcases inner.writable with _ | writable
    · simp [PipeObject.isConsoleEnd]
    · simp [PipeObject.isConsoleEnd]

/-- The writer is moved out of the `Inner`. -/
theorem sound_takeWriter (hs : LifeSound s) {inner : Inner F H} {masters slaves : ℕ} {writer : F}
    (hphase : s.phase = .shared inner (masters + 1) slaves) (hwritable : inner.writable = some writer) :
    LifeSound { s with
      phase := .shared { inner with writable := none } (masters + 1) slaves
      writers := writer ::ₘ s.writers } := by
  have hstage := hs.stage
  rw [hphase] at hstage
  refine ⟨?_, hs.elsewhere, hstage⟩
  have hheld : held { s with
      phase := .shared { inner with writable := none } (masters + 1) slaves
      writers := writer ::ₘ s.writers } = s.held := by
    simp only [held, crate, hphase, Phase.holds, Inner.holds, hwritable, holding_none,
      holding_some, Multiset.map_cons]
    simp only [← Multiset.singleton_add]
    abel
  rw [hheld]
  exact hs.custody

variable [DecidableEq F]

/-- What a new pipe needs and makes. -/
theorem openPipe_eq_some_iff {p : Pipe F} {read write : PipeObject} {table : HandleTable F PipeObject} :
    s.openPipe p read write = some table ↔
      (s.table p.read = none ∧ s.table p.write = none ∧ p.read ≠ p.write) ∧
        (s.table.opened p.read read).opened p.write write = table := by
  unfold openPipe
  split_ifs with hnew
  · simp [hnew]
  · simp [hnew]

/-- The two handles of a new pipe and their holder. -/
theorem custody_pipe (hc : Custody s.table s.held) {p : Pipe F} {read write : PipeObject}
    {table : HandleTable F PipeObject} (hp : s.openPipe p read write = some table)
    {held' : Multiset (F × PipeObject)} (hnew : held' = p.holds read write + s.held) :
    Custody table held' := by
  obtain ⟨⟨hread, hwrite, hne⟩, rfl⟩ := openPipe_eq_some_iff.mp hp
  have hfree : s.table.opened p.read read p.write = none := by
    rw [s.table.opened_of_ne hne.symm, hwrite]
  apply (hc.opened hread read).opens hfree
  rw [hnew, Pipe.holds]
  simp only [← Multiset.singleton_add]
  abel

/-- A local of `open_conpty` is dropped. -/
theorem sound_dropLocal (hs : LifeSound s) {p : F × PipeObject} {locals : List (F × PipeObject)}
    {rest : Option (Inner F H)} (hphase : s.phase = .dropping (p :: locals) rest) :
    LifeSound { s with table := s.table.closed p.1, phase := .dropping locals rest } := by
  have hstage := hs.stage
  rw [hphase] at hstage
  refine ⟨@Custody.closes _ _ _ _ p.1 p.2 _ hs.custody _ ?_, hs.elsewhere, ?_⟩
  · simp only [held, crate, hphase, Phase.holds, ← Multiset.cons_coe, ← Multiset.singleton_add]
    abel
  · rcases rest with _ | inner
    · rcases hstage with habsent | ⟨hclosed, hcloses, hends⟩
      · exact .inl habsent
      · exact .inr ⟨hclosed, hcloses, fun q hq => hends q (List.mem_cons_of_mem p hq)⟩
    · exact hstage

/-- A reader is cloned from the end that the `Inner` holds. -/
theorem sound_cloneReader (hs : LifeSound s) {inner : Inner F H} {masters slaves : ℕ} {clone : F}
    {object : PipeObject} (hphase : s.phase = .shared inner (masters + 1) slaves)
    (hopen : s.table inner.readable = some object) (hfree : s.table clone = none) :
    LifeSound { s with table := s.table.opened clone object, readers := clone ::ₘ s.readers } := by
  have hreadable : (inner.readable, .stdoutRead) ∈ s.held := by
    simp [held, crate, hphase, Phase.holds, Inner.holds]
  rw [hs.custody.denotes hreadable] at hopen
  obtain rfl := Option.some.inj hopen
  refine ⟨hs.custody.opens hfree ?_, hs.elsewhere, hs.stage⟩
  simp only [held, crate, Multiset.map_cons]
  simp only [← Multiset.singleton_add]
  abel

/-- Other code opens a handle. -/
theorem sound_opens (hs : LifeSound s) {h : F} (hfree : s.table h = none) (id : ℕ) :
    LifeSound { s with
      table := s.table.opened h (.other id), elsewhere := (h, .other id) ::ₘ s.elsewhere } := by
  refine ⟨hs.custody.opens hfree ?_, ?_, hs.stage⟩
  · simp only [held, crate, ← Multiset.singleton_add]
    abel
  · intro p hp
    rcases Multiset.mem_cons.mp hp with rfl | hp
    · rfl
    · exact hs.elsewhere p hp

/-- Other code closes a handle of its own. -/
theorem sound_closes (hs : LifeSound s) {h : F} {id : ℕ} (hmem : (h, .other id) ∈ s.elsewhere) :
    LifeSound { s with
      table := s.table.closed h, elsewhere := s.elsewhere.erase (h, .other id) } := by
  refine ⟨@Custody.closes _ _ _ _ h (.other id) _ hs.custody _ ?_, ?_, hs.stage⟩
  · simp only [held, crate]
    conv_lhs => rw [← Multiset.cons_erase hmem]
    simp only [← Multiset.singleton_add]
    abel
  · exact fun p hp => hs.elsewhere p (Multiset.mem_of_mem_erase hp)

/-- **The step lemma.** -/
theorem sound_move (hs : LifeSound s) {e : LifeEvent F H} (hmove : LifeMove s e t) :
    LifeSound t := by
  have hstage := hs.stage
  cases hmove with
  | failFirst e hphase =>
      rw [hphase] at hstage
      exact sound_phase hs (by rw [hphase]; rfl) (.inl hstage)
  | makeStdin stdin table hphase htable =>
      rw [hphase] at hstage
      refine ⟨custody_pipe hs.custody htable ?_, hs.elsewhere, hstage⟩
      simp only [held, crate, hphase, Phase.holds]
      abel
  | failSecond e stdin hphase =>
      rw [hphase] at hstage
      exact sound_phase hs (by rw [hphase]; rfl) (.inl hstage)
  | makeStdout stdin stdout table hphase htable =>
      rw [hphase] at hstage
      refine ⟨custody_pipe hs.custody htable ?_, hs.elsewhere, hstage⟩
      simp only [held, crate, hphase, Phase.holds]
      abel
  | createFails size answer stdin stdout hphase =>
      rw [hphase] at hstage
      refine sound_phase hs ?_ (.inl hstage)
      rw [hphase]
      simp only [Phase.holds, Pipe.holds, Option.map_none, Option.getD_none, ← Multiset.cons_coe,
        Multiset.coe_nil, ← Multiset.singleton_add]
      abel
  | create size answer stdin stdout inner hphase hreadable hwritable =>
      exact sound_create hs hphase hreadable hwritable
  | dropLocal p locals rest hphase => exact sound_dropLocal hs hphase
  | opened inner hphase =>
      rw [hphase] at hstage
      refine sound_phase hs ?_ hstage
      rw [hphase]
      simp [Phase.holds]
  | cloneMaster inner masters slaves hphase =>
      rw [hphase] at hstage
      exact sound_phase hs (by rw [hphase]; rfl) hstage
  | dropMaster inner masters slaves hphase =>
      rw [hphase] at hstage
      exact sound_release hs (by rw [hphase]; rfl) hstage _ _
  | dropSlave inner masters slaves hphase =>
      rw [hphase] at hstage
      exact sound_release hs (by rw [hphase]; rfl) hstage _ _
  | closeConsole inner hphase => exact sound_closeConsole hs hphase
  | cloneReader inner masters slaves clone object hphase hopen hfree =>
      exact sound_cloneReader hs hphase hopen hfree
  | takeWriter inner masters slaves writer hphase hwritable =>
      exact sound_takeWriter hs hphase hwritable
  | writerTaken => exact hs
  | dropReader reader hmem =>
      refine ⟨@Custody.closes _ _ _ _ reader .stdoutRead _ hs.custody _ ?_, hs.elsewhere, hstage⟩
      simp only [held, crate]
      rw [map_eq_cons_erase hmem]
      simp only [← Multiset.singleton_add]
      abel
  | dropWriter writer hmem =>
      refine ⟨@Custody.closes _ _ _ _ writer .stdinWrite _ hs.custody _ ?_, hs.elsewhere, hstage⟩
      simp only [held, crate]
      rw [map_eq_cons_erase hmem]
      simp only [← Multiset.singleton_add]
      abel
  | opens h id hfree => exact sound_opens hs hfree id
  | closes h id hmem => exact sound_closes hs hmem

/-- **The invariant is kept.** -/
theorem sound_step (s : ConPtyLife F H) (e : LifeEvent F H) (t : ConPtyLife F H) (hs : LifeSound s)
    (ht : s.step e = some t) : LifeSound t :=
  sound_move hs (step_move ht)

end ConPtyLife

section

variable {s : ConPtyLife F H}

/-- Before `open_conpty` all handles are those of other code. -/
theorem sound_unopened {table : HandleTable F PipeObject} {elsewhere : Multiset (F × PipeObject)}
    (hcustody : Custody table elsewhere) (hother : ∀ p ∈ elsewhere, p.2.isOther = true) :
    LifeSound (ConPtyLife.unopened table elsewhere : ConPtyLife F H) := by
  refine ⟨?_, hother, rfl, rfl⟩
  simpa [ConPtyLife.unopened, ConPtyLife.held, ConPtyLife.crate, Phase.holds] using hcustody

/-- What an `Inner` holds is no end of the console. -/
theorem Inner.holds_ends (inner : Inner F H) : ∀ p ∈ inner.holds, p.2.isConsoleEnd = false := by
  rintro ⟨h, x⟩ hp
  rcases Multiset.mem_add.mp hp with hp | hp
  · obtain ⟨-, rfl⟩ := Prod.mk.inj (Multiset.mem_singleton.mp hp)
    rfl
  · obtain ⟨-, rfl⟩ := mem_holding.mp hp
    rfl

/-- After `open_conpty` nobody in the process holds an end of the console. -/
theorem LifeSound.held_ends (hs : LifeSound s) (hreturned : s.Returned) :
    ∀ p ∈ s.held, p.2.isConsoleEnd = false := by
  have hphase : ∀ p ∈ s.phase.holds, p.2.isConsoleEnd = false := by
    have hstage := hs.stage
    unfold ConPtyLife.Returned at hreturned
    split at hreturned
    · next inner _ _ hphase =>
      rw [hphase]
      exact inner.holds_ends
    · next inner hphase =>
      rw [hphase]
      exact inner.holds_ends
    · next locals hphase =>
      rw [hphase] at hstage ⊢
      intro p hp
      have hmem : p ∈ locals := by simpa [Phase.holds] using hp
      rcases hstage with ⟨habsent, -⟩ | ⟨-, -, hends⟩
      · rcases hreturned with rfl | hclosed
        · cases hmem
        · rw [habsent] at hclosed
          cases hclosed
      · exact hends p hmem
    · exact hreturned.elim
  intro p hp
  simp only [ConPtyLife.held, ConPtyLife.crate, Multiset.mem_add, Multiset.mem_map] at hp
  rcases hp with ((hp | ⟨reader, -, rfl⟩) | ⟨writer, -, rfl⟩) | hp
  · exact hphase p hp
  · rfl
  · rfl
  · have hother := hs.elsewhere p hp
    rcases p with ⟨h, _ | _ | _ | _ | id⟩
    all_goals first | rfl | cases hother

/-- The number of closes and the state of the console. -/
theorem LifeSound.closes_eq (hs : LifeSound s) :
    s.closes = if s.console = .closed then 1 else 0 := by
  have hstage := hs.stage
  unfold Phase.Stage at hstage
  split at hstage
  all_goals first
    | simp [hstage.1, hstage.2]
    | rcases hstage with ⟨hconsole, hcloses⟩ | ⟨hconsole, hcloses, -⟩
      · simp [hconsole, hcloses]
      · simp [hconsole, hcloses]

/-- The invariant gives what is expected. -/
theorem LifeSound.lifetime (hs : LifeSound s) : Lifetime s where
  custody := hs.custody
  running inner masters slaves hphase := by
    have hstage := hs.stage
    rw [hphase] at hstage
    exact hstage.1
  closes := hs.closes_eq
  ends hreturned h x hopen := hs.held_ends hreturned (h, x) ((hs.custody.open_iff h x).mp hopen)
  eof hreturned := by
    refine ⟨And.left, fun hconsole => ⟨hconsole, ?_⟩⟩
    apply hs.custody.not_open
    rintro p hp heq
    have hend := hs.held_ends hreturned p hp
    rw [heq] at hend
    cases hend
  no_leak hphase hreaders hwriters := by
    have hheld : s.held = s.elsewhere := by
      simp [ConPtyLife.held, ConPtyLife.crate, hphase, hreaders, hwriters, Phase.holds]
    rw [← hheld]
    exact hs.custody

end

/-! ## Main result -/

/-- **The lifetime of a ConPTY.** Whatever the answers of the system and the order of clones, drops,
calls and the moves of other code, every state of a run from before `open_conpty` is as expected. -/
theorem conpty_lifetime [DecidableEq F] {table : HandleTable F PipeObject}
    {elsewhere : Multiset (F × PipeObject)} {events : List (LifeEvent F H)} {s : ConPtyLife F H}
    (hcustody : Custody table elsewhere) (hother : ∀ p ∈ elsewhere, p.2.isOther = true)
    (hrun : exec ConPtyLife.step (ConPtyLife.unopened table elsewhere) events = some s) :
    Lifetime s :=
  (exec_invariant ConPtyLife.sound_step (sound_unopened hcustody hother) hrun).lifetime

/-- A reader outlives masters and slave, and their numbers go to other code. -/
def outlivingReader : List (LifeEvent ℕ Unit) :=
  [.pipe (.ok { read := 1, write := 2 }), .pipe (.ok { read := 3, write := 4 }),
    .create { rows := 24, cols := 80, pixelWidth := 0, pixelHeight := 0 } (sOk, ()), .dropLocal,
    .dropLocal, .opened, .cloneReader 4, .cloneMaster, .dropMaster, .dropSlave, .dropMaster,
    .closeConsole, .dropLocal, .opens 3 0, .dropLocal]

/-- That reader is at its end of file. -/
theorem conpty_lifetime_outliving :
    ∃ s, exec ConPtyLife.step (ConPtyLife.unopened (fun _ => none) 0) outlivingReader = some s ∧
      s.readers = {4} ∧ s.Returned ∧ s.console = .closed ∧ Lifetime s :=
  ⟨_, rfl, rfl, .inl rfl, rfl, @conpty_lifetime ℕ Unit _ _ _ outlivingReader _
    (Custody.empty_iff.mpr rfl) (by simp) rfl⟩

end SysprimsPty.Master
