import SysprimsPty.Command.EnvironmentBlock
import SysprimsPty.Command.Terminators
import SysprimsPty.Spawn.Windows

/-!
# What a Windows program is started with

The `CreateProcessW` call of the two ConPTY spawns, which they build from the builder, and what the
system makes of it for the new process: its image, its arguments, its environment and its directory.

* `currentDirectory`, `createProcessCall` — the directory buffer and the call.
* `CreateProcessCall.program` — what the new process gets: every buffer is read up to its first NUL,
  the command line by the standard argument rules, the environment block up to the first two NULs in a
  row.
* `windows_program_receives` — the new process gets what the builder holds, whatever was done to the
  builder before, if some variable is left in it.
-/

namespace SysprimsPty.Spawn

open SysprimsPty.Core
open SysprimsPty.Found
open SysprimsPty.Command

variable {S : Type} [WideOsStr S]

/-! ## The call -/

/-- What `current_directory` asks about directories. -/
structure WindowsDirs (S : Type) where
  /-- `Path::is_dir` -/
  isDir : S → Bool
  /-- `Path::is_relative` -/
  isRelative : S → Bool
  /-- `std::env::current_dir().ok()` -/
  currentDir : Option S
  /-- `Path::join` -/
  join : S → S → S

/-- The directory that `current_directory` settles on, before it is made absolute. -/
def chosenDir (b : CommandBuilder S) (dirs : WindowsDirs S) : Option S :=
  let home := (b.getEnv (OsStr.ofStr "USERPROFILE")).filter dirs.isDir
  let cwd := b.cwd.filter dirs.isDir
  cwd.or home

/-- A relative directory below the current one, if that is known. -/
def absoluteDir (dirs : WindowsDirs S) (dir : S) : S :=
  if dirs.isRelative dir then
    match dirs.currentDir with
    | some ccwd => dirs.join ccwd dir
    | none => dir
  else dir

/-- Source: `cmdbuilder.rs` `CommandBuilder::current_directory` -/
def currentDirectory (b : CommandBuilder S) (dirs : WindowsDirs S) : Option (List UInt16) :=
  (chosenDir b dirs).map fun dir => WideOsStr.encodeWide (absoluteDir dirs dir) ++ [0]

/-- The standard handles of the `STARTUPINFOEXW`. -/
inductive StdHandles
  | inherited
  /-- `STARTF_USESTDHANDLES` with `INVALID_HANDLE_VALUE` for all three. -/
  | invalid
  deriving DecidableEq

/-- A `CreateProcessW` call on a console `con`. -/
structure CreateProcessCall (H : Type) where
  applicationName : List UInt16
  commandLine : List UInt16
  inheritHandles : Bool
  flags : UInt32
  environment : List UInt16
  /-- `none`: the directory of the caller. -/
  currentDirectory : Option (List UInt16)
  stdHandles : StdHandles
  /-- The pseudoconsole in the attribute list. -/
  console : H

/-- The call that both spawns build; they differ in the flags.
Source: `win/psuedocon.rs` `PsuedoCon::spawn_command`, `PsuedoCon::spawn_suspended_command` -/
def createProcessCall {H : Type} (con : H) (flags : UInt32) (b : CommandBuilder S)
    (paths : WindowsPaths S) (dirs : WindowsDirs S) :
    Except Panic (Except (Message S) (CreateProcessCall H)) :=
  (b.cmdline paths).map fun buffers =>
    buffers.map fun (exe, cmdline) => {
      applicationName := exe
      commandLine := cmdline
      inheritHandles := false
      flags
      environment := b.environmentBlock
      currentDirectory := currentDirectory b dirs
      stdHandles := .invalid
      console := con }

/-- Source: `win/psuedocon.rs` `PsuedoCon::spawn_command` -/
def spawnCommandCall {H : Type} (con : H) (b : CommandBuilder S) (paths : WindowsPaths S)
    (dirs : WindowsDirs S) : Except Panic (Except (Message S) (CreateProcessCall H)) :=
  createProcessCall con (extendedStartupinfoPresent ||| createUnicodeEnvironment) b paths dirs

/-- Source: `win/psuedocon.rs` `PsuedoCon::spawn_suspended_command` -/
def spawnSuspendedCall {H : Type} (con : H) (b : CommandBuilder S) (paths : WindowsPaths S)
    (dirs : WindowsDirs S) : Except Panic (Except (Message S) (CreateProcessCall H)) :=
  createProcessCall con suspendedFlags b paths dirs

/-! ## The new process -/

/-- What a process begins with. -/
structure WindowsProgram (H : Type) where
  image : List UInt16
  argv : List (List UInt16)
  environment : List (List UInt16 × List UInt16)
  directory : Option (List UInt16)
  console : H

/-- A buffer that is read up to its first NUL. -/
def untilNul (buffer : List UInt16) : List UInt16 := buffer.takeWhile (· ≠ 0)

/-- The variables of an environment block, which ends with the first two NULs in a row. `none`: no two
NULs in a row are in the buffer, or a string of the block is not a name and a value. -/
def blockVariables (buffer : List UInt16) : Option (List (List UInt16 × List UInt16)) := do
  let text ← upToDouble 0 buffer
  let (environment, _) ← decodeBlock text
  some environment

/-- What the new process gets; `none`: the environment block is no block. -/
def CreateProcessCall.program {H : Type} (call : CreateProcessCall H) : Option (WindowsProgram H) := do
  let environment ← blockVariables call.environment
  some {
    image := untilNul call.applicationName
    argv := argv windowsAlphabet (untilNul call.commandLine)
    environment
    directory := call.currentDirectory.map untilNul
    console := call.console }

/-- A terminated buffer is read as its text. -/
theorem untilNul_append {text : List UInt16} (h : (0 : UInt16) ∉ text) : untilNul (text ++ [0]) = text :=
  takeWhile_string h []

/-- A name that a file can have on Windows. -/
structure IsFileName (exe : List UInt16) : Prop where
  no_nul : (0 : UInt16) ∉ exe
  no_quote : quote ∉ exe
  no_final_backslash : exe.getLast? ≠ some backslash

/-- **What a new process is expected to get** from a builder whose program is found as `exe`. -/
structure Receives {H : Type} (con : H) (b : CommandBuilder S) (dirs : WindowsDirs S) (exe : S)
    (p : WindowsProgram H) : Prop where
  image : p.image = WideOsStr.encodeWide exe
  argv : p.argv = WideOsStr.encodeWide exe :: b.args.tail.map WideOsStr.encodeWide
  /-- A lookup by the crate's own `map_key` finds what `get_env` returns. -/
  environment : ∀ key value, b.getEnv key = some value ↔
    ∃ name, (WideOsStr.encodeWide name, WideOsStr.encodeWide value) ∈ p.environment ∧
      EnvEntry.mapKey name = EnvEntry.mapKey key
  directory : p.directory =
    (chosenDir b dirs).map fun dir => WideOsStr.encodeWide (absoluteDir dirs dir)
  console : p.console = con

/-- A block of encodable entries, if there is one, is read as their names and values. -/
theorem blockVariables_environmentBlock {b : CommandBuilder S} (hne : b.envs.entries ≠ [])
    (h : ∀ e ∈ b.envs.entries, e.Encodable) :
    blockVariables b.environmentBlock = some (b.envs.entries.map fun e =>
      (WideOsStr.encodeWide e.preferredKey, WideOsStr.encodeWide e.value)) := by
  have hframed : Framed b := by
    refine framed_iff.mpr ⟨hne, fun e he => ?_⟩
    rw [nul_mem_entryString, not_or]
    exact ⟨(h e he).name_no_nul, (h e he).value_no_nul⟩
  simp only [blockVariables, hframed.terminated.upToDouble_eq, decodeBlock,
    readBlock_environmentBlock h, mapM_splitPair h, Option.bind_eq_bind, Option.bind_some]

/-- The command line is read as the program and the arguments. -/
theorem argv_cmdlineText {b : CommandBuilder S} {exe : S}
    (hfile : IsFileName (WideOsStr.encodeWide exe)) :
    argv windowsAlphabet (b.cmdlineText exe) =
      WideOsStr.encodeWide exe :: b.args.tail.map WideOsStr.encodeWide := by
  apply argv_joined (by decide) (quoted_firstReads hfile.no_quote hfile.no_final_backslash)
  rw [List.forall₂_map_left_iff, List.forall₂_map_right_iff, List.forall₂_same]
  exact fun a _ => quoted_reads _

/-- A call is made only for arguments without a NUL, and with the buffers of `cmdline`. -/
theorem createProcessCall_eq {H : Type} {con : H} {flags : UInt32} {b : CommandBuilder S}
    {paths : WindowsPaths S} {dirs : WindowsDirs S} {call : CreateProcessCall H} {exe : S}
    (hexe : b.windowsExe paths = .ok exe)
    (hcall : createProcessCall con flags b paths dirs = .ok (.ok call)) :
    (∀ arg ∈ b.args.tail, (0 : UInt16) ∉ WideOsStr.encodeWide arg) ∧
      call = {
        applicationName := WideOsStr.encodeWide exe ++ [0]
        commandLine := b.cmdlineText exe ++ [0]
        inheritHandles := false
        flags
        environment := b.environmentBlock
        currentDirectory := currentDirectory b dirs
        stdHandles := .invalid
        console := con } := by
  have hargs : ∀ arg ∈ b.args.tail, (0 : UInt16) ∉ WideOsStr.encodeWide arg := by
    by_contra hnul
    push Not at hnul
    obtain ⟨error, herror⟩ := cmdline_refuses hexe hnul
    rw [createProcessCall, herror] at hcall
    cases hcall
  refine ⟨hargs, ?_⟩
  rw [createProcessCall, cmdline_eq hexe hargs] at hcall
  exact (Except.ok.inj (Except.ok.inj hcall)).symm

/-- **A Windows program gets what the builder holds.** Take a builder after any history of operations
on its environment that leaves a variable in it, and the call that either spawn makes for it; let the
program be found under a name that a file can have, the entries of the environment be encodable, and
the chosen directory have no NUL. Then the new process has that image, the program's name and all
arguments as its `argv`, an environment in which the entries whose names `map_key` identifies with a
key hold exactly what `get_env` returns for it, and the chosen directory.
Source: `win/psuedocon.rs` `PsuedoCon::{spawn_command, spawn_suspended_command}`; `cmdbuilder.rs`
`CommandBuilder::{cmdline, current_directory, environment_block, get_env}` -/
theorem windows_program_receives {H : Type} {con : H} {flags : UInt32} {host : Host S} {args : List S}
    {cwd : Option S} {ops : List (StoreOp S S)} {b : CommandBuilder S}
    (hb : b = (freshBuilder host args cwd).applyAll ops)
    (hlive : ∃ k v, Live (getBaseEnv host) ops k v) {paths : WindowsPaths S}
    {dirs : WindowsDirs S} {call : CreateProcessCall H} {exe : S}
    (hcall : createProcessCall con flags b paths dirs = .ok (.ok call))
    (hexe : b.windowsExe paths = .ok exe) (hfile : IsFileName (WideOsStr.encodeWide exe))
    (hentries : ∀ e ∈ b.envs.entries, e.Encodable)
    (hdir : ∀ dir, chosenDir b dirs = some dir → ¬ HasNul (absoluteDir dirs dir))
    (hinj : Function.Injective (WideOsStr.encodeWide : S → List UInt16)) :
    ∃ p, call.program = some p ∧ Receives con b dirs exe p := by
  obtain ⟨hargs, rfl⟩ := createProcessCall_eq hexe hcall
  have hkeyed : b.envs.Keyed := by
    rw [hb]
    exact keyed_applyAll (getBaseEnv_isBase host) ops
  have hne : b.envs.entries ≠ [] := by
    obtain ⟨k, v, hkv⟩ := hlive
    obtain ⟨e, he, -⟩ :=
      (live_iff (b := freshBuilder host args cwd) (getBaseEnv_isBase host) ops k v).mpr hkv
    rw [hb]
    exact List.ne_nil_of_mem he
  unfold CreateProcessCall.program
  dsimp only
  rw [blockVariables_environmentBlock hne hentries]
  refine ⟨_, rfl, ?_, ?_, ?_, ?_, rfl⟩
  · exact untilNul_append hfile.no_nul
  · dsimp only
    rw [untilNul_append (nul_notMem_cmdlineText hfile.no_nul hargs), argv_cmdlineText hfile]
  · intro key value
    rw [getEnv_eq_some_iff hkeyed]
    constructor
    · rintro ⟨e, hmem, hfold, rfl⟩
      exact ⟨e.preferredKey, List.mem_map.mpr ⟨e, hmem, rfl⟩, hfold⟩
    · rintro ⟨name, hmem, hfold⟩
      obtain ⟨e, he, heq⟩ := List.mem_map.mp hmem
      obtain ⟨hname, hvalue⟩ := Prod.mk.inj heq
      obtain rfl := hinj hname
      exact ⟨e, he, hfold, hinj hvalue⟩
  · rcases hchosen : chosenDir b dirs with _ | dir
    · simp [currentDirectory, hchosen]
    · simp only [currentDirectory, hchosen, Option.map_some]
      rw [untilNul_append (hdir dir hchosen)]

/-- The program `p` with the arguments `a b` and the empty one, in `w` below `C:\`. -/
def movedBuilder : @CommandBuilder Wide (windowsOsStr asciiLowercase).toOsStr :=
  letI := windowsOsStr asciiLowercase
  (freshBuilder emptyWindowsHost [[0x70], [0x61, 0x20, 0x62], []] (some [0x77])).applyAll
    [.set [0x41] [0x31], .set [0x61] [0x32], .set [0x42] []]

/-- Everything is a directory, and the current one is `C:\`. -/
def rootDirs : WindowsDirs Wide where
  isDir _ := true
  isRelative dir := dir.head? ≠ some 0x43
  currentDir := some [0x43, 0x3A, 0x5C]
  join a b := a ++ b

/-- That program gets its arguments, the last value of `a` and the absolute directory. -/
theorem windows_program_receives_moved :
    letI := windowsOsStr asciiLowercase
    ∃ call p, spawnSuspendedCall () movedBuilder noPaths rootDirs = .ok (.ok call) ∧
      call.program = some p ∧ p.argv = [[0x70], [0x61, 0x20, 0x62], []] ∧
      p.environment = [([0x61], [0x32]), ([0x42], [])] ∧
      p.directory = some [0x43, 0x3A, 0x5C, 0x77] ∧
      Receives () movedBuilder rootDirs [0x70] p := by
  obtain ⟨p, hp, hreceives⟩ := @windows_program_receives Wide (windowsOsStr asciiLowercase) Unit ()
    suspendedFlags emptyWindowsHost [[0x70], [0x61, 0x20, 0x62], []] (some [0x77])
    [.set [0x41] [0x31], .set [0x61] [0x32], .set [0x42] []] movedBuilder rfl
    ⟨[0x61], [0x32], .inl rfl⟩ noPaths rootDirs _ [0x70] rfl rfl ⟨by decide, by decide, by decide⟩
    (by decide) (by decide) fun _ _ h => h
  refine ⟨_, p, rfl, hp, ?_, ?_, ?_, hreceives⟩
  · rw [← Option.some.inj hp]
    rfl
  · rw [← Option.some.inj hp]
    rfl
  · rw [← Option.some.inj hp]
    rfl

end SysprimsPty.Spawn
