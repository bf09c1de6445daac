import SysprimsPty.Command.AsCommand

/-!
# The file that was checked and the file that is executed

On Unix the program is searched in the parent, whose relative paths start from its own current
directory, and executed in the child, which has changed to the directory of the command. A
`UnixHost` is a host whose `is_dir` and `access` look at one file system, which both processes see.

* `childFile` — the file that the child runs.
* `RunsCheckedFile` — the search tested a file that can be executed, and the child runs it.
* `runs_checked_file_iff` — exactly when it does: following a relative directory of the command
  twice must not matter.
-/

namespace SysprimsPty.Command

open SysprimsPty.Found

/-- A host that answers from a file system, seen from the parent's current directory. -/
structure UnixHost (N : Type) extends Host Bytes where
  fs : FileSystem UInt8 N
  executable : N → Bool
  parentDir : N
  isDir_eq : ∀ path, isDir path = (fs.resolve slash parentDir path).any fs.isDir
  access_eq : ∀ path, toHost.accessOk path .xOk = (fs.resolve slash parentDir path).any executable

variable {N : Type}

/-- The file that a child in the directory `d` runs: a path with a separator is followed from `d`,
and another name is looked up in `PATH`, with what `lookupInPath` finds. -/
def childFile (h : UnixHost N) (lookupInPath : Bytes → Option N) (d : N) (program : Bytes) :
    Option N :=
  if slash ∈ program then h.fs.resolve slash d program else lookupInPath program

/-- The child can change to `dir`, and is then in the directory `d`. -/
def Enters (h : UnixHost N) (dir : Bytes) (d : N) : Prop :=
  h.fs.resolve slash h.parentDir dir = some d ∧ h.fs.isDir d = true

/-- **The file that was checked is executed**: the parent's calls were about a file that can be
executed and is no directory, and a child that can change to the directory of the command runs
it. -/
def RunsCheckedFile (h : UnixHost N) (lookupInPath : Bytes → Option N) (cmd : ProcessCommand) :
    Prop :=
  ∃ n, h.fs.resolve slash h.parentDir cmd.program = some n ∧ h.fs.isDir n = false ∧
    h.executable n = true ∧
    ∀ d, Enters h cmd.currentDir d → childFile h lookupInPath d cmd.program = some n

/-- The program name is absolute; or the directory of the command is; or what is searched under that
directory is; or from inside the directory, going there again before following the rest reaches
what following the rest alone reaches. -/
def SameFromInside (h : UnixHost N) (b : CommandBuilder Bytes) (exe : Bytes) : Prop :=
  ∀ home, b.getHomeDir h.toHost = .ok home →
    isAbsolute slash exe = true ∨ isAbsolute slash (b.spawnDir h.toHost home) = true ∨
      ∀ target d, b.Target h.toHost exe (b.spawnDir h.toHost home) target →
        Enters h (b.spawnDir h.toHost home) d →
        isAbsolute slash target = true ∨
          h.fs.resolve slash d (pathJoin (b.spawnDir h.toHost home) target) =
            h.fs.resolve slash d target

/-- A viable path denotes an executable file. -/
theorem UnixHost.viable_iff {h : UnixHost N} {path : Bytes} :
    h.viable path = true ↔
      ∃ n, h.fs.resolve slash h.parentDir path = some n ∧ h.fs.isDir n = false ∧
        h.executable n = true := by
  rw [Host.viable, h.isDir_eq, h.access_eq]
  cases h.fs.resolve slash h.parentDir path with
  | none => simp
  | some n => simp

/-- A directory that can be entered has a name. -/
theorem Enters.ne_nil {h : UnixHost N} {dir : Bytes} {d : N} (hd : Enters h dir d) : dir ≠ [] := by
  rintro rfl
  obtain ⟨hresolve, -⟩ := hd
  rw [FileSystem.resolve, if_pos rfl] at hresolve
  cases hresolve

/-- A viable path under a directory that can be entered is more than the directory. -/
theorem target_ne_nil {h : UnixHost N} {dir target : Bytes} {d : N} (hd : Enters h dir d)
    (hv : h.viable (pathJoin dir target) = true) : target ≠ [] := by
  rintro rfl
  obtain ⟨n, hn, hnotdir, -⟩ := UnixHost.viable_iff.mp hv
  have hlast : (pathJoin dir []).getLast? = some slash := by
    rw [pathJoin, join_of_relative rfl, List.append_nil]
    exact getLast?_append_gap hd.ne_nil
  rw [h.fs.isDir_of_resolve hlast hn] at hnotdir
  cases hnotdir

/-- The child follows an absolute program path to the file that the parent tested. -/
theorem childFile_absolute {h : UnixHost N} {lookupInPath : Bytes → Option N} {program : Bytes}
    (habs : isAbsolute slash program = true) (d : N) :
    childFile h lookupInPath d program = h.fs.resolve slash h.parentDir program := by
  have hmem : slash ∈ program := List.mem_of_head? (beq_iff_eq.mp habs)
  rw [childFile, if_pos hmem, h.fs.resolve_absolute habs d h.parentDir]

/-- Inside the directory `d`, the child runs what the parent tested exactly when going to the
directory again does not matter. -/
theorem childFile_join_iff {h : UnixHost N} {lookupInPath : Bytes → Option N}
    {dir target : Bytes} {d : N} (hd : Enters h dir d)
    (hv : h.viable (pathJoin dir target) = true) (htarget : isAbsolute slash target = false) :
    childFile h lookupInPath d (pathJoin dir target) =
        h.fs.resolve slash h.parentDir (pathJoin dir target) ↔
      h.fs.resolve slash d (pathJoin dir target) = h.fs.resolve slash d target := by
  have hmem : slash ∈ pathJoin dir target := sep_mem_join hd.ne_nil
  have hparent : h.fs.resolve slash h.parentDir (pathJoin dir target) =
      h.fs.resolve slash d target :=
    h.fs.resolve_join hd.1 (target_ne_nil hd hv) htarget
  rw [childFile, if_pos hmem, hparent]

/-- **When the checked file is the executed one.** For every builder with a program, every working
directory, every `PATH`, every file system and whatever a lookup in `PATH` finds in the child: if
`as_command` succeeds, the child runs the file that the search tested if and only if going to the
directory of the command once more from inside it does not change what the rest of the path
denotes.
Source: `cmdbuilder.rs` `CommandBuilder::search_path` (Unix), `CommandBuilder::as_command` -/
theorem runs_checked_file_iff (h : UnixHost N) (lookupInPath : Bytes → Option N)
    {b : CommandBuilder Bytes} {exe : Bytes} {args : List Bytes} (hargs : b.args = exe :: args)
    {cmd : ProcessCommand} (hcmd : b.asCommand h.toHost = .ok cmd) :
    RunsCheckedFile h lookupInPath cmd ↔ SameFromInside h b exe := by
  obtain ⟨-, home, hhome, hdir, hsearch⟩ := asCommand_ok hcmd
  obtain ⟨hv, hform⟩ := searchPath_ok (hsearch exe args hargs)
  obtain ⟨n, hn, hnotdir, hexec⟩ := UnixHost.viable_iff.mp hv
  -- the checked file is executed if and only if every child finds what the parent found
  have hruns : RunsCheckedFile h lookupInPath cmd ↔
      ∀ d, Enters h (b.spawnDir h.toHost home) d →
        childFile h lookupInPath d cmd.program = h.fs.resolve slash h.parentDir cmd.program := by
    rw [hn, ← hdir]
    constructor
    · rintro ⟨m, hm, -, -, hchild⟩ d hd
      obtain rfl : n = m := Option.some.inj (hn.symm.trans hm)
      exact hchild d hd
    · intro hchild
      exact ⟨n, hn, hnotdir, hexec, hchild⟩
  rw [hruns]
  rcases hform with ⟨habs, hprog⟩ | ⟨hrel, target, htarget, hprog⟩
  · rw [hprog]
    constructor
    · intro _ home' _
      exact .inl habs
    · intro _ d _
      exact childFile_absolute habs d
  · rw [hprog] at hv ⊢
    constructor
    · intro hchild home' hhome'
      obtain rfl : home = home' := Except.ok.inj (hhome.symm.trans hhome')
      refine .inr (.inr fun target' d htarget' hd => ?_)
      obtain rfl := htarget.unique htarget'
      cases htabs : isAbsolute slash target with
      | true => exact .inl rfl
      | false => exact .inr ((childFile_join_iff hd hv htabs).mp (hchild d hd))
    · intro hsame d hd
      rcases hsame home hhome with habs | habs | hinside
      · rw [hrel] at habs
        cases habs
      · exact childFile_absolute (isAbsolute_join habs) d
      · cases htabs : isAbsolute slash target with
        | true => exact childFile_absolute (by rwa [pathJoin, join_of_absolute htabs]) d
        | false =>
            refine (childFile_join_iff hd hv htabs).mpr ?_
            rcases hinside target d htarget hd with htabs' | hsame
            · rw [htabs] at htabs'
              cases htabs'
            · exact hsame

/-! ## A directory with one program -/

/-- The parent's current directory, which is also the root; its directory `sub`; and the program
`sub/prog`. -/
inductive Node
  | top
  | sub
  | prog
  deriving DecidableEq

/-- `b"sub"` -/
def subName : Bytes := [0x73, 0x75, 0x62]

/-- `b"./prog"` -/
def progName : Bytes := [0x2E, 0x2F, 0x70, 0x72, 0x6F, 0x67]

/-- The file system of the three nodes. -/
def subTree : FileSystem UInt8 Node where
  root := .top
  isDir n := n != .prog
  lookup n name :=
    if name = [0x2E] && n != .prog then some n
    else if name = subName && n == .top then some .sub
    else if name = [0x70, 0x72, 0x6F, 0x67] && n == .sub then some .prog
    else none

/-- What an `access` on the tree says. -/
def subTreeAccess (path : Bytes) : Except String Unit :=
  if (subTree.resolve slash .top path).any (· == .prog) then .ok ()
  else .error "EACCES: Permission denied"

theorem isOk_subTreeAccess (path : Bytes) :
    (subTreeAccess path).isOk = (subTree.resolve slash .top path).any (· == .prog) := by
  unfold subTreeAccess
  split
  · next h => exact h.symm
  · next h => exact (Bool.eq_false_iff.mpr h).symm

/-- A parent at the top of the tree, without an environment and a password database. -/
def subTreeHost : UnixHost Node where
  varsOs := []
  passwd := none
  access path _ := subTreeAccess path
  isDir path := (subTree.resolve slash .top path).any subTree.isDir
  sysEnv := []
  userEnv := []
  fs := subTree
  executable n := n == .prog
  parentDir := .top
  isDir_eq _ := rfl
  access_eq := isOk_subTreeAccess

/-- The builder for `./prog` in the directory `cwd`. -/
def progIn (cwd : Bytes) : CommandBuilder Bytes := { args := [progName], envs := ∅, cwd := some cwd }

/-- In the directory `/sub` the checked program is executed. -/
theorem runs_checked_file_absolute :
    ∃ cmd, (progIn (slash :: subName)).asCommand subTreeHost.toHost = .ok cmd ∧
      RunsCheckedFile subTreeHost (fun _ => none) cmd := by
  have hargs : (progIn (slash :: subName)).args = progName :: [] := rfl
  refine ⟨_, rfl, (runs_checked_file_iff subTreeHost (fun _ => none) hargs rfl).mpr ?_⟩
  intro home hhome
  obtain rfl : "/" = home := Except.ok.inj hhome
  exact .inr (.inl rfl)

/-- In the directory `sub`, relative to the parent's, `as_command` tests `sub/./prog` and the child,
inside `sub`, finds no `sub/./prog`. -/
theorem relative_dir_misses_checked_file :
    ∃ cmd, (progIn subName).asCommand subTreeHost.toHost = .ok cmd ∧
      subTree.resolve slash .top cmd.program = some .prog ∧
      Enters subTreeHost cmd.currentDir .sub ∧
      childFile subTreeHost (fun _ => none) .sub cmd.program = none ∧
      ¬ RunsCheckedFile subTreeHost (fun _ => none) cmd := by
  refine ⟨_, rfl, rfl, ⟨rfl, rfl⟩, rfl, ?_⟩
  rintro ⟨n, -, -, -, hchild⟩
  cases hchild .sub ⟨rfl, rfl⟩

end SysprimsPty.Command
