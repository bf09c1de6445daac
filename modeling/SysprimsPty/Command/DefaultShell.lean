import SysprimsPty.Command.UnixSearch
import SysprimsPty.Command.Environment

/-!
# The default program on Unix

The shell that `as_command` runs for an empty argument vector: where it comes from, and what the
child is told about it.

* `getShell_eq` — the three sources: the environment, the password database, `/bin/sh`.
* `childEnv_shell` — the `SHELL` of the child.
* `default_shell_truthful_iff` — when the shell can be run and is the one that `SHELL` names.
-/

namespace SysprimsPty.Command

open SysprimsPty.Found

/-! ## The sources of the shell -/

/-- A path that can be decoded and executed, as text. -/
def executableText (host : Host Bytes) (path : Bytes) : Option String :=
  (OsStr.toStr path).filter fun shell => host.accessOk (OsStr.ofStr shell) .xOk

/-- The shell that the environment names, where it is taken. -/
def CommandBuilder.envShell (b : CommandBuilder Bytes) (host : Host Bytes) : Option String :=
  (b.getEnv (OsStr.ofStr "SHELL")).bind (executableText host)

/-- The shell of the password database, where it is taken. -/
def passwdShell (host : Host Bytes) : Option String :=
  host.passwd.bind fun ent => executableText host ent.shell

/-- A decoded byte string encodes to itself. -/
theorem ofStr_of_toStr {path : Bytes} {text : String} (h : OsStr.toStr path = some text) :
    OsStr.ofStr text = path := by
  simp only [OsStr.toStr, String.fromUTF8?] at h
  split at h
  · obtain rfl := Option.some.inj h
    rfl
  · cases h

/-- An encoded text decodes to itself. -/
theorem toStr_ofStr (text : String) : OsStr.toStr (OsStr.ofStr text : Bytes) = some text := by
  simp only [OsStr.toStr, OsStr.ofStr, String.fromUTF8?]
  exact dif_pos text.isValidUTF8

/-- Different texts are encoded differently. -/
theorem ofStr_injective {text text' : String}
    (h : (OsStr.ofStr text : Bytes) = OsStr.ofStr text') : text = text' := by
  rw [← Option.some_inj, ← toStr_ofStr text, h, toStr_ofStr]

/-- A path gives a shell exactly if it is the text of one that can be executed. -/
theorem executableText_eq_some_iff {host : Host Bytes} {path : Bytes} {shell : String} :
    executableText host path = some shell ↔
      path = OsStr.ofStr shell ∧ host.accessOk path .xOk = true := by
  rw [executableText, Option.filter_eq_some_iff]
  constructor
  · rintro ⟨htext, hx⟩
    rw [ofStr_of_toStr htext] at hx
    exact ⟨(ofStr_of_toStr htext).symm, hx⟩
  · rintro ⟨rfl, hx⟩
    exact ⟨toStr_ofStr shell, hx⟩

/-- The environment gives a shell exactly if its `SHELL` is the text of one that can be executed. -/
theorem envShell_eq_some_iff {b : CommandBuilder Bytes} {host : Host Bytes} {shell : String} :
    b.envShell host = some shell ↔
      b.getEnv (OsStr.ofStr "SHELL") = some (OsStr.ofStr shell) ∧
        host.accessOk (OsStr.ofStr shell) .xOk = true := by
  rw [CommandBuilder.envShell, Option.bind_eq_some_iff]
  simp only [executableText_eq_some_iff]
  constructor
  · rintro ⟨value, hvalue, rfl, hx⟩
    exact ⟨hvalue, hx⟩
  · rintro ⟨hvalue, hx⟩
    exact ⟨_, hvalue, rfl, hx⟩

/-- A shell of the password database can be executed. -/
theorem accessOk_of_passwdShell {host : Host Bytes} {shell : String}
    (h : passwdShell host = some shell) : host.accessOk (OsStr.ofStr shell) .xOk = true := by
  obtain ⟨ent, -, htext⟩ := Option.bind_eq_some_iff.mp h
  obtain ⟨hshell, hx⟩ := executableText_eq_some_iff.mp htext
  rwa [hshell] at hx

/-- A shell that can be executed, or what comes after it. -/
theorem executableText_getD (host : Host Bytes) (path : Bytes) (next : String) :
    (match OsStr.toStr path with
      | none => next
      | some shell => if host.accessOk (OsStr.ofStr shell) .xOk then shell else next) =
      (executableText host path).getD next := by
  rw [executableText]
  cases OsStr.toStr path with
  | none => rfl
  | some shell =>
      rw [Option.filter_some]
      split_ifs with hx
      · exact if_pos hx
      · exact if_neg hx

/-- The shell of the password database, or `/bin/sh`. -/
theorem passwd_getShell_eq (host : Host Bytes) :
    getShell host = (passwdShell host).getD "/bin/sh" := by
  rw [getShell, passwdShell]
  cases host.passwd with
  | none => rfl
  | some ent => exact executableText_getD host ent.shell "/bin/sh"

/-- The shell of the environment, that of the password database, or `/bin/sh`. -/
theorem getShell_eq (b : CommandBuilder Bytes) (host : Host Bytes) :
    b.getShell host = (b.envShell host).getD ((passwdShell host).getD "/bin/sh") := by
  rw [← passwd_getShell_eq, CommandBuilder.getShell, CommandBuilder.envShell]
  cases b.getEnv (OsStr.ofStr "SHELL") with
  | none => rfl
  | some value =>
      rw [Option.bind_some, Option.bind_some, ← executableText_getD]
      cases OsStr.toStr value <;> rfl

/-! ## What the child receives -/

/-- On Unix a name is stored under itself. -/
theorem mapKey_bytes (k : Bytes) : EnvEntry.mapKey k = k := rfl

/-- The `SHELL` of the child is the one in the builder's environment, and the shell that is run only
where there is none. -/
theorem childEnv_shell {b : CommandBuilder Bytes} (h : b.envs.Keyed) (shell : String) :
    (b.childEnv shell)[(OsStr.ofStr "SHELL" : Bytes)]? =
      some ((b.getEnv (OsStr.ofStr "SHELL")).getD (OsStr.ofStr shell)) := by
  rw [CommandBuilder.childEnv, getElem?_foldl_insert (Envs.entries_distinct h)]
  cases hstored : b.envs[(OsStr.ofStr "SHELL" : Bytes)]? with
  | some e =>
      have hkey : e.preferredKey = OsStr.ofStr "SHELL" := (h _ e hstored).symm
      have hmem : e ∈ b.envs.entries := by
        rw [Envs.mem_entries_iff h, mapKey_bytes, hkey]
        exact hstored
      refine .inl ⟨e, hmem, hkey, ?_⟩
      rw [CommandBuilder.getEnv, mapKey_bytes, hstored]
      rfl
  | none =>
      refine .inr ⟨fun e hmem hkey => ?_, ?_⟩
      · rw [Envs.mem_entries_iff h, mapKey_bytes, hkey, hstored] at hmem
        cases hmem
      · rw [CommandBuilder.getEnv, mapKey_bytes, hstored, Std.TreeMap.getElem?_insert_self]
        rfl

/-- The home directory can be found: `HOME` is UTF-8, or the password database has no entry for the
user or a directory that is UTF-8. -/
def CommandBuilder.HomeKnown (b : CommandBuilder Bytes) (host : Host Bytes) : Prop :=
  (∃ value home, b.getEnv (OsStr.ofStr "HOME") = some value ∧ OsStr.toStr value = some home) ∨
    ∀ ent, host.passwd = some ent → ∃ home, OsStr.toStr ent.dir = some home

/-- `name` is the part of `path` after its last `/`. -/
def AfterLastSlash (path name : String) : Prop :=
  '/' ∉ name.toList ∧
    (path = name ∨ ∃ before, path.toList = before ++ '/' :: name.toList)

/-- **The default program is a real shell and is advertised truthfully.** -/
structure TruthfulShell (b : CommandBuilder Bytes) (host : Host Bytes) (cmd : ProcessCommand) :
    Prop where
  runnable : host.viable cmd.program = true ∨ cmd.program = OsStr.ofStr "/bin/sh"
  login : ∃ path name, cmd.program = OsStr.ofStr path ∧ AfterLastSlash path name ∧
    cmd.arg0 = OsStr.ofStr ("-" ++ name)
  advertised : cmd.env[(OsStr.ofStr "SHELL" : Bytes)]? = some cmd.program
  /-- An absolute `$SHELL` is taken only where it would be accepted as an explicit program. -/
  accepted : ∀ shell, b.envShell host = some shell →
    isAbsolute slash (OsStr.ofStr shell) = true → ∀ dir,
      b.searchPath host (OsStr.ofStr shell) dir = .ok (OsStr.ofStr shell)

/-- The condition on the sources of the shell. -/
structure ShellSound (b : CommandBuilder Bytes) (host : Host Bytes) : Prop where
  /-- A `SHELL` that can be executed is no directory. -/
  taken : ∀ shell, b.envShell host = some shell → host.isDir (OsStr.ofStr shell) = false
  /-- One that cannot be executed names the fallback, and there is no other. -/
  stale : ∀ value, b.getEnv (OsStr.ofStr "SHELL") = some value → b.envShell host = none →
    value = OsStr.ofStr "/bin/sh" ∧ passwdShell host = none
  /-- Where there is no `SHELL`, the shell of the password database is no directory. -/
  unset : ∀ shell, b.getEnv (OsStr.ofStr "SHELL") = none → passwdShell host = some shell →
    host.isDir (OsStr.ofStr shell) = false ∨ shell = "/bin/sh"

/-! ## The default program -/

/-- The part after the last `/` is what `basename` returns. -/
theorem afterLastSlash_basename (path : String) : AfterLastSlash path (basename path) := by
  have hname : (basename path).toList = (path.toList.reverse.takeWhile (· != '/')).reverse :=
    String.toList_ofList
  have hsplit := @List.takeWhile_append_dropWhile _ (· != '/') path.toList.reverse
  constructor
  · rw [hname, List.mem_reverse]
    intro hslash
    have hne := List.all_eq_true.mp List.all_takeWhile '/' hslash
    exact absurd hne (by decide)
  · cases hrest : path.toList.reverse.dropWhile (· != '/') with
    | nil =>
        rw [hrest, List.append_nil] at hsplit
        left
        rw [← String.toList_inj, hname, hsplit, List.reverse_reverse]
    | cons c rest =>
        have hc : c = '/' := by
          have hhead := List.head?_dropWhile_not (· != '/') path.toList.reverse
          rw [hrest] at hhead
          simpa using hhead
        rw [hrest, hc] at hsplit
        refine .inr ⟨rest.reverse, ?_⟩
        have hpath := congrArg List.reverse hsplit
        rw [List.reverse_reverse, List.reverse_append, List.reverse_cons, List.append_assoc,
          List.singleton_append] at hpath
        rw [hname]
        exact hpath.symm

/-- The home directory is found exactly if one of its sources can be read. -/
theorem getHomeDir_ok_iff {b : CommandBuilder Bytes} {host : Host Bytes} :
    (∃ home, b.getHomeDir host = .ok home) ↔ b.HomeKnown host := by
  unfold CommandBuilder.getHomeDir CommandBuilder.HomeKnown
  cases hhome : (b.getEnv (OsStr.ofStr "HOME")).bind OsStr.toStr with
  | some home =>
      obtain ⟨value, hvalue, htext⟩ := Option.bind_eq_some_iff.mp hhome
      exact iff_of_true ⟨home, rfl⟩ (.inl ⟨value, home, hvalue, htext⟩)
  | none =>
      have hno : ¬ ∃ value home, b.getEnv (OsStr.ofStr "HOME") = some value ∧
          OsStr.toStr value = some home := by
        rintro ⟨value, home, hvalue, htext⟩
        rw [hvalue, Option.bind_some, htext] at hhome
        cases hhome
      rw [or_iff_right hno]
      cases host.passwd with
      | none => exact iff_of_true ⟨"/", rfl⟩ nofun
      | some ent =>
          simp only [Option.some.injEq, forall_eq']
          cases OsStr.toStr ent.dir with
          | none => exact iff_of_false (fun ⟨_, h⟩ => nomatch h) (fun ⟨_, h⟩ => nomatch h)
          | some home => exact iff_of_true ⟨home, rfl⟩ ⟨home, rfl⟩

/-- What `as_command` hands to the process for the default program. -/
def CommandBuilder.defaultCommand (b : CommandBuilder Bytes) (host : Host Bytes) (home : String) :
    ProcessCommand where
  program := OsStr.ofStr (b.getShell host)
  arg0 := OsStr.ofStr ("-" ++ basename (b.getShell host))
  args := []
  currentDir := b.spawnDir host home
  env := b.childEnv (b.getShell host)

/-- For an empty argument vector `as_command` needs the home directory only. -/
theorem asCommand_default {b : CommandBuilder Bytes} {host : Host Bytes} (hargs : b.args = []) :
    b.asCommand host = (b.getHomeDir host).map (b.defaultCommand host) := by
  rw [CommandBuilder.asCommand, hargs]
  cases b.getHomeDir host with
  | error error => rfl
  | ok home => rfl

/-- The arguments are not touched by operations on the environment. -/
theorem args_applyAll {S : Type} [OsStr S] (b : CommandBuilder S) (ops : List (StoreOp S S)) :
    (b.applyAll ops).args = b.args := by
  induction ops generalizing b with
  | nil => rfl
  | cons op ops ih =>
      rw [CommandBuilder.applyAll, List.foldl_cons]
      refine (ih (b.apply op)).trans ?_
      cases op <;> rfl

/-- An executable path is viable exactly if it is no directory. -/
theorem viable_iff_of_access {host : Host Bytes} {path : Bytes}
    (hx : host.accessOk path .xOk = true) : host.viable path = true ↔ host.isDir path = false := by
  rw [Host.viable, hx, Bool.and_true, Bool.not_eq_true']

/-- An absolute executable path is accepted as an explicit program exactly if it is no directory. -/
theorem searchPath_absolute_iff {b : CommandBuilder Bytes} {host : Host Bytes} {path dir : Bytes}
    (habs : isAbsolute slash path = true) (hx : host.accessOk path .xOk = true) :
    b.searchPath host path dir = .ok path ↔ host.isDir path = false := by
  rw [CommandBuilder.searchPath, if_pos habs, searchAbsolute_ok_iff, viable_iff_of_access hx]
  exact and_iff_right rfl

/-- A truthful default command has sound sources. -/
theorem ShellSound.of_truthful {b : CommandBuilder Bytes} {host : Host Bytes}
    (hkeyed : b.envs.Keyed) {home : String}
    (h : TruthfulShell b host (b.defaultCommand host home)) : ShellSound b host := by
  have hsource := getShell_eq b host
  have hrunnable : host.viable (OsStr.ofStr (b.getShell host)) = true ∨
      OsStr.ofStr (b.getShell host) = (OsStr.ofStr "/bin/sh" : Bytes) := h.runnable
  have hadvertised : (b.getEnv (OsStr.ofStr "SHELL")).getD (OsStr.ofStr (b.getShell host)) =
      OsStr.ofStr (b.getShell host) :=
    Option.some.inj ((childEnv_shell hkeyed (b.getShell host)).symm.trans h.advertised)
  constructor
  · intro shell htaken
    have hx := (envShell_eq_some_iff.mp htaken).2
    rw [htaken, Option.getD_some] at hsource
    rw [hsource] at hrunnable
    rcases hrunnable with hviable | hlast
    · exact (viable_iff_of_access hx).mp hviable
    · have habs : isAbsolute slash (OsStr.ofStr shell) = true := by
        rw [hlast]
        decide
      exact (searchPath_absolute_iff habs hx).mp (h.accepted shell htaken habs [])
  · intro value hvalue hnot
    rw [hnot, Option.getD_none] at hsource
    rw [hvalue, Option.getD_some] at hadvertised
    have hpasswd : passwdShell host = none := by
      rw [Option.eq_none_iff_forall_not_mem]
      intro shell hshell
      -- otherwise `SHELL` would name this shell, which can be executed, and would be taken
      rw [hshell, Option.getD_some] at hsource
      rw [hsource] at hadvertised
      have htaken := envShell_eq_some_iff.mpr
        ⟨hvalue.trans (congrArg some hadvertised), accessOk_of_passwdShell hshell⟩
      rw [htaken] at hnot
      cases hnot
    rw [hpasswd, Option.getD_none] at hsource
    rw [hsource] at hadvertised
    exact ⟨hadvertised, hpasswd⟩
  · intro shell hunset hpasswd
    have hnot : b.envShell host = none := by
      rw [CommandBuilder.envShell, hunset]
      rfl
    rw [hnot, hpasswd, Option.getD_none, Option.getD_some] at hsource
    rw [hsource] at hrunnable
    exact hrunnable.imp (viable_iff_of_access (accessOk_of_passwdShell hpasswd)).mp
      ofStr_injective

/-- The default command is truthful if its shell is runnable and advertised, and the environment's
shell is no directory. -/
theorem truthfulShell_of {b : CommandBuilder Bytes} {host : Host Bytes} (hkeyed : b.envs.Keyed)
    {shell : String} (hshell : b.getShell host = shell)
    (hrunnable : host.viable (OsStr.ofStr shell) = true ∨ shell = "/bin/sh")
    (hadvertised : (b.getEnv (OsStr.ofStr "SHELL")).getD (OsStr.ofStr shell) = OsStr.ofStr shell)
    (htaken : ∀ shell, b.envShell host = some shell → host.isDir (OsStr.ofStr shell) = false)
    (home : String) : TruthfulShell b host (b.defaultCommand host home) := by
  subst hshell
  refine ⟨hrunnable.imp_right (congrArg OsStr.ofStr), ?_, ?_, ?_⟩
  · exact ⟨_, _, rfl, afterLastSlash_basename _, rfl⟩
  · exact (childEnv_shell hkeyed _).trans (congrArg some hadvertised)
  · intro shell henv habs dir
    exact (searchPath_absolute_iff habs (envShell_eq_some_iff.mp henv).2).mpr (htaken shell henv)

/-- Sound sources make the default command truthful. -/
theorem ShellSound.truthful {b : CommandBuilder Bytes} {host : Host Bytes} (hkeyed : b.envs.Keyed)
    (h : ShellSound b host) (home : String) :
    TruthfulShell b host (b.defaultCommand host home) := by
  have hsource := getShell_eq b host
  rcases henv : b.envShell host with _ | shell
  · rw [henv, Option.getD_none] at hsource
    rcases hvalue : b.getEnv (OsStr.ofStr "SHELL") with _ | value
    · refine truthfulShell_of hkeyed hsource ?_ (by rw [hvalue, Option.getD_none]) h.taken home
      rcases hpasswd : passwdShell host with _ | shell
      · exact .inr rfl
      · exact (h.unset shell hvalue hpasswd).imp_left
          (viable_iff_of_access (accessOk_of_passwdShell hpasswd)).mpr
    · obtain ⟨rfl, hpasswd⟩ := h.stale value hvalue henv
      rw [hpasswd, Option.getD_none] at hsource
      exact truthfulShell_of hkeyed hsource (.inr rfl) (by rw [hvalue, Option.getD_some]) h.taken home
  · obtain ⟨hvalue, hx⟩ := envShell_eq_some_iff.mp henv
    rw [henv, Option.getD_some] at hsource
    exact truthfulShell_of hkeyed hsource
      (.inl ((viable_iff_of_access hx).mpr (h.taken shell henv)))
      (by rw [hvalue, Option.getD_some]) h.taken home

/-- **When the default program is advertised truthfully.** For every base environment, history of the
environment, directory and file system, the shell that `as_command` runs for an empty argument vector
is executable and no directory or the last resort, is started as a login shell and is the `SHELL` of
the child, and an absolute `$SHELL` is taken only where it would be accepted as an explicit program,
if and only if the home directory is unknown, so that the call fails, or the sources of the shell are
sound.
Source: `cmdbuilder.rs` `CommandBuilder::as_command`, `CommandBuilder::get_shell`, `get_shell` -/
theorem default_shell_truthful_iff (host host' : Host Bytes) (cwd : Option Bytes)
    (ops : List (StoreOp Bytes Bytes)) :
    (∀ cmd, ((freshBuilder host [] cwd).applyAll ops).asCommand host' = .ok cmd →
        TruthfulShell ((freshBuilder host [] cwd).applyAll ops) host' cmd) ↔
      (((freshBuilder host [] cwd).applyAll ops).HomeKnown host' →
        ShellSound ((freshBuilder host [] cwd).applyAll ops) host') := by
  have hkeyed : ((freshBuilder host [] cwd).applyAll ops).envs.Keyed :=
    keyed_applyAll (getBaseEnv_isBase host) ops
  rw [asCommand_default (args_applyAll _ ops), ← getHomeDir_ok_iff]
  constructor
  · rintro h ⟨home, hhome⟩
    refine .of_truthful hkeyed (h (CommandBuilder.defaultCommand _ host' home) ?_)
    rw [hhome]
    rfl
  · intro h cmd hcmd
    cases hhome : ((freshBuilder host [] cwd).applyAll ops).getHomeDir host' with
    | error error =>
        rw [hhome] at hcmd
        cases hcmd
    | ok home =>
        rw [hhome] at hcmd
        obtain rfl := Except.ok.inj hcmd
        exact (h ⟨home, hhome⟩).truthful hkeyed home

/-- A host without a password database, on which every path can be executed and `/tmp` is the only
directory. -/
def openHost : Host Bytes :=
  { emptyHost with
    access := fun _ _ => .ok ()
    isDir := fun path => path == OsStr.ofStr "/tmp" }

/-- A builder of the default program with this value of `SHELL`. -/
def shellBuilder (shell : String) : CommandBuilder Bytes :=
  (freshBuilder emptyHost [] none).applyAll [.set (OsStr.ofStr "SHELL") (OsStr.ofStr shell)]

/-- With the directory `/tmp` as `SHELL`, the program is the directory; and with `/gone`, which
cannot be executed, the program is `/bin/sh` and the child's `SHELL` is `/gone`. -/
theorem default_shell_untruthful :
    (∃ cmd, (shellBuilder "/tmp").asCommand openHost = .ok cmd ∧
      cmd.program = OsStr.ofStr "/tmp" ∧ ¬ TruthfulShell (shellBuilder "/tmp") openHost cmd) ∧
    ∃ cmd, (shellBuilder "/gone").asCommand emptyHost = .ok cmd ∧
      cmd.program = OsStr.ofStr "/bin/sh" ∧
      cmd.env[(OsStr.ofStr "SHELL" : Bytes)]? = some (OsStr.ofStr "/gone") ∧
      ¬ TruthfulShell (shellBuilder "/gone") emptyHost cmd := by
  refine ⟨⟨_, rfl, rfl, fun h => ?_⟩, _, rfl, rfl, rfl, fun h => ?_⟩
  · rcases h.runnable with hviable | hlast
    · exact absurd hviable (by decide)
    · exact absurd hlast (by decide)
  · exact absurd h.advertised (by decide)

end SysprimsPty.Command
