import SysprimsPty.Command.DefaultShell
import SysprimsPty.Found.NamedStrings
import SysprimsPty.Master.UnixTty

/-!
# What a Unix program is started with

The strings that `std::process::Command` makes of the command of a Unix spawn, and what the program
reads of them. In which order the library writes the variables is left open. What `execvp` makes of a
path without a slash, or of a script, is outside.

* `execCall` — the strings for the child, each with its terminator; a NUL in any of them
  is refused.
* `ExecCall.program`, `UnixProgram.getenv` — what the program gets, and its lookup of a variable.
* `unix_program_receives` — the program gets what the builder holds, whatever was done to the builder
  before; and its lookups find what the builder holds exactly if no stored name can be read as another
  variable.
-/

namespace SysprimsPty.Spawn

open SysprimsPty.Found
open SysprimsPty.Command
open SysprimsPty.Master (cstr cstr_append)

/-! ## The strings -/

/-- `b'='` -/
def equalsSign : UInt8 := 0x3D

/-- `CString::new`; `none`: there is a NUL in the text. -/
def cString (text : Bytes) : Option Bytes := if 0 ∈ text then none else some (text ++ [0])

/-- What the child passes to `chdir` and `execvp`, with the variables as its `environ`. -/
structure ExecCall where
  path : Bytes
  argv : List Bytes
  envp : List Bytes
  directory : Bytes

/-- The strings that `Command::spawn` makes of the command, with the variables in the order `vars`;
`none`: it refuses with `InvalidInput`. -/
def execCall (cmd : ProcessCommand) (vars : List (Bytes × Bytes)) : Option ExecCall := do
  let path ← cString cmd.program
  let argv ← (cmd.arg0 :: cmd.args).mapM cString
  let envp ← (vars.map (namedString equalsSign)).mapM cString
  let directory ← cString cmd.currentDir
  return { path, argv, envp, directory }

/-- What a program begins with. -/
structure UnixProgram where
  path : Bytes
  argv : List Bytes
  environ : List Bytes
  directory : Bytes

/-- What the program gets: every string is read up to its NUL. -/
def ExecCall.program (call : ExecCall) : UnixProgram where
  path := cstr call.path
  argv := call.argv.map cstr
  environ := call.envp.map cstr
  directory := cstr call.directory

/-- `getenv`, for a name that is not empty. -/
def UnixProgram.getenv (p : UnixProgram) (name : Bytes) : Option Bytes :=
  searchNamed equalsSign p.environ name

/-- A name that `getenv` can be asked for. -/
def IsVarName (name : Bytes) : Prop := name ≠ [] ∧ equalsSign ∉ name

/-- No NUL in anything that the command holds. -/
structure NulFree (cmd : ProcessCommand) : Prop where
  program : (0 : UInt8) ∉ cmd.program
  argv : ∀ arg ∈ cmd.arg0 :: cmd.args, (0 : UInt8) ∉ arg
  env : ∀ name value : Bytes, cmd.env[name]? = some value → (0 : UInt8) ∉ name ∧ (0 : UInt8) ∉ value
  directory : (0 : UInt8) ∉ cmd.currentDir

/-- A text without NUL, with its terminator. -/
theorem cString_eq_some_iff {text buffer : Bytes} :
    cString text = some buffer ↔ (0 : UInt8) ∉ text ∧ buffer = text ++ [0] := by
  unfold cString
  split_ifs with h
  · simp [h]
  · simp [h, eq_comm]

/-- Texts without NUL, each with its terminator. -/
theorem mapM_cString {texts buffers : List Bytes} :
    texts.mapM cString = some buffers ↔
      (∀ text ∈ texts, (0 : UInt8) ∉ text) ∧ buffers = texts.map (· ++ [0]) := by
  induction texts generalizing buffers with
  | nil => simp [eq_comm]
  | cons text texts ih =>
      rw [List.mapM_cons]
      simp only [Option.bind_eq_bind, Option.pure_def, Option.bind_eq_some_iff,
        cString_eq_some_iff, ih, Option.some.injEq]
      constructor
      · rintro ⟨_, ⟨htext, rfl⟩, _, ⟨htexts, rfl⟩, rfl⟩
        exact ⟨List.forall_mem_cons.mpr ⟨htext, htexts⟩, rfl⟩
      · rintro ⟨hall, rfl⟩
        obtain ⟨htext, htexts⟩ := List.forall_mem_cons.mp hall
        exact ⟨_, ⟨htext, rfl⟩, _, ⟨htexts, rfl⟩, rfl⟩

/-- Terminated texts are read as themselves. -/
theorem map_cstr {texts : List Bytes} (h : ∀ text ∈ texts, (0 : UInt8) ∉ text) :
    (texts.map (· ++ [0])).map cstr = texts := by
  rw [List.map_map]
  conv_rhs => rw [← List.map_id texts]
  exact List.map_congr_left fun text htext => cstr_append (h text htext) []

/-- The strings of the variables, in any order, are without NUL exactly if names and values are. -/
theorem nulFree_env_iff {env : Std.TreeMap Bytes Bytes} {vars : List (Bytes × Bytes)}
    (hvars : vars.Perm env.toList) :
    (∀ string ∈ vars.map (namedString equalsSign), (0 : UInt8) ∉ string) ↔
      ∀ name value : Bytes, env[name]? = some value → (0 : UInt8) ∉ name ∧ (0 : UInt8) ∉ value := by
  have hmem (name value : Bytes) : (name, value) ∈ vars ↔ env[name]? = some value := by
    rw [hvars.mem_iff]
    exact Std.TreeMap.mem_toList_iff_getElem?_eq_some
  simp only [List.forall_mem_map, Prod.forall, hmem, namedString, List.mem_append, List.mem_cons,
    equalsSign, not_or]
  constructor
  · intro h name value hheld
    exact ⟨(h name value hheld).1, (h name value hheld).2.2⟩
  · intro h name value hheld
    exact ⟨(h name value hheld).1, by decide, (h name value hheld).2⟩

/-- **What `Command::spawn` makes of a command**, in any order of the variables: it refuses exactly a
NUL, and otherwise the program reads what the command holds. -/
theorem execCall_spec {cmd : ProcessCommand} {vars : List (Bytes × Bytes)}
    (hvars : vars.Perm cmd.env.toList) :
    ((execCall cmd vars).isSome ↔ NulFree cmd) ∧
      ∀ call, execCall cmd vars = some call → call.program = {
        path := cmd.program
        argv := cmd.arg0 :: cmd.args
        environ := vars.map (namedString equalsSign)
        directory := cmd.currentDir } := by
  have hcall (call : ExecCall) : execCall cmd vars = some call ↔ NulFree cmd ∧ call = {
      path := cmd.program ++ [0]
      argv := (cmd.arg0 :: cmd.args).map (· ++ [0])
      envp := (vars.map (namedString equalsSign)).map (· ++ [0])
      directory := cmd.currentDir ++ [0] } := by
    unfold execCall
    simp only [Option.bind_eq_bind, Option.pure_def, Option.bind_eq_some_iff, cString_eq_some_iff,
      mapM_cString, nulFree_env_iff hvars, Option.some.injEq]
    constructor
    · rintro ⟨_, ⟨hpath, rfl⟩, _, ⟨hargv, rfl⟩, _, ⟨henv, rfl⟩, _, ⟨hdir, rfl⟩, rfl⟩
      exact ⟨⟨hpath, hargv, henv, hdir⟩, rfl⟩
    · rintro ⟨h, rfl⟩
      exact ⟨_, ⟨h.program, rfl⟩, _, ⟨h.argv, rfl⟩, _, ⟨h.env, rfl⟩, _, ⟨h.directory, rfl⟩, rfl⟩
  constructor
  · rw [Option.isSome_iff_exists]
    constructor
    · rintro ⟨call, h⟩
      exact ((hcall call).mp h).1
    · intro h
      exact ⟨_, (hcall _).mpr ⟨h, rfl⟩⟩
  · intro call h
    obtain ⟨hfree, rfl⟩ := (hcall call).mp h
    have henv := (nulFree_env_iff hvars).mpr hfree.env
    simp only [ExecCall.program, map_cstr hfree.argv, map_cstr henv,
      cstr_append hfree.program [], cstr_append hfree.directory []]

/-! ## The program of a builder -/

/-- The value that a program of the builder is expected to find: the builder's own, and for `SHELL` the
shell where it has none. -/
def seen (b : CommandBuilder Bytes) (host : Host Bytes) (name : Bytes) : Option Bytes :=
  (b.getEnv name).or
    (if name = OsStr.ofStr "SHELL" then some (OsStr.ofStr (b.getShell host)) else none)

/-- **What a program of the builder is expected to get.** -/
structure UnixReceives (b : CommandBuilder Bytes) (host : Host Bytes) (p : UnixProgram) : Prop where
  /-- The builder's arguments, or for the default program the name of a login shell. -/
  argv : p.argv =
    if b.args = [] then [OsStr.ofStr ("-" ++ basename (b.getShell host))] else b.args
  /-- The file that the search finds from the directory, or the shell. -/
  path : ∀ exe ∈ b.args.head?, b.searchPath host exe p.directory = .ok p.path
  shell : b.args = [] → p.path = OsStr.ofStr (b.getShell host)
  directory : ∃ home, b.getHomeDir host = .ok home ∧ p.directory = b.spawnDir host home
  /-- The strings of the variables, and no others. -/
  environ : ∀ string, string ∈ p.environ ↔
    ∃ name value, seen b host name = some value ∧ string = namedString equalsSign (name, value)

/-- A variable of the command. -/
theorem getElem?_childEnv {b : CommandBuilder Bytes} (hkeyed : b.envs.Keyed) (host : Host Bytes)
    (name : Bytes) : (b.childEnv (b.getShell host))[name]? = seen b host name := by
  apply Option.ext
  intro value
  have hown : (∃ e ∈ b.envs.entries, e.preferredKey = name ∧ e.value = value) ↔
      b.getEnv name = some value := (getEnv_eq_some_iff hkeyed).symm
  rw [CommandBuilder.childEnv, getElem?_foldl_insert (Envs.entries_distinct hkeyed), hown, seen,
    Option.or_eq_some_iff, Std.TreeMap.getElem?_insert]
  simp only [Std.LawfulEqCmp.compare_eq_iff_eq, Std.TreeMap.getElem?_emptyc, eq_comm (a := name)]
  refine or_congr_right (and_congr_left' ?_)
  rw [Option.eq_none_iff_forall_ne_some]
  constructor
  · intro hnone value hvalue
    obtain ⟨e, hmem, hname, -⟩ := (getEnv_eq_some_iff hkeyed).mp hvalue
    exact hnone e hmem hname
  · intro hnone e hmem hname
    exact hnone e.value ((getEnv_eq_some_iff hkeyed).mpr ⟨e, hmem, hname, rfl⟩)

/-- The variables of the command are those of the builder, and `SHELL`. -/
theorem mem_env_iff {b : CommandBuilder Bytes} {host : Host Bytes} {cmd : ProcessCommand}
    (hkeyed : b.envs.Keyed) (hcmd : b.asCommand host = .ok cmd) (name value : Bytes) :
    (name, value) ∈ cmd.env.toList ↔ seen b host name = some value := by
  obtain ⟨henv, -⟩ := asCommand_ok hcmd
  rw [Std.TreeMap.mem_toList_iff_getElem?_eq_some, henv, getElem?_childEnv hkeyed]

/-- The arguments of the command, and its program where there are none. -/
theorem asCommand_argv {b : CommandBuilder Bytes} {host : Host Bytes} {cmd : ProcessCommand}
    (hcmd : b.asCommand host = .ok cmd) :
    cmd.arg0 :: cmd.args =
        (if b.args = [] then [OsStr.ofStr ("-" ++ basename (b.getShell host))] else b.args) ∧
      (b.args = [] → cmd.program = OsStr.ofStr (b.getShell host)) := by
  obtain ⟨-, home, hhome, -, hsearch⟩ := asCommand_ok hcmd
  rcases hargs : b.args with _ | ⟨exe, args⟩
  · rw [asCommand_default hargs, hhome] at hcmd
    obtain rfl := Except.ok.inj hcmd
    exact ⟨rfl, fun _ => rfl⟩
  · have hfound := hsearch exe args hargs
    rw [CommandBuilder.asCommand, hhome, hargs] at hcmd
    simp only [bind, Except.bind, hfound] at hcmd
    have heq := Except.ok.inj hcmd
    have harg0 : exe = cmd.arg0 := congrArg ProcessCommand.arg0 heq
    have htail : args = cmd.args := congrArg ProcessCommand.args heq
    rw [← harg0, ← htail]
    exact ⟨by simp, by simp⟩

/-- What the program reads of an accepted command is what it is expected to get. -/
theorem unixReceives_of {b : CommandBuilder Bytes} {host : Host Bytes} {cmd : ProcessCommand}
    (hkeyed : b.envs.Keyed) (hcmd : b.asCommand host = .ok cmd) {vars : List (Bytes × Bytes)}
    (hvars : vars.Perm cmd.env.toList) {call : ExecCall} (hcall : execCall cmd vars = some call) :
    UnixReceives b host call.program := by
  obtain ⟨-, home, hhome, hdir, hsearch⟩ := asCommand_ok hcmd
  obtain ⟨hargv, hshell⟩ := asCommand_argv hcmd
  rw [(execCall_spec hvars).2 call hcall]
  refine ⟨hargv, ?_, hshell, ⟨home, hhome, hdir⟩, ?_⟩
  · intro exe hexe
    obtain ⟨args, hargs⟩ := List.head?_eq_some_iff.mp hexe
    dsimp only
    rw [hdir]
    exact hsearch exe args hargs
  · intro string
    rw [List.mem_map]
    constructor
    · rintro ⟨⟨name, value⟩, hmem, rfl⟩
      exact ⟨name, value, (mem_env_iff hkeyed hcmd name value).mp (hvars.mem_iff.mp hmem), rfl⟩
    · rintro ⟨name, value, hseen, rfl⟩
      exact ⟨(name, value), hvars.mem_iff.mpr ((mem_env_iff hkeyed hcmd name value).mpr hseen), rfl⟩

/-- A name that can be read as another variable is no `SHELL`. -/
theorem seen_of_equals {b : CommandBuilder Bytes} {host : Host Bytes} {name rest : Bytes} :
    seen b host (name ++ equalsSign :: rest) = b.getEnv (name ++ equalsSign :: rest) := by
  have hne : name ++ equalsSign :: rest ≠ OsStr.ofStr "SHELL" := by
    intro heq
    have hmem : equalsSign ∈ (OsStr.ofStr "SHELL" : Bytes) := by
      rw [← heq]
      simp
    revert hmem
    decide
  rw [seen, if_neg hne, Option.or_none]

/-- **What a Unix program is started with.** For every builder after any history of `env`, `env_remove`
and `env_clear` from which a command is made, and whatever the order in which the variables are written:
the spawn is refused exactly for a NUL in the command, and otherwise the program gets the directory, the
path, the arguments and the variables that the builder holds. A lookup of each variable finds what the
builder holds exactly if no stored name with an `=` in it can be read as another variable, unless that
variable has the very value that would be read.
Source: `cmdbuilder.rs` `CommandBuilder::as_command`, `unix.rs` `PtyFd::spawn_command`,
`PtyFd::spawn_contained_command_with_fault` -/
theorem unix_program_receives (host : Host Bytes) (args : List Bytes) (cwd : Option Bytes)
    (ops : List (StoreOp Bytes Bytes)) {host' : Host Bytes} {b : CommandBuilder Bytes}
    (hb : b = (freshBuilder host args cwd).applyAll ops) {cmd : ProcessCommand}
    (hcmd : b.asCommand host' = .ok cmd) :
    (∀ vars : List (Bytes × Bytes), vars.Perm cmd.env.toList →
        ((execCall cmd vars).isSome ↔ NulFree cmd) ∧
          ∀ call, execCall cmd vars = some call → UnixReceives b host' call.program) ∧
      (NulFree cmd →
        ((∀ (vars : List (Bytes × Bytes)) (call : ExecCall), vars.Perm cmd.env.toList →
            execCall cmd vars = some call →
              ∀ name, IsVarName name → call.program.getenv name = seen b host' name) ↔
          ∀ name rest value, IsVarName name → b.getEnv (name ++ equalsSign :: rest) = some value →
            seen b host' name = some (namedString equalsSign (rest, value)))) := by
  have hkeyed : b.envs.Keyed := hb ▸ keyed_applyAll (getBaseEnv_isBase host) ops
  refine ⟨fun vars hvars => ⟨(execCall_spec hvars).1, fun call hcall =>
    unixReceives_of hkeyed hcmd hvars hcall⟩, fun hfree => ?_⟩
  have hexact := @searchNamed_exact_iff _ _ _ _ _ (mem_env_iff hkeyed hcmd) IsVarName
    fun name hname => hname.2
  simp only [seen_of_equals] at hexact
  rw [← hexact]
  constructor
  · intro h vars hvars name hname
    obtain ⟨call, hcall⟩ := Option.isSome_iff_exists.mp ((execCall_spec hvars).1.mpr hfree)
    have hget := h vars call hvars hcall name hname
    rwa [UnixProgram.getenv, (execCall_spec hvars).2 call hcall] at hget
  · intro h vars call hvars hcall name hname
    rw [UnixProgram.getenv, (execCall_spec hvars).2 call hcall]
    exact h vars hvars name hname

/-- A builder of the default program, for which `A=B` was set to `c`. -/
def forgingBuilder : CommandBuilder Bytes :=
  (freshBuilder emptyHost [] none).applyAll [.set [0x41, 0x3D, 0x42] [0x63]]

/-- Its program finds a variable `A` that nobody has set. -/
theorem unix_program_receives_forged :
    ∃ cmd, forgingBuilder.asCommand emptyHost = .ok cmd ∧ NulFree cmd ∧
      ¬∀ (vars : List (Bytes × Bytes)) (call : ExecCall), vars.Perm cmd.env.toList →
        execCall cmd vars = some call →
          ∀ name, IsVarName name → call.program.getenv name = seen forgingBuilder emptyHost name := by
  have hcmd : forgingBuilder.asCommand emptyHost =
      .ok (forgingBuilder.defaultCommand emptyHost "/") := rfl
  have hfree : NulFree (forgingBuilder.defaultCommand emptyHost "/") :=
    ⟨by decide, by decide, (nulFree_env_iff (.refl _)).mp (by decide), by decide⟩
  refine ⟨_, hcmd, hfree, fun hexact => ?_⟩
  have hreceives := unix_program_receives emptyHost [] none _ rfl hcmd
  have hread := (hreceives.2 hfree).mp hexact [0x41] [0x42] [0x63] ⟨by decide, by decide⟩ (by decide)
  revert hread
  decide

end SysprimsPty.Spawn
