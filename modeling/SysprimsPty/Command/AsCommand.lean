import SysprimsPty.Command.Builder
import SysprimsPty.Core.Io
import SysprimsPty.Found.PathWalk

/-!
# The command on Unix

`CommandBuilder::as_command` and what it calls. A path is its bytes; a `ProcessCommand`
holds what the builder hands to `std::process::Command`.

* `CommandBuilder.searchPath` — the program search, with its messages.
* `CommandBuilder.asCommand` — the command.
* `searchPath_ok`, `asCommand_ok` — what a successful search and a successful call returned.
-/

namespace SysprimsPty.Command

open SysprimsPty.Core (bind_eq_ok_iff)
open SysprimsPty.Found

/-! ## Paths -/

/-- The path separator, `b'/'`. -/
def slash : UInt8 := 0x2F

/-- The separator of `PATH`, `b':'`. -/
def colon : UInt8 := 0x3A

/-- `Path::join` -/
def pathJoin (base path : Bytes) : Bytes := join slash base path

/-- The text of a path up to its first separator. -/
def firstSegment (path : Bytes) : Bytes := path.takeWhile (· != slash)

/-- The path begins with the component `.` or `..`.
Source: `cmdbuilder.rs` `is_cwd_relative_path` -/
def isCwdRelativePath (path : Bytes) : Bool :=
  firstSegment path == [0x2E] || firstSegment path == [0x2E, 0x2E]

/-- `std::env::split_paths`: the pieces between the colons, an empty one for nothing. -/
def splitPaths (path : Bytes) : List Bytes :=
  match path with
  | [] => [[]]
  | c :: rest =>
      if c = colon then [] :: splitPaths rest
      else
        match splitPaths rest with
        | [] => [[c]]
        | piece :: pieces => (c :: piece) :: pieces

/-- The part of a string after its last `/`: `rsplit('/').next()`. -/
def basename (s : String) : String :=
  String.ofList (s.toList.reverse.takeWhile (· != '/')).reverse

/-! ## The program search -/

/-- A path that can be executed: no directory, and `access` grants `X_OK`. -/
def Host.viable (host : Host Bytes) (path : Bytes) : Bool :=
  !host.isDir path && host.accessOk path .xOk

/-- `errors.join(".\n")` -/
def joinErrors : List (Message Bytes) → Message Bytes
  | [] => []
  | [error] => error
  | error :: errors => error ++ .text ".\n" :: joinErrors errors

/-- Why a candidate that is not viable was rejected; nothing for one that does not exist. -/
def rejection (host : Host Bytes) (candidate : Bytes) : List (Message Bytes) :=
  if host.isDir candidate then [[.display candidate, .text " exists but is a directory"]]
  else if host.accessOk candidate .fOk then
    [[.display candidate, .text " exists but is not executable"]]
  else []

/-- The loop over the entries of `PATH`: the first viable candidate, or the reasons against all.
Source: `cmdbuilder.rs` `search_path` (Unix), `for path in std::env::split_paths(&path)` -/
def searchCandidates (host : Host Bytes) (cwd exe : Bytes) :
    List Bytes → Except (List (Message Bytes)) Bytes
  | [] => .error []
  | path :: rest =>
      let candidate := pathJoin (pathJoin cwd path) exe
      if host.viable candidate then .ok candidate
      else (searchCandidates host cwd exe rest).mapError (rejection host candidate ++ ·)

namespace CommandBuilder

/-- The search for a path whose first component is `.` or `..`.
Source: `cmdbuilder.rs` `search_path` (Unix), `if is_cwd_relative_path(exe_path)` -/
def searchCwdRelative (host : Host Bytes) (exe cwd : Bytes) : Except (Message Bytes) Bytes :=
  let absPath := pathJoin cwd exe
  if host.isDir absPath then
    .error [.text "Unable to spawn ", .display absPath, .text " because it is a directory"]
  else if host.accessOk absPath .xOk then .ok absPath
  else if host.accessOk absPath .fOk then
    .error [.text "Unable to spawn ", .display absPath, .text " because it is not executable"]
  else .error [.text "Unable to spawn ", .display absPath, .text " because it does not exist"]

/-- The search for an absolute path.
Source: `cmdbuilder.rs` `search_path` (Unix), `else if exe_path.is_dir()` and `else` -/
def searchAbsolute (host : Host Bytes) (exe : Bytes) : Except (Message Bytes) Bytes :=
  if host.isDir exe then
    .error [.text "Unable to spawn ", .display exe, .text " because it is a directory"]
  else
    match host.access exe .xOk with
    | .ok () => .ok exe
    | .error err =>
        if host.accessOk exe .fOk then
          .error [.text "Unable to spawn ", .display exe,
            .text (" because it is not executable (" ++ err ++ ")")]
        else
          .error [.text "Unable to spawn ", .display exe,
            .text (" because it doesn't exist on the filesystem (" ++ err ++ ")")]

/-- Source: `cmdbuilder.rs` `CommandBuilder::search_path` (Unix) -/
def searchPath (b : CommandBuilder Bytes) (host : Host Bytes) (exe cwd : Bytes) :
    Except (Message Bytes) Bytes :=
  if isAbsolute slash exe then searchAbsolute host exe
  else if isCwdRelativePath exe then searchCwdRelative host exe cwd
  else
    let failed (errors : List (Message Bytes)) : Message Bytes :=
      [.text "Unable to spawn ", .display exe, .text " because:\n"] ++ joinErrors errors
    match b.getEnv (OsStr.ofStr "PATH") with
    | none => .error (failed [[.text "Unable to resolve the PATH"]])
    | some path =>
        (searchCandidates host cwd exe (splitPaths path)).mapError fun errors =>
          failed (errors ++ [[.text "No viable candidates found in PATH ", .debug path]])

/-! ## The command -/

/-- Source: `cmdbuilder.rs` `CommandBuilder::get_shell` (Unix) -/
def getShell (b : CommandBuilder Bytes) (host : Host Bytes) : String :=
  match (b.getEnv (OsStr.ofStr "SHELL")).bind OsStr.toStr with
  | some shell =>
      if host.accessOk (OsStr.ofStr shell) .xOk then shell else Command.getShell host
  | none => Command.getShell host

/-- Source: `cmdbuilder.rs` `CommandBuilder::get_home_dir` -/
def getHomeDir (b : CommandBuilder Bytes) (host : Host Bytes) : Except (Message Bytes) String :=
  match (b.getEnv (OsStr.ofStr "HOME")).bind OsStr.toStr with
  | some home => .ok home
  | none =>
      match host.passwd with
      | none => .ok "/"
      | some ent =>
          match OsStr.toStr ent.dir with
          | some home => .ok home
          | none => .error [.text "failed to resolve home dir"]

/-- The working directory of the child: the requested one if it is a directory, else the home
directory.
Source: `cmdbuilder.rs` `CommandBuilder::as_command`, `let dir` -/
def spawnDir (b : CommandBuilder Bytes) (host : Host Bytes) (home : String) : Bytes :=
  (b.cwd.filter host.isDir).getD (OsStr.ofStr home)

end CommandBuilder

/-- What the builder hands to `std::process::Command`. -/
structure ProcessCommand where
  program : Bytes
  arg0 : Bytes
  args : List Bytes
  currentDir : Bytes
  env : Std.TreeMap Bytes Bytes

namespace CommandBuilder

/-- The environment of the child: cleared, then `SHELL`, then every entry under its own name.
Source: `cmdbuilder.rs` `CommandBuilder::as_command`, `cmd.env_clear()` to `cmd.envs(..)` -/
def childEnv (b : CommandBuilder Bytes) (shell : String) : Std.TreeMap Bytes Bytes :=
  b.envs.entries.foldl (fun env e => env.insert e.preferredKey e.value)
    ((∅ : Std.TreeMap Bytes Bytes).insert (OsStr.ofStr "SHELL") (OsStr.ofStr shell))

/-- Source: `cmdbuilder.rs` `CommandBuilder::as_command` -/
def asCommand (b : CommandBuilder Bytes) (host : Host Bytes) :
    Except (Message Bytes) ProcessCommand := do
  let home ← b.getHomeDir host
  let dir := b.spawnDir host home
  let shell := b.getShell host
  match b.args with
  | [] =>
      return {
        program := OsStr.ofStr shell
        arg0 := OsStr.ofStr ("-" ++ basename shell)
        args := []
        currentDir := dir
        env := b.childEnv shell }
  | exe :: args =>
      let resolved ← b.searchPath host exe dir
      return {
        program := resolved
        arg0 := exe
        args
        currentDir := dir
        env := b.childEnv shell }

end CommandBuilder

/-! ## Successful calls -/

/-- `entry` is the first entry of `PATH` with a viable candidate. -/
def FirstViable (host : Host Bytes) (cwd exe : Bytes) (entries : List Bytes) (entry : Bytes) :
    Prop :=
  ∃ before after, entries = before ++ entry :: after ∧
    (∀ e ∈ before, host.viable (pathJoin (pathJoin cwd e) exe) = false) ∧
    host.viable (pathJoin (pathJoin cwd entry) exe) = true

/-- Changing the error keeps the success. -/
theorem mapError_eq_ok_iff {ε ε' α : Type} {f : ε → ε'} {x : Except ε α} {a : α} :
    x.mapError f = .ok a ↔ x = .ok a := by
  cases x with
  | error e => exact ⟨nofun, nofun⟩
  | ok b => exact ⟨fun h => congrArg Except.ok (Except.ok.inj h),
      fun h => congrArg Except.ok (Except.ok.inj h)⟩

/-- The loop returns the candidate of the first viable entry. -/
theorem searchCandidates_ok {host : Host Bytes} {cwd exe : Bytes} {entries : List Bytes}
    {found : Bytes} (h : searchCandidates host cwd exe entries = .ok found) :
    ∃ entry, FirstViable host cwd exe entries entry ∧
      found = pathJoin (pathJoin cwd entry) exe := by
  induction entries with
  | nil => cases h
  | cons path rest ih =>
      rw [searchCandidates] at h
      by_cases hv : host.viable (pathJoin (pathJoin cwd path) exe) = true
      · rw [if_pos hv] at h
        cases h
        exact ⟨path, ⟨[], rest, rfl, by simp, hv⟩, rfl⟩
      · rw [if_neg hv, mapError_eq_ok_iff] at h
        obtain ⟨entry, ⟨before, after, rfl, hbefore, hentry⟩, hfound⟩ := ih h
        refine ⟨entry, ⟨path :: before, after, rfl, ?_, hentry⟩, hfound⟩
        intro e he
        rcases List.mem_cons.mp he with rfl | he
        · exact Bool.eq_false_iff.mpr hv
        · exact hbefore e he

/-- There is at most one first viable entry, up to equality. -/
theorem FirstViable.unique {host : Host Bytes} {cwd exe : Bytes} {entries : List Bytes}
    {e e' : Bytes} (h : FirstViable host cwd exe entries e)
    (h' : FirstViable host cwd exe entries e') : e = e' := by
  obtain ⟨before, after, rfl, hbefore, he⟩ := h
  obtain ⟨before', after', hsplit, hbefore', he'⟩ := h'
  induction before generalizing before' with
  | nil =>
      cases before' with
      | nil => exact (List.cons.inj hsplit).1
      | cons b before' =>
          obtain ⟨rfl, -⟩ := List.cons.inj hsplit
          rw [hbefore' e List.mem_cons_self] at he
          cases he
  | cons b before ih =>
      cases before' with
      | nil =>
          obtain ⟨rfl, -⟩ := List.cons.inj hsplit
          rw [hbefore b List.mem_cons_self] at he'
          cases he'
      | cons b' before' =>
          obtain ⟨-, hrest⟩ := List.cons.inj hsplit
          exact ih (fun x hx => hbefore x (List.mem_cons_of_mem b hx)) before' hrest
            fun x hx => hbefore' x (List.mem_cons_of_mem b' hx)

/-- The path relative to the working directory that a successful search tested. -/
def CommandBuilder.Target (b : CommandBuilder Bytes) (host : Host Bytes) (exe cwd target : Bytes) :
    Prop :=
  (isCwdRelativePath exe = true ∧ target = exe) ∨
    (isCwdRelativePath exe = false ∧ ∃ path entry, b.getEnv (OsStr.ofStr "PATH") = some path ∧
      FirstViable host cwd exe (splitPaths path) entry ∧ target = pathJoin entry exe)

/-- A successful search for an absolute name returns the name, and it is viable. -/
theorem searchAbsolute_ok {host : Host Bytes} {exe found : Bytes}
    (h : CommandBuilder.searchAbsolute host exe = .ok found) :
    found = exe ∧ host.viable exe = true := by
  unfold CommandBuilder.searchAbsolute at h
  by_cases hdir : host.isDir exe = true
  · rw [if_pos hdir] at h
    cases h
  · rw [if_neg hdir] at h
    split at h
    · next hx =>
        cases h
        refine ⟨rfl, ?_⟩
        rw [Host.viable, Bool.eq_false_iff.mpr hdir, Host.accessOk, hx]
        rfl
    · split at h
      · cases h
      · cases h

/-- A successful search for a name with a leading `.` or `..` returns it under the directory. -/
theorem searchCwdRelative_ok {host : Host Bytes} {exe cwd found : Bytes}
    (h : CommandBuilder.searchCwdRelative host exe cwd = .ok found) :
    found = pathJoin cwd exe ∧ host.viable (pathJoin cwd exe) = true := by
  unfold CommandBuilder.searchCwdRelative at h
  simp only at h
  split_ifs at h with hdir hx
  cases h
  refine ⟨rfl, ?_⟩
  rw [Host.viable, Bool.eq_false_iff.mpr hdir, hx]
  rfl

/-- A successful search returns a viable path: the absolute name, or the target under the working
directory. -/
theorem searchPath_ok {b : CommandBuilder Bytes} {host : Host Bytes} {exe cwd found : Bytes}
    (h : b.searchPath host exe cwd = .ok found) :
    host.viable found = true ∧
      ((isAbsolute slash exe = true ∧ found = exe) ∨
        (isAbsolute slash exe = false ∧
          ∃ target, b.Target host exe cwd target ∧ found = pathJoin cwd target)) := by
  unfold CommandBuilder.searchPath at h
  split_ifs at h with habs hrel
  · obtain ⟨rfl, hv⟩ := searchAbsolute_ok h
    exact ⟨hv, .inl ⟨habs, rfl⟩⟩
  · obtain ⟨rfl, hv⟩ := searchCwdRelative_ok h
    exact ⟨hv, .inr ⟨Bool.eq_false_iff.mpr habs, exe, .inl ⟨hrel, rfl⟩, rfl⟩⟩
  · simp only at h
    split at h
    · cases h
    · next path hpath =>
        rw [mapError_eq_ok_iff] at h
        obtain ⟨entry, hfirst, rfl⟩ := searchCandidates_ok h
        have hviable := hfirst.choose_spec.choose_spec.2.2
        refine ⟨hviable, .inr ⟨Bool.eq_false_iff.mpr habs, pathJoin entry exe, .inr ?_, ?_⟩⟩
        · exact ⟨Bool.eq_false_iff.mpr hrel, path, entry, hpath, hfirst, rfl⟩
        · exact join_assoc cwd entry exe

/-- The target is determined. -/
theorem CommandBuilder.Target.unique {b : CommandBuilder Bytes} {host : Host Bytes}
    {exe cwd t t' : Bytes} (h : b.Target host exe cwd t) (h' : b.Target host exe cwd t') :
    t = t' := by
  rcases h with ⟨hrel, rfl⟩ | ⟨hrel, path, entry, hpath, hfirst, rfl⟩
  · rcases h' with ⟨-, rfl⟩ | ⟨hrel', -⟩
    · rfl
    · rw [hrel] at hrel'
      cases hrel'
  · rcases h' with ⟨hrel', -⟩ | ⟨-, path', entry', hpath', hfirst', rfl⟩
    · rw [hrel] at hrel'
      cases hrel'
    · obtain rfl : path = path' := Option.some.inj (hpath.symm.trans hpath')
      rw [hfirst.unique hfirst']

/-- What a successful `as_command` with a program returned. -/
theorem asCommand_ok {b : CommandBuilder Bytes} {host : Host Bytes} {cmd : ProcessCommand}
    (h : b.asCommand host = .ok cmd) :
    cmd.env = b.childEnv (b.getShell host) ∧
      ∃ home, b.getHomeDir host = .ok home ∧ cmd.currentDir = b.spawnDir host home ∧
        ∀ exe args, b.args = exe :: args →
          b.searchPath host exe (b.spawnDir host home) = .ok cmd.program := by
  unfold CommandBuilder.asCommand at h
  obtain ⟨home, hhome, h⟩ := bind_eq_ok_iff.mp h
  split at h
  · next hargs =>
    cases h
    refine ⟨rfl, home, hhome, rfl, ?_⟩
    intro exe args hcons
    rw [hargs] at hcons
    cases hcons
  · next exe args hargs =>
    obtain ⟨found, hsearch, h⟩ := bind_eq_ok_iff.mp h
    cases h
    refine ⟨rfl, home, hhome, rfl, ?_⟩
    intro exe' args' hcons
    rw [hargs] at hcons
    obtain ⟨rfl, -⟩ := List.cons.inj hcons
    exact hsearch

end SysprimsPty.Command
