import SysprimsPty.Command.OsStr

/-!
# The command builder

`CommandBuilder` with the operations on its environment, generic in the platform string. What the
crate reads from the process and the operating system is a `Host`; the registry and the password
database are outside the repository and enter as what they answer.

* `EnvEntry.mapKey` — the name under which an entry is stored.
* `getBaseEnv` — the environment of a fresh builder, on either platform.
* `CommandBuilder.env` … `CommandBuilder.iterFullEnvAsStr` — the operations and the readers.
-/

namespace SysprimsPty.Command

/-- A piece of a formatted message: literal text, or a platform string shown with `{}` or `{:?}`. -/
inductive Fragment (S : Type)
  | text (s : String)
  | display (s : S)
  | debug (s : S)
  deriving DecidableEq

/-- The message of an `anyhow` error. -/
abbrev Message (S : Type) := List (Fragment S)

/-! ## The host -/

/-- Source: `nix::unistd::AccessFlags`, the two flags that the crate uses -/
inductive AccessFlags
  | xOk
  | fOk
  deriving DecidableEq

/-- The fields of a password database entry that the crate uses. -/
structure Passwd (S : Type) where
  shell : S
  dir : S

/-- What the builder reads from the process and the operating system. -/
structure Host (S : Type) where
  /-- `std::env::vars_os()` -/
  varsOs : List (S × S)
  /-- `libc::getpwuid(libc::getuid())` -/
  passwd : Option (Passwd S)
  /-- `nix::unistd::access`; an error is its `{:#}` text. -/
  access : S → AccessFlags → Except String Unit
  /-- `Path::is_dir` -/
  isDir : S → Bool
  /-- The names and values of the system environment in the registry, in the order of their
  enumeration; empty if the key cannot be opened. `none`: `reg_value_to_string` failed. -/
  sysEnv : List (String × Option S)
  /-- The same for the user environment. -/
  userEnv : List (String × Option S)

variable {S : Type} [OsStr S]

/-- `access(path, flags).is_ok()` -/
def Host.accessOk (host : Host S) (path : S) (flags : AccessFlags) : Bool :=
  (host.access path flags).isOk

/-- The shell of the password database if it can be executed, else `/bin/sh`.
Source: `cmdbuilder.rs` `get_shell` -/
def getShell (host : Host S) : String :=
  match host.passwd with
  | none => "/bin/sh"
  | some ent =>
      match OsStr.toStr ent.shell with
      | none => "/bin/sh"
      | some shell => if host.accessOk (OsStr.ofStr shell) .xOk then shell else "/bin/sh"

/-! ## The environment store -/

/-- Source: `cmdbuilder.rs` `EnvEntry` -/
structure EnvEntry (S : Type) where
  isFromBaseEnv : Bool
  preferredKey : S
  value : S

/-- Source: `cmdbuilder.rs` `EnvEntry::map_key` -/
def EnvEntry.mapKey (k : S) : S :=
  if OsStr.cfgWindows S then
    match OsStr.toStr k with
    | some s => OsStr.ofStr (OsStr.toLowercase S s)
    | none => k
  else k

/-- `BTreeMap<OsString, EnvEntry>` -/
abbrev Envs (S : Type) [OsStr S] := Std.TreeMap S (EnvEntry S) compare

/-- The insertion that every writer of the store makes: under the folded name, with the casing of
the caller. -/
def Envs.insertEntry (env : Envs S) (isFromBaseEnv : Bool) (key value : S) : Envs S :=
  env.insert (EnvEntry.mapKey key) { isFromBaseEnv, preferredKey := key, value }

/-- `BTreeMap::values`, in key order. -/
def Envs.entries (env : Envs S) : List (EnvEntry S) := env.toList.map Prod.snd

/-- `str::eq_ignore_ascii_case` -/
def eqIgnoreAsciiCase (a b : String) : Bool := a.toLower == b.toLower

/-- Source: `cmdbuilder.rs` `get_base_env`, the loop over the system environment -/
def addSysEnv (env : Envs S) : String × Option S → Envs S
  | (name, value) =>
      if eqIgnoreAsciiCase name "username" then env
      else
        match value with
        | some value => env.insertEntry true (OsStr.ofStr name) value
        | none => env

/-- Source: `cmdbuilder.rs` `get_base_env`, the loop over the user environment -/
def addUserEnv (env : Envs S) : String × Option S → Envs S
  | (_, none) => env
  | (name, some value) =>
      let value :=
        if eqIgnoreAsciiCase name "path" then
          match env[EnvEntry.mapKey (OsStr.ofStr name : S)]? with
          | some entry => OsStr.push (OsStr.push entry.value (OsStr.ofStr ";")) value
          | none => value
        else value
      env.insertEntry true (OsStr.ofStr name) value

/-- Source: `cmdbuilder.rs` `get_base_env` -/
def getBaseEnv (host : Host S) : Envs S :=
  let env : Envs S := host.varsOs.foldl (fun env (key, value) => env.insertEntry true key value) ∅
  if OsStr.cfgWindows S then
    host.userEnv.foldl addUserEnv (host.sysEnv.foldl addSysEnv env)
  else if env.contains (EnvEntry.mapKey (OsStr.ofStr "SHELL")) then env
  else env.insertEntry true (OsStr.ofStr "SHELL") (OsStr.ofStr (getShell host))

/-! ## The builder -/

/-- Source: `cmdbuilder.rs` `CommandBuilder` -/
structure CommandBuilder (S : Type) [OsStr S] where
  args : List S
  envs : Envs S
  cwd : Option S

namespace CommandBuilder

/-- A builder for a given argument vector; `new` passes a vector of one program and
`new_default_prog` an empty one.
Source: `cmdbuilder.rs` `CommandBuilder::from_argv` -/
def fromArgv (host : Host S) (args : List S) : CommandBuilder S :=
  { args, envs := getBaseEnv host, cwd := none }

/-- Source: `cmdbuilder.rs` `CommandBuilder::env` -/
def env (b : CommandBuilder S) (key value : S) : CommandBuilder S :=
  { b with envs := b.envs.insertEntry false key value }

/-- Source: `cmdbuilder.rs` `CommandBuilder::env_remove` -/
def envRemove (b : CommandBuilder S) (key : S) : CommandBuilder S :=
  { b with envs := b.envs.erase (EnvEntry.mapKey key) }

/-- Source: `cmdbuilder.rs` `CommandBuilder::env_clear` -/
def envClear (b : CommandBuilder S) : CommandBuilder S := { b with envs := ∅ }

/-- Source: `cmdbuilder.rs` `CommandBuilder::get_env` -/
def getEnv (b : CommandBuilder S) (key : S) : Option S :=
  b.envs[EnvEntry.mapKey key]?.map EnvEntry.value

/-- Source: `cmdbuilder.rs` `CommandBuilder::iter_extra_env_as_str` -/
def iterExtraEnvAsStr (b : CommandBuilder S) : List (String × String) :=
  b.envs.entries.filterMap fun e =>
    if e.isFromBaseEnv then none
    else do
      let key ← OsStr.toStr e.preferredKey
      let value ← OsStr.toStr e.value
      some (key, value)

/-- Source: `cmdbuilder.rs` `CommandBuilder::iter_full_env_as_str` -/
def iterFullEnvAsStr (b : CommandBuilder S) : List (String × String) :=
  b.envs.entries.filterMap fun e => do
    let key ← OsStr.toStr e.preferredKey
    let value ← OsStr.toStr e.value
    some (key, value)

end CommandBuilder

end SysprimsPty.Command
