import SysprimsPty.Command.EnvironmentBlock
import SysprimsPty.Found.Layers

/-!
# The base environment on Windows

`get_base_env` on Windows as three layers over one another: the process environment, the system
values and the user values of the registry.

* `BelowUser`, `Layered` — what the layers leave for a folded name.
* `read_belowUserEnv_iff`, `read_getBaseEnv_iff` — the loops leave that.
* `base_env_layering` — the whole map, and that the order of the registry plays no part.
-/

namespace SysprimsPty.Command

open SysprimsPty.Found

variable {S : Type} [OsStr S]

/-- The folded name of a registry value. -/
def foldName (name : String) : S := EnvEntry.mapKey (OsStr.ofStr name)

/-- The entry of a base layer. -/
def baseEntry (key value : S) : EnvEntry S :=
  { isFromBaseEnv := true, preferredKey := key, value }

/-! ## What the layers mean -/

/-- The name is set by the system layer: it is decodable there, and not `USERNAME`. -/
def InSystem (host : Host S) (name : String) (value : S) : Prop :=
  (name, some value) ∈ host.sysEnv ∧ eqIgnoreAsciiCase name "username" = false

/-- The entry that the process environment and the system layer leave for a folded name: that of the
system value, or of the last variable of the process. -/
inductive BelowUser (host : Host S) (f : S) : EnvEntry S → Prop
  | system {name : String} {value : S} (hmem : InSystem host name value)
      (hfold : foldName name = f) : BelowUser host f (baseEntry (OsStr.ofStr name) value)
  | process {before after : List (S × S)} {key value : S}
      (hvars : host.varsOs = before ++ (key, value) :: after) (hfold : EnvEntry.mapKey key = f)
      (hlast : ∀ kv ∈ after, EnvEntry.mapKey kv.1 ≠ f)
      (hsystem : ∀ name value, InSystem host name value → foldName name ≠ f) :
      BelowUser host f (baseEntry key value)

/-- **The entry of the base environment** for a folded name: that of the user value, which for `Path`
is appended to what the layers below left; or what the layers below left. -/
inductive Layered (host : Host S) (f : S) : EnvEntry S → Prop
  | user {name : String} {value : S} (hmem : (name, some value) ∈ host.userEnv)
      (hfold : foldName name = f)
      (hover : eqIgnoreAsciiCase name "path" = false ∨ ∀ e, ¬ BelowUser host f e) :
      Layered host f (baseEntry (OsStr.ofStr name) value)
  | path {name : String} {value : S} {e : EnvEntry S} (hmem : (name, some value) ∈ host.userEnv)
      (hfold : foldName name = f) (hpath : eqIgnoreAsciiCase name "path" = true)
      (hbelow : BelowUser host f e) :
      Layered host f (baseEntry (OsStr.ofStr name)
        (OsStr.push (OsStr.push e.value (OsStr.ofStr ";")) value))
  | below {e : EnvEntry S} (huser : ∀ name value, (name, some value) ∈ host.userEnv →
      foldName name ≠ f) (hbelow : BelowUser host f e) : Layered host f e

/-- The folded name occurs in a layer. -/
def Occurs (host : Host S) (f : S) : Prop :=
  (∃ kv ∈ host.varsOs, EnvEntry.mapKey kv.1 = f) ∨
    (∃ name value, InSystem host name value ∧ foldName name = f) ∨
    ∃ name value, (name, some value) ∈ host.userEnv ∧ foldName name = f

/-! ## The loops -/

/-- A variable of the process writes its entry. -/
def varWrite (kv : S × S) : Option (S × (Option (EnvEntry S) → EnvEntry S)) :=
  some (EnvEntry.mapKey kv.1, fun _ => baseEntry kv.1 kv.2)

/-- A system value that can be decoded writes its entry, unless it is `USERNAME`. -/
def sysWrite (nv : String × Option S) : Option (S × (Option (EnvEntry S) → EnvEntry S)) :=
  if eqIgnoreAsciiCase nv.1 "username" then none
  else nv.2.map fun value => (foldName nv.1, fun _ => baseEntry (OsStr.ofStr nv.1) value)

/-- The value that a user value is stored with, over what is stored under its name. -/
def userValue (name : String) (value : S) (held : Option (EnvEntry S)) : S :=
  if eqIgnoreAsciiCase name "path" then
    match held with
    | some entry => OsStr.push (OsStr.push entry.value (OsStr.ofStr ";")) value
    | none => value
  else value

/-- A user value that can be decoded writes its entry. -/
def userWrite (nv : String × Option S) : Option (S × (Option (EnvEntry S) → EnvEntry S)) :=
  nv.2.map fun value =>
    (foldName nv.1, fun held => baseEntry (OsStr.ofStr nv.1) (userValue nv.1 value held))

/-- The entry under a folded name. -/
def Envs.read (env : Envs S) (f : S) : Option (EnvEntry S) := env[f]?

theorem writesAt_vars :
    WritesAt Envs.read (fun (env : Envs S) (kv : S × S) => env.insertEntry true kv.1 kv.2)
      varWrite :=
  fun env kv f => Envs.getElem?_insertEntry env true kv.1 kv.2 f

theorem writesAt_addSysEnv :
    WritesAt Envs.read (addSysEnv : Envs S → String × Option S → Envs S) sysWrite := by
  rintro env ⟨name, value⟩ f
  unfold addSysEnv sysWrite
  dsimp only
  split_ifs
  · rfl
  · cases value with
    | none => rfl
    | some value => exact Envs.getElem?_insertEntry env true _ _ f

theorem writesAt_addUserEnv :
    WritesAt Envs.read (addUserEnv : Envs S → String × Option S → Envs S) userWrite := by
  rintro env ⟨name, value⟩ f
  cases value with
  | none => rfl
  | some value =>
      refine (Envs.getElem?_insertEntry env true _ _ f).trans ?_
      by_cases hf : EnvEntry.mapKey (OsStr.ofStr name) = f
      · subst hf
        rw [if_pos rfl]
        exact (if_pos rfl).symm
      · rw [if_neg hf]
        exact (if_neg hf).symm

/-- A variable of the process touches the fold of its name. -/
theorem touches_varWrite_iff {f : S} {kv : S × S} :
    Touches varWrite f kv ↔ EnvEntry.mapKey kv.1 = f := by
  simp [Touches, varWrite]

/-- The names of a list have pairwise different folds. -/
def FoldsDistinct (values : List (String × Option S)) : Prop :=
  values.Pairwise fun a b => (foldName a.1 : S) ≠ foldName b.1

/-- What a system value writes. -/
theorem sysWrite_eq_some_iff {f : S} {nv : String × Option S}
    {w : Option (EnvEntry S) → EnvEntry S} :
    sysWrite nv = some (f, w) ↔
      ∃ value, nv.2 = some value ∧ eqIgnoreAsciiCase nv.1 "username" = false ∧
        foldName nv.1 = f ∧ (fun _ => baseEntry (OsStr.ofStr nv.1) value) = w := by
  unfold sysWrite
  by_cases hname : eqIgnoreAsciiCase nv.1 "username" = true
  · simp [hname]
  · simp [hname]

/-- What a user value writes. -/
theorem userWrite_eq_some_iff {f : S} {nv : String × Option S}
    {w : Option (EnvEntry S) → EnvEntry S} :
    userWrite nv = some (f, w) ↔
      ∃ value, nv.2 = some value ∧ foldName nv.1 = f ∧
        (fun held => baseEntry (OsStr.ofStr nv.1) (userValue nv.1 value held)) = w := by
  simp [userWrite]

/-- A system value touches the fold of its name. -/
theorem touches_sysWrite_iff {f : S} {nv : String × Option S} :
    Touches sysWrite f nv ↔
      ∃ value, nv.2 = some value ∧ eqIgnoreAsciiCase nv.1 "username" = false ∧
        foldName nv.1 = f := by
  simp [Touches, sysWrite_eq_some_iff]

/-- A user value touches the fold of its name. -/
theorem touches_userWrite_iff {f : S} {nv : String × Option S} :
    Touches userWrite f nv ↔ ∃ value, nv.2 = some value ∧ foldName nv.1 = f := by
  simp [Touches, userWrite_eq_some_iff]

/-- Values with different folds write different keys. -/
theorem FoldsDistinct.sys {values : List (String × Option S)} (h : FoldsDistinct values) :
    DistinctKeys sysWrite values := by
  refine h.imp ?_
  intro a b hne f ha hb
  obtain ⟨-, -, -, ha⟩ := touches_sysWrite_iff.mp ha
  obtain ⟨-, -, -, hb⟩ := touches_sysWrite_iff.mp hb
  exact hne (ha.trans hb.symm)

theorem FoldsDistinct.user {values : List (String × Option S)} (h : FoldsDistinct values) :
    DistinctKeys userWrite values := by
  refine h.imp ?_
  intro a b hne f ha hb
  obtain ⟨-, -, ha⟩ := touches_userWrite_iff.mp ha
  obtain ⟨-, -, hb⟩ := touches_userWrite_iff.mp hb
  exact hne (ha.trans hb.symm)

/-! ## The loops leave what the layers mean -/

/-- The process environment as a map. -/
def processEnv (host : Host S) : Envs S :=
  host.varsOs.foldl (fun env kv => env.insertEntry true kv.1 kv.2) ∅

/-- A variable of the process is stored if it is the last one with its fold. -/
theorem read_processEnv_iff {host : Host S} {f : S} {e : EnvEntry S} :
    (processEnv host).read f = some e ↔
      ∃ before key value after, host.varsOs = before ++ (key, value) :: after ∧
        EnvEntry.mapKey key = f ∧ (∀ kv ∈ after, EnvEntry.mapKey kv.1 ≠ f) ∧
        baseEntry key value = e := by
  have hempty : (∅ : Envs S).read f ≠ some e := by simp [Envs.read]
  rw [processEnv, get_foldl_overwriting_iff writesAt_vars]
  · simp only [touches_varWrite_iff, hempty, and_false, or_false]
    constructor
    · rintro ⟨before, ⟨key, value⟩, after, w, hvars, hwrite, hafter, rfl⟩
      obtain ⟨rfl, rfl⟩ := Prod.mk.inj (Option.some.inj hwrite)
      exact ⟨before, key, value, after, hvars, rfl, hafter, rfl⟩
    · rintro ⟨before, key, value, after, hvars, rfl, hafter, rfl⟩
      exact ⟨before, (key, value), after, _, hvars, rfl, hafter, rfl⟩
  · intro kv k w hwrite held
    obtain ⟨-, rfl⟩ := Prod.mk.inj (Option.some.inj hwrite)
    rfl

/-- The process environment under the system values. -/
def belowUserEnv (host : Host S) : Envs S := host.sysEnv.foldl addSysEnv (processEnv host)

/-- The loop over the system values leaves what the two layers mean. -/
theorem read_belowUserEnv_iff {host : Host S} (hsys : FoldsDistinct host.sysEnv) {f : S}
    {e : EnvEntry S} : (belowUserEnv host).read f = some e ↔ BelowUser host f e := by
  rw [belowUserEnv, get_foldl_distinct_iff writesAt_addSysEnv hsys.sys]
  constructor
  · rintro (⟨⟨name, value⟩, hmem, w, hwrite, rfl⟩ | ⟨hnone, hread⟩)
    · obtain ⟨value, rfl, hname, hfold, rfl⟩ := sysWrite_eq_some_iff.mp hwrite
      exact .system ⟨hmem, hname⟩ hfold
    · obtain ⟨before, key, value, after, hvars, hfold, hlast, rfl⟩ := read_processEnv_iff.mp hread
      refine .process hvars hfold hlast fun name value hin hf => ?_
      exact hnone _ hin.1 (touches_sysWrite_iff.mpr ⟨value, rfl, hin.2, hf⟩)
  · rintro (⟨hin, hfold⟩ | ⟨hvars, hfold, hlast, hsystem⟩)
    · exact .inl ⟨_, hin.1, _, sysWrite_eq_some_iff.mpr ⟨_, rfl, hin.2, hfold, rfl⟩, rfl⟩
    · refine .inr ⟨fun nv hmem htouch => ?_, ?_⟩
      · obtain ⟨value, hvalue, hname, hf⟩ := touches_sysWrite_iff.mp htouch
        refine hsystem nv.1 value ⟨?_, hname⟩ hf
        rw [← hvalue]
        exact hmem
      · exact read_processEnv_iff.mpr ⟨_, _, _, _, hvars, hfold, hlast, rfl⟩

/-- The loop over the user values leaves what the three layers mean. -/
theorem read_getBaseEnv_iff {host : Host S} (hwin : OsStr.cfgWindows S = true)
    (hsys : FoldsDistinct host.sysEnv) (huser : FoldsDistinct host.userEnv) {f : S}
    {e : EnvEntry S} : (getBaseEnv host).read f = some e ↔ Layered host f e := by
  have hloops : getBaseEnv host = host.userEnv.foldl addUserEnv (belowUserEnv host) := if_pos hwin
  have hbelow : ∀ e', (belowUserEnv host).read f = some e' ↔ BelowUser host f e' :=
    fun _ => read_belowUserEnv_iff hsys
  rw [hloops, get_foldl_distinct_iff writesAt_addUserEnv huser.user, hbelow]
  constructor
  · rintro (⟨⟨name, value⟩, hmem, w, hwrite, rfl⟩ | ⟨hnone, he⟩)
    · obtain ⟨value, rfl, hfold, rfl⟩ := userWrite_eq_some_iff.mp hwrite
      dsimp only [userValue]
      by_cases hpath : eqIgnoreAsciiCase name "path" = true
      · rw [if_pos hpath]
        rcases hheld : (belowUserEnv host).read f with _ | entry
        · refine .user hmem hfold (.inr fun e' he' => ?_)
          rw [← hbelow, hheld] at he'
          cases he'
        · exact .path hmem hfold hpath ((hbelow entry).mp hheld)
      · rw [if_neg hpath]
        exact .user hmem hfold (.inl (Bool.eq_false_iff.mpr hpath))
    · refine .below (fun name value hin hf => ?_) he
      exact hnone _ hin (touches_userWrite_iff.mpr ⟨value, rfl, hf⟩)
  · rintro (⟨hmem, hfold, hover⟩ | ⟨hmem, hfold, hpath, he⟩ | ⟨hnone, he⟩)
    · refine .inl ⟨_, hmem, _, userWrite_eq_some_iff.mpr ⟨_, rfl, hfold, rfl⟩, ?_⟩
      dsimp only [userValue]
      rcases hover with hpath | hno
      · rw [hpath, if_neg Bool.false_ne_true]
      · rcases hheld : (belowUserEnv host).read f with _ | entry
        · rw [ite_self]
        · exact absurd ((hbelow entry).mp hheld) (hno entry)
    · refine .inl ⟨_, hmem, _, userWrite_eq_some_iff.mpr ⟨_, rfl, hfold, rfl⟩, ?_⟩
      dsimp only [userValue]
      rw [hpath, if_pos rfl, (hbelow _).mpr he]
    · refine .inr ⟨fun nv hmem htouch => ?_, he⟩
      obtain ⟨value, hvalue, hf⟩ := touches_userWrite_iff.mp htouch
      refine hnone nv.1 value ?_ hf
      rw [← hvalue]
      exact hmem

/-! ## The base environment -/

/-- Something is left below the user layer exactly for the names that occur there. -/
theorem exists_belowUser_iff {host : Host S} {f : S} :
    (∃ e, BelowUser host f e) ↔
      (∃ kv ∈ host.varsOs, EnvEntry.mapKey kv.1 = f) ∨
        ∃ name value, InSystem host name value ∧ foldName name = f := by
  constructor
  · rintro ⟨e, he⟩
    cases he with
    | system hin hfold => exact .inr ⟨_, _, hin, hfold⟩
    | @process before after key value hvars hfold hlast hsystem =>
        refine .inl ⟨(key, value), ?_, hfold⟩
        rw [hvars]
        exact List.mem_append_right _ List.mem_cons_self
  · intro h
    by_cases hsys : ∃ name value, InSystem host name value ∧ foldName name = f
    · obtain ⟨name, value, hin, hfold⟩ := hsys
      exact ⟨_, .system hin hfold⟩
    · obtain ⟨kv, hmem, hkv⟩ := h.resolve_right hsys
      rcases @exists_last_touching _ _ _ varWrite host.varsOs f with
        ⟨before, ⟨key, value⟩, after, hvars, htouch, hafter⟩ | hnone
      · simp only [touches_varWrite_iff] at htouch hafter
        exact ⟨_, .process hvars htouch hafter
          fun name value hin hf => hsys ⟨name, value, hin, hf⟩⟩
      · exact absurd (touches_varWrite_iff.mpr hkv) (hnone kv hmem)

/-- An entry is left exactly for the names that occur. -/
theorem exists_layered_iff {host : Host S} {f : S} :
    (∃ e, Layered host f e) ↔ Occurs host f := by
  rw [Occurs, ← or_assoc, ← exists_belowUser_iff]
  constructor
  · rintro ⟨e, ⟨hmem, hfold, -⟩ | ⟨hmem, hfold, -, -⟩ | ⟨-, hbelow⟩⟩
    · exact .inr ⟨_, _, hmem, hfold⟩
    · exact .inr ⟨_, _, hmem, hfold⟩
    · exact .inl ⟨e, hbelow⟩
  · intro h
    by_cases huser : ∃ name value, (name, some value) ∈ host.userEnv ∧ foldName name = f
    · obtain ⟨name, value, hmem, hfold⟩ := huser
      by_cases hbelow : ∃ e, BelowUser host f e
      · obtain ⟨e, he⟩ := hbelow
        by_cases hpath : eqIgnoreAsciiCase name "path" = true
        · exact ⟨_, .path hmem hfold hpath he⟩
        · exact ⟨_, .user hmem hfold (.inl (Bool.eq_false_iff.mpr hpath))⟩
      · exact ⟨_, .user hmem hfold (.inr fun e he => hbelow ⟨e, he⟩)⟩
    · obtain ⟨e, he⟩ := h.resolve_right huser
      exact ⟨e, .below (fun name value hmem hf => huser ⟨name, value, hmem, hf⟩) he⟩

/-- The two hosts have the same variables and the same registry values, in some order. -/
structure SameValues (host host' : Host S) : Prop where
  vars : host'.varsOs = host.varsOs
  system : ∀ nv, nv ∈ host'.sysEnv ↔ nv ∈ host.sysEnv
  user : ∀ nv, nv ∈ host'.userEnv ↔ nv ∈ host.userEnv

omit [OsStr S] in
theorem SameValues.symm {host host' : Host S} (h : SameValues host host') :
    SameValues host' host :=
  ⟨h.vars.symm, fun nv => (h.system nv).symm, fun nv => (h.user nv).symm⟩

/-- What is left below the user layer depends on the values only, not on their order. -/
theorem SameValues.belowUser {host host' : Host S} (h : SameValues host host') {f : S}
    {e : EnvEntry S} (he : BelowUser host f e) : BelowUser host' f e := by
  have hin : ∀ name value, InSystem host' name value ↔ InSystem host name value :=
    fun name value => and_congr_left' (h.system _)
  rcases he with ⟨hsys, hfold⟩ | ⟨hvars, hfold, hlast, hsystem⟩
  · exact .system ((hin _ _).mpr hsys) hfold
  · exact .process (h.vars.trans hvars) hfold hlast
      fun name value hsys => hsystem name value ((hin _ _).mp hsys)

/-- And so does the entry. -/
theorem SameValues.layered {host host' : Host S} (h : SameValues host host') {f : S}
    {e : EnvEntry S} (he : Layered host f e) : Layered host' f e := by
  rcases he with ⟨hmem, hfold, hover⟩ | ⟨hmem, hfold, hpath, hbelow⟩ | ⟨hnone, hbelow⟩
  · exact .user ((h.user _).mpr hmem) hfold
      (hover.imp_right fun hno e' he' => hno e' (h.symm.belowUser he'))
  · exact .path ((h.user _).mpr hmem) hfold hpath (h.belowUser hbelow)
  · exact .below (fun name value hmem => hnone name value ((h.user _).mp hmem))
      (h.belowUser hbelow)

/-- **The layers of the base environment.** -/
structure Layering (host : Host S) : Prop where
  /-- Under every folded name stands the entry that the layers mean. -/
  stored : ∀ f e, (getBaseEnv host)[f]? = some e ↔ Layered host f e
  /-- No folded name has two entries. -/
  once : ((getBaseEnv host).entries.map fun e => EnvEntry.mapKey e.preferredKey).Nodup
  /-- The folded names that have an entry are those that occur. -/
  occurring : ∀ f, Occurs host f ↔
    f ∈ (getBaseEnv host).entries.map fun e => EnvEntry.mapKey e.preferredKey
  marked : ∀ e ∈ (getBaseEnv host).entries, e.isFromBaseEnv = true
  /-- The order of the registry values plays no part. -/
  unordered : ∀ sysEnv userEnv, sysEnv.Perm host.sysEnv → userEnv.Perm host.userEnv →
    (getBaseEnv { host with sysEnv, userEnv }).entries = (getBaseEnv host).entries

/-- Reordered values have distinct folds too. -/
theorem FoldsDistinct.perm {values values' : List (String × Option S)} (h : FoldsDistinct values)
    (hperm : values'.Perm values) : FoldsDistinct values' :=
  hperm.symm.pairwise h fun hne => hne.symm

/-- **The layering of the base environment on Windows.** For every process environment and every list
of system and user values whose names have pairwise different folds within each list, the map that
`get_base_env` builds has exactly one entry for each folded name that occurs, the one that the layers
mean; every entry is marked as base, and the order of the registry values plays no part.
Source: `cmdbuilder.rs` `get_base_env` (Windows) -/
theorem base_env_layering (host : Host S) (hwin : OsStr.cfgWindows S = true)
    (hsys : FoldsDistinct host.sysEnv) (huser : FoldsDistinct host.userEnv) : Layering host := by
  have hbase := getBaseEnv_isBase host
  have hstored : ∀ f e, (getBaseEnv host)[f]? = some e ↔ Layered host f e :=
    fun f e => read_getBaseEnv_iff hwin hsys huser
  refine ⟨hstored, ?_, ?_, ?_, ?_⟩
  · refine List.pairwise_map.mpr ((Envs.entries_pairwise hbase.keyed).imp ?_)
    intro a b hlt
    exact ne_of_compare_lt hlt
  · intro f
    rw [← exists_layered_iff, List.mem_map]
    constructor
    · rintro ⟨e, he⟩
      have hget := (hstored f e).mpr he
      have hf := hbase.keyed f e hget
      refine ⟨e, (Envs.mem_entries_iff hbase.keyed).mpr ?_, hf.symm⟩
      rw [← hf]
      exact hget
    · rintro ⟨e, hmem, rfl⟩
      exact ⟨e, (hstored _ e).mp ((Envs.mem_entries_iff hbase.keyed).mp hmem)⟩
  · intro e hmem
    exact hbase.marked _ e ((Envs.mem_entries_iff hbase.keyed).mp hmem)
  · intro sysEnv userEnv hsysPerm huserPerm
    have hsame : SameValues host { host with sysEnv, userEnv } :=
      ⟨rfl, fun _ => hsysPerm.mem_iff, fun _ => huserPerm.mem_iff⟩
    have hequiv : (getBaseEnv { host with sysEnv, userEnv }).Equiv (getBaseEnv host) := by
      refine Std.TreeMap.Equiv.of_forall_constGet?_eq fun f => Option.ext fun e => ?_
      rw [hstored f e]
      refine (read_getBaseEnv_iff hwin (hsys.perm hsysPerm) (huser.perm huserPerm)).trans ?_
      exact ⟨hsame.symm.layered, hsame.layered⟩
    rw [Envs.entries, hequiv.toList_eq, Envs.entries]

/-- A Windows host with a `PATH` in every layer, a system value `username` and a user value that
cannot be decoded. -/
def layeredHost : Host Wide :=
  { emptyWindowsHost with
    varsOs := [([0x50, 0x41, 0x54, 0x48], [0x70]), ([0x41], [0x61])]
    sysEnv := [("Path", some [0x73]), ("username", some [0x78])]
    userEnv := [("path", some [0x75]), ("B", none)] }

/-- The layering of that host. -/
theorem base_env_layering_path : @Layering Wide (windowsOsStr asciiLowercase).toOsStr layeredHost :=
  @base_env_layering Wide (windowsOsStr asciiLowercase).toOsStr layeredHost rfl
    (by unfold FoldsDistinct; decide) (by unfold FoldsDistinct; decide)

end SysprimsPty.Command
