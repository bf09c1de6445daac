import SysprimsPty.Command.AsCommand
import SysprimsPty.Found.LastWriter

/-!
# The environment of a command

The environment store as a map from folded names in which the last writer wins. The names are folded
by `EnvEntry.mapKey`; the base is the environment of a fresh builder; the history is any sequence of
`env`, `env_remove` and `env_clear`.

* `getBaseEnv_isBase` — the base environment is stored under its folded names and marked as base.
* `envs_applyAll` — the store after a history is the last-writer-wins map.
* `Envs.entries_pairwise`, `Envs.mem_entries_iff` — the readers see every folded name once, in order.
* `environment_refines_last_writer` — all readers, and the environment that the child receives.
-/

namespace SysprimsPty.Command

open SysprimsPty.Found

/-! ## Stored entries -/

section store

variable {S : Type} [OsStr S]

/-- Platform strings have decidable equality, by their order. -/
instance (priority := low) OsStr.decidableEq : DecidableEq S := fun a b =>
  decidable_of_iff (compare a b = .eq) Std.LawfulEqCmp.compare_eq_iff_eq

/-- Every entry is stored under the fold of its own name. -/
def Envs.Keyed (env : Envs S) : Prop :=
  ∀ (f : S) (e : EnvEntry S), env[f]? = some e → f = EnvEntry.mapKey e.preferredKey

/-- What is stored after an insertion. -/
theorem Envs.getElem?_insertEntry (env : Envs S) (isBase : Bool) (key value f : S) :
    (env.insertEntry isBase key value)[f]? =
      if EnvEntry.mapKey key = f then
        some { isFromBaseEnv := isBase, preferredKey := key, value }
      else env[f]? := by
  rw [insertEntry, Std.TreeMap.getElem?_insert]
  simp only [Std.LawfulEqCmp.compare_eq_iff_eq]

/-- A base environment: keyed, and every entry marked as base. -/
structure Envs.IsBase (env : Envs S) : Prop where
  keyed : env.Keyed
  marked : ∀ (f : S) (e : EnvEntry S), env[f]? = some e → e.isFromBaseEnv = true

theorem Envs.IsBase.empty : Envs.IsBase (∅ : Envs S) := by
  constructor
  · intro f e h
    simp at h
  · intro f e h
    simp at h

/-- The insertions of the base environment keep it one. -/
theorem Envs.IsBase.insertEntry {env : Envs S} (h : env.IsBase) (key value : S) :
    (env.insertEntry true key value).IsBase := by
  constructor
  · intro f e he
    rw [getElem?_insertEntry] at he
    split_ifs at he with hf
    · cases he
      exact hf.symm
    · exact h.keyed f e he
  · intro f e he
    rw [getElem?_insertEntry] at he
    split_ifs at he with hf
    · cases he
      rfl
    · exact h.marked f e he

/-- A loop of insertions into a base environment. -/
theorem Envs.IsBase.foldl {α : Type} {step : Envs S → α → Envs S}
    (hstep : ∀ env a, env.IsBase → (step env a).IsBase) {env : Envs S} (h : env.IsBase)
    (as : List α) : (as.foldl step env).IsBase := by
  induction as generalizing env with
  | nil => exact h
  | cons a as ih => exact ih (hstep env a h)

theorem addSysEnv_isBase {env : Envs S} (h : env.IsBase) (nv : String × Option S) :
    (addSysEnv env nv).IsBase := by
  obtain ⟨name, value⟩ := nv
  unfold addSysEnv
  dsimp only
  split_ifs
  · exact h
  · cases value with
    | none => exact h
    | some value => exact h.insertEntry _ _

theorem addUserEnv_isBase {env : Envs S} (h : env.IsBase) (nv : String × Option S) :
    (addUserEnv env nv).IsBase := by
  obtain ⟨name, value⟩ := nv
  unfold addUserEnv
  cases value with
  | none => exact h
  | some value => exact h.insertEntry _ _

/-- The environment of a fresh builder is a base environment, on either platform. -/
theorem getBaseEnv_isBase (host : Host S) : (getBaseEnv host).IsBase := by
  have hvars : Envs.IsBase
      (host.varsOs.foldl (fun env kv => env.insertEntry true kv.1 kv.2) (∅ : Envs S)) :=
    Envs.IsBase.empty.foldl (fun env kv h => h.insertEntry kv.1 kv.2) host.varsOs
  unfold getBaseEnv
  dsimp only
  split_ifs
  · refine Envs.IsBase.foldl (fun env a h => addUserEnv_isBase h a) ?_ host.userEnv
    exact hvars.foldl (fun env a h => addSysEnv_isBase h a) host.sysEnv
  · exact hvars
  · exact hvars.insertEntry _ _

/-! ## Histories -/

/-- One operation of the caller on the environment. -/
def CommandBuilder.apply (b : CommandBuilder S) : StoreOp S S → CommandBuilder S
  | .set key value => b.env key value
  | .remove key => b.envRemove key
  | .clear => b.envClear

/-- A history of operations on the environment. -/
def CommandBuilder.applyAll (b : CommandBuilder S) (ops : List (StoreOp S S)) : CommandBuilder S :=
  ops.foldl CommandBuilder.apply b

/-- The entry of a call of `env`. -/
def writtenEntry (kv : S × S) : EnvEntry S :=
  { isFromBaseEnv := false, preferredKey := kv.1, value := kv.2 }

/-- What an operation changes: the names with the fold of its own. -/
theorem getElem?_apply (b : CommandBuilder S) (op : StoreOp S S) (f : S) :
    (b.apply op).envs[f]? =
      if op.affects EnvEntry.mapKey f then op.written.map writtenEntry else b.envs[f]? := by
  cases op with
  | set key value =>
      rw [CommandBuilder.apply, CommandBuilder.env, Envs.getElem?_insertEntry]
      simp only [StoreOp.affects, StoreOp.written, decide_eq_true_eq]
      rfl
  | remove key =>
      rw [CommandBuilder.apply, CommandBuilder.envRemove, Std.TreeMap.getElem?_erase]
      simp only [StoreOp.affects, StoreOp.written, decide_eq_true_eq,
        Std.LawfulEqCmp.compare_eq_iff_eq, Option.map_none]
  | clear =>
      rw [CommandBuilder.apply, CommandBuilder.envClear]
      simp [StoreOp.affects, StoreOp.written]

/-- The last operation of a history that affects the name `k`, in any casing. -/
abbrev lastOp (ops : List (StoreOp S S)) (k : S) : Option (StoreOp S S) :=
  lastAffecting EnvEntry.mapKey ops (EnvEntry.mapKey k)

/-- The store after a history is the last-writer-wins map over the store before it. -/
theorem envs_applyAll (b : CommandBuilder S) (ops : List (StoreOp S S)) (f : S) :
    (b.applyAll ops).envs[f]? =
      lastWriter EnvEntry.mapKey writtenEntry (fun f => b.envs[f]?) ops f :=
  @foldl_refines_lastWriter _ _ _ _ _ _ _ (fun (b : CommandBuilder S) f => b.envs[f]?) _ _
    getElem?_apply b ops f

/-! ## The readers -/

/-- The entry is read back under the fold of its name. -/
theorem Envs.mem_entries_iff {env : Envs S} (h : env.Keyed) {e : EnvEntry S} :
    e ∈ env.entries ↔ env[EnvEntry.mapKey e.preferredKey]? = some e := by
  unfold entries
  rw [List.mem_map]
  constructor
  · rintro ⟨⟨f, e'⟩, hmem, rfl⟩
    have hget := Std.TreeMap.mem_toList_iff_getElem?_eq_some.mp hmem
    rw [← h f e' hget]
    exact hget
  · intro hget
    exact ⟨(EnvEntry.mapKey e.preferredKey, e),
      Std.TreeMap.mem_toList_iff_getElem?_eq_some.mpr hget, rfl⟩

/-- The folded names come in order, and so every one at most once. -/
theorem Envs.entries_pairwise {env : Envs S} (h : env.Keyed) :
    env.entries.Pairwise fun a b =>
      compare (EnvEntry.mapKey a.preferredKey) (EnvEntry.mapKey b.preferredKey) = .lt := by
  unfold entries
  rw [List.pairwise_map]
  have hordered := @Std.TreeMap.ordered_keys_toList _ _ _ env _
  refine hordered.imp_of_mem ?_
  rintro ⟨f, e⟩ ⟨f', e'⟩ hmem hmem' hlt
  rw [← h f e (Std.TreeMap.mem_toList_iff_getElem?_eq_some.mp hmem),
    ← h f' e' (Std.TreeMap.mem_toList_iff_getElem?_eq_some.mp hmem')]
  exact hlt

/-- A lookup in the store, by its entries. -/
theorem getEnv_eq_some_iff {b : CommandBuilder S} (hkeyed : b.envs.Keyed) {key value : S} :
    b.getEnv key = some value ↔
      ∃ e ∈ b.envs.entries, EnvEntry.mapKey e.preferredKey = EnvEntry.mapKey key ∧ e.value = value := by
  unfold CommandBuilder.getEnv
  rw [Option.map_eq_some_iff]
  constructor
  · rintro ⟨e, hget, hvalue⟩
    have hfold := hkeyed _ e hget
    rw [hfold] at hget
    exact ⟨e, (Envs.mem_entries_iff hkeyed).mpr hget, hfold.symm, hvalue⟩
  · rintro ⟨e, hmem, hfold, hvalue⟩
    have hget := (Envs.mem_entries_iff hkeyed).mp hmem
    rw [hfold] at hget
    exact ⟨e, hget, hvalue⟩

/-- What is stored after a history. -/
theorem stored_iff {b : CommandBuilder S} {ops : List (StoreOp S S)} {f : S} {e : EnvEntry S} :
    (b.applyAll ops).envs[f]? = some e ↔
      (∃ key value, lastAffecting EnvEntry.mapKey ops f = some (.set key value) ∧
        writtenEntry (key, value) = e) ∨
      (lastAffecting EnvEntry.mapKey ops f = none ∧ b.envs[f]? = some e) := by
  rw [envs_applyAll, lastWriter_eq_some_iff]

/-- Strings in order are different. -/
theorem ne_of_compare_lt {a b : S} (h : compare a b = .lt) : a ≠ b := by
  rintro rfl
  have hself : compare a a = .eq := Std.ReflCmp.compare_self
  rw [hself] at h
  cases h

/-- No two entries have the same name. -/
theorem Envs.entries_distinct {env : Envs S} (h : env.Keyed) :
    env.entries.Pairwise fun a b => a.preferredKey ≠ b.preferredKey := by
  refine (Envs.entries_pairwise h).imp ?_
  intro a b hlt heq
  exact ne_of_compare_lt hlt (congrArg EnvEntry.mapKey heq)

/-- A store that begins as a base environment stays keyed. -/
theorem keyed_applyAll {b : CommandBuilder S} (h : b.envs.IsBase) (ops : List (StoreOp S S)) :
    (b.applyAll ops).envs.Keyed := by
  intro f e he
  rcases stored_iff.mp he with ⟨key, value, hop, rfl⟩ | ⟨-, hbase⟩
  · exact (fold_of_lastAffecting hop).symm
  · exact h.keyed f e hbase

/-- The name `k` with value `v` is live: the caller wrote it last, or it is a base entry that no
operation affected. -/
def Live (base : Envs S) (ops : List (StoreOp S S)) (k v : S) : Prop :=
  lastOp ops k = some (.set k v) ∨
    (lastOp ops k = none ∧
      ∃ e, base[EnvEntry.mapKey k]? = some e ∧ e.preferredKey = k ∧ e.value = v)

/-- The entries not marked as base are the last writes of the caller. -/
theorem written_iff {b : CommandBuilder S} (h : b.envs.IsBase) (ops : List (StoreOp S S))
    (k v : S) :
    (∃ e ∈ (b.applyAll ops).envs.entries,
        e.isFromBaseEnv = false ∧ e.preferredKey = k ∧ e.value = v) ↔
      lastOp ops k = some (.set k v) := by
  constructor
  · rintro ⟨e, hmem, hmark, rfl, rfl⟩
    rw [Envs.mem_entries_iff (keyed_applyAll h ops), stored_iff] at hmem
    rcases hmem with ⟨key, value, hop, rfl⟩ | ⟨-, hbase⟩
    · exact hop
    · rw [h.marked _ e hbase] at hmark
      cases hmark
  · intro hop
    refine ⟨writtenEntry (k, v), ?_, rfl, rfl, rfl⟩
    rw [Envs.mem_entries_iff (keyed_applyAll h ops), stored_iff]
    exact .inl ⟨k, v, hop, rfl⟩

/-- The stored names and values are the live ones. -/
theorem live_iff {b : CommandBuilder S} (h : b.envs.IsBase) (ops : List (StoreOp S S)) (k v : S) :
    (∃ e ∈ (b.applyAll ops).envs.entries, e.preferredKey = k ∧ e.value = v) ↔
      Live b.envs ops k v := by
  constructor
  · rintro ⟨e, hmem, rfl, rfl⟩
    rw [Envs.mem_entries_iff (keyed_applyAll h ops), stored_iff] at hmem
    rcases hmem with ⟨key, value, hop, rfl⟩ | ⟨hnone, hbase⟩
    · exact .inl hop
    · exact .inr ⟨hnone, e, hbase, rfl, rfl⟩
  · rintro (hop | ⟨hnone, e, hbase, rfl, rfl⟩)
    · obtain ⟨e, hmem, -, hk, hv⟩ := (written_iff h ops k v).mpr hop
      exact ⟨e, hmem, hk, hv⟩
    · refine ⟨e, ?_, rfl, rfl⟩
      rw [Envs.mem_entries_iff (keyed_applyAll h ops), stored_iff]
      exact .inr ⟨hnone, hbase⟩

/-- A name and its value, where both are UTF-8. -/
def utf8Pair (kv : S × S) : Option (String × String) := do
  let key ← OsStr.toStr kv.1
  let value ← OsStr.toStr kv.2
  some (key, value)

/-- Names and values in the order of the folded names, every folded name at most once. -/
def FoldOrdered (kvs : List (S × S)) : Prop :=
  kvs.Pairwise fun a b => compare (EnvEntry.mapKey a.1) (EnvEntry.mapKey b.1) = .lt

/-- **The store refines the last-writer-wins map**: what the readers see after the history `ops`
over the base environment `base`. -/
structure RefinesLastWriter (base : Envs S) (ops : List (StoreOp S S)) (b : CommandBuilder S) :
    Prop where
  /-- Every entry is stored under the fold of its preferred key. -/
  keyed : b.envs.Keyed
  /-- `get_env` reads what the last operation on any casing of the name left. -/
  get_env : ∀ k, b.getEnv k =
    match lastOp ops k with
    | some op => op.written.map Prod.snd
    | none => base[EnvEntry.mapKey k]?.map EnvEntry.value
  /-- `iter_extra_env_as_str` yields the last writes of the caller, in its casing. -/
  iter_extra : ∃ written, FoldOrdered written ∧
    (∀ k v, (k, v) ∈ written ↔ lastOp ops k = some (.set k v)) ∧
    b.iterExtraEnvAsStr = written.filterMap utf8Pair
  /-- `iter_full_env_as_str` yields the live names. -/
  iter_full : ∃ live, FoldOrdered live ∧ (∀ k v, (k, v) ∈ live ↔ Live base ops k v) ∧
    b.iterFullEnvAsStr = live.filterMap utf8Pair

/-- The name and the value of an entry. -/
def EnvEntry.pair (e : EnvEntry S) : S × S := (e.preferredKey, e.value)

/-- The names and values of the entries are the live ones, in order. -/
theorem pairs_live {b : CommandBuilder S} (h : b.envs.IsBase) (ops : List (StoreOp S S)) :
    FoldOrdered ((b.applyAll ops).envs.entries.map EnvEntry.pair) ∧
      ∀ k v, (k, v) ∈ (b.applyAll ops).envs.entries.map EnvEntry.pair ↔ Live b.envs ops k v := by
  constructor
  · rw [FoldOrdered, List.pairwise_map]
    exact Envs.entries_pairwise (keyed_applyAll h ops)
  · intro k v
    rw [← live_iff h ops k v, List.mem_map]
    simp only [EnvEntry.pair, Prod.mk.injEq]

/-- The store after any history over a base environment refines the last-writer-wins map. -/
theorem refinesLastWriter_applyAll {b : CommandBuilder S} (h : b.envs.IsBase)
    (ops : List (StoreOp S S)) : RefinesLastWriter b.envs ops (b.applyAll ops) := by
  refine ⟨keyed_applyAll h ops, ?_, ?_, ?_⟩
  · intro k
    rw [CommandBuilder.getEnv, envs_applyAll, lastWriter]
    split
    · next op hop =>
        rw [show lastOp ops k = some op from hop, Option.map_map]
        rfl
    · next hnone => rw [show lastOp ops k = none from hnone]
  · refine ⟨((b.applyAll ops).envs.entries.filter fun e => !e.isFromBaseEnv).map EnvEntry.pair,
      ?_, ?_, ?_⟩
    · rw [FoldOrdered, List.pairwise_map]
      exact (Envs.entries_pairwise (keyed_applyAll h ops)).filter _
    · intro k v
      rw [← written_iff h ops k v]
      simp only [List.mem_map, List.mem_filter, Bool.not_eq_true', EnvEntry.pair, Prod.mk.injEq,
        and_assoc]
    · rw [CommandBuilder.iterExtraEnvAsStr, List.filterMap_map, List.filterMap_filter]
      congr 1
      funext e
      cases e.isFromBaseEnv <;> rfl
  · refine ⟨_, (pairs_live h ops).1, (pairs_live h ops).2, ?_⟩
    rw [CommandBuilder.iterFullEnvAsStr, List.filterMap_map]
    rfl

end store

/-! ## The environment of the child -/

/-- Inserting entries of pairwise different names into a map. -/
theorem getElem?_foldl_insert {es : List (EnvEntry Bytes)}
    (h : es.Pairwise fun a b => a.preferredKey ≠ b.preferredKey)
    (env : Std.TreeMap Bytes Bytes) (n v : Bytes) :
    (es.foldl (fun env e => env.insert e.preferredKey e.value) env)[n]? = some v ↔
      (∃ e ∈ es, e.preferredKey = n ∧ e.value = v) ∨
        ((∀ e ∈ es, e.preferredKey ≠ n) ∧ env[n]? = some v) := by
  induction es generalizing env with
  | nil => simp
  | cons e es ih =>
      rw [List.pairwise_cons] at h
      rw [List.foldl_cons, ih h.2, Std.TreeMap.getElem?_insert]
      simp only [Std.LawfulEqCmp.compare_eq_iff_eq]
      by_cases hn : e.preferredKey = n
      · have hes : ∀ e' ∈ es, e'.preferredKey ≠ n := by
          intro e' he' heq
          exact h.1 e' he' (hn.trans heq.symm)
        rw [if_pos hn]
        constructor
        · rintro (⟨e', he', hn', -⟩ | ⟨-, hv⟩)
          · exact absurd hn' (hes e' he')
          · exact .inl ⟨e, List.mem_cons_self, hn, Option.some.inj hv⟩
        · rintro (⟨e', he', hn', hv⟩ | ⟨hall, -⟩)
          · rcases List.mem_cons.mp he' with rfl | he'
            · exact .inr ⟨hes, congrArg some hv⟩
            · exact absurd hn' (hes e' he')
          · exact absurd hn (hall e List.mem_cons_self)
      · rw [if_neg hn]
        simp [hn]

/-- The environment of the command after a history: the live names, and a `SHELL` where no live one
exists. -/
theorem childEnv_iff {b : CommandBuilder Bytes} (h : b.envs.IsBase) (ops : List (StoreOp Bytes Bytes))
    (shell : String) (n v : Bytes) :
    ((b.applyAll ops).childEnv shell)[n]? = some v ↔
      Live b.envs ops n v ∨
        (n = OsStr.ofStr "SHELL" ∧ (∀ v', ¬ Live b.envs ops n v') ∧ v = OsStr.ofStr shell) := by
  have hlive := live_iff h ops
  rw [CommandBuilder.childEnv,
    getElem?_foldl_insert (Envs.entries_distinct (keyed_applyAll h ops)), hlive]
  refine or_congr_right ?_
  rw [Std.TreeMap.getElem?_insert]
  simp only [Std.LawfulEqCmp.compare_eq_iff_eq, Std.TreeMap.getElem?_emptyc]
  constructor
  · rintro ⟨hall, hv⟩
    split_ifs at hv with hn
    refine ⟨hn.symm, fun v' hlive' => ?_, (Option.some.inj hv).symm⟩
    obtain ⟨e, he, hk, -⟩ := (hlive n v').mpr hlive'
    exact hall e he hk
  · rintro ⟨rfl, hnone, rfl⟩
    refine ⟨fun e he hk => ?_, if_pos rfl⟩
    exact hnone e.value ((hlive _ _).mp ⟨e, he, hk, rfl⟩)

/-- The code units of one entry of the environment block. -/
def blockEntry {S : Type} [WideOsStr S] (kv : S × S) : List UInt16 :=
  WideOsStr.encodeWide kv.1 ++ [0x3D] ++ WideOsStr.encodeWide kv.2 ++ [0]

/-- Source: `cmdbuilder.rs` `CommandBuilder::environment_block` -/
def CommandBuilder.environmentBlock {S : Type} [WideOsStr S] (b : CommandBuilder S) :
    List UInt16 :=
  (b.envs.entries.flatMap fun e => blockEntry (e.preferredKey, e.value)) ++ [0]

/-- A builder with the environment of a fresh one. -/
def freshBuilder {S : Type} [OsStr S] (host : Host S) (args : List S) (cwd : Option S) :
    CommandBuilder S :=
  { CommandBuilder.fromArgv host args with cwd }

/-- **The environment store refines a name-folded last-writer-wins map.** For every base
environment of a fresh builder and every history of `env`, `env_remove` and `env_clear`: the readers
see the last-writer-wins map, on either platform and whatever the folding does; on Unix the command
holds every live name with its casing and value, a `SHELL` where no live one exists, and nothing
else; and on Windows the environment block holds every live name exactly once, in the order of the
folded names.
Source: `cmdbuilder.rs` `EnvEntry::map_key`, `CommandBuilder::{env, env_remove, env_clear, get_env,
iter_extra_env_as_str, iter_full_env_as_str, as_command, environment_block}` -/
theorem environment_refines_last_writer :
    (∀ (S : Type) [OsStr S] (host : Host S) (args : List S) (cwd : Option S)
        (ops : List (StoreOp S S)),
      RefinesLastWriter (getBaseEnv host) ops ((freshBuilder host args cwd).applyAll ops)) ∧
    (∀ (host host' : Host Bytes) (args : List Bytes) (cwd : Option Bytes)
        (ops : List (StoreOp Bytes Bytes)) (cmd : ProcessCommand),
      ((freshBuilder host args cwd).applyAll ops).asCommand host' = .ok cmd →
        ∀ n v, cmd.env[n]? = some v ↔
          Live (getBaseEnv host) ops n v ∨
            (n = OsStr.ofStr "SHELL" ∧ (∀ v', ¬ Live (getBaseEnv host) ops n v') ∧
              v = OsStr.ofStr (((freshBuilder host args cwd).applyAll ops).getShell host'))) ∧
    ∀ (S : Type) [WideOsStr S] (host : Host S) (args : List S) (cwd : Option S)
        (ops : List (StoreOp S S)),
      ∃ live, FoldOrdered live ∧ (∀ k v, (k, v) ∈ live ↔ Live (getBaseEnv host) ops k v) ∧
        ((freshBuilder host args cwd).applyAll ops).environmentBlock =
          (live.flatMap fun kv => WideOsStr.encodeWide kv.1 ++ [0x3D] ++ WideOsStr.encodeWide kv.2 ++
            [0]) ++ [0] := by
  refine ⟨?_, ?_, ?_⟩
  · intro S _ host args cwd ops
    have hbase : (freshBuilder host args cwd).envs.IsBase := getBaseEnv_isBase host
    exact refinesLastWriter_applyAll hbase ops
  · intro host host' args cwd ops cmd hcmd n v
    have hbase : (freshBuilder host args cwd).envs.IsBase := getBaseEnv_isBase host
    rw [(asCommand_ok hcmd).1]
    exact childEnv_iff hbase ops _ n v
  · intro S _ host args cwd ops
    have hbase : (freshBuilder host args cwd).envs.IsBase := getBaseEnv_isBase host
    obtain ⟨hordered, hmem⟩ := pairs_live hbase ops
    refine ⟨_, hordered, hmem, ?_⟩
    rw [CommandBuilder.environmentBlock, List.flatMap_map]
    rfl

/-- A host that knows nothing. -/
def emptyHost : Host Bytes where
  varsOs := []
  passwd := none
  access _ _ := .error "ENOENT: No such file or directory"
  isDir _ := false
  sysEnv := []
  userEnv := []

/-- After the caller removed `SHELL`, the child of the default program receives the fallback. -/
theorem environment_refines_removed_shell :
    ∃ cmd, ((freshBuilder emptyHost [] none).applyAll
        [.remove (OsStr.ofStr "SHELL")]).asCommand emptyHost = .ok cmd ∧
      cmd.env[(OsStr.ofStr "SHELL" : Bytes)]? = some (OsStr.ofStr "/bin/sh") := by
  refine ⟨_, rfl, ?_⟩
  have h := environment_refines_last_writer.2.1 emptyHost emptyHost [] none
    [.remove (OsStr.ofStr "SHELL")] _ rfl (OsStr.ofStr "SHELL") (OsStr.ofStr "/bin/sh")
  refine h.mpr (.inr ⟨rfl, ?_, rfl⟩)
  have hop : lastOp [.remove (OsStr.ofStr "SHELL" : Bytes)] (OsStr.ofStr "SHELL" : Bytes) =
      some (.remove (OsStr.ofStr "SHELL" : Bytes)) := rfl
  rintro v' (hset | ⟨hnone, -⟩)
  · rw [hop] at hset
    cases hset
  · rw [hop] at hnone
    cases hnone

end SysprimsPty.Command
