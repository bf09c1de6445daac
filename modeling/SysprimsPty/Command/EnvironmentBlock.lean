import SysprimsPty.Command.Environment
import SysprimsPty.Found.Terminated

/-!
# The environment block

What a reader of `CommandBuilder::environment_block` finds: a block of terminated strings, one for
each entry, each a name and a value around a `=`.

* `environmentBlock_eq` — the encoder builds such a block.
* `environment_block_round_trip` — reading and splitting gives back the names and values.
* `environment_block_framed_iff` — when the block is doubly terminated and every NUL in it is a
  terminator.
-/

namespace SysprimsPty.Command

open SysprimsPty.Found

variable {S : Type} [WideOsStr S]

/-- `b'=' as u16` -/
def equals : UInt16 := 0x3D

/-- The string of one entry. -/
def entryString (e : EnvEntry S) : List UInt16 :=
  pair equals (WideOsStr.encodeWide e.preferredKey) (WideOsStr.encodeWide e.value)

/-- The encoder builds the block of the entries' strings. -/
theorem environmentBlock_eq (b : CommandBuilder S) :
    b.environmentBlock = block 0 (b.envs.entries.map entryString) := by
  unfold CommandBuilder.environmentBlock block
  rw [List.flatMap_map]
  congr 2
  funext e
  simp [blockEntry, entryString, pair, equals]

/-- The string of an entry is never empty. -/
theorem entryString_ne_nil (e : EnvEntry S) : entryString e ≠ [] := by
  simp [entryString, pair]

/-- A NUL in the string of an entry comes from the name or the value. -/
theorem nul_mem_entryString {e : EnvEntry S} :
    (0 : UInt16) ∈ entryString e ↔
      0 ∈ WideOsStr.encodeWide e.preferredKey ∨ 0 ∈ WideOsStr.encodeWide e.value := by
  have hne : (0 : UInt16) ≠ equals := by decide
  rw [entryString, pair, List.mem_append, List.mem_cons]
  exact or_congr_right (or_iff_right hne)

/-! ## Reading the block -/

/-- Read the strings of a block up to the first empty one, and split each at the first `=` at index
1 or later; with the text that follows. -/
def decodeBlock (text : List UInt16) :
    Option (List (List UInt16 × List UInt16) × List UInt16) := do
  let (strings, rest) ← readBlock 0 [] text
  let pairs ← strings.mapM (splitPair equals)
  some (pairs, rest)

/-- A name and a value that the block can hold: the name is not empty and has no `=` after its first
code unit, and neither contains a NUL. -/
structure EnvEntry.Encodable (e : EnvEntry S) : Prop where
  name_ne_nil : WideOsStr.encodeWide e.preferredKey ≠ []
  no_equals : equals ∉ (WideOsStr.encodeWide e.preferredKey).tail
  name_no_nul : (0 : UInt16) ∉ WideOsStr.encodeWide e.preferredKey
  value_no_nul : (0 : UInt16) ∉ WideOsStr.encodeWide e.value

instance (e : EnvEntry S) : Decidable e.Encodable :=
  decidable_of_iff (WideOsStr.encodeWide e.preferredKey ≠ [] ∧
      equals ∉ (WideOsStr.encodeWide e.preferredKey).tail ∧
      (0 : UInt16) ∉ WideOsStr.encodeWide e.preferredKey ∧
      (0 : UInt16) ∉ WideOsStr.encodeWide e.value)
    ⟨fun ⟨hne, heq, hname, hvalue⟩ => ⟨hne, heq, hname, hvalue⟩,
      fun ⟨hne, heq, hname, hvalue⟩ => ⟨hne, heq, hname, hvalue⟩⟩

/-- The strings of encodable entries are split into their names and values. -/
theorem mapM_splitPair {es : List (EnvEntry S)} (h : ∀ e ∈ es, e.Encodable) :
    (es.map entryString).mapM (splitPair equals) =
      some (es.map fun e =>
        (WideOsStr.encodeWide e.preferredKey, WideOsStr.encodeWide e.value)) := by
  induction es with
  | nil => rfl
  | cons e es ih =>
      have he := h e List.mem_cons_self
      rw [List.map_cons, List.mapM_cons, entryString, splitPair_pair he.name_ne_nil he.no_equals,
        ih fun e' he' => h e' (List.mem_cons_of_mem e he')]
      rfl

/-- The block of encodable entries is read as their strings. -/
theorem readBlock_environmentBlock {b : CommandBuilder S}
    (h : ∀ e ∈ b.envs.entries, e.Encodable) :
    readBlock 0 [] b.environmentBlock = some (b.envs.entries.map entryString, []) := by
  have hstrings : ∀ s ∈ b.envs.entries.map entryString, s ≠ [] ∧ (0 : UInt16) ∉ s := by
    intro s hs
    obtain ⟨e, he, rfl⟩ := List.mem_map.mp hs
    refine ⟨entryString_ne_nil e, ?_⟩
    rw [nul_mem_entryString, not_or]
    exact ⟨(h e he).name_no_nul, (h e he).value_no_nul⟩
  have hread := readBlock_block hstrings []
  rwa [List.append_nil, ← environmentBlock_eq] at hread

/-- **Environment block round trip.** If every name is not empty and has no `=` after its first code
unit, and no name or value contains a NUL, then decoding the block gives back the name and the value
of every entry, in the order of the map, and consumes the whole block.
Source: `cmdbuilder.rs` `CommandBuilder::environment_block` -/
theorem environment_block_round_trip (b : CommandBuilder S)
    (h : ∀ e ∈ b.envs.entries, e.Encodable) :
    decodeBlock b.environmentBlock =
      some (b.envs.entries.map fun e =>
        (WideOsStr.encodeWide e.preferredKey, WideOsStr.encodeWide e.value), []) := by
  rw [decodeBlock, readBlock_environmentBlock h]
  simp only [Option.bind_eq_bind, Option.bind_some, mapM_splitPair h]

/-- A Windows host that knows nothing. -/
def emptyWindowsHost : Host Wide where
  varsOs := []
  passwd := none
  access _ _ := .error "unsupported"
  isDir _ := false
  sysEnv := []
  userEnv := []

/-- The fresh builder of that host after a history over ASCII names. -/
def windowsBuilder (ops : List (StoreOp Wide Wide)) :
    @CommandBuilder Wide (windowsOsStr asciiLowercase).toOsStr :=
  letI := windowsOsStr asciiLowercase
  (freshBuilder emptyWindowsHost [] none).applyAll ops

/-- The round trip of a variable `=c:`, of one whose value holds a `=`, and of an empty one. -/
theorem environment_block_round_trip_drive :
    letI := windowsOsStr asciiLowercase
    decodeBlock (windowsBuilder [.set [0x62] [], .set [0x61] [0x3D, 0x78],
        .set [0x3D, 0x63, 0x3A] [0x63, 0x3A, 0x5C]]).environmentBlock =
      some ([([0x3D, 0x63, 0x3A], [0x63, 0x3A, 0x5C]), ([0x61], [0x3D, 0x78]), ([0x62], [])],
        []) :=
  @environment_block_round_trip Wide (windowsOsStr asciiLowercase) _ (by decide)

/-! ## Framing -/

/-- Where a code unit of the block comes from. -/
inductive Origin
  | name
  | value
  /-- Pushed by the encoder itself. -/
  | pushed
  deriving DecidableEq

/-- The code units of an entry with their origin. -/
def tracedEntry (e : EnvEntry S) : List (UInt16 × Origin) :=
  (WideOsStr.encodeWide e.preferredKey).map (·, .name) ++ [(equals, .pushed)] ++
    (WideOsStr.encodeWide e.value).map (·, .value) ++ [(0, .pushed)]

/-- The code units of the block with their origin. -/
def tracedBlock (b : CommandBuilder S) : List (UInt16 × Origin) :=
  b.envs.entries.flatMap tracedEntry ++ [(0, .pushed)]

/-- Without the origins this is the block. -/
theorem map_fst_tracedBlock (b : CommandBuilder S) :
    (tracedBlock b).map Prod.fst = b.environmentBlock := by
  unfold tracedBlock CommandBuilder.environmentBlock
  rw [List.map_append, List.map_flatMap]
  congr 2
  funext e
  simp [tracedEntry, blockEntry, equals, Function.comp_def]

/-- **The block is framed**: two NULs stand at its end and nowhere before, and no NUL in it comes
from a name or a value. -/
structure Framed (b : CommandBuilder S) : Prop where
  terminated : DoublyTerminated 0 b.environmentBlock
  pushed : ∀ u ∈ tracedBlock b, u.1 = 0 → u.2 = .pushed

/-- Every NUL was pushed by the encoder exactly if no name and no value contains one. -/
theorem pushed_iff {b : CommandBuilder S} :
    (∀ u ∈ tracedBlock b, u.1 = 0 → u.2 = .pushed) ↔
      ∀ e ∈ b.envs.entries, (0 : UInt16) ∉ entryString e := by
  constructor
  · intro h e he hnul
    have hentry : ∀ u ∈ tracedEntry e, u ∈ tracedBlock b := fun u hu =>
      List.mem_append_left _ (List.mem_flatMap.mpr ⟨e, he, hu⟩)
    rcases nul_mem_entryString.mp hnul with hname | hvalue
    · have horigin := h (0, .name) (hentry _ (by simp [tracedEntry, hname])) rfl
      cases horigin
    · have horigin := h (0, .value) (hentry _ (by simp [tracedEntry, hvalue])) rfl
      cases horigin
  · rintro h ⟨c, origin⟩ hu rfl
    rw [tracedBlock, List.mem_append, List.mem_singleton, List.mem_flatMap] at hu
    rcases hu with ⟨e, he, hu⟩ | hlast
    · have hnul := h e he
      rw [nul_mem_entryString, not_or] at hnul
      simp only [tracedEntry, List.mem_append, List.mem_map, List.mem_singleton, Prod.mk.injEq] at hu
      rcases hu with ((⟨c, hc, rfl, -⟩ | ⟨-, horigin⟩) | ⟨c, hc, rfl, -⟩) | ⟨-, horigin⟩
      · exact absurd hc hnul.1
      · exact horigin
      · exact absurd hc hnul.2
      · exact horigin
    · exact (Prod.mk.inj hlast).2

/-- The block is framed exactly if there is an entry and no name or value contains a NUL. -/
theorem framed_iff {b : CommandBuilder S} :
    Framed b ↔ b.envs.entries ≠ [] ∧ ∀ e ∈ b.envs.entries, (0 : UInt16) ∉ entryString e := by
  constructor
  · rintro ⟨hterm, hpushed⟩
    refine ⟨fun hnil => ?_, pushed_iff.mp hpushed⟩
    rw [environmentBlock_eq, hnil] at hterm
    exact not_doublyTerminated_nil hterm
  · rintro ⟨hne, hnul⟩
    refine ⟨?_, pushed_iff.mpr hnul⟩
    rw [environmentBlock_eq]
    refine block_doublyTerminated (by simpa using hne) fun s hs => ?_
    obtain ⟨e, he, rfl⟩ := List.mem_map.mp hs
    exact ⟨entryString_ne_nil e, hnul e he⟩

/-- **When the block is framed.** For every base environment of a fresh builder and every history of
`env`, `env_remove` and `env_clear`, the block that `environment_block` returns, which refuses
nothing, is framed if and only if some name is live and no live name or value contains a NUL.
Source: `cmdbuilder.rs` `CommandBuilder::environment_block` -/
theorem environment_block_framed_iff (host : Host S) (args : List S) (cwd : Option S)
    (ops : List (StoreOp S S)) :
    Framed ((freshBuilder host args cwd).applyAll ops) ↔
      (∃ k v, Live (getBaseEnv host) ops k v) ∧
        ∀ k v, Live (getBaseEnv host) ops k v →
          (0 : UInt16) ∉ WideOsStr.encodeWide k ∧ (0 : UInt16) ∉ WideOsStr.encodeWide v := by
  have hbase : (freshBuilder host args cwd).envs.IsBase := getBaseEnv_isBase host
  have hlive : ∀ k v, (∃ e ∈ ((freshBuilder host args cwd).applyAll ops).envs.entries,
      e.preferredKey = k ∧ e.value = v) ↔ Live (getBaseEnv host) ops k v := live_iff hbase ops
  rw [framed_iff]
  refine and_congr ?_ ?_
  · constructor
    · intro hne
      obtain ⟨e, he⟩ := List.exists_mem_of_ne_nil _ hne
      exact ⟨_, _, (hlive _ _).mp ⟨e, he, rfl, rfl⟩⟩
    · rintro ⟨k, v, hkv⟩
      obtain ⟨e, he, -⟩ := (hlive k v).mpr hkv
      exact List.ne_nil_of_mem he
  · constructor
    · intro hnul k v hkv
      obtain ⟨e, he, rfl, rfl⟩ := (hlive k v).mpr hkv
      have h := hnul e he
      rwa [nul_mem_entryString, not_or] at h
    · intro hnul e he
      rw [nul_mem_entryString, not_or]
      exact hnul _ _ ((hlive _ _).mp ⟨e, he, rfl, rfl⟩)

/-- `env("a", "b\0c=d\0\0")` and `env("b", "e")`. -/
def forgingOps : List (StoreOp Wide Wide) :=
  [.set [0x61] [0x62, 0, 0x63, 0x3D, 0x64, 0, 0], .set [0x62] [0x65]]

/-- After `env_clear` the block is a single NUL; and the value of `a` forges a variable `c` and hides
the variable `b`. -/
theorem unframed_environment_blocks :
    letI := windowsOsStr asciiLowercase
    ((windowsBuilder [.clear]).environmentBlock = [0] ∧ ¬ Framed (windowsBuilder [.clear])) ∧
      decodeBlock (windowsBuilder forgingOps).environmentBlock =
        some ([([0x61], [0x62]), ([0x63], [0x64])], [0, 0x62, 0x3D, 0x65, 0, 0]) ∧
      ¬ Framed (windowsBuilder forgingOps) := by
  let _ := windowsOsStr asciiLowercase
  refine ⟨⟨rfl, fun h => (framed_iff.mp h).1 rfl⟩, rfl, fun h => ?_⟩
  have horigin := h.pushed (0, .value) (by decide) rfl
  cases horigin

end SysprimsPty.Command
