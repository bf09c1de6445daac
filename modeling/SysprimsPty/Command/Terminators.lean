import SysprimsPty.Command.Cmdline

/-!
# The terminators of the module name and the command line

Which of the strings that reach `CreateProcessW` can carry a NUL of their own.

* `appendArgs_refuses`, `windowsExe_no_nul` — the arguments are checked, and a path that was found
  has no NUL.
* `cmdline_terminated_iff` — when every NUL is refused and each buffer ends at its only one.
-/

namespace SysprimsPty.Command

variable {S : Type} [WideOsStr S]

/-- A platform string that contains a NUL. -/
def HasNul (s : S) : Prop := (0 : UInt16) ∈ WideOsStr.encodeWide s

instance (s : S) : Decidable (HasNul s) :=
  inferInstanceAs (Decidable ((0 : UInt16) ∈ WideOsStr.encodeWide s))

/-- A buffer with exactly one NUL, at its end. -/
def TerminatedOnce (buffer : List UInt16) : Prop :=
  ∃ text, buffer = text ++ [0] ∧ (0 : UInt16) ∉ text

/-- The program that the caller gave: the first argument, or `ComSpec` for the default program. -/
def CommandBuilder.givenProgram (b : CommandBuilder S) : Option S :=
  match b.args with
  | [] => b.getEnv (OsStr.ofStr "ComSpec")
  | program :: _ => some program

/-- **No embedded terminator**: what `cmdline` returns are two buffers with one NUL each, at the end;
and a NUL in the program or in an argument makes it return an error. -/
structure NoEmbeddedNul (b : CommandBuilder S) (paths : WindowsPaths S) : Prop where
  terminated : ∀ exe line, b.cmdline paths = .ok (.ok (exe, line)) →
    TerminatedOnce exe ∧ TerminatedOnce line
  refused : ((∃ program, b.givenProgram = some program ∧ HasNul program) ∨
      ∃ arg ∈ b.args, HasNul arg) →
    ∃ error, b.cmdline paths = .ok (.error error)

/-! ## The checks -/

/-- A NUL in one of the arguments is refused. -/
theorem appendArgs_refuses {args : List S} (h : ∃ arg ∈ args, HasNul arg)
    (cmdline : List UInt16) : ∃ error, appendArgs cmdline args = .error error := by
  induction args generalizing cmdline with
  | nil =>
      obtain ⟨arg, harg, -⟩ := h
      cases harg
  | cons arg args ih =>
      rw [appendArgs]
      by_cases harg : HasNul arg
      · rw [if_pos (by simpa [HasNul] using harg)]
        exact ⟨_, rfl⟩
      · rw [if_neg (by simpa [HasNul] using harg)]
        obtain ⟨arg', hmem, harg'⟩ := h
        rcases List.mem_cons.mp hmem with rfl | hmem
        · exact absurd harg' harg
        · exact ih ⟨arg', hmem, harg'⟩ _

/-- Then `cmdline` refuses it, if the program search returns. -/
theorem cmdline_refuses {b : CommandBuilder S} {paths : WindowsPaths S} {exe : S}
    (hexe : b.windowsExe paths = .ok exe) (h : ∃ arg ∈ b.args.tail, HasNul arg) :
    ∃ error, b.cmdline paths = .ok (.error error) := by
  obtain ⟨error, herror⟩ := appendArgs_refuses h (appendQuoted exe [])
  refine ⟨error, ?_⟩
  rw [CommandBuilder.cmdline, hexe]
  simp only [Except.map, herror]

/-- The program is found exactly if its search is safe; the default program needs no search. -/
theorem windowsExe_returns_iff {b : CommandBuilder S} {paths : WindowsPaths S} :
    (∃ exe, b.windowsExe paths = .ok exe) ↔
      ∀ program args, b.args = program :: args → LookupSafe b paths program := by
  rw [CommandBuilder.windowsExe]
  cases b.args with
  | nil => exact iff_of_true ⟨_, rfl⟩ nofun
  | cons program args =>
      simp only [searchPathWindows_eq_map, map_returns_iff, searchDirectories_returns_iff]
      constructor
      · rintro h program' args' hcons
        obtain ⟨rfl, -⟩ := List.cons.inj hcons
        exact h
      · exact fun h => h program args rfl

/-- An answer of `cmdline` comes after a search that returned. -/
theorem windowsExe_of_cmdline {b : CommandBuilder S} {paths : WindowsPaths S}
    {answer : Except (Message S) (List UInt16 × List UInt16)} (h : b.cmdline paths = .ok answer) :
    ∃ exe, b.windowsExe paths = .ok exe :=
  map_returns_iff.mp ⟨answer, h⟩

/-- The resolved program has no NUL if the given one has none. -/
theorem windowsExe_no_nul [LawfulWideOsStr S] {b : CommandBuilder S} {paths : WindowsPaths S}
    (hexists : ∀ path, paths.pathExists path = true → ¬ HasNul path) {exe : S}
    (hexe : b.windowsExe paths = .ok exe)
    (hgiven : ∀ program, b.givenProgram = some program → ¬ HasNul program) : ¬ HasNul exe := by
  unfold CommandBuilder.windowsExe at hexe
  unfold CommandBuilder.givenProgram at hgiven
  cases hargs : b.args with
  | nil =>
      rw [hargs] at hexe hgiven
      obtain rfl := Except.ok.inj hexe
      cases hcomspec : b.getEnv (OsStr.ofStr "ComSpec") with
      | none =>
          rw [HasNul, Option.getD_none, LawfulWideOsStr.encodeWide_ofStr]
          decide
      | some comspec => exact hgiven comspec hcomspec
  | cons program args =>
      rw [hargs] at hexe hgiven
      rcases searchPathWindows_exists hexe with rfl | hfound
      · exact hgiven exe rfl
      · exact hexists exe hfound

/-! ## When nothing is embedded -/

/-- A NUL in the program is accompanied by one in a later argument; and where a later argument has
one, the program search is safe. -/
structure NulRefused (b : CommandBuilder S) (paths : WindowsPaths S) : Prop where
  program : ∀ program, b.givenProgram = some program → HasNul program →
    ∃ arg ∈ b.args.tail, HasNul arg
  lookup : (∃ arg ∈ b.args.tail, HasNul arg) →
    ∀ program args, b.args = program :: args → LookupSafe b paths program

/-- If a NUL in the program comes with one in a later argument, then every NUL does. -/
theorem exists_later_nul {b : CommandBuilder S}
    (hprogram : ∀ program, b.givenProgram = some program → HasNul program →
      ∃ arg ∈ b.args.tail, HasNul arg)
    (hnul : (∃ program, b.givenProgram = some program ∧ HasNul program) ∨
      ∃ arg ∈ b.args, HasNul arg) :
    ∃ arg ∈ b.args.tail, HasNul arg := by
  rcases hnul with ⟨program, hgiven, hnul⟩ | ⟨arg, harg, hnul⟩
  · exact hprogram program hgiven hnul
  · rcases hargs : b.args with _ | ⟨program, args⟩
    · rw [hargs] at harg
      cases harg
    · rw [hargs] at harg
      rcases List.mem_cons.mp harg with rfl | hmem
      · have hlater := hprogram arg (by rw [CommandBuilder.givenProgram, hargs]) hnul
        rwa [hargs] at hlater
      · exact ⟨arg, hmem, hnul⟩

/-- **When no terminator is embedded.** For every builder, `PATH`, `ComSpec` and file system, in
which no path with a NUL exists: each buffer that `cmdline` returns has one NUL, at its end, and every
NUL in the program or an argument is refused, if and only if a NUL in the program, which is not
checked, comes with one in a later argument, and no panic of the search comes before their check.
Source: `cmdbuilder.rs` `CommandBuilder::cmdline` -/
theorem cmdline_terminated_iff [LawfulWideOsStr S] (b : CommandBuilder S) (paths : WindowsPaths S)
    (hexists : ∀ path, paths.pathExists path = true → ¬ HasNul path) :
    NoEmbeddedNul b paths ↔ NulRefused b paths := by
  constructor
  · rintro ⟨-, hrefused⟩
    constructor
    · intro program hgiven hnul
      obtain ⟨error, herror⟩ := hrefused (.inl ⟨program, hgiven, hnul⟩)
      by_contra hargs
      obtain ⟨exe, hexe⟩ := windowsExe_of_cmdline herror
      rw [cmdline_eq hexe fun a ha hnul => hargs ⟨a, ha, hnul⟩] at herror
      cases herror
    · intro hargs
      obtain ⟨arg, harg, hnul⟩ := hargs
      obtain ⟨error, herror⟩ := hrefused (.inr ⟨arg, List.mem_of_mem_tail harg, hnul⟩)
      exact windowsExe_returns_iff.mp (windowsExe_of_cmdline herror)
  · rintro ⟨hprogram, hlookup⟩
    constructor
    · intro exe line hok
      obtain ⟨found, hfound⟩ := windowsExe_of_cmdline hok
      have hargs : ∀ a ∈ b.args.tail, ¬ HasNul a := by
        intro a ha hnul
        obtain ⟨error, herror⟩ := cmdline_refuses hfound ⟨a, ha, hnul⟩
        rw [herror] at hok
        cases hok
      have hnone : ¬ HasNul found := by
        refine windowsExe_no_nul hexists hfound fun program hgiven hnul => ?_
        obtain ⟨a, ha, hanul⟩ := hprogram program hgiven hnul
        exact hargs a ha hanul
      rw [cmdline_eq hfound hargs] at hok
      obtain ⟨rfl, rfl⟩ := Prod.mk.inj (Except.ok.inj (Except.ok.inj hok))
      exact ⟨⟨_, rfl, hnone⟩, ⟨_, rfl, nul_notMem_cmdlineText hnone hargs⟩⟩
    · intro hnul
      have hargs := exists_later_nul hprogram hnul
      obtain ⟨exe, hexe⟩ := windowsExe_returns_iff.mpr (hlookup hargs)
      exact cmdline_refuses hexe hargs

/-- A builder over an environment with these variables. -/
def argvBuilder (args : List Wide) (vars : List (Wide × Wide)) :
    @CommandBuilder Wide (windowsOsStr asciiLowercase).toOsStr :=
  letI := windowsOsStr asciiLowercase
  vars.foldl (fun b (key, value) => b.env key value) { args, envs := ∅, cwd := none }

/-- `ComSpec` -/
def comSpec : Wide := [0x43, 0x6F, 0x6D, 0x53, 0x70, 0x65, 0x63]

/-- For the program `c` with an argument `a\0b` no terminator is embedded. -/
theorem cmdline_terminated_refused :
    letI := windowsOsStr asciiLowercase
    NoEmbeddedNul (argvBuilder [[0x63], [0x61, 0, 0x62]] []) (windowsPaths fun _ => false) := by
  let _ := windowsOsStr asciiLowercase
  refine (@cmdline_terminated_iff Wide (windowsOsStr asciiLowercase) _ _ _
    fun _ hexists => absurd hexists Bool.false_ne_true).mpr ⟨?_, ?_⟩
  · intro program hgiven hnul
    obtain rfl : [0x63] = program := Option.some.inj hgiven
    exact absurd hnul (by decide)
  · intro _ program args _ dir dirs hdirs
    exact absurd (show [] = dir :: dirs from hdirs) nofun

/-- The program `a\0b`, and the same text as `ComSpec` of the default program, are returned with
their NUL. -/
theorem program_nul_not_refused :
    letI := windowsOsStr asciiLowercase
    (CommandBuilder.cmdline (argvBuilder [[0x61, 0, 0x62]] []) (windowsPaths fun _ => false) =
        .ok (.ok ([0x61, 0, 0x62, 0], [0x61, 0, 0x62, 0])) ∧
      ¬ NoEmbeddedNul (argvBuilder [[0x61, 0, 0x62]] []) (windowsPaths fun _ => false)) ∧
    (CommandBuilder.cmdline (argvBuilder [] [(comSpec, [0x61, 0, 0x62])])
        (windowsPaths fun _ => false) = .ok (.ok ([0x61, 0, 0x62, 0], [0x61, 0, 0x62, 0])) ∧
      ¬ NoEmbeddedNul (argvBuilder [] [(comSpec, [0x61, 0, 0x62])])
        (windowsPaths fun _ => false)) := by
  let _ := windowsOsStr asciiLowercase
  refine ⟨⟨rfl, fun h => ?_⟩, rfl, fun h => ?_⟩
  · obtain ⟨error, herror⟩ := h.refused (.inl ⟨_, rfl, by decide⟩)
    cases herror
  · obtain ⟨error, herror⟩ := h.refused (.inl ⟨_, rfl, by decide⟩)
    cases herror

end SysprimsPty.Command
