import SysprimsPty.Command.Builder
import SysprimsPty.Found.FirstHit

/-!
# The program search on Windows

`CommandBuilder::search_path` on Windows. The path functions of `std` and the file system are a
`WindowsPaths`, so that the results hold for all of them; `splitPathsWide` is the one that the
platform has. A panic is an error of type `Panic`.

* `searchDirectories`, `CommandBuilder.searchPathWindows` — the two loops and the search.
* `attemptsIn`, `searchDirectories_eq` — the loops as one search over the attempts, in order.
* `PanicsOn`, `extensionText_error_iff` — the entries of `PATHEXT` that panic.
* `search_returns_iff` — when the search returns instead of panicking.
* `IsAsked`, `finds_asked_iff` — the program that was asked for, and when the search returns it.
* `windowsPaths` — the path functions of the platform.
-/

namespace SysprimsPty.Command

open SysprimsPty.Found

/-- A panic of the program search. -/
inductive Panic
  /-- `expect("PATHEXT entries must be utf8")` -/
  | pathextNotUtf8
  /-- `&ext[1..]` outside a character boundary. -/
  | sliceIndex
  /-- `with_extension` with a path separator in the extension. -/
  | extensionSeparator
  deriving DecidableEq

/-- The path functions of `std` on Windows and the file system. -/
structure WindowsPaths (S : Type) where
  /-- `std::env::split_paths` -/
  splitPaths : S → List S
  /-- `Path::join` -/
  join : S → S → S
  /-- `Path::with_extension`, for an extension without a path separator -/
  withExtension : S → String → S
  /-- `Path::exists` -/
  pathExists : S → Bool

variable {S : Type} [OsStr S]

/-! ## The search -/

/-- `&ext[1..]` -/
def dropFirstByte (ext : String) : Except Panic String :=
  match ext.toList with
  | [] => .error .sliceIndex
  | c :: rest => if c.utf8Size = 1 then .ok (String.ofList rest) else .error .sliceIndex

/-- `std::path::is_separator` -/
def isSeparator (c : Char) : Bool := c == '/' || c == '\\'

/-- The extension that an entry of `PATHEXT` passes to `with_extension`, or the panic on the way.
Source: `cmdbuilder.rs` `search_path` (Windows), `ext.to_str().expect(..)` and `&ext[1..]` -/
def extensionText (ext : S) : Except Panic String :=
  match OsStr.toStr ext with
  | none => .error .pathextNotUtf8
  | some ext =>
  match dropFirstByte ext with
  | .error panic => .error panic
  | .ok ext => if ext.toList.any isSeparator then .error .extensionSeparator else .ok ext

/-- The loop over the extensions for one directory.
Source: `cmdbuilder.rs` `search_path` (Windows), the inner loop -/
def searchExtensions (paths : WindowsPaths S) (path exe : S) : List S → Except Panic (Option S)
  | [] => .ok none
  | ext :: extensions =>
      match extensionText ext with
      | .error panic => .error panic
      | .ok ext =>
          let path' := paths.withExtension (paths.join path exe) ext
          if paths.pathExists path' then .ok (some path')
          else searchExtensions paths path exe extensions

/-- The loop over the directories.
Source: `cmdbuilder.rs` `search_path` (Windows), the outer loop -/
def searchDirectories (paths : WindowsPaths S) (extensions exe : S) :
    List S → Except Panic (Option S)
  | [] => .ok none
  | path :: rest =>
      let candidate := paths.join path exe
      if paths.pathExists candidate then .ok (some candidate)
      else
        match searchExtensions paths path exe (paths.splitPaths extensions) with
        | .error panic => .error panic
        | .ok (some found) => .ok (some found)
        | .ok none => searchDirectories paths extensions exe rest

namespace CommandBuilder

/-- The value of `PATHEXT`, or its default.
Source: `cmdbuilder.rs` `CommandBuilder::search_path` (Windows), `let extensions` -/
def pathext (b : CommandBuilder S) : S :=
  (b.getEnv (OsStr.ofStr "PATHEXT")).getD (OsStr.ofStr ".EXE")

/-- Source: `cmdbuilder.rs` `CommandBuilder::search_path` (Windows) -/
def searchPathWindows (b : CommandBuilder S) (paths : WindowsPaths S) (exe : S) :
    Except Panic S :=
  match b.getEnv (OsStr.ofStr "PATH") with
  | none => .ok exe
  | some path =>
      (searchDirectories paths b.pathext exe (paths.splitPaths path)).map (·.getD exe)

end CommandBuilder

/-! ## The search over the attempts -/

/-- The paths that the search tries in one directory, in order; an error stands for a panic. -/
def attemptsIn (paths : WindowsPaths S) (extensions : List S) (exe path : S) :
    List (Except Panic S) :=
  .ok (paths.join path exe) ::
    extensions.map fun ext => (extensionText ext).map (paths.withExtension (paths.join path exe))

/-- The inner loop, and what comes after it, is a search over the extended paths. -/
theorem firstHit_extensions (paths : WindowsPaths S) (path exe : S) (extensions : List S)
    (rest : List (Except Panic S)) :
    firstHit paths.pathExists ((extensions.map fun ext =>
        (extensionText ext).map (paths.withExtension (paths.join path exe))) ++ rest) =
      match searchExtensions paths path exe extensions with
      | .error panic => .error panic
      | .ok (some found) => .ok (some found)
      | .ok none => firstHit paths.pathExists rest := by
  induction extensions with
  | nil => rfl
  | cons ext extensions ih =>
      rw [List.map_cons, List.cons_append, searchExtensions]
      cases extensionText ext with
      | error panic => rfl
      | ok text =>
          simp only [Except.map, firstHit]
          split_ifs
          · rfl
          · exact ih

/-- The two loops are one search over all attempts. -/
theorem searchDirectories_eq (paths : WindowsPaths S) (extensions exe : S) (dirs : List S) :
    searchDirectories paths extensions exe dirs =
      firstHit paths.pathExists
        (dirs.flatMap (attemptsIn paths (paths.splitPaths extensions) exe)) := by
  induction dirs with
  | nil => rfl
  | cons path dirs ih =>
      rw [List.flatMap_cons, attemptsIn, List.cons_append, firstHit, firstHit_extensions,
        searchDirectories, ih]

/-- The directories of `PATH`. -/
def CommandBuilder.searchDirs (b : CommandBuilder S) (paths : WindowsPaths S) : List S :=
  match b.getEnv (OsStr.ofStr "PATH") with
  | none => []
  | some path => paths.splitPaths path

/-- The search goes through these directories and falls back to the name. -/
theorem searchPathWindows_eq_map (b : CommandBuilder S) (paths : WindowsPaths S) (exe : S) :
    b.searchPathWindows paths exe =
      (searchDirectories paths b.pathext exe (b.searchDirs paths)).map (·.getD exe) := by
  rw [CommandBuilder.searchPathWindows, CommandBuilder.searchDirs]
  cases b.getEnv (OsStr.ofStr "PATH") with
  | none => rfl
  | some path => rfl

/-- Changing the value keeps whether there is one. -/
theorem map_returns_iff {ε α β : Type} {f : α → β} {x : Except ε α} :
    (∃ b, x.map f = .ok b) ↔ ∃ a, x = .ok a := by
  cases x with
  | error e => exact iff_of_false (fun ⟨_, h⟩ => nomatch h) (fun ⟨_, h⟩ => nomatch h)
  | ok a => exact iff_of_true ⟨f a, rfl⟩ ⟨a, rfl⟩

/-! ## When the search returns -/

/-- The entries of `PATHEXT` that panic: those that are not Unicode, are empty, begin with a character
of several bytes, or have a path separator after their first character. -/
def PanicsOn (ext : S) : Prop :=
  OsStr.toStr ext = none ∨
    ∃ text, OsStr.toStr ext = some text ∧
      (text.toList = [] ∨ ∃ c rest, text.toList = c :: rest ∧
        (c.utf8Size ≠ 1 ∨ ∃ d ∈ rest, d = '/' ∨ d = '\\'))

/-- The text after the first byte cannot be taken. -/
theorem dropFirstByte_error_iff {text : String} :
    (∃ panic, dropFirstByte text = .error panic) ↔
      text.toList = [] ∨ ∃ c rest, text.toList = c :: rest ∧ c.utf8Size ≠ 1 := by
  unfold dropFirstByte
  rcases text.toList with _ | ⟨c, rest⟩
  · simp
  · by_cases hsize : c.utf8Size = 1
    · simp [hsize]
    · simp [hsize]

/-- The text after the first byte. -/
theorem dropFirstByte_eq_ok {text rest : String} (h : dropFirstByte text = .ok rest) :
    ∃ c, text.toList = c :: rest.toList ∧ c.utf8Size = 1 := by
  unfold dropFirstByte at h
  rcases htext : text.toList with _ | ⟨c, tail⟩
  · rw [htext] at h
    cases h
  · rw [htext] at h
    dsimp only at h
    split_ifs at h with hsize
    refine ⟨c, ?_, hsize⟩
    rw [← Except.ok.inj h]
    simp

/-- A separator in the text is a slash or a backslash. -/
theorem any_isSeparator_iff {text : List Char} :
    text.any isSeparator = true ↔ ∃ d ∈ text, d = '/' ∨ d = '\\' := by
  simp [isSeparator]

/-- **Which entries panic.** -/
theorem extensionText_error_iff {ext : S} :
    (∃ panic, extensionText ext = .error panic) ↔ PanicsOn ext := by
  unfold extensionText PanicsOn
  rcases OsStr.toStr ext with _ | text
  · simp
  · simp only [reduceCtorEq, Option.some.injEq, exists_eq_left', false_or]
    rcases hdrop : dropFirstByte text with panic | rest
    · have hpanics := dropFirstByte_error_iff.mp ⟨panic, hdrop⟩
      refine iff_of_true ⟨panic, rfl⟩ ?_
      rcases hpanics with hnil | ⟨c, rest, hcons, hsize⟩
      · exact .inl hnil
      · exact .inr ⟨c, rest, hcons, .inl hsize⟩
    · obtain ⟨c, hcons, hsize⟩ := dropFirstByte_eq_ok hdrop
      dsimp only
      rw [hcons]
      simp only [reduceCtorEq, List.cons.injEq, false_or, ← any_isSeparator_iff]
      split_ifs with hsep
      · exact iff_of_true ⟨_, rfl⟩ ⟨c, _, ⟨rfl, rfl⟩, .inr hsep⟩
      · refine iff_of_false ?_ ?_
        · rintro ⟨panic, hpanic⟩
          cases hpanic
        · rintro ⟨c', rest', ⟨rfl, rfl⟩, hbad⟩
          rcases hbad with hne | hsep'
          · exact hne hsize
          · exact hsep hsep'

/-- In the directory `dir` the program exists under its exact name, or under an entry before every
entry of `extensions` that panics. -/
def HitBeforePanic (paths : WindowsPaths S) (extensions : List S) (exe dir : S) : Prop :=
  paths.pathExists (paths.join dir exe) = true ∨
    ∀ before ext after, extensions = before ++ ext :: after → PanicsOn ext →
      ∃ ext' ∈ before, ∃ text, extensionText ext' = .ok text ∧
        paths.pathExists (paths.withExtension (paths.join dir exe) text) = true

/-- `PATH` is unset, or its first directory holds the program before every entry of `PATHEXT` that
panics. -/
def LookupSafe (b : CommandBuilder S) (paths : WindowsPaths S) (exe : S) : Prop :=
  ∀ dir dirs, b.searchDirs paths = dir :: dirs →
    HitBeforePanic paths (paths.splitPaths b.pathext) exe dir

/-- The search in one directory returns exactly if it has a hit before every panic. -/
theorem firstHit_attemptsIn_returns_iff {paths : WindowsPaths S} {extensions : List S} {exe dir : S} :
    (∃ found, firstHit paths.pathExists (attemptsIn paths extensions exe dir) = .ok found) ↔
      HitBeforePanic paths extensions exe dir := by
  rw [attemptsIn, firstHit, HitBeforePanic]
  by_cases hexact : paths.pathExists (paths.join dir exe) = true
  · rw [if_pos hexact]
    exact iff_of_true ⟨_, rfl⟩ (.inl hexact)
  · rw [if_neg hexact, or_iff_right hexact, firstHit_returns_iff]
    constructor
    · intro h before ext after hsplit hpanics
      obtain ⟨panic, hpanic⟩ := extensionText_error_iff.mpr hpanics
      obtain ⟨path, hmem, hexists⟩ := h
        (before.map fun ext => (extensionText ext).map (paths.withExtension (paths.join dir exe)))
        panic
        (after.map fun ext => (extensionText ext).map (paths.withExtension (paths.join dir exe)))
        (by rw [hsplit, List.map_append, List.map_cons, hpanic]; rfl)
      obtain ⟨ext', hext', htext⟩ := List.mem_map.mp hmem
      cases h' : extensionText ext' with
      | error panic' =>
          rw [h'] at htext
          cases htext
      | ok text =>
          rw [h'] at htext
          obtain rfl := Except.ok.inj htext
          exact ⟨ext', hext', text, h', hexists⟩
    · intro h before panic after hsplit
      obtain ⟨before', rest, rfl, hbefore, hrest⟩ := List.map_eq_append_iff.mp hsplit
      obtain ⟨ext, after', rfl, hext, -⟩ := List.map_eq_cons_iff.mp hrest
      cases hpanic : extensionText ext with
      | ok text =>
          rw [hpanic] at hext
          cases hext
      | error panic' =>
          obtain ⟨ext', hext', text, htext, hexists⟩ :=
            h before' ext after' rfl (extensionText_error_iff.mp ⟨panic', hpanic⟩)
          refine ⟨_, ?_, hexists⟩
          rw [← hbefore]
          exact List.mem_map.mpr ⟨ext', hext', by rw [htext]; rfl⟩

/-- A directory without a hit and without a panic leaves no panic for the later ones. -/
theorem firstHit_later_returns {paths : WindowsPaths S} {extensions : List S} {exe dir : S}
    (h : firstHit paths.pathExists (attemptsIn paths extensions exe dir) = .ok none)
    (dirs : List S) :
    ∃ found, firstHit paths.pathExists (dirs.flatMap (attemptsIn paths extensions exe)) =
      .ok found := by
  rw [firstHit_eq_none_iff, attemptsIn, List.forall_mem_cons] at h
  rw [firstHit_returns_iff]
  intro before panic after hsplit
  have hmem : .error panic ∈ dirs.flatMap (attemptsIn paths extensions exe) := by
    rw [hsplit]
    simp
  obtain ⟨dir', -, hmem⟩ := List.mem_flatMap.mp hmem
  rcases List.mem_cons.mp hmem with hexact | hmem
  · cases hexact
  · obtain ⟨ext, hext, htext⟩ := List.mem_map.mp hmem
    obtain ⟨path, hpath, -⟩ := h.2 _ (List.mem_map.mpr ⟨ext, hext, rfl⟩)
    cases hpanic : extensionText ext with
    | error panic' =>
        rw [hpanic] at hpath
        cases hpath
    | ok text =>
        rw [hpanic] at htext
        cases htext

/-- The loop over the directories returns exactly if the first of them is safe. -/
theorem searchDirectories_returns_iff {paths : WindowsPaths S} {extensions exe : S} {dirs : List S} :
    (∃ found, searchDirectories paths extensions exe dirs = .ok found) ↔
      ∀ dir rest, dirs = dir :: rest →
        HitBeforePanic paths (paths.splitPaths extensions) exe dir := by
  rw [searchDirectories_eq]
  cases dirs with
  | nil => exact iff_of_true ⟨none, rfl⟩ nofun
  | cons dir dirs =>
      have hfirst : (∀ dir' rest, dir :: dirs = dir' :: rest →
          HitBeforePanic paths (paths.splitPaths extensions) exe dir') ↔
          HitBeforePanic paths (paths.splitPaths extensions) exe dir := by
        constructor
        · exact fun h => h dir dirs rfl
        · rintro h dir' rest hcons
          obtain ⟨rfl, -⟩ := List.cons.inj hcons
          exact h
      rw [hfirst, ← firstHit_attemptsIn_returns_iff, List.flatMap_cons]
      simp only [firstHit_append]
      cases hfound : firstHit paths.pathExists
          (attemptsIn paths (paths.splitPaths extensions) exe dir) with
      | error panic => simp
      | ok found =>
          cases found with
          | some found => simp
          | none => exact iff_of_true (firstHit_later_returns hfound dirs) ⟨none, rfl⟩

/-- **When the search returns.** For every program name, `PATH`, `PATHEXT` and file system,
`search_path` returns a path if and only if `PATH` is unset, or its first directory holds the program
under its exact name or under an entry of `PATHEXT` before every entry that panics: one that is not
Unicode, is empty, begins with a character of several bytes or has a path separator after its first
character.
Source: `cmdbuilder.rs` `CommandBuilder::search_path` (Windows) -/
theorem search_returns_iff (b : CommandBuilder S) (paths : WindowsPaths S) (exe : S) :
    (∃ found, b.searchPathWindows paths exe = .ok found) ↔ LookupSafe b paths exe := by
  rw [searchPathWindows_eq_map, map_returns_iff, searchDirectories_returns_iff, LookupSafe]

/-! ## When the search finds the program -/

/-- The paths that are asked for in one directory, in order of preference: the name itself, and the
name followed by each extension. -/
def askedIn (paths : WindowsPaths S) (extensions : List S) (exe path : S) : List S :=
  paths.join path exe :: extensions.map (OsStr.push (paths.join path exe))

/-- What is tried and what is asked for at each place of one directory. -/
def placesIn (paths : WindowsPaths S) (extensions : List S) (exe path : S) :
    List (Except Panic S × S) :=
  (.ok (paths.join path exe), paths.join path exe) ::
    extensions.map fun ext =>
      ((extensionText ext).map (paths.withExtension (paths.join path exe)),
        OsStr.push (paths.join path exe) ext)

/-- What is tried and what is asked for, from directory to directory. -/
def CommandBuilder.places (b : CommandBuilder S) (paths : WindowsPaths S) (exe : S) :
    List (Except Panic S × S) :=
  (b.searchDirs paths).flatMap (placesIn paths (paths.splitPaths b.pathext) exe)

/-- The path exists and is not a directory. -/
def isFile (paths : WindowsPaths S) (isDir : S → Bool) (path : S) : Bool :=
  paths.pathExists path && !isDir path

/-- **The program that was asked for**: the name unchanged, when no directory holds a path that is
asked for; or the preferred one in the first directory that holds one. -/
def IsAsked (b : CommandBuilder S) (paths : WindowsPaths S) (isDir : S → Bool) (exe found : S) :
    Prop :=
  (found = exe ∧ ∀ dir ∈ b.searchDirs paths,
      ∀ path ∈ askedIn paths (paths.splitPaths b.pathext) exe dir,
        isFile paths isDir path = false) ∨
    ∃ before dir after, b.searchDirs paths = before ++ dir :: after ∧
      (∀ dir' ∈ before, ∀ path ∈ askedIn paths (paths.splitPaths b.pathext) exe dir',
        isFile paths isDir path = false) ∧
      (askedIn paths (paths.splitPaths b.pathext) exe dir).find? (isFile paths isDir) = some found

/-- The program that was asked for is the first path asked for that is a file, or the name. -/
theorem isAsked_iff {b : CommandBuilder S} {paths : WindowsPaths S} {isDir : S → Bool}
    {exe found : S} :
    IsAsked b paths isDir exe found ↔
      found = (((b.searchDirs paths).flatMap (askedIn paths (paths.splitPaths b.pathext) exe)).find?
        (isFile paths isDir)).getD exe := by
  have hnone : ∀ dirs : List S, (∀ dir ∈ dirs,
      (askedIn paths (paths.splitPaths b.pathext) exe dir).find? (isFile paths isDir) = none) ↔
      ∀ dir ∈ dirs, ∀ path ∈ askedIn paths (paths.splitPaths b.pathext) exe dir,
        isFile paths isDir path = false := by
    intro dirs
    simp only [List.find?_eq_none, Bool.not_eq_true]
  rw [List.find?_flatMap, IsAsked]
  cases hfind : (b.searchDirs paths).findSome? fun dir =>
      (askedIn paths (paths.splitPaths b.pathext) exe dir).find? (isFile paths isDir) with
  | none =>
      have hall := (hnone _).mp (List.findSome?_eq_none_iff.mp hfind)
      refine ⟨?_, fun heq => .inl ⟨heq, hall⟩⟩
      rintro (⟨heq, -⟩ | ⟨before, dir, after, hsplit, -, hfound⟩)
      · exact heq
      · have hmem : dir ∈ b.searchDirs paths := by simp [hsplit]
        rw [((hnone _).mpr hall) dir hmem] at hfound
        cases hfound
  | some path =>
      obtain ⟨before, dir, after, hsplit, hpath, hbefore⟩ := List.findSome?_eq_some_iff.mp hfind
      constructor
      · rintro (⟨-, hall⟩ | ⟨before', dir', after', hsplit', hbefore', hfound⟩)
        · have hmem : dir ∈ b.searchDirs paths := by simp [hsplit]
          rw [((hnone _).mpr hall) dir hmem] at hpath
          cases hpath
        · have hsome := List.findSome?_eq_some_iff.mpr
            ⟨before', dir', after', hsplit', hfound, (hnone _).mpr hbefore'⟩
          exact Option.some.inj (hsome.symm.trans hfind)
      · rintro rfl
        exact .inr ⟨before, dir, after, hsplit, (hnone _).mp hbefore, hpath⟩

/-- The search over the places. -/
theorem searchPathWindows_eq (b : CommandBuilder S) (paths : WindowsPaths S) (exe : S) :
    b.searchPathWindows paths exe =
      (firstHit paths.pathExists ((b.places paths exe).map Prod.fst)).map (·.getD exe) := by
  have hplaces : ∀ path, (placesIn paths (paths.splitPaths b.pathext) exe path).map Prod.fst =
      attemptsIn paths (paths.splitPaths b.pathext) exe path := by
    intro path
    simp [placesIn, attemptsIn, Function.comp_def]
  rw [searchPathWindows_eq_map, searchDirectories_eq, CommandBuilder.places, List.map_flatMap]
  simp only [hplaces]

/-- What the search returns exists, or is the name unchanged. -/
theorem searchPathWindows_exists {b : CommandBuilder S} {paths : WindowsPaths S} {exe found : S}
    (h : b.searchPathWindows paths exe = .ok found) :
    found = exe ∨ paths.pathExists found = true := by
  rw [searchPathWindows_eq] at h
  cases hhit : firstHit paths.pathExists ((b.places paths exe).map Prod.fst) with
  | error panic =>
      rw [hhit] at h
      cases h
  | ok hit =>
      rw [hhit] at h
      obtain rfl := Except.ok.inj h
      cases hit with
      | none => exact .inl rfl
      | some path =>
          obtain ⟨-, -, -, hexists, -⟩ := firstHit_eq_some_iff.mp hhit
          exact .inr hexists

/-- The search finds the program that was asked for. -/
def FindsAsked (b : CommandBuilder S) (paths : WindowsPaths S) (isDir : S → Bool) (exe : S) : Prop :=
  ∃ found, b.searchPathWindows paths exe = .ok found ∧ IsAsked b paths isDir exe found

/-- The search finds the program that was asked for if the search over the tried paths and the one
over the paths that are asked for have the same answer. -/
theorem findsAsked_iff_firstHit {b : CommandBuilder S} {paths : WindowsPaths S} {isDir : S → Bool}
    {exe : S} :
    FindsAsked b paths isDir exe ↔
      ∃ found, firstHit paths.pathExists ((b.places paths exe).map Prod.fst) = .ok found ∧
        found.getD exe =
          (((b.places paths exe).map Prod.snd).find? (isFile paths isDir)).getD exe := by
  have hasked : (b.places paths exe).map Prod.snd =
      (b.searchDirs paths).flatMap (askedIn paths (paths.splitPaths b.pathext) exe) := by
    rw [CommandBuilder.places, List.map_flatMap]
    congr 1
    funext path
    simp [placesIn, askedIn, Function.comp_def]
  rw [FindsAsked, searchPathWindows_eq, hasked]
  simp only [isAsked_iff]
  constructor
  · rintro ⟨found, hfound, heq⟩
    cases hhit : firstHit paths.pathExists ((b.places paths exe).map Prod.fst) with
    | error panic =>
        rw [hhit] at hfound
        cases hfound
    | ok hit =>
        rw [hhit] at hfound
        obtain rfl := Except.ok.inj hfound
        exact ⟨hit, rfl, heq⟩
  · rintro ⟨hit, hhit, heq⟩
    exact ⟨_, by rw [hhit]; rfl, heq⟩

/-- **When the search finds the program that was asked for.** For every program name, `PATH`,
`PATHEXT` and file system, `search_path` returns what was asked for if and only if the paths that it
tries agree with the paths that are asked for: at the first place where the one exists or the other
is a file, they are the same path and it is no directory, or the later places make up for it.
Source: `cmdbuilder.rs` `CommandBuilder::search_path` (Windows) -/
theorem finds_asked_iff (b : CommandBuilder S) (paths : WindowsPaths S) (isDir : S → Bool)
    (exe : S) :
    FindsAsked b paths isDir exe ↔
      Agrees paths.pathExists (isFile paths isDir) exe (b.places paths exe) :=
  findsAsked_iff_firstHit.trans firstHit_agrees_iff

/-- **For a name without an extension** `with_extension` appends; then the search finds what was
asked for exactly if the first path tried that exists is not a directory, or is the name itself where
no path asked for is a file. -/
theorem finds_asked_iff_of_appends {b : CommandBuilder S} {paths : WindowsPaths S}
    {isDir : S → Bool} {exe : S}
    (happends : ∀ dir ∈ b.searchDirs paths, ∀ ext ∈ paths.splitPaths b.pathext,
      (extensionText ext).map (paths.withExtension (paths.join dir exe)) =
        .ok (OsStr.push (paths.join dir exe) ext)) :
    FindsAsked b paths isDir exe ↔
      ∀ path, ((b.places paths exe).map Prod.snd).find? paths.pathExists = some path →
        isFile paths isDir path = true ∨
          (exe = path ∧ ∀ asked ∈ (b.places paths exe).map Prod.snd,
            isFile paths isDir asked = false) := by
  have hexists : ∀ path, isFile paths isDir path = true → paths.pathExists path = true := by
    intro path hpath
    rw [isFile, Bool.and_eq_true] at hpath
    exact hpath.1
  have hplaces : b.places paths exe =
      ((b.places paths exe).map Prod.snd).map fun path => (.ok path, path) := by
    rw [List.map_map]
    nth_rewrite 1 [← List.map_id (b.places paths exe)]
    refine List.map_congr_left fun place hplace => ?_
    obtain ⟨dir, hdir, hplace⟩ := List.mem_flatMap.mp hplace
    rcases List.mem_cons.mp hplace with rfl | hplace
    · rfl
    · obtain ⟨ext, hext, rfl⟩ := List.mem_map.mp hplace
      rw [happends dir hdir ext hext]
      rfl
  rw [findsAsked_iff_firstHit, firstHit_agrees_iff]
  nth_rewrite 1 [hplaces]
  rw [agrees_same_iff hexists]

/-! ## The platform's path functions -/

/-- `std::env::split_paths` on Windows: the pieces between the semicolons that stand outside double
quotes, without the quotes; `piece` is what has been read of the next one. -/
def splitPathsWide (inQuote : Bool) (piece : Wide) : Wide → List Wide
  | [] => [piece]
  | c :: cs =>
      if c = 0x22 then splitPathsWide (!inQuote) piece cs
      else if c = 0x3B && !inQuote then piece :: splitPathsWide false [] cs
      else splitPathsWide inQuote (piece ++ [c]) cs

/-- A backslash or a slash. -/
def isWideSeparator (c : UInt16) : Bool := c == 0x5C || c == 0x2F

/-- `Path::join` of a directory without a prefix and a relative path. -/
def joinWide (base path : Wide) : Wide :=
  if base.getLast?.all isWideSeparator then base ++ path else base ++ 0x5C :: path

/-- The path up to the extension of its file name: up to its last dot, unless that dot begins the
file name or comes before it. -/
def withoutExtension (path : Wide) : Wide :=
  let extension := path.reverse.takeWhile fun c => c != 0x2E && !isWideSeparator c
  match path.reverse.drop extension.length with
  | 0x2E :: c :: stem => if isWideSeparator c then path else (c :: stem).reverse
  | _ => path

/-- `Path::with_extension`, for a path with a file name. -/
def withExtensionWide (path ext : Wide) : Wide :=
  withoutExtension path ++ if ext = [] then [] else 0x2E :: ext

/-- The path functions of the platform over a file system. -/
def windowsPaths (pathExists : Wide → Bool) : WindowsPaths Wide where
  splitPaths := splitPathsWide false []
  join := joinWide
  withExtension path ext := withExtensionWide path (ext.toList.flatMap fun c => codeUnits c.toNat)
  pathExists := pathExists

/-! ## Failing searches -/

/-- A builder with these values of `PATH` and `PATHEXT`. -/
def searchBuilder (path pathext : Wide) :
    @CommandBuilder Wide (windowsOsStr asciiLowercase).toOsStr :=
  letI := windowsOsStr asciiLowercase
  (({ args := [], envs := ∅, cwd := none } : CommandBuilder Wide).env
    (OsStr.ofStr "PATH") path).env (OsStr.ofStr "PATHEXT") pathext

/-- With `PATH=d`, `PATHEXT=.x;` and no file at all, the search for `p` panics at the empty entry. -/
theorem empty_pathext_entry_panics :
    letI := windowsOsStr asciiLowercase
    (searchBuilder [0x64] [0x2E, 0x78, 0x3B]).searchPathWindows (windowsPaths fun _ => false)
      [0x70] = .error .sliceIndex := by
  rfl

/-- With `PATH=d`, `PATHEXT=.x` and the file `d\\a.x`, the search for `a.b` returns `d\\a.x`; and
with a directory `d\\a` beside that file, the search for `a` returns the directory. -/
theorem search_finds_other_program :
    letI := windowsOsStr asciiLowercase
    ((searchBuilder [0x64] [0x2E, 0x78]).searchPathWindows
        (windowsPaths fun path => path = [0x64, 0x5C, 0x61, 0x2E, 0x78])
        [0x61, 0x2E, 0x62] = .ok [0x64, 0x5C, 0x61, 0x2E, 0x78] ∧
      ¬ FindsAsked (searchBuilder [0x64] [0x2E, 0x78])
        (windowsPaths fun path => path = [0x64, 0x5C, 0x61, 0x2E, 0x78]) (fun _ => false)
        [0x61, 0x2E, 0x62]) ∧
    (searchBuilder [0x64] [0x2E, 0x78]).searchPathWindows
        (windowsPaths fun path => path = [0x64, 0x5C, 0x61, 0x2E, 0x78] || path = [0x64, 0x5C, 0x61])
        [0x61] = .ok [0x64, 0x5C, 0x61] ∧
      ¬ FindsAsked (searchBuilder [0x64] [0x2E, 0x78])
        (windowsPaths fun path => path = [0x64, 0x5C, 0x61, 0x2E, 0x78] || path = [0x64, 0x5C, 0x61])
        (fun path => path = [0x64, 0x5C, 0x61]) [0x61] := by
  let _ := (windowsOsStr asciiLowercase).toOsStr
  refine ⟨⟨rfl, ?_⟩, rfl, ?_⟩
  · rw [findsAsked_iff_firstHit]
    rintro ⟨found, hfound, heq⟩
    obtain rfl : some [0x64, 0x5C, 0x61, 0x2E, 0x78] = found := Except.ok.inj hfound
    exact absurd heq (by decide)
  · rw [findsAsked_iff_firstHit]
    rintro ⟨found, hfound, heq⟩
    obtain rfl : some [0x64, 0x5C, 0x61] = found := Except.ok.inj hfound
    exact absurd heq (by decide)

end SysprimsPty.Command
