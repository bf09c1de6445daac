import SysprimsPty.Command.WindowsSearch
import SysprimsPty.Found.WindowsArgv
import Mathlib.Data.List.Forall2

/-!
# The Windows command line

`CommandBuilder::cmdline` and what it calls.

* `appendQuoted` — the encoder of one argument.
* `quoted_reads`, `quoted_firstReads` — the parser reads its text as the argument.
* `cmdline_round_trip` — the parser splits the produced command line into the program name and the
  arguments.
-/

namespace SysprimsPty.Command

open SysprimsPty.Found

variable {S : Type} [WideOsStr S]

/-! ## The program -/

namespace CommandBuilder

/-- The program of the command line.
Source: `cmdbuilder.rs` `CommandBuilder::cmdline`, `let exe` -/
def windowsExe (b : CommandBuilder S) (paths : WindowsPaths S) : Except Panic S :=
  match b.args with
  | [] => .ok ((b.getEnv (OsStr.ofStr "ComSpec")).getD (OsStr.ofStr "cmd.exe"))
  | program :: _ => b.searchPathWindows paths program

end CommandBuilder

/-! ## Quoting -/

/-- `'"'` -/
def quote : UInt16 := 0x22

/-- `'\\'` -/
def backslash : UInt16 := 0x5C

/-- `' '` -/
def space : UInt16 := 0x20

/-- `'\t'` -/
def tab : UInt16 := 0x09

/-- The characters that make `append_quoted` quote. -/
def needsQuotes (c : UInt16) : Bool :=
  c == space || c == tab || c == 0x0A || c == 0x0B || c == quote

/-- The loop over a quoted argument, after a run of `numBackslashes` backslashes.
Source: `cmdbuilder.rs` `CommandBuilder::append_quoted`, `while i < arg.len()` -/
def quoteLoop (numBackslashes : ℕ) : List UInt16 → List UInt16
  | [] => List.replicate (numBackslashes * 2) backslash
  | c :: arg =>
      if c = backslash then quoteLoop (numBackslashes + 1) arg
      else if c = quote then
        List.replicate (numBackslashes * 2 + 1) backslash ++ c :: quoteLoop 0 arg
      else List.replicate numBackslashes backslash ++ c :: quoteLoop 0 arg

/-- The code units that `append_quoted` pushes for an argument. -/
def quoted (arg : List UInt16) : List UInt16 :=
  if !arg.isEmpty && !arg.any needsQuotes then arg
  else quote :: (quoteLoop 0 arg ++ [quote])

/-- Source: `cmdbuilder.rs` `CommandBuilder::append_quoted` -/
def appendQuoted (arg : S) (cmdline : List UInt16) : List UInt16 :=
  cmdline ++ quoted (WideOsStr.encodeWide arg)

/-- The loop over the arguments after the program.
Source: `cmdbuilder.rs` `CommandBuilder::cmdline`, `for arg in self.args.iter().skip(1)` -/
def appendArgs (cmdline : List UInt16) : List S → Except (Message S) (List UInt16)
  | [] => .ok cmdline
  | arg :: args =>
      if (WideOsStr.encodeWide arg).contains 0 then
        .error [.text "invalid encoding for command line argument ", .debug arg]
      else appendArgs (appendQuoted arg (cmdline ++ [space])) args

/-- The module name and the command line, both with their terminator.
Source: `cmdbuilder.rs` `CommandBuilder::cmdline` -/
def CommandBuilder.cmdline (b : CommandBuilder S) (paths : WindowsPaths S) :
    Except Panic (Except (Message S) (List UInt16 × List UInt16)) :=
  (b.windowsExe paths).map fun exe =>
    (appendArgs (appendQuoted exe []) b.args.tail).map fun cmdline =>
      (WideOsStr.encodeWide exe ++ [0], cmdline ++ [0])

/-! ## The parser reads what the encoder writes -/

/-- The alphabet of the Windows argument rules: unquoted spaces and tabs separate. -/
def windowsAlphabet : ArgvAlphabet UInt16 where
  quote := quote
  backslash := backslash
  isBlank c := c == space || c == tab
  quote_ne_backslash := by decide
  quote_not_blank := by decide
  backslash_not_blank := by decide

/-- An argument on the fast path has no quote and no blank. -/
theorem plain_of_not_needsQuotes {arg : List UInt16} (h : arg.any needsQuotes = false) :
    quote ∉ arg ∧ ∀ c ∈ arg, windowsAlphabet.isBlank c = false := by
  rw [List.any_eq_false] at h
  constructor
  · intro hq
    exact h quote hq (by decide)
  · intro c hc
    have hneeds := h c hc
    simp only [needsQuotes, Bool.or_eq_true, not_or, Bool.not_eq_true] at hneeds
    simp only [windowsAlphabet, hneeds.1.1.1.1, hneeds.1.1.1.2, Bool.or_self]

/-- Inside a quoted part the text of the loop and the closing quote are read as the rest of the
argument. -/
theorem laterTokens_quoteLoop {rest : List UInt16} (hrest : rest.head? ≠ some quote) (n : ℕ)
    (arg token : List UInt16) :
    laterTokens windowsAlphabet true 0 (some token) (quoteLoop n arg ++ quote :: rest) =
      laterTokens windowsAlphabet false 0
        (some (token ++ List.replicate n backslash ++ arg)) rest := by
  -- `n` counts the backslashes that the loop has passed and not yet pushed, so the parser has not
  -- seen them: the argument so far is `token` followed by them.
  have htext : ∀ k, tokenText windowsAlphabet k (some token) =
      token ++ List.replicate k backslash := fun _ => rfl
  induction arg generalizing n token with
  | nil =>
      have hslashes := @laterTokens_slashes _ windowsAlphabet _ true 0 (2 * n) (some token)
        (quote :: rest)
      have hclose := @laterTokens_close _ windowsAlphabet _ rest hrest n (some token)
      rw [quoteLoop, Nat.mul_comm n 2, List.append_nil, ← htext n, ← hclose]
      rw [Nat.zero_add] at hslashes
      exact hslashes
  | cons c arg ih =>
      rw [quoteLoop]
      by_cases hbs : c = backslash
      · rw [if_pos hbs, ih (n + 1) token (fun _ => rfl), hbs, List.replicate_succ']
        simp only [List.append_assoc, List.singleton_append]
      · rw [if_neg hbs]
        by_cases hq : c = quote
        · have hslashes := @laterTokens_slashes _ windowsAlphabet _ true 0 (2 * n + 1) (some token)
            (quote :: (quoteLoop 0 arg ++ quote :: rest))
          have hescaped := @laterTokens_escaped _ windowsAlphabet _ true n (some token)
            (quoteLoop 0 arg ++ quote :: rest)
          have hih := ih 0 (tokenText windowsAlphabet n (some token) ++ [quote]) (fun _ => rfl)
          rw [Nat.zero_add] at hslashes
          rw [if_pos hq, hq, Nat.mul_comm n 2, List.append_assoc, List.cons_append]
          refine hslashes.trans (hescaped.trans (hih.trans ?_))
          simp [htext]
        · have hslashes := @laterTokens_slashes _ windowsAlphabet _ true 0 n (some token)
            (c :: (quoteLoop 0 arg ++ quote :: rest))
          have hplain := @laterTokens_plain _ windowsAlphabet _ true c hbs hq (.inl rfl) n
            (some token) (quoteLoop 0 arg ++ quote :: rest)
          have hih := ih 0 (tokenText windowsAlphabet n (some token) ++ [c]) (fun _ => rfl)
          rw [Nat.zero_add] at hslashes
          rw [if_neg hq, List.append_assoc, List.cons_append]
          refine hslashes.trans (hplain.trans (hih.trans ?_))
          simp [htext]

/-- As a later token the pushed text is read as the argument. -/
theorem quoted_reads (arg : List UInt16) : Reads windowsAlphabet (quoted arg) arg := by
  intro rest tail h
  unfold quoted
  split
  · next hfast =>
      rw [Bool.and_eq_true, Bool.not_eq_true', Bool.not_eq_true', List.isEmpty_eq_false_iff] at hfast
      obtain ⟨hq, hb⟩ := plain_of_not_needsQuotes hfast.2
      exact laterTokens_text hq hb h (.inr (.inr hfast.1))
  · have hopen := @laterTokens_open _ windowsAlphabet _ 0 none
      (quoteLoop 0 arg ++ quote :: rest)
    have hloop := laterTokens_quoteLoop h.head_ne_quote 0 arg []
    have hend := @laterTokens_end _ windowsAlphabet _ _ _ h 0 (some arg) (.inl rfl)
    rw [List.cons_append, List.append_assoc, List.singleton_append]
    exact hopen.trans (hloop.trans (hend.trans (by rw [tokenText_some])))

/-- Without a quote, and without a backslash at its end, the loop copies the argument. -/
theorem quoteLoop_eq_self {arg : List UInt16} (hq : quote ∉ arg)
    (hbs : arg.getLast? ≠ some backslash) {n : ℕ} (hn : n = 0 ∨ arg ≠ []) :
    quoteLoop n arg = List.replicate n backslash ++ arg := by
  induction arg generalizing n with
  | nil =>
      have hzero : n = 0 := hn.resolve_right fun h => h rfl
      rw [hzero]
      rfl
  | cons c arg ih =>
      rw [List.mem_cons, not_or] at hq
      by_cases hc : c = backslash
      · have hne : arg ≠ [] := by
          rintro rfl
          exact hbs (by rw [hc]; rfl)
        have hlast : arg.getLast? ≠ some backslash := by
          rwa [List.getLast?_cons_of_ne_nil hne] at hbs
        rw [quoteLoop, if_pos hc, ih hq.2 hlast (.inr hne), List.replicate_succ', hc]
        simp
      · rw [quoteLoop, if_neg hc, if_neg (Ne.symm hq.1)]
        by_cases hne : arg = []
        · rw [hne]
          rfl
        · have hlast : arg.getLast? ≠ some backslash := by
            rwa [List.getLast?_cons_of_ne_nil hne] at hbs
          rw [ih hq.2 hlast (.inl rfl)]
          rfl

/-- As the first token the pushed text of a file name is read as the name. -/
theorem quoted_firstReads {exe : List UInt16} (hq : quote ∉ exe)
    (hbs : exe.getLast? ≠ some backslash) : FirstReads windowsAlphabet (quoted exe) exe := by
  intro rest tail h
  have hend := firstToken_end h
  unfold quoted
  split
  · next hfast =>
      rw [Bool.and_eq_true, Bool.not_eq_true', Bool.not_eq_true'] at hfast
      have hblank := (plain_of_not_needsQuotes hfast.2).2
      rw [@firstToken_plain _ windowsAlphabet _ _ _ _ hq (.inr hblank), hend, List.append_nil]
  · have hopen := @firstToken_quote _ windowsAlphabet _ false (exe ++ quote :: rest)
    have htext := @firstToken_plain _ windowsAlphabet _ true exe (quote :: rest) hq (.inl rfl)
    have hclose := @firstToken_quote _ windowsAlphabet _ true rest
    rw [quoteLoop_eq_self hq hbs (.inl rfl), List.cons_append, List.append_assoc]
    refine hopen.trans (htext.trans ?_)
    rw [show (quote :: rest) = windowsAlphabet.quote :: rest from rfl, hclose]
    exact (congrArg (fun r : List UInt16 × List UInt16 => (exe ++ r.1, r.2)) hend).trans
      (by rw [List.append_nil])

/-- The loop pushes backslashes and characters of the argument. -/
theorem mem_quoteLoop {arg : List UInt16} {n : ℕ} {c : UInt16} (h : c ∈ quoteLoop n arg) :
    c = backslash ∨ c ∈ arg := by
  induction arg generalizing n with
  | nil => exact .inl (List.eq_of_mem_replicate h)
  | cons d arg ih =>
      rw [quoteLoop] at h
      split_ifs at h with hbs hq
      · exact (ih h).imp_right (List.mem_cons_of_mem d)
      all_goals
        rw [List.mem_append, List.mem_cons] at h
        rcases h with hslash | rfl | hloop
        · exact .inl (List.eq_of_mem_replicate hslash)
        · exact .inr List.mem_cons_self
        · exact (ih hloop).imp_right (List.mem_cons_of_mem d)

/-- Quoting adds no NUL. -/
theorem nul_notMem_quoted {arg : List UInt16} (h : (0 : UInt16) ∉ arg) :
    (0 : UInt16) ∉ quoted arg := by
  unfold quoted
  split
  · exact h
  · rw [List.mem_cons, List.mem_append, List.mem_singleton]
    rintro (hquote | hloop | hquote)
    · exact absurd hquote (by decide)
    · rcases mem_quoteLoop hloop with hbs | harg
      · exact absurd hbs (by decide)
      · exact h harg
    · exact absurd hquote (by decide)

/-- Joining texts without NUL adds none. -/
theorem nul_notMem_joined {texts : List (List UInt16)} (h : ∀ t ∈ texts, (0 : UInt16) ∉ t) :
    (0 : UInt16) ∉ joined space texts := by
  intro hmem
  obtain ⟨text, htext, hzero⟩ := List.mem_flatMap.mp hmem
  rcases List.mem_cons.mp hzero with hspace | hin
  · exact absurd hspace (by decide)
  · exact h text htext hin

/-- Arguments without NUL are appended behind one space each. -/
theorem appendArgs_eq {args : List S} (h : ∀ a ∈ args, (0 : UInt16) ∉ WideOsStr.encodeWide a)
    (cmdline : List UInt16) :
    appendArgs cmdline args =
      .ok (cmdline ++ joined space (args.map fun a => quoted (WideOsStr.encodeWide a))) := by
  induction args generalizing cmdline with
  | nil => simp [appendArgs, joined]
  | cons arg args ih =>
      have harg : (WideOsStr.encodeWide arg).contains 0 = false := by
        simpa using h arg List.mem_cons_self
      have hargs : ∀ a ∈ args, (0 : UInt16) ∉ WideOsStr.encodeWide a :=
        fun a ha => h a (List.mem_cons_of_mem arg ha)
      rw [appendArgs, harg, if_neg Bool.false_ne_true, ih hargs, appendQuoted, List.map_cons,
        joined_cons]
      simp

/-- The command line without its terminator, for a resolved program. -/
def CommandBuilder.cmdlineText (b : CommandBuilder S) (exe : S) : List UInt16 :=
  quoted (WideOsStr.encodeWide exe) ++
    joined space (b.args.tail.map fun a => quoted (WideOsStr.encodeWide a))

/-- If no argument contains a NUL, `cmdline` returns the resolved program and the text. -/
theorem cmdline_eq {b : CommandBuilder S} {paths : WindowsPaths S} {exe : S}
    (hexe : b.windowsExe paths = .ok exe)
    (hargs : ∀ a ∈ b.args.tail, (0 : UInt16) ∉ WideOsStr.encodeWide a) :
    b.cmdline paths =
      .ok (.ok (WideOsStr.encodeWide exe ++ [0], b.cmdlineText exe ++ [0])) := by
  rw [CommandBuilder.cmdline, hexe]
  simp only [Except.map, appendQuoted, List.nil_append, appendArgs_eq hargs,
    CommandBuilder.cmdlineText]

/-- The text has no NUL if the program and the arguments have none. -/
theorem nul_notMem_cmdlineText {b : CommandBuilder S} {exe : S}
    (hexe : (0 : UInt16) ∉ WideOsStr.encodeWide exe)
    (hargs : ∀ a ∈ b.args.tail, (0 : UInt16) ∉ WideOsStr.encodeWide a) :
    (0 : UInt16) ∉ b.cmdlineText exe := by
  have hjoined : ∀ t ∈ b.args.tail.map (fun a => quoted (WideOsStr.encodeWide a)),
      (0 : UInt16) ∉ t := by
    intro t ht
    obtain ⟨a, ha, rfl⟩ := List.mem_map.mp ht
    exact nul_notMem_quoted (hargs a ha)
  rw [CommandBuilder.cmdlineText, List.mem_append]
  rintro (hzero | hzero)
  · exact nul_notMem_quoted hexe hzero
  · exact nul_notMem_joined hjoined hzero

/-- **Command-line round trip.** For a resolved program name without a NUL, without a quote and
without a backslash at its end, and arguments without a NUL, `cmdline` succeeds, and the command
line, without its terminator, is read by the Windows argument rules as the program name followed by
the arguments.
Source: `cmdbuilder.rs` `CommandBuilder::cmdline`, `CommandBuilder::append_quoted` -/
theorem cmdline_round_trip (b : CommandBuilder S) (paths : WindowsPaths S) {exe : S}
    (hexe : b.windowsExe paths = .ok exe) (hnul : (0 : UInt16) ∉ WideOsStr.encodeWide exe)
    (hquote : quote ∉ WideOsStr.encodeWide exe)
    (hbackslash : (WideOsStr.encodeWide exe).getLast? ≠ some backslash)
    (hargs : ∀ a ∈ b.args.tail, (0 : UInt16) ∉ WideOsStr.encodeWide a) :
    ∃ line, b.cmdline paths = .ok (.ok (WideOsStr.encodeWide exe ++ [0], line ++ [0])) ∧
      (0 : UInt16) ∉ line ∧
      argv windowsAlphabet line =
        WideOsStr.encodeWide exe :: b.args.tail.map WideOsStr.encodeWide := by
  have hreads : List.Forall₂ (Reads windowsAlphabet)
      (b.args.tail.map fun a => quoted (WideOsStr.encodeWide a))
      (b.args.tail.map WideOsStr.encodeWide) := by
    rw [List.forall₂_map_left_iff, List.forall₂_map_right_iff, List.forall₂_same]
    exact fun a _ => quoted_reads _
  refine ⟨b.cmdlineText exe, cmdline_eq hexe hargs, nul_notMem_cmdlineText hnul hargs, ?_⟩
  exact argv_joined (by decide) (quoted_firstReads hquote hbackslash) hreads

/-- A program below `C:\Program Files` with the arguments `a b`, `\`, `"` and the empty one. -/
def quotedArgs : List Wide :=
  [[0x43, 0x3A, 0x5C, 0x50, 0x20, 0x46, 0x5C, 0x78], [0x61, 0x20, 0x62], [0x5C], [0x22], []]

/-- The builder for these arguments, with an empty environment. -/
def quotedBuilder : @CommandBuilder Wide (windowsOsStr String.toLower).toOsStr :=
  @CommandBuilder.mk Wide (windowsOsStr String.toLower).toOsStr quotedArgs ∅ none

/-- Path functions over an empty file system. -/
def noPaths : WindowsPaths Wide where
  splitPaths _ := []
  join a b := a ++ backslash :: b
  withExtension a _ := a
  pathExists _ := false

/-- The round trip of that program and its arguments. -/
theorem cmdline_round_trip_quoted :
    ∃ line, @CommandBuilder.cmdline Wide (windowsOsStr String.toLower) quotedBuilder noPaths =
        .ok (.ok (quotedArgs.head! ++ [0], line ++ [0])) ∧
      (0 : UInt16) ∉ line ∧ argv windowsAlphabet line = quotedArgs :=
  @cmdline_round_trip Wide (windowsOsStr String.toLower) quotedBuilder noPaths quotedArgs.head!
    rfl (by decide) (by decide) (by decide) (by decide)

end SysprimsPty.Command
