import Mathlib.Data.List.Basic

/-!
# Splitting a command line into arguments

The argument rules of the Windows C runtime over an arbitrary alphabet. The first token is read with
backslashes literal and quotes toggling. In the later tokens `2n` backslashes before a quote stand
for `n` backslashes and a quote that opens or closes a quoted part, `2n + 1` for `n` backslashes and
a literal quote, a doubled quote inside a quoted part is a literal quote, other backslashes are
literal, and unquoted blanks separate.

* `firstToken`, `laterTokens`, `argv` — the parser.
* `laterTokens_plain` … `laterTokens_close` — one rule for each thing a token can contain.
* `FirstReads`, `Reads`, `argv_joined` — texts that are read as one argument, and lines of them.
-/

namespace SysprimsPty.Found

/-- The characters with a meaning for the parser. -/
structure ArgvAlphabet (α : Type*) where
  quote : α
  backslash : α
  isBlank : α → Bool
  quote_ne_backslash : quote ≠ backslash
  quote_not_blank : isBlank quote = false
  backslash_not_blank : isBlank backslash = false

variable {α : Type*} (A : ArgvAlphabet α)

/-! ## Tokens and separators -/

/-- The text of a token that has been read up to `slashes` backslashes. -/
def tokenText (slashes : ℕ) (token : Option (List α)) : List α :=
  token.getD [] ++ List.replicate slashes A.backslash

variable {A}

/-- Appending to a token that has been read. -/
theorem tokenText_some (token : List α) : tokenText A 0 (some token) = token := by
  simp [tokenText]

/-- A further backslash. -/
theorem tokenText_succ (n : ℕ) (token : Option (List α)) :
    tokenText A (n + 1) token = tokenText A n token ++ [A.backslash] := by
  simp [tokenText, List.replicate_succ']

/-- What follows a token: the end of the line, or a blank and `tail`. -/
def Separated (A : ArgvAlphabet α) (rest tail : List α) : Prop :=
  (rest = [] ∧ tail = []) ∨ ∃ b, A.isBlank b = true ∧ rest = b :: tail

/-- A separator is no quote. -/
theorem Separated.head_ne_quote {rest tail : List α} (h : Separated A rest tail) :
    rest.head? ≠ some A.quote := by
  rintro hhead
  rcases h with ⟨rfl, -⟩ | ⟨b, hb, rfl⟩
  · simp at hhead
  · rw [List.head?_cons, Option.some.injEq] at hhead
    rw [hhead, A.quote_not_blank] at hb
    cases hb

/-- Arguments after the first one, each behind the blank `b`. -/
def joined (b : α) (texts : List (List α)) : List α := texts.flatMap (b :: ·)

@[simp] theorem joined_cons (b : α) (text : List α) (texts : List (List α)) :
    joined b (text :: texts) = b :: (text ++ joined b texts) := rfl

/-- Joined arguments are a separator and what follows it. -/
theorem exists_separated_joined {b : α} (hb : A.isBlank b = true) (texts : List (List α)) :
    ∃ tail, Separated A (joined b texts) tail := by
  cases texts with
  | nil => exact ⟨[], .inl ⟨rfl, rfl⟩⟩
  | cons text texts => exact ⟨text ++ joined b texts, .inr ⟨b, hb, rfl⟩⟩

/-! ## The parser -/

variable [DecidableEq α] (A)

/-- The first token and what follows its separator; `quoted`: inside a quoted part. -/
def firstToken (quoted : Bool) : List α → List α × List α
  | [] => ([], [])
  | c :: cs =>
      if c = A.quote then firstToken (!quoted) cs
      else if !quoted && A.isBlank c then ([], cs)
      else ((firstToken quoted cs).map (c :: ·) id)

/-- The later tokens: inside a quoted part or not, after a run of `slashes` backslashes, in a token
read so far or (`none`) between two tokens. -/
def laterTokens (quoted : Bool) (slashes : ℕ) (token : Option (List α)) : List α → List (List α)
  | [] => if token.isNone && slashes == 0 then [] else [tokenText A slashes token]
  | c :: cs =>
      if c = A.backslash then laterTokens quoted (slashes + 1) token cs
      else if c = A.quote then
        if slashes % 2 = 1 then
          laterTokens quoted 0 (some (tokenText A (slashes / 2) token ++ [A.quote])) cs
        else if quoted then
          match cs with
          | [] => [tokenText A (slashes / 2) token]
          | c' :: cs' =>
              if c' = A.quote then
                laterTokens true 0 (some (tokenText A (slashes / 2) token ++ [A.quote])) cs'
              else laterTokens false 0 (some (tokenText A (slashes / 2) token)) (c' :: cs')
        else laterTokens true 0 (some (tokenText A (slashes / 2) token)) cs
      else if !quoted && A.isBlank c then
        if token.isNone && slashes == 0 then laterTokens false 0 none cs
        else tokenText A slashes token :: laterTokens false 0 none cs
      else laterTokens quoted 0 (some (tokenText A slashes token ++ [c])) cs

/-- The arguments of a command line. -/
def argv (line : List α) : List (List α) :=
  (firstToken A false line).1 :: laterTokens A false 0 none (firstToken A false line).2

variable {A}

/-! ## The first token -/

/-- Inside a quoted part, or without blanks, text without a quote is copied. -/
theorem firstToken_plain {quoted : Bool} {text rest : List α} (hq : A.quote ∉ text)
    (hb : quoted = true ∨ ∀ c ∈ text, A.isBlank c = false) :
    firstToken A quoted (text ++ rest) =
      (text ++ (firstToken A quoted rest).1, (firstToken A quoted rest).2) := by
  induction text with
  | nil => rfl
  | cons c cs ih =>
      rw [List.mem_cons, not_or] at hq
      obtain ⟨hc, hcs⟩ := hq
      have hblank : (!quoted && A.isBlank c) = false := by
        rcases hb with rfl | hb
        · rfl
        · rw [hb c List.mem_cons_self, Bool.and_false]
      have htail : quoted = true ∨ ∀ c ∈ cs, A.isBlank c = false :=
        hb.imp_right fun h d hd => h d (List.mem_cons_of_mem c hd)
      rw [List.cons_append, firstToken, if_neg (Ne.symm hc), hblank, if_neg Bool.false_ne_true,
        ih hcs htail]
      rfl

/-- A quote toggles. -/
theorem firstToken_quote (quoted : Bool) (rest : List α) :
    firstToken A quoted (A.quote :: rest) = firstToken A (!quoted) rest := by
  rw [firstToken, if_pos rfl]

/-- A separator outside quoted parts ends the token. -/
theorem firstToken_end {rest tail : List α} (h : Separated A rest tail) :
    firstToken A false rest = ([], tail) := by
  have hq := h.head_ne_quote
  rcases h with ⟨rfl, rfl⟩ | ⟨b, hb, rfl⟩
  · rfl
  · have hne : b ≠ A.quote := by
      rintro rfl
      exact hq rfl
    rw [firstToken, if_neg hne, hb]
    rfl

/-! ## The later tokens -/

/-- A backslash is counted. -/
theorem laterTokens_backslash (quoted : Bool) (n : ℕ) (token : Option (List α)) (rest : List α) :
    laterTokens A quoted n token (A.backslash :: rest) =
      laterTokens A quoted (n + 1) token rest := by
  rw [laterTokens.eq_def]
  simp

/-- A run of backslashes is counted. -/
theorem laterTokens_slashes (quoted : Bool) (n k : ℕ) (token : Option (List α)) (rest : List α) :
    laterTokens A quoted n token (List.replicate k A.backslash ++ rest) =
      laterTokens A quoted (n + k) token rest := by
  induction k generalizing n with
  | zero => rfl
  | succ k ih =>
      rw [List.replicate_succ, List.cons_append, laterTokens_backslash, ih]
      congr 1
      omega

/-- A character without a meaning is literal, and so are the backslashes before it. -/
theorem laterTokens_plain {quoted : Bool} {c : α} (hbs : c ≠ A.backslash) (hq : c ≠ A.quote)
    (hb : quoted = true ∨ A.isBlank c = false) (n : ℕ) (token : Option (List α)) (rest : List α) :
    laterTokens A quoted n token (c :: rest) =
      laterTokens A quoted 0 (some (tokenText A n token ++ [c])) rest := by
  have hblank : (!quoted && A.isBlank c) = false := by
    rcases hb with rfl | hb
    · rfl
    · rw [hb, Bool.and_false]
  rw [laterTokens.eq_def]
  simp only [hbs, hq, hblank, Bool.false_eq_true, if_false]

/-- `2n + 1` backslashes and a quote: `n` backslashes and a literal quote. -/
theorem laterTokens_escaped (quoted : Bool) (n : ℕ) (token : Option (List α)) (rest : List α) :
    laterTokens A quoted (2 * n + 1) token (A.quote :: rest) =
      laterTokens A quoted 0 (some (tokenText A n token ++ [A.quote])) rest := by
  have hodd : (2 * n + 1) % 2 = 1 := by omega
  have hhalf : (2 * n + 1) / 2 = n := by omega
  rw [laterTokens.eq_def]
  simp only [A.quote_ne_backslash, hodd, hhalf, if_true, if_false]

/-- `2n` backslashes and a quote outside quoted parts: `n` backslashes, and a quoted part begins. -/
theorem laterTokens_open (n : ℕ) (token : Option (List α)) (rest : List α) :
    laterTokens A false (2 * n) token (A.quote :: rest) =
      laterTokens A true 0 (some (tokenText A n token)) rest := by
  have heven : (2 * n) % 2 = 0 := by omega
  have hhalf : (2 * n) / 2 = n := by omega
  rw [laterTokens.eq_def]
  simp [A.quote_ne_backslash, heven, hhalf]

/-- `2n` backslashes and a quote inside a quoted part, not doubled: `n` backslashes, and the quoted
part ends. -/
theorem laterTokens_close {rest : List α} (hrest : rest.head? ≠ some A.quote) (n : ℕ)
    (token : Option (List α)) :
    laterTokens A true (2 * n) token (A.quote :: rest) =
      laterTokens A false 0 (some (tokenText A n token)) rest := by
  have heven : (2 * n) % 2 = 0 := by omega
  have hhalf : (2 * n) / 2 = n := by omega
  rw [laterTokens.eq_def]
  cases rest with
  | nil => simp [A.quote_ne_backslash, heven, hhalf, laterTokens, tokenText]
  | cons c cs =>
      have hc : c ≠ A.quote := by
        rintro rfl
        exact hrest rfl
      simp [A.quote_ne_backslash, heven, hhalf, hc]

/-- A separator ends a token that has been started. -/
theorem laterTokens_end {rest tail : List α} (h : Separated A rest tail) {n : ℕ}
    {token : Option (List α)} (hstarted : token.isSome ∨ 0 < n) :
    laterTokens A false n token rest =
      tokenText A n token :: laterTokens A false 0 none tail := by
  have hsome : (token.isNone && n == 0) = false := by
    rcases hstarted with htoken | hn
    · rw [Option.isNone_eq_false_iff.mpr htoken, Bool.false_and]
    · rw [beq_eq_false_iff_ne.mpr (by omega), Bool.and_false]
  have hq := h.head_ne_quote
  rcases h with ⟨rfl, rfl⟩ | ⟨b, hb, rfl⟩
  · simp [laterTokens, hsome]
  · have hne : b ≠ A.quote := by
      rintro rfl
      exact hq rfl
    have hbs : b ≠ A.backslash := by
      rintro rfl
      rw [A.backslash_not_blank] at hb
      cases hb
    rw [laterTokens.eq_def]
    simp [hbs, hne, hb, hsome]

/-- Text without quotes and blanks, outside quoted parts, is copied up to the separator. -/
theorem laterTokens_text {text rest tail : List α} (hq : A.quote ∉ text)
    (hb : ∀ c ∈ text, A.isBlank c = false) (h : Separated A rest tail) {n : ℕ}
    {token : Option (List α)} (hstarted : token.isSome ∨ 0 < n ∨ text ≠ []) :
    laterTokens A false n token (text ++ rest) =
      (tokenText A n token ++ text) :: laterTokens A false 0 none tail := by
  induction text generalizing n token with
  | nil =>
      rw [List.nil_append, List.append_nil]
      refine laterTokens_end h (hstarted.imp_right fun hn => ?_)
      exact hn.resolve_right fun hne => hne rfl
  | cons c cs ih =>
      rw [List.mem_cons, not_or] at hq
      have hbs : ∀ d ∈ cs, A.isBlank d = false := fun d hd => hb d (List.mem_cons_of_mem c hd)
      rw [List.cons_append]
      by_cases hc : c = A.backslash
      · rw [hc, laterTokens_backslash, ih hq.2 hbs (.inr (.inl n.succ_pos)), tokenText_succ,
          List.append_assoc]
        rfl
      · rw [laterTokens_plain hc (Ne.symm hq.1) (.inr (hb c List.mem_cons_self)),
          ih hq.2 hbs (.inl rfl), tokenText_some, List.append_assoc]
        rfl

/-! ## Whole lines -/

/-- As a first token, `text` is read as `arg`. -/
def FirstReads (A : ArgvAlphabet α) (text arg : List α) : Prop :=
  ∀ rest tail, Separated A rest tail → firstToken A false (text ++ rest) = (arg, tail)

/-- As a later token, `text` is read as `arg`. -/
def Reads (A : ArgvAlphabet α) (text arg : List α) : Prop :=
  ∀ rest tail, Separated A rest tail →
    laterTokens A false 0 none (text ++ rest) = arg :: laterTokens A false 0 none tail

/-- Behind the first separator, joined texts are read as their arguments, one for each. -/
theorem laterTokens_joined {b : α} (hb : A.isBlank b = true) {texts args : List (List α)}
    (h : List.Forall₂ (Reads A) texts args) {tail : List α}
    (htail : Separated A (joined b texts) tail) : laterTokens A false 0 none tail = args := by
  induction h generalizing tail with
  | nil =>
      rcases htail with ⟨-, rfl⟩ | ⟨b', -, hcons⟩
      · simp [laterTokens]
      · cases hcons
  | @cons text arg texts args hread _ ih =>
      obtain ⟨tail', htail'⟩ := exists_separated_joined hb texts
      rcases htail with ⟨hnil, -⟩ | ⟨b', -, hcons⟩
      · cases hnil
      · rw [joined_cons] at hcons
        obtain ⟨-, rfl⟩ := List.cons.inj hcons
        rw [hread _ _ htail', ih htail']

/-- A line of texts is read as the arguments they stand for. -/
theorem argv_joined {b : α} (hb : A.isBlank b = true) {text arg : List α}
    {texts args : List (List α)} (hfirst : FirstReads A text arg)
    (h : List.Forall₂ (Reads A) texts args) :
    argv A (text ++ joined b texts) = arg :: args := by
  obtain ⟨tail, htail⟩ := exists_separated_joined hb texts
  rw [argv, hfirst _ _ htail, laterTokens_joined hb h htail]

end SysprimsPty.Found
