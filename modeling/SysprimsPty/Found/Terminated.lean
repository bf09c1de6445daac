import Mathlib.Data.List.Basic

/-!
# Blocks of terminated strings

Strings over an arbitrary alphabet, each followed by a terminator, and one more terminator at the
end. A reader takes the strings up to the first empty one.

* `block`, `readBlock` — the block of a list of strings, and its reader.
* `readBlock_block` — the reader gives back strings that are not empty and hold no terminator.
* `DoublyTerminated`, `block_doublyTerminated` — two terminators stand at the end and nowhere else,
  if there is a string.
* `upToDouble` — the text up to its first two terminators in a row.
* `pair`, `splitPair` — a name and a value around a separator, which the name may begin with.
-/

namespace SysprimsPty.Found

variable {α : Type*} (z : α)

/-- Each string with its terminator, and the last terminator. -/
def block (strings : List (List α)) : List α := strings.flatMap (· ++ [z]) ++ [z]

/-- Two terminators stand at the end of the text, and nowhere before. -/
structure DoublyTerminated (text : List α) : Prop where
  ends : ∃ body, text = body ++ [z, z]
  first : ∀ before after, text = before ++ z :: z :: after → after = []

section reader

variable [DecidableEq α]

/-- The strings up to the first empty one and what follows its terminator; `read` is what has been
read of the next string. `none`: the text ends before the empty string. -/
def readBlock (read : List α) : List α → Option (List (List α) × List α)
  | [] => none
  | c :: cs =>
      if c = z then
        if read = [] then some ([], cs)
        else (readBlock [] cs).map fun (strings, rest) => (read :: strings, rest)
      else readBlock (read ++ [c]) cs

/-- The text up to its first two terminators in a row. `none`: it holds no two in a row. -/
def upToDouble : List α → Option (List α)
  | c :: d :: cs =>
      if c = z ∧ d = z then some [c, d] else (upToDouble (d :: cs)).map (c :: ·)
  | _ => none

end reader

variable {z}

theorem block_nil : block z ([] : List (List α)) = [z] := rfl

theorem block_cons (s : List α) (strings : List (List α)) :
    block z (s :: strings) = s ++ z :: block z strings := by
  simp [block]

/-- Where a terminator can stand in a text that begins with a string. -/
theorem split_at_terminator {s : List α} (hs : z ∉ s) {rest before after : List α}
    (h : s ++ z :: rest = before ++ z :: after) :
    (before = s ∧ after = rest) ∨
      ∃ before', before = s ++ z :: before' ∧ rest = before' ++ z :: after := by
  induction s generalizing before with
  | nil =>
      cases before with
      | nil => exact .inl ⟨rfl, (List.cons.inj h).2.symm⟩
      | cons c before =>
          obtain ⟨rfl, hrest⟩ := List.cons.inj h
          exact .inr ⟨before, rfl, hrest⟩
  | cons d s ih =>
      rw [List.mem_cons, not_or] at hs
      cases before with
      | nil => exact absurd (List.cons.inj h).1.symm hs.1
      | cons c before =>
          obtain ⟨rfl, hrest⟩ := List.cons.inj h
          rcases ih hs.2 hrest with ⟨rfl, hafter⟩ | ⟨before', rfl, hbefore'⟩
          · exact .inl ⟨rfl, hafter⟩
          · exact .inr ⟨before', rfl, hbefore'⟩

/-- Inside a block two terminators in a row are its end. -/
theorem block_first {strings : List (List α)} (h : ∀ s ∈ strings, s ≠ [] ∧ z ∉ s)
    {before after : List α} (hsplit : block z strings = before ++ z :: z :: after) :
    after = [] := by
  induction strings generalizing before with
  | nil =>
      have hlength := congrArg List.length hsplit
      simp [block_nil] at hlength
      omega
  | cons s strings ih =>
      have htail : ∀ t ∈ strings, t ≠ [] ∧ z ∉ t := fun t ht => h t (List.mem_cons_of_mem s ht)
      rw [block_cons] at hsplit
      rcases split_at_terminator (h s List.mem_cons_self).2 hsplit with
        ⟨-, hafter⟩ | ⟨before', -, hrest⟩
      · -- the second terminator is the first unit of what follows the string
        cases strings with
        | nil => exact (List.cons.inj hafter).2
        | cons t strings =>
            obtain ⟨hne, ht⟩ := htail t List.mem_cons_self
            rw [block_cons] at hafter
            cases t with
            | nil => exact absurd rfl hne
            | cons c t =>
                obtain ⟨rfl, -⟩ := List.cons.inj hafter
                exact absurd List.mem_cons_self ht
      · exact ih htail hrest

/-- A block of at least one string is doubly terminated. -/
theorem block_doublyTerminated {strings : List (List α)} (hne : strings ≠ [])
    (h : ∀ s ∈ strings, s ≠ [] ∧ z ∉ s) : DoublyTerminated z (block z strings) where
  ends := by
    obtain ⟨strings', s, rfl⟩ := List.eq_nil_or_concat strings |>.resolve_left hne
    exact ⟨strings'.flatMap (· ++ [z]) ++ s, by simp [block]⟩
  first := fun _ _ hsplit => block_first h hsplit

/-- The block of no string is too short to be doubly terminated. -/
theorem not_doublyTerminated_nil : ¬ DoublyTerminated z (block z []) := by
  rintro ⟨⟨body, hbody⟩, -⟩
  have hlength := congrArg List.length hbody
  simp [block_nil] at hlength

/-! ## Reading -/

section reader

variable [DecidableEq α]

/-- A string is read up to its terminator. -/
theorem readBlock_string {s : List α} (hs : z ∉ s) {read : List α} (hne : read ++ s ≠ [])
    (rest : List α) :
    readBlock z read (s ++ z :: rest) =
      (readBlock z [] rest).map fun (strings, rest) => ((read ++ s) :: strings, rest) := by
  induction s generalizing read with
  | nil =>
      rw [List.append_nil] at hne ⊢
      rw [List.nil_append, readBlock, if_pos rfl, if_neg hne]
  | cons c s ih =>
      rw [List.mem_cons, not_or] at hs
      have happend : read ++ [c] ++ s = read ++ c :: s := by simp
      rw [List.cons_append, readBlock, if_neg (Ne.symm hs.1), ih hs.2 (by simp), happend]

/-- So does a reader of a single string. -/
theorem takeWhile_string {s : List α} (hs : z ∉ s) (rest : List α) :
    (s ++ z :: rest).takeWhile (· ≠ z) = s := by
  rw [List.takeWhile_append_of_pos]
  · simp
  · intro c hc
    have hne : c ≠ z := fun heq => hs (heq ▸ hc)
    simpa using hne

/-- **The reader gives back the strings**, and what follows the block. -/
theorem readBlock_block {strings : List (List α)} (h : ∀ s ∈ strings, s ≠ [] ∧ z ∉ s)
    (rest : List α) : readBlock z [] (block z strings ++ rest) = some (strings, rest) := by
  induction strings with
  | nil => simp [block, readBlock]
  | cons s strings ih =>
      obtain ⟨hne, hs⟩ := h s List.mem_cons_self
      have htail := ih fun t ht => h t (List.mem_cons_of_mem s ht)
      rw [block_cons, List.append_assoc, List.cons_append, readBlock_string hs (by simpa using hne),
        htail]
      rfl

/-- A doubly terminated text is read to its end. -/
theorem DoublyTerminated.upToDouble_eq {text : List α} (h : DoublyTerminated z text) :
    upToDouble z text = some text := by
  induction text with
  | nil =>
      obtain ⟨body, hbody⟩ := h.ends
      simp at hbody
  | cons c cs ih =>
      obtain ⟨body, hbody⟩ := h.ends
      rcases cs with _ | ⟨d, cs⟩
      · have hlength := congrArg List.length hbody
        simp at hlength
      · by_cases hdouble : c = z ∧ d = z
        · obtain ⟨rfl, rfl⟩ := hdouble
          rw [upToDouble, if_pos ⟨rfl, rfl⟩, h.first [] cs rfl]
        · -- the two terminators are not the first two characters
          have htail : DoublyTerminated z (d :: cs) := by
            refine ⟨?_, fun before after hsplit => h.first (c :: before) after ?_⟩
            · cases body with
              | nil =>
                  simp only [List.nil_append, List.cons.injEq] at hbody
                  exact absurd ⟨hbody.1, hbody.2.1⟩ hdouble
              | cons b body => exact ⟨body, (List.cons.inj hbody).2⟩
            · rw [hsplit, List.cons_append]
          rw [upToDouble, if_neg hdouble, ih htail, Option.map_some]

end reader

/-! ## Names and values -/

variable (sep : α)

/-- A name, the separator and a value. -/
def pair (name value : List α) : List α := name ++ sep :: value

variable [DecidableEq α]

/-- The text split at its first separator. -/
def splitAtSep : List α → Option (List α × List α)
  | [] => none
  | c :: cs =>
      if c = sep then some ([], cs)
      else (splitAtSep cs).map fun (name, value) => (c :: name, value)

/-- The text split at the first separator that is not its first character. -/
def splitPair : List α → Option (List α × List α)
  | [] => none
  | c :: cs => (splitAtSep sep cs).map fun (name, value) => (c :: name, value)

variable {sep}

theorem splitAtSep_pair {name : List α} (h : sep ∉ name) (value : List α) :
    splitAtSep sep (pair sep name value) = some (name, value) := by
  induction name with
  | nil => simp [pair, splitAtSep]
  | cons c name ih =>
      rw [List.mem_cons, not_or] at h
      rw [pair] at ih
      rw [pair, List.cons_append, splitAtSep, if_neg (Ne.symm h.1), ih h.2]
      rfl

/-- A pair is split into its name and its value, if the name has no separator after its first
character. -/
theorem splitPair_pair {name : List α} (hne : name ≠ []) (h : sep ∉ name.tail) (value : List α) :
    splitPair sep (pair sep name value) = some (name, value) := by
  cases name with
  | nil => exact absurd rfl hne
  | cons c name =>
      have htail := splitAtSep_pair h value
      rw [List.tail_cons, pair] at htail
      rw [pair, List.cons_append, splitPair, htail]
      rfl

end SysprimsPty.Found
