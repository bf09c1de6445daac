import Mathlib.Data.List.Basic

/-!
# Canonical input

The input side of a terminal in canonical mode: what is typed is collected in a line, and a program
reads ended lines only. A read of an empty line is an end of file. What a terminal does with a symbol is
its own affair (editing keys, signals, mappings, limits); only the newline and the end-of-file key have
laws here.

* `Terminal` — the states of a terminal, what a symbol does, and what can be seen of a state.
* `Terminal.NewlineKey`, `Terminal.EofKey` — the laws of the two keys.
* `Terminal.ends_typeAll_newline_eof` — an end of file after a newline always ends the input, unless the
  newline is quoted.
* `Terminal.readToEnd_newline_eof` — what a program reads before.
-/

namespace SysprimsPty.Found

/-- A terminal with states `σ`. -/
structure Terminal (σ α : Type*) where
  /-- Type one symbol. -/
  input : σ → α → σ
  /-- The ended lines, oldest first. -/
  ready : σ → List (List α)
  /-- What would be read, before the newline, of the line that is still edited if it were ended now. -/
  pending : σ → List α
  /-- The next symbol is taken as it is. -/
  quoted : σ → Bool

/-- What a program reads up to its end of file; `none`: it goes on to wait for a line. -/
def readToEnd {α : Type*} : List (List α) → Option (List α)
  | [] => none
  | [] :: _ => some []
  | (c :: line) :: ready => (readToEnd ready).map (c :: line ++ ·)

variable {σ α : Type*}

/-- The lines before the first empty one are read. -/
theorem readToEnd_append {ready : List (List α)} (h : [] ∉ ready) (rest : List (List α)) :
    readToEnd (ready ++ [] :: rest) = some ready.flatten := by
  induction ready with
  | nil => rfl
  | cons line ready ih =>
      rcases line with _ | ⟨c, line⟩
      · exact absurd List.mem_cons_self h
      · have hready : [] ∉ ready := fun hmem => h (List.mem_cons_of_mem _ hmem)
        rw [List.cons_append, readToEnd, ih hready]
        rfl

namespace Terminal

variable (t : Terminal σ α)

/-- Type a text. -/
def typeAll (s : σ) (text : List α) : σ := text.foldl t.input s

/-- A program comes to an end of file. -/
def Ends (s : σ) : Prop := [] ∈ t.ready s

/-- **The newline key**: it ends the line with itself, and a quoted one is a part of the line. -/
structure NewlineKey (nl : α) : Prop where
  ready : ∀ s, t.quoted s = false → t.ready (t.input s nl) = t.ready s ++ [t.pending s ++ [nl]]
  pending : ∀ s, t.quoted s = false → t.pending (t.input s nl) = []
  unquoted : ∀ s, t.quoted (t.input s nl) = false
  quoted_ready : ∀ s, t.quoted s = true → t.ready (t.input s nl) = t.ready s
  quoted_pending : ∀ s, t.quoted s = true → t.pending (t.input s nl) ≠ []

/-- **The end-of-file key**: one that is not quoted ends the line before itself. -/
structure EofKey (eot : α) : Prop where
  ready : ∀ s, t.quoted s = false → t.ready (t.input s eot) = t.ready s ++ [t.pending s]

variable {t} {s : σ} {nl eot : α}

/-- An end of file alone ends the input exactly at the beginning of a line. -/
theorem EofKey.ends_input (h : t.EofKey eot) (hquoted : t.quoted s = false) :
    t.Ends (t.input s eot) ↔ t.Ends s ∨ t.pending s = [] := by
  unfold Ends
  rw [h.ready s hquoted, List.mem_append, List.mem_singleton, eq_comm (a := [])]

/-- A newline ends no input, but the line. -/
theorem NewlineKey.ends_input (h : t.NewlineKey nl) : t.Ends (t.input s nl) ↔ t.Ends s := by
  unfold Ends
  rcases hquoted : t.quoted s with _ | _
  · rw [h.ready s hquoted]
    simp
  · rw [h.quoted_ready s hquoted]

/-- **A newline and an end of file** end the input exactly if the newline is not quoted. -/
theorem ends_typeAll_newline_eof (hnl : t.NewlineKey nl) (heot : t.EofKey eot) :
    t.Ends (t.typeAll s [nl, eot]) ↔ t.Ends s ∨ t.quoted s = false := by
  show t.Ends (t.input (t.input s nl) eot) ↔ _
  rw [heot.ends_input (hnl.unquoted s), hnl.ends_input]
  apply or_congr_right
  rcases hquoted : t.quoted s with _ | _
  · exact iff_of_true (hnl.pending s hquoted) rfl
  · exact iff_of_false (hnl.quoted_pending s hquoted) (by simp)

/-- **What is read** before the end of file: the ended lines, what is left of the line that was still
edited, and the newline. -/
theorem readToEnd_newline_eof (hnl : t.NewlineKey nl) (heot : t.EofKey eot)
    (hquoted : t.quoted s = false) (hready : ¬ t.Ends s) :
    readToEnd (t.ready (t.typeAll s [nl, eot])) =
      some ((t.ready s).flatten ++ t.pending s ++ [nl]) := by
  have htyped : t.ready (t.typeAll s [nl, eot]) = (t.ready s ++ [t.pending s ++ [nl]]) ++ [[]] := by
    show t.ready (t.input (t.input s nl) eot) = _
    rw [heot.ready _ (hnl.unquoted s), hnl.ready s hquoted, hnl.pending s hquoted]
  have hlines : [] ∉ t.ready s ++ [t.pending s ++ [nl]] := by
    simpa [Ends] using hready
  rw [htyped, readToEnd_append hlines]
  simp

end Terminal

end SysprimsPty.Found
