import SysprimsPty.Found.LineDiscipline
import SysprimsPty.Master.Writer

/-!
# The end of a Unix writer

What the writer of a Unix master sends: the calls of its user, and the newline and the end-of-file key
at its drop. The terminal is a parameter, with the laws of these two keys in canonical mode and of no
other; the drop learns the end-of-file key from `tcgetattr`. The system may take a part of a buffer,
interrupt a write or fail it.

* `writeAll`, `dropInput` — `std::io::Write::write_all`, and what the drop sends.
* `writeAll_spec` — a part of the buffer is sent, and all of it exactly if the call succeeds.
* `dropped_writer_ends_input_iff` — when the drop ends the input of a program on the terminal, and
  what the program reads before.
-/

namespace SysprimsPty.Master

open SysprimsPty.Core
open SysprimsPty.Found

/-! ## Writing -/

/-- What the system answers to a write of the descriptor. -/
inductive WriteAnswer
  /-- It takes that much of the buffer, if there is so much. -/
  | wrote (n : ℕ)
  /-- `ErrorKind::Interrupted` -/
  | interrupted
  | failed (e : String)
  deriving DecidableEq

/-- What the terminal gets of a buffer.
Source: `unix.rs` `Write for UnixMasterWriter`, `write` -/
def WriteAnswer.taken (buf : List UInt8) : WriteAnswer → List UInt8
  | .wrote n => buf.take n
  | .interrupted | .failed _ => []

/-- What the terminal gets of a buffer, and the result; `none`: the last write does not return.
Source: `std::io::Write::write_all` -/
def writeAll : List UInt8 → List WriteAnswer → List UInt8 × Option (Except String Unit)
  | [], _ => ([], some (.ok ()))
  | _ :: _, [] => ([], none)
  | c :: buf, .interrupted :: answers => writeAll (c :: buf) answers
  | _ :: _, .failed e :: _ => ([], some (.error e))
  | _ :: _, .wrote 0 :: _ => ([], some (.error "failed to write whole buffer"))
  | c :: buf, .wrote (n + 1) :: answers =>
      let (sent, result) := writeAll (buf.drop n) answers
      (c :: buf.take n ++ sent, result)

/-- **A part of the buffer is sent**, and all of it exactly if the call succeeds. -/
theorem writeAll_spec (buf : List UInt8) (answers : List WriteAnswer) :
    (writeAll buf answers).1 <+: buf ∧
      ((writeAll buf answers).2 = some (.ok ()) ↔ (writeAll buf answers).1 = buf) := by
  induction answers generalizing buf with
  | nil =>
      rcases buf with _ | ⟨c, buf⟩
      · simp [writeAll]
      · simp [writeAll]
  | cons answer answers ih =>
      rcases buf with _ | ⟨c, buf⟩
      · simp [writeAll]
      · rcases answer with n | _ | e
        · rcases n with _ | n
          · simp [writeAll]
          · obtain ⟨⟨rest, hrest⟩, hall⟩ := ih (buf.drop n)
            simp only [writeAll]
            constructor
            · refine ⟨rest, ?_⟩
              rw [List.append_assoc, List.cons_append, hrest, List.take_append_drop]
            · rw [hall]
              conv_rhs => rw [← List.take_append_drop n buf, List.cons_append, List.cons_inj_right,
                List.take_append_drop]
              rw [← List.append_right_inj (buf.take n), List.take_append_drop]
        · exact ih (c :: buf)
        · simp [writeAll]

/-! ## The drop -/

/-- `b'\n'` -/
def newline : UInt8 := 0x0A

/-- What the system answers to the drop of a writer. -/
structure DropAnswers where
  /-- The `c_cc[VEOF]` of `tcgetattr`; `none`: it fails. -/
  veof : Option UInt8
  writes : List WriteAnswer

/-- The `write_all` of the drop, if it is made.
Source: `unix.rs` `Drop for UnixMasterWriter` -/
def DropAnswers.farewell (a : DropAnswers) : Option (List UInt8 × Option (Except String Unit)) :=
  match a.veof with
  | none => none
  | some eot => if eot ≠ 0 then some (writeAll [newline, eot] a.writes) else none

/-- What the terminal gets from the drop. -/
def dropInput (a : DropAnswers) : List UInt8 := (a.farewell.map Prod.fst).getD []

variable {σ : Type*}

/-- The terminal after the calls of the user, each with the answer of the system. -/
def afterCalls (t : Terminal σ UInt8) (before : σ) (calls : List (List UInt8 × WriteAnswer)) : σ :=
  t.typeAll before (calls.flatMap fun (buf, answer) => answer.taken buf)

/-- The terminal after the drop. -/
def afterDrop (t : Terminal σ UInt8) (s : σ) (a : DropAnswers) : σ := t.typeAll s (dropInput a)

/-- `tcgetattr` gives the key that the terminal takes for an end of file. -/
def DropAnswers.Truthful (a : DropAnswers) (t : Terminal σ UInt8) : Prop :=
  ∀ eot, a.veof = some eot → eot ≠ 0 → t.EofKey eot

/-- What the drop sends: nothing, the newline alone, or the newline and the end-of-file key, the latter
exactly if its `write_all` is made and succeeds. -/
theorem dropInput_cases (a : DropAnswers) :
    (∃ eot, a.veof = some eot ∧ eot ≠ 0 ∧ dropInput a = [newline, eot] ∧
        a.farewell.map Prod.snd = some (some (.ok ()))) ∨
      ((dropInput a = [] ∨ dropInput a = [newline]) ∧
        a.farewell.map Prod.snd ≠ some (some (.ok ()))) := by
  unfold dropInput DropAnswers.farewell
  rcases a.veof with _ | eot
  · simp
  · by_cases heot : eot = 0
    · simp [heot]
    · obtain ⟨hpart, hall⟩ := writeAll_spec [newline, eot] a.writes
      simp only [ne_eq, heot, not_false_eq_true, if_true, Option.map_some, Option.getD_some,
        Option.some.injEq, hall, exists_eq_left', true_and]
      rcases hsent : (writeAll [newline, eot] a.writes).1 with _ | ⟨c, _ | ⟨d, _ | ⟨e, sent⟩⟩⟩
      all_goals rw [hsent] at hpart
      · simp
      · obtain ⟨rest, hrest⟩ := hpart
        simp_all
      · obtain ⟨rest, hrest⟩ := hpart
        simp_all
      · have hlength := hpart.length_le
        simp at hlength

/-- **What the drop does** to a terminal in a state `s`. -/
theorem afterDrop_spec {t : Terminal σ UInt8} (hnewline : t.NewlineKey newline) {a : DropAnswers}
    (hveof : a.Truthful t) (s : σ) :
    (t.Ends (afterDrop t s a) ↔
        t.Ends s ∨ (t.quoted s = false ∧ a.farewell.map Prod.snd = some (some (.ok ())))) ∧
      (¬ t.Ends s → t.Ends (afterDrop t s a) →
        readToEnd (t.ready (afterDrop t s a)) =
          some ((t.ready s).flatten ++ t.pending s ++ [newline])) := by
  unfold afterDrop
  rcases dropInput_cases a with ⟨eot, hget, heot, hsent, hdone⟩ | ⟨hsent, hdone⟩
  · have hkey := hveof eot hget heot
    rw [hsent]
    have hends := Terminal.ends_typeAll_newline_eof (s := s) hnewline hkey
    refine ⟨by simp [hends, hdone], fun hnot hnow => ?_⟩
    exact Terminal.readToEnd_newline_eof hnewline hkey ((hends.mp hnow).resolve_left hnot) hnot
  · have hends : t.Ends (t.typeAll s (dropInput a)) ↔ t.Ends s := by
      rcases hsent with hsent | hsent
      · rw [hsent]
        rfl
      · rw [hsent]
        exact hnewline.ends_input
    exact ⟨by simp [hends, hdone], fun hnot hnow => absurd (hends.mp hnow) hnot⟩

/-- **Dropping the writer ends the input.** For every terminal that obeys the laws of the newline and of
the end-of-file key, whatever it does with other bytes, every state of it, every sequence of writes
through the writer and every answer of the system: after the drop a program on the terminal comes to an
end of file if and only if it did so before, or the drop could send both keys and the terminal was not
about to take the next byte as it is; and up to a new end of file the program reads every ended line and
what the terminal keeps of the line that was still edited.
Source: `unix.rs` `UnixMasterWriter`, `Drop for UnixMasterWriter` -/
theorem dropped_writer_ends_input_iff {t : Terminal σ UInt8} (hnewline : t.NewlineKey newline)
    {a : DropAnswers} (hveof : a.Truthful t) (before : σ) (calls : List (List UInt8 × WriteAnswer)) :
    (t.Ends (afterDrop t (afterCalls t before calls) a) ↔
        t.Ends (afterCalls t before calls) ∨
          (t.quoted (afterCalls t before calls) = false ∧
            a.farewell.map Prod.snd = some (some (.ok ())))) ∧
      (¬ t.Ends (afterCalls t before calls) →
        t.Ends (afterDrop t (afterCalls t before calls) a) →
        readToEnd (t.ready (afterDrop t (afterCalls t before calls) a)) =
          some ((t.ready (afterCalls t before calls)).flatten ++
            t.pending (afterCalls t before calls) ++ [newline])) :=
  afterDrop_spec hnewline hveof _

/-- The input of `cookedTerminal`. -/
structure CookedInput where
  line : List UInt8
  quoted : Bool
  ready : List (List UInt8)

/-- A terminal with the keys newline, Ctrl-D for an end of file and Ctrl-V before a byte that is taken as
it is, and no others. -/
def cookedTerminal : Terminal CookedInput UInt8 where
  input q c :=
    if q.quoted then { q with line := q.line ++ [c], quoted := false }
    else if c = newline then { q with line := [], ready := q.ready ++ [q.line ++ [c]] }
    else if c = 0x04 then { q with line := [], ready := q.ready ++ [q.line] }
    else if c = 0x16 then { q with quoted := true }
    else { q with line := q.line ++ [c] }
  ready := CookedInput.ready
  pending := CookedInput.line
  quoted := CookedInput.quoted

theorem cookedTerminal_newline : cookedTerminal.NewlineKey newline := by
  refine ⟨?_, ?_, ?_, ?_, ?_⟩
  all_goals
    rintro ⟨line, quoted, ready⟩
    rcases quoted with _ | _
    all_goals simp [cookedTerminal]

theorem cookedTerminal_eof : cookedTerminal.EofKey 0x04 := by
  refine ⟨?_⟩
  rintro ⟨line, quoted, ready⟩ hquoted
  obtain rfl : quoted = false := hquoted
  rfl

/-- A writer that has written `l`, `s`, a newline and half a line, and an interrupted drop. -/
theorem dropped_writer_ends_input_half :
    readToEnd (cookedTerminal.ready (afterDrop cookedTerminal
      (afterCalls cookedTerminal ⟨[], false, []⟩
        [([0x6C, 0x73, newline], .wrote 9), ([0x61, 0x62], .wrote 1)])
      { veof := some 0x04, writes := [.wrote 1, .interrupted, .wrote 1] })) =
      some [0x6C, 0x73, newline, 0x61, newline] := by
  have hveof : DropAnswers.Truthful
      { veof := some 0x04, writes := [.wrote 1, .interrupted, .wrote 1] } cookedTerminal := by
    intro eot heot _
    rw [← Option.some.inj heot]
    exact cookedTerminal_eof
  have hspec := dropped_writer_ends_input_iff cookedTerminal_newline hveof ⟨[], false, []⟩
    [([0x6C, 0x73, newline], .wrote 9), ([0x61, 0x62], .wrote 1)]
  have hnot : ¬ cookedTerminal.Ends (afterCalls cookedTerminal ⟨[], false, []⟩
      [([0x6C, 0x73, newline], .wrote 9), ([0x61, 0x62], .wrote 1)]) := by
    show [] ∉ [[0x6C, 0x73, newline]]
    decide
  exact hspec.2 hnot (hspec.1.mpr (.inr ⟨rfl, rfl⟩))

end SysprimsPty.Master
