import SysprimsPty.Command.OsStr
import SysprimsPty.Core.Io
import SysprimsPty.Found.Doubling
import SysprimsPty.Found.Terminated

/-!
# What a Unix master says about its terminal

The name of the terminal, for which `openpty` asks the C library with a growing buffer, and the size,
which the system keeps and every process on the terminal can change.

* `ttyName`, `tty_name_exact` — the calls of the loop, and the names that it finds.
* `PtyFd.resize`, `PtyFd.getSize`, `getSize_after` — the size that the master reads is the one that was
  set last, by itself or by a program.
-/

namespace SysprimsPty.Master

open SysprimsPty.Command
open SysprimsPty.Core
open SysprimsPty.Found

/-! ## The name -/

/-- What `ttyname_r` does with a buffer; `written`: it returns 0, with those contents of the buffer. -/
inductive TtyNameAnswer
  | erange
  | failed (code : ℤ)
  | written (buf : Bytes)
  deriving DecidableEq

/-- The name in a buffer.
Source: `CStr::from_ptr`, `to_bytes` -/
def cstr (buf : Bytes) : Bytes := buf.takeWhile (· ≠ 0)

/-- What one turn of the loop returns; `none`: it goes on, or gives up because of the length. -/
def TtyNameAnswer.result : TtyNameAnswer → Option (Option Bytes)
  | .erange => none
  | .failed _ => some none
  | .written buf => some (some (cstr buf))

/-- The lengths of the buffers, and the name. `ttynameR` answers a call with a buffer of a length.
Source: `unix.rs` `tty_name` -/
def ttyName (ttynameR : ℕ → TtyNameAnswer) : List ℕ × Option Bytes :=
  let asked := growing (fun len => (ttynameR len).result) (64 * 1024) 128 (by decide)
  (asked.1, asked.2.join)

/-- The C library knows the name: it writes it with its terminator if the buffer has room, and
otherwise says that the buffer is too small. -/
def Names (ttynameR : ℕ → TtyNameAnswer) (name : Bytes) : Prop :=
  ∀ len, if name.length + 1 ≤ len then ∃ rest, ttynameR len = .written (name ++ 0 :: rest)
    else ttynameR len = .erange

/-- A terminated name is read as it is. -/
theorem cstr_append {name : Bytes} (hname : (0 : UInt8) ∉ name) (rest : Bytes) :
    cstr (name ++ 0 :: rest) = name :=
  takeWhile_string hname rest

/-- The loop goes on exactly as long as the buffer has no room. -/
theorem Names.result {ttynameR : ℕ → TtyNameAnswer} {name : Bytes} (hnames : Names ttynameR name)
    (hname : (0 : UInt8) ∉ name) (len : ℕ) :
    (ttynameR len).result = if name.length + 1 ≤ len then some (some name) else none := by
  have hlen := hnames len
  split_ifs at hlen ⊢
  · obtain ⟨rest, hrest⟩ := hlen
    rw [hrest, TtyNameAnswer.result, cstr_append hname]
  · rw [hlen]
    rfl

/-- The first ten buffers are within the limit, the eleventh is over it. -/
theorem within_limit : (∀ k < 10, 128 * 2 ^ k ≤ 64 * 1024) ∧ 64 * 1024 < 128 * 2 ^ 10 := by
  refine ⟨fun k hk => ?_, by decide⟩
  have hpow : 2 ^ k ≤ 2 ^ 9 := Nat.pow_le_pow_right (by omega) (by omega)
  omega

/-- **The name of the terminal.** Whatever `ttyname_r` answers, the loop ends after at most eleven
calls, with buffers of 128 bytes and then twice as many each time. For a terminal whose name the
library knows, the loop finds the whole name exactly if it is shorter than 131072 bytes, and no buffer
but the first has twice the room that the name needs.
Source: `unix.rs` `tty_name` -/
theorem tty_name_exact (ttynameR : ℕ → TtyNameAnswer) :
    (∃ n ≤ 10, (ttyName ttynameR).1 = (List.range (n + 1)).map (128 * 2 ^ ·)) ∧
      ∀ name, (0 : UInt8) ∉ name → Names ttynameR name →
        ((ttyName ttynameR).2 = if name.length < 131072 then some name else none) ∧
          ∀ len ∈ (ttyName ttynameR).1, len = 128 ∨ len < 2 * (name.length + 1) := by
  have hlen : 0 < 128 := by decide
  obtain ⟨hwithin, hover⟩ := within_limit
  unfold ttyName
  dsimp only
  constructor
  · obtain ⟨n, hasked, -⟩ := growing_spec (fun len => (ttynameR len).result) (64 * 1024) hlen
    have hcalls := length_growing_le (fun len => (ttynameR len).result) hlen hover
    rw [hasked, List.length_map, List.length_range] at hcalls
    exact ⟨n, Nat.le_of_succ_le_succ hcalls, hasked⟩
  · intro name hnul hnames
    have hresult := hnames.result hnul
    constructor
    · rw [growing_eq_of_needed hlen hresult hwithin hover]
      by_cases hshort : name.length < 131072
      · have hroom : name.length + 1 ≤ 128 * 2 ^ 10 := by omega
        rw [if_pos hshort, if_pos hroom, Option.join_some]
      · have hroom : ¬name.length + 1 ≤ 128 * 2 ^ 10 := by omega
        rw [if_neg hshort, if_neg hroom, Option.join_none]
    · refine lt_of_mem_growing hlen fun len hroom hnone => ?_
      rw [hresult, if_pos hroom] at hnone
      cases hnone

/-- `/dev/pts/3` -/
def somePts : Bytes := [47, 100, 101, 118, 47, 112, 116, 115, 47, 51]

/-- The C library knows that terminal. -/
def somePtsNamed (len : ℕ) : TtyNameAnswer :=
  if somePts.length + 1 ≤ len then .written (somePts ++ [0]) else .erange

/-- Its name is found. -/
theorem tty_name_exact_pts : (ttyName somePtsNamed).2 = some somePts := by
  have hnames : Names somePtsNamed somePts := by
    intro len
    unfold somePtsNamed
    split_ifs
    · exact ⟨[], rfl⟩
    · rfl
  exact ((tty_name_exact somePtsNamed).2 somePts (by decide) hnames).1

/-! ## The size -/

/-- Source: `libc::winsize` -/
structure Winsize where
  wsRow : UInt16
  wsCol : UInt16
  wsXpixel : UInt16
  wsYpixel : UInt16
  deriving DecidableEq

/-- The `winsize` that `openpty` and `PtyFd::resize` make of a size. -/
def Winsize.ofSize (size : PtySize) : Winsize where
  wsRow := size.rows
  wsCol := size.cols
  wsXpixel := size.pixelWidth
  wsYpixel := size.pixelHeight

/-- `ioctl` answers `none`, or the `{:?}` of the last error.
Source: `unix.rs` `PtyFd::resize` -/
def PtyFd.resize (tty : Winsize) (size : PtySize) (ioctl : Option String) : Winsize × Except Error Unit :=
  match ioctl with
  | some e => (tty, .error (.msg ("failed to ioctl(TIOCSWINSZ): " ++ e)))
  | none => (.ofSize size, .ok ())

/-- Source: `unix.rs` `PtyFd::get_size` -/
def PtyFd.getSize (tty : Winsize) (ioctl : Option String) : Except Error PtySize :=
  match ioctl with
  | some e => .error (.msg ("failed to ioctl(TIOCGWINSZ): " ++ e))
  | none => .ok {
      rows := tty.wsRow
      cols := tty.wsCol
      pixelWidth := tty.wsXpixel
      pixelHeight := tty.wsYpixel }

/-- What can change the size of a terminal. -/
inductive SizeEvent
  | resize (size : PtySize) (ioctl : Option String)
  /-- A program on the terminal sets the size. -/
  | program (size : PtySize)

/-- One event. -/
def SizeEvent.step (tty : Winsize) : SizeEvent → Winsize
  | .resize size ioctl => (PtyFd.resize tty size ioctl).1
  | .program size => .ofSize size

/-- The size that an event asks for and that the system grants. -/
def SizeEvent.sets : SizeEvent → Option PtySize
  | .resize size none => some size
  | .resize _ (some _) => none
  | .program size => some size

/-- A size comes back from its `winsize`. -/
theorem getSize_ofSize (size : PtySize) : PtyFd.getSize (.ofSize size) none = .ok size := rfl

/-- One event leaves the size that it sets, or the one before it. -/
theorem SizeEvent.step_eq (size : PtySize) (e : SizeEvent) :
    e.step (.ofSize size) = .ofSize (e.sets.getD size) := by
  rcases e with ⟨size', _ | e⟩ | size'
  · rfl
  · rfl
  · rfl

/-- **The size of a Unix terminal**: after any resizes of the master and its clones, granted or not, and
any changes by programs, `get_size` returns the size that was set last, and at first that of `openpty`. -/
theorem getSize_after (opened : PtySize) (events : List SizeEvent) :
    PtyFd.getSize (events.foldl SizeEvent.step (.ofSize opened)) none =
      .ok ((events.filterMap SizeEvent.sets).getLastD opened) := by
  induction events generalizing opened with
  | nil => exact getSize_ofSize opened
  | cons e events ih =>
      rw [List.foldl_cons, SizeEvent.step_eq, ih]
      rcases hsets : e.sets with _ | size
      · rw [List.filterMap_cons_none hsets, Option.getD_none]
      · rw [List.filterMap_cons_some hsets, Option.getD_some, List.getLastD_cons]

end SysprimsPty.Master
