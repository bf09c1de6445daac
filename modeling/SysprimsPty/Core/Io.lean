import Mathlib.Data.Int.Notation
import Mathlib.Data.Nat.Notation

/-!
# The values that cross the crate's interfaces

`IoResult`, `ExitStatus`, `PtySize`, `Duration` and the errors of `src/lib.rs`, with the parts of
`std::io::Error` and `anyhow::Error` that the crate builds or passes on.
-/

namespace SysprimsPty.Core

/-- `std::time::Duration`, in nanoseconds. -/
abbrev Duration := ℕ

/-- `std::time::Instant`, in nanoseconds since an arbitrary origin. -/
abbrev Instant := ℕ

/-- Source: `std::time::Duration::from_secs` -/
def Duration.fromSecs (n : ℕ) : Duration := n * 1000000000

/-- Source: `std::time::Duration::from_millis` -/
def Duration.fromMillis (n : ℕ) : Duration := n * 1000000

/-- The `std::io::ErrorKind`s that the crate itself chooses. -/
inductive ErrorKind
  | brokenPipe
  | timedOut
  | other
  deriving DecidableEq, Repr

/-- `std::io::Error`: an operating-system code (`last_os_error`), or a kind with a message. -/
inductive IoError
  | os (code : ℤ)
  | custom (kind : ErrorKind) (message : String)
  deriving DecidableEq

/-- Source: `std::io::Result` -/
abbrev IoResult (α : Type) := Except IoError α

/-- `anyhow::Error`: an I/O error, a message built by the crate, or an error handed over by one of
the crates it calls. -/
inductive Error
  | io (error : IoError)
  | msg (message : String)
  | foreign (message : String)
  deriving DecidableEq

/-- `ExitStatus`: a process return code and, after a signal, its name.
Source: `lib.rs` `ExitStatus` -/
structure ExitStatus where
  code : UInt32
  signal : Option String
  deriving DecidableEq

/-- Source: `lib.rs` `ExitStatus::with_exit_code` -/
def ExitStatus.withExitCode (code : UInt32) : ExitStatus := { code, signal := none }

/-- Source: `lib.rs` `ExitStatus::exit_code` -/
def ExitStatus.exitCode (s : ExitStatus) : UInt32 := s.code

/-- `PtySize`: lines and columns of text, and the size in pixels.
Source: `lib.rs` `PtySize` -/
structure PtySize where
  rows : UInt16
  cols : UInt16
  pixelWidth : UInt16
  pixelHeight : UInt16
  deriving DecidableEq

/-! ## Calls in a row -/

section Calls

variable {ε α β : Type} {x : Except ε α} {b : β}

/-- Two calls in a row return what the second one makes of the first one's answer. -/
theorem bind_eq_ok_iff {f : α → Except ε β} : x >>= f = .ok b ↔ ∃ a, x = .ok a ∧ f a = .ok b := by
  rcases x with e | a
  · simp [bind, Except.bind]
  · simp [bind, Except.bind]

/-- Two steps in a row succeed exactly if both do. -/
theorem seq_eq_ok_iff {step : Except ε Unit} {y : Except ε β} :
    (step >>= fun _ => y) = .ok b ↔ step = .ok () ∧ y = .ok b := by
  rw [bind_eq_ok_iff]
  constructor
  · rintro ⟨⟨⟩, hstep, hy⟩
    exact ⟨hstep, hy⟩
  · rintro ⟨hstep, hy⟩
    exact ⟨(), hstep, hy⟩

end Calls

end SysprimsPty.Core
