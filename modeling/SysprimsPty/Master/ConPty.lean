import Mathlib.Algebra.Group.Int.Defs
import Mathlib.Algebra.Group.Nat.Defs
import SysprimsPty.Core.Io

/-!
# The master end of a ConPTY

`open_conpty` and the `MasterPty` calls of `ConPtyMasterPty`, on the `Inner` that the master, its
clones and the slave share. What the console answers to a call is a parameter of the call.

* `openConpty`, `Inner.resize`, `Inner.getSize`, `Inner.takeWriter` — the calls.
* `toInt_toInt16_iff` — when a `u16` survives the cast to the `SHORT` of a `COORD`.
-/

namespace SysprimsPty.Master

open SysprimsPty.Core

/-- `winapi` `HRESULT` -/
abbrev Hresult := Int32

/-- `winapi` `S_OK` -/
def sOk : Hresult := 0

/-- `winapi` `COORD` -/
structure Coord where
  x : Int16
  y : Int16
  deriving DecidableEq

/-- `COORD { X: cols as i16, Y: rows as i16 }` -/
def Coord.ofSize (cols rows : UInt16) : Coord := { x := cols.toInt16, y := rows.toInt16 }

/-- A `u16` survives the cast to `i16` in the lower half of its range. -/
theorem toInt_toInt16_iff (n : UInt16) : n.toInt16.toInt = n.toNat ↔ n.toNat < 2 ^ 15 := by
  have hn : n.toNat < 2 ^ 16 := n.toNat_lt
  have hcast : n.toInt16.toInt = if 2 * n.toNat < 2 ^ 16 then (n.toNat : ℤ) else n.toNat - 2 ^ 16 := by
    rw [← Int16.toInt_toBitVec, UInt16.toBitVec_toInt16, BitVec.toInt_eq_toNat_cond]
    rfl
  rw [hcast]
  split <;> omega

/-- A pipe of `filedescriptor`, with its two ends. -/
structure Pipe (F : Type) where
  read : F
  write : F

/-- Source: `win/psuedocon.rs` `PsuedoCon` -/
structure PsuedoCon (H : Type) where
  con : H
  deriving DecidableEq

/-- What master and slave share.
Source: `win/conpty.rs` `Inner` -/
structure Inner (F H : Type) where
  con : PsuedoCon H
  readable : F
  writable : Option F
  size : PtySize
  deriving DecidableEq

variable {F H : Type}

/-- The answer of `CreatePseudoConsole` is the `HRESULT` and the console.
Source: `win/psuedocon.rs` `PsuedoCon::new` -/
def PsuedoCon.new (answer : Hresult × H) : Except Error (PsuedoCon H) :=
  if answer.1 = sOk then .ok { con := answer.2 }
  else .error (.msg ("failed to create psuedo console: HRESULT " ++ toString answer.1))

/-- Source: `win/psuedocon.rs` `PsuedoCon::resize` -/
def PsuedoCon.resize (size : Coord) (answer : Hresult) : Except Error Unit :=
  if answer = sOk then .ok ()
  else .error (.msg ("failed to resize console to " ++ toString size.x ++ "x" ++ toString size.y ++
    ": HRESULT: " ++ toString answer))

/-- What the calls of `open_conpty` answer. -/
structure OpenAnswers (F H : Type) where
  stdin : Except String (Pipe F)
  stdout : Except String (Pipe F)
  create : Hresult × H

/-- A size that was asked for, and the `COORD` that the console was given for it. -/
structure Passed where
  size : PtySize
  coord : Coord
  deriving DecidableEq

/-- The console calls of `open_conpty` and its result.
Source: `win/conpty.rs` `open_conpty` -/
def openConpty (size : PtySize) (answers : OpenAnswers F H) : List Passed × Except Error (Inner F H) :=
  match answers.stdin with
  | .error e => ([], .error (.foreign e))
  | .ok stdin =>
  match answers.stdout with
  | .error e => ([], .error (.foreign e))
  | .ok stdout =>
    ([{ size, coord := .ofSize size.cols size.rows }],
      match PsuedoCon.new answers.create with
      | .error e => .error e
      | .ok con => .ok { con, readable := stdout.read, writable := some stdin.write, size })

namespace Inner

/-- Source: `win/conpty.rs` `Inner::resize` -/
def resize (inner : Inner F H) (numRows numCols pixelWidth pixelHeight : UInt16) (answer : Hresult) :
    Inner F H × Except Error Unit :=
  match PsuedoCon.resize (.ofSize numCols numRows) answer with
  | .error e => (inner, .error e)
  | .ok () => ({ inner with size := { rows := numRows, cols := numCols, pixelWidth, pixelHeight } },
      .ok ())

/-- Source: `win/conpty.rs` `MasterPty for ConPtyMasterPty`, `resize` -/
def masterResize (inner : Inner F H) (size : PtySize) (answer : Hresult) :
    Inner F H × Except Error Unit :=
  inner.resize size.rows size.cols size.pixelWidth size.pixelHeight answer

/-- Source: `win/conpty.rs` `MasterPty for ConPtyMasterPty`, `get_size` -/
def getSize (inner : Inner F H) : Except Error PtySize := .ok inner.size

/-- The descriptor itself is the writer.
Source: `win/conpty.rs` `MasterPty for ConPtyMasterPty`, `take_writer` -/
def takeWriter (inner : Inner F H) : Inner F H × Except Error F :=
  match inner.writable with
  | none => (inner, .error (.msg "writer already taken"))
  | some fd => ({ inner with writable := none }, .ok fd)

/-- The result of a resize that the console accepts. -/
theorem masterResize_accepted (inner : Inner F H) (size : PtySize) :
    inner.masterResize size sOk = ({ inner with size }, .ok ()) := rfl

/-- The result of a resize that the console rejects. -/
theorem masterResize_rejected (inner : Inner F H) (size : PtySize) {answer : Hresult}
    (h : answer ≠ sOk) : ∃ e, inner.masterResize size answer = (inner, .error e) := by
  simp [masterResize, resize, PsuedoCon.resize, if_neg h]

end Inner

end SysprimsPty.Master
