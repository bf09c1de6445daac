import SysprimsPty.Found.HandOut
import SysprimsPty.Master.ConPty

/-!
# The writer of a master

`MasterPty::take_writer` of the three implementations. The Unix master and the serial one mark in a
flag that the writer has been handed out, and the ConPTY one gives away the descriptor that it holds;
only the Unix master duplicates a descriptor for the writer. The clones of a ConPTY master make their
calls one after another, under the lock of what they share.

* `MasterPty.takeWriter` — the three functions behind the trait.
* `atomic_iff` — a call gives the writer and uses it up or changes nothing, unless it is a call on a
  Unix master that fails to duplicate the descriptor.
* `writer_handed_out_once_iff` — when the writer is handed out once along a sequence of calls.
-/

namespace SysprimsPty.Master

open SysprimsPty.Core
open SysprimsPty.Found

variable {F P : Type}

/-- Source: `unix.rs` `UnixMasterWriter` -/
structure UnixMasterWriter (F : Type) where
  fd : F
  deriving DecidableEq

/-- The writer of a serial port.
Source: `serial.rs` `MasterWriter` -/
structure SerialWriter (P : Type) where
  port : P
  deriving DecidableEq

/-- Source: `unix.rs` `UnixMasterPty` -/
structure UnixMasterPty (F : Type) where
  fd : F
  tookWriter : Bool
  deriving DecidableEq

/-- The master of a serial port.
Source: `serial.rs` `Master` -/
structure SerialMaster (P : Type) where
  port : P
  tookWriter : Bool
  deriving DecidableEq

/-- `dup` is the answer of `self.fd.try_clone()`. The flag is set before that call, and stays set if
it fails.
Source: `unix.rs` `MasterPty for UnixMasterPty`, `take_writer` -/
def UnixMasterPty.takeWriter (m : UnixMasterPty F) (dup : Except String F) :
    UnixMasterPty F × Except Error (UnixMasterWriter F) :=
  if m.tookWriter then (m, .error (.msg "cannot take writer more than once"))
  else
    match dup with
    | .error e => ({ m with tookWriter := true }, .error (.foreign e))
    | .ok fd => ({ m with tookWriter := true }, .ok { fd })

/-- The writer shares the port.
Source: `serial.rs` `MasterPty for Master`, `take_writer` -/
def SerialMaster.takeWriter (m : SerialMaster P) : SerialMaster P × Except Error (SerialWriter P) :=
  if m.tookWriter then (m, .error (.msg "cannot take writer more than once"))
  else ({ m with tookWriter := true }, .ok { port := m.port })

/-- A `Box<dyn MasterPty>`; `H` is the type of the console of a ConPTY. -/
inductive MasterPty (F P H : Type)
  | unix (m : UnixMasterPty F)
  | serial (m : SerialMaster P)
  | conPty (inner : Inner F H)
  deriving DecidableEq

/-- A `Box<dyn Write>` that a master hands out. -/
inductive Writer (F P : Type)
  | unix (writer : UnixMasterWriter F)
  | serial (writer : SerialWriter P)
  | conPty (writer : F)
  deriving DecidableEq

variable {H : Type}

namespace MasterPty

/-- `MasterPty::take_writer`, where a duplication of the descriptor answers `dup`. -/
def takeWriter (m : MasterPty F P H) (dup : Except String F) :
    MasterPty F P H × Except Error (Writer F P) :=
  match m with
  | .unix m => (.unix (m.takeWriter dup).1, (m.takeWriter dup).2.map .unix)
  | .serial m => (.serial m.takeWriter.1, m.takeWriter.2.map .serial)
  | .conPty inner => (.conPty inner.takeWriter.1, inner.takeWriter.2.map .conPty)

/-- The master has not handed out its writer. -/
def HasWriter : MasterPty F P H → Prop
  | .unix m => m.tookWriter = false
  | .serial m => m.tookWriter = false
  | .conPty inner => inner.writable.isSome = true

/-- The duplications that a `take_writer` of this kind of master makes succeed. -/
def Granted : MasterPty F P H → Except String F → Prop
  | .unix _, dup => dup.isOk = true
  | .serial _, _ => True
  | .conPty _, _ => True

/-- No `take_writer` of the master duplicates a descriptor any more. -/
def DupFree : MasterPty F P H → Prop
  | .unix m => m.tookWriter = true
  | .serial _ => True
  | .conPty _ => True

end MasterPty

/-- The error is that of a failed duplication. -/
def DupFailed : Error → Prop
  | .foreign _ => True
  | _ => False

/-- The writer of a master is handed out once along its `take_writer` calls, and a failed
duplication changes nothing. -/
def WriterHandedOutOnce (m : MasterPty F P H) (dups : List (Except String F)) : Prop :=
  HandsOutOnce MasterPty.HasWriter MasterPty.Granted DupFailed m
    (takings MasterPty.takeWriter m dups)

namespace MasterPty

/-- After a call no further one duplicates: the flag of a Unix master is set in any case. -/
theorem dupFree_takeWriter (m : MasterPty F P H) (dup : Except String F) :
    (m.takeWriter dup).1.DupFree := by
  rcases m with m | m | inner
  · unfold MasterPty.takeWriter UnixMasterPty.takeWriter
    dsimp only
    split_ifs with htook
    · exact htook
    · rcases dup with e | fd <;> rfl
  · trivial
  · trivial

/-- **One call**: unless it fails to duplicate, it gives the writer and uses it up, or changes
nothing. -/
theorem takeWriter_atomic {m : MasterPty F P H} {dup : Except String F}
    (hdup : m.DupFree ∨ dup.isOk = true) : (Taking.of takeWriter m dup).Atomic HasWriter Granted := by
  rcases m with m | m | inner
  · by_cases htook : m.tookWriter = true
    · have hcall : takeWriter (.unix m : MasterPty F P H) dup =
          (.unix m, .error (.msg "cannot take writer more than once")) := by
        simp [takeWriter, UnixMasterPty.takeWriter, htook, Except.map]
      exact Taking.atomic_of_refuses hcall (by simp [HasWriter, htook])
    · rcases dup with e | fd
      · exact absurd (hdup.resolve_left htook) Bool.false_ne_true
      · have hcall : takeWriter (.unix m : MasterPty F P H) (.ok fd) =
            (.unix { m with tookWriter := true }, .ok (.unix { fd })) := by
          simp [takeWriter, UnixMasterPty.takeWriter, htook, Except.map]
        exact Taking.atomic_of_gives hcall (by simpa [HasWriter] using htook) rfl (by simp [HasWriter])
  · by_cases htook : m.tookWriter = true
    · have hcall : takeWriter (.serial m : MasterPty F P H) dup =
          (.serial m, .error (.msg "cannot take writer more than once")) := by
        simp [takeWriter, SerialMaster.takeWriter, htook, Except.map]
      exact Taking.atomic_of_refuses hcall (by simp [HasWriter, htook])
    · have hcall : takeWriter (.serial m : MasterPty F P H) dup =
          (.serial { m with tookWriter := true }, .ok (.serial { port := m.port })) := by
        simp [takeWriter, SerialMaster.takeWriter, htook, Except.map]
      exact Taking.atomic_of_gives hcall (by simpa [HasWriter] using htook) trivial
        (by simp [HasWriter])
  · rcases hwritable : inner.writable with _ | fd
    · have hcall : takeWriter (.conPty inner : MasterPty F P H) dup =
          (.conPty inner, .error (.msg "writer already taken")) := by
        simp [takeWriter, Inner.takeWriter, hwritable, Except.map]
      exact Taking.atomic_of_refuses hcall (by simp [HasWriter, hwritable])
    · have hcall : takeWriter (.conPty inner : MasterPty F P H) dup =
          (.conPty { inner with writable := none }, .ok (.conPty fd)) := by
        simp [takeWriter, Inner.takeWriter, hwritable, Except.map]
      exact Taking.atomic_of_gives hcall (by simp [HasWriter, hwritable]) trivial (by simp [HasWriter])

/-- A failed duplication sets the flag of a Unix master. -/
theorem takeWriter_of_failed_dup {m : UnixMasterPty F} (htook : m.tookWriter = false) (e : String) :
    (.unix m : MasterPty F P H).takeWriter (.error e) =
      (.unix { m with tookWriter := true }, .error (.foreign e)) := by
  simp [takeWriter, UnixMasterPty.takeWriter, htook, Except.map]

end MasterPty

/-- **When the writer is handed out once.** For a master of any of the three kinds in any state, every
sequence of `take_writer` calls and every pattern of answers of the duplication: at most one call
gives the writer, a call after it fails, a failed duplication leaves the master as it was, and the
first call that gets what it needs obtains the writer, if and only if the first call does not
duplicate a descriptor in vain.
Source: `MasterPty::take_writer` in `unix.rs`, `serial.rs` and `win/conpty.rs` -/
theorem writer_handed_out_once_iff (m : MasterPty F P H) (dups : List (Except String F)) :
    WriterHandedOutOnce m dups ↔ m.DupFree ∨ ∀ dup ∈ dups.head?, dup.isOk = true := by
  rcases dups with _ | ⟨dup, dups⟩
  · simp only [List.head?_nil, Option.not_mem_none, false_imp_iff, implies_true, or_true, iff_true]
    exact handsOutOnce_of_atomic (by simp [takings])
  · simp only [List.head?_cons, Option.mem_some_iff, forall_eq']
    constructor
    · intro h
      by_contra hfail
      obtain ⟨hdup, hanswer⟩ := not_or.mp hfail
      -- the flag of a Unix master is set by the first call, although it fails
      rcases m with m | m | inner
      · rcases dup with e | fd
        · have htook : m.tookWriter = false := by simpa [MasterPty.DupFree] using hdup
          have hcall := MasterPty.takeWriter_of_failed_dup (P := P) (H := H) htook e
          have hkept := h.unchanged (.of MasterPty.takeWriter (.unix m) (.error e))
            List.mem_cons_self (.foreign e) (congrArg Prod.snd hcall) trivial
          have hset := (congrArg Prod.fst hcall).symm.trans hkept
          rw [← MasterPty.unix.inj hset] at htook
          exact absurd htook (by simp)
        · exact hanswer rfl
      · exact hdup trivial
      · exact hdup trivial
    · intro h
      apply handsOutOnce_of_atomic
      rw [takings, List.forall_mem_cons]
      refine ⟨MasterPty.takeWriter_atomic h, ?_⟩
      intro t ht
      obtain ⟨m', dup', hfree, rfl⟩ := takings_spec (fun m dup _ => m.dupFree_takeWriter dup)
        (m.dupFree_takeWriter dup) t ht
      exact MasterPty.takeWriter_atomic (.inl hfree)

/-- On a new Unix master the first `take_writer` runs out of descriptors, and the second one, whose
duplication would succeed, is refused. -/
theorem failed_dup_loses_writer :
    takings MasterPty.takeWriter (.unix { fd := 3, tookWriter := false } : MasterPty ℕ ℕ ℕ)
        [.error "EMFILE", .ok 4] =
      [{ before := .unix { fd := 3, tookWriter := false }
         answer := .error "EMFILE"
         after := .unix { fd := 3, tookWriter := true }
         result := .error (.foreign "EMFILE") },
       { before := .unix { fd := 3, tookWriter := true }
         answer := .ok 4
         after := .unix { fd := 3, tookWriter := true }
         result := .error (.msg "cannot take writer more than once") }] ∧
      ¬ WriterHandedOutOnce (.unix { fd := 3, tookWriter := false } : MasterPty ℕ ℕ ℕ)
        [.error "EMFILE", .ok 4] := by
  refine ⟨rfl, fun h => ?_⟩
  have hkept := h.unchanged _ List.mem_cons_self (.foreign "EMFILE") rfl trivial
  exact absurd hkept (by decide)

end SysprimsPty.Master
