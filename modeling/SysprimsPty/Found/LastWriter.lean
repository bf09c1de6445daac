import Mathlib.Data.List.Basic
import Mathlib.Data.List.Induction

/-!
# Last writer wins, up to a folding of names

The abstract meaning of a store whose names are compared through an arbitrary function `fold`: a
name holds what the last operation affecting a name with the same fold wrote, and what it held
before if there was none.

* `lastAffecting` — the last operation of a history that affects a folded name.
* `lastWriter`, `lastWriter_eq_some_iff` — the contents that a history leads to.
* `foldl_refines_lastWriter` — the refinement rule: a store whose single operations change exactly
  the affected names holds the last write after every history.
-/

namespace SysprimsPty.Found

/-- An operation on a store of names `K` and values `V`. -/
inductive StoreOp (K V : Type*)
  | set (key : K) (value : V)
  | remove (key : K)
  | clear

variable {K F V E : Type*} [DecidableEq F] (fold : K → F)

/-- The operation affects the names that fold to `f`. -/
def StoreOp.affects (f : F) : StoreOp K V → Bool
  | .set key _ => fold key = f
  | .remove key => fold key = f
  | .clear => true

/-- What the operation leaves under the names it affects. -/
def StoreOp.written : StoreOp K V → Option (K × V)
  | .set key value => some (key, value)
  | .remove _ => none
  | .clear => none

/-- The last operation of a history that affects the names with fold `f`. -/
def lastAffecting (ops : List (StoreOp K V)) (f : F) : Option (StoreOp K V) :=
  ops.reverse.find? fun op => op.affects fold f

/-- The contents of a store that begins as `base`, after a history; `entry` makes an entry of a
written name and value. -/
def lastWriter (entry : K × V → E) (base : F → Option E) (ops : List (StoreOp K V)) (f : F) :
    Option E :=
  match lastAffecting fold ops f with
  | some op => op.written.map entry
  | none => base f

variable {fold}

/-- A further operation is the last one for the names it affects. -/
theorem lastAffecting_concat (ops : List (StoreOp K V)) (op : StoreOp K V) (f : F) :
    lastAffecting fold (ops ++ [op]) f =
      if op.affects fold f then some op else lastAffecting fold ops f := by
  unfold lastAffecting
  rw [List.reverse_append, List.reverse_singleton, List.singleton_append, List.find?_cons]
  cases op.affects fold f <;> rfl

/-- A write that is the last operation for `f` wrote a name with fold `f`. -/
theorem fold_of_lastAffecting {ops : List (StoreOp K V)} {key : K} {value : V} {f : F}
    (h : lastAffecting fold ops f = some (.set key value)) : fold key = f := by
  have haffects : (StoreOp.set key value : StoreOp K V).affects fold f = true := List.find?_some h
  exact of_decide_eq_true haffects

/-- What the last writer left: the entry of a last write, or the base entry of a name that no
operation affects. -/
theorem lastWriter_eq_some_iff {entry : K × V → E} {base : F → Option E}
    {ops : List (StoreOp K V)} {f : F} {e : E} :
    lastWriter fold entry base ops f = some e ↔
      (∃ key value, lastAffecting fold ops f = some (.set key value) ∧ entry (key, value) = e) ∨
        (lastAffecting fold ops f = none ∧ base f = some e) := by
  unfold lastWriter
  constructor
  · intro h
    split at h
    · next op hop =>
        obtain ⟨⟨key, value⟩, hwritten, rfl⟩ := Option.map_eq_some_iff.mp h
        cases op with
        | set key' value' =>
            cases hwritten
            exact .inl ⟨key, value, hop, rfl⟩
        | remove key => cases hwritten
        | clear => cases hwritten
    · next hnone => exact .inr ⟨hnone, h⟩
  · rintro (⟨key, value, hop, rfl⟩ | ⟨hnone, hbase⟩)
    · rw [hop]
      rfl
    · rw [hnone]
      exact hbase

/-- A further operation overwrites the names it affects and keeps the others. -/
theorem lastWriter_concat {entry : K × V → E} {base : F → Option E} (ops : List (StoreOp K V))
    (op : StoreOp K V) (f : F) :
    lastWriter fold entry base (ops ++ [op]) f =
      if op.affects fold f then op.written.map entry else lastWriter fold entry base ops f := by
  unfold lastWriter
  rw [lastAffecting_concat]
  split_ifs <;> rfl

/-- **The refinement rule.** -/
theorem foldl_refines_lastWriter {T : Type*} {get : T → F → Option E}
    {apply : T → StoreOp K V → T} {entry : K × V → E}
    (hstep : ∀ t op f, get (apply t op) f =
      if op.affects fold f then op.written.map entry else get t f)
    (t : T) (ops : List (StoreOp K V)) (f : F) :
    get (ops.foldl apply t) f = lastWriter fold entry (get t) ops f := by
  induction ops using List.reverseRecOn with
  | nil => rfl
  | append_singleton ops op ih =>
      rw [List.foldl_append, List.foldl_cons, List.foldl_nil, hstep, lastWriter_concat, ih]

end SysprimsPty.Found
