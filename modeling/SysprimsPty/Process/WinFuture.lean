import SysprimsPty.Process.WinChild
import Mathlib.Logic.Function.Basic

/-!
# Polling a Windows child

`WinChild` as a future. Each poll that finds the child running clones the process handle, gives the
value of the clone to a new waiter thread, and drops the clone when it returns. The waiter calls
`WaitForSingleObject` on the value and then wakes the task. The handle table of the process is shared
with all other code, which opens and closes handles of its own; a closed value may be opened again.
A clone that fails in `is_complete` panics; that poll starts no waiter, and no run here goes through it.

* `FutureWorld.step` — the polling thread, the waiters, the child and the other code.
* `WaitsOnChild` — a waiter waits on a live handle to the child, and no wake-up is early or lost.
* `waits_on_child` — that holds in every run in which each wait lies before the drop of its clone.
* `Sound.order_needed` — and fails after a step against that order.
-/

namespace SysprimsPty.Process

open SysprimsPty.Core
open SysprimsPty.Found
open SysprimsPty.Recovery

/-! ## The world -/

/-- The object that a handle denotes: the child process, or another one that is signaled or not. -/
inductive Target
  | child
  | other (signaled : Bool)
  deriving DecidableEq

/-- Who closes a handle: the `WinChild`, the poll that cloned it, or other code. -/
inductive Owner
  | winChild
  | poll
  | elsewhere
  deriving DecidableEq

/-- An open handle. -/
structure OpenHandle where
  target : Target
  owner : Owner
  deriving DecidableEq

/-- The point that a waiter thread has reached. -/
inductive WaiterPc
  | starting
  /-- In `WaitForSingleObject`. -/
  | waiting
  | returned
  /-- After `waker.wake()`, with whether the child had exited by then. -/
  | woken (exited : Bool)
  deriving DecidableEq

/-- A waiter thread and the handle value that it was given. -/
structure Waiter (H : Type) where
  handle : H
  pc : WaiterPc

/-- The point that the polling thread has reached, with the clone that it holds. -/
inductive PollPc (H : Type)
  | idle
  /-- In `is_complete`, with its clone. -/
  | checking (proc : H)
  /-- After `is_complete` found the child running. -/
  | pending
  /-- After `try_clone`. -/
  | cloned (proc : H)
  /-- After `std::thread::spawn`, with the index of the new waiter. -/
  | spawned (proc : H) (waiter : ℕ)

/-- The child, the handle table, the future and its waiters; handle values are an arbitrary type. -/
structure FutureWorld (H : Type) where
  exited : Option UInt32
  table : H → Option OpenHandle
  /-- The handle of the `WinChild`, until it is dropped. -/
  proc : Option H
  pc : PollPc H
  waiters : List (Waiter H)

/-- A move of the child, the polling thread, a waiter or other code. -/
inductive FutureEvent (H : Type)
  | exit (code : UInt32)
  /-- A poll begins, and `is_complete` clones the handle. -/
  | pollClone (h : H)
  /-- `is_complete` asks for the exit code and drops its clone; `false`: the query fails. -/
  | pollCheck (answered : Bool)
  | pollTryClone (h : H)
  | pollTryCloneFails
  | pollSpawn
  /-- The poll returns `Poll::Pending`, and its clone is dropped. -/
  | pollDrop
  | waiterCall (i : ℕ)
  | waiterReturn (i : ℕ)
  | waiterWake (i : ℕ)
  | dropChild
  /-- Other code opens a handle. -/
  | opens (h : H) (target : Target)
  /-- Other code closes a handle of its own. -/
  | closes (h : H)

variable {H : Type}

namespace FutureWorld

/-- `WaitForSingleObject` can return: the object is signaled; or the value is not open, and then the
call fails at once, or is undefined where the handle was closed during the call. -/
def waitReturns (s : FutureWorld H) (h : H) : Bool :=
  match s.table h with
  | some handle =>
      match handle.target with
      | .child => s.exited.isSome
      | .other signaled => signaled
  | none => true

/-- The waiter `i` is at `pc` and moves on to `pc'`. -/
def moveWaiter (s : FutureWorld H) (i : ℕ) (pc pc' : WaiterPc) : Option (FutureWorld H) :=
  match s.waiters[i]? with
  | some w => if w.pc = pc then some { s with waiters := s.waiters.set i { w with pc := pc' } } else none
  | none => none

/-- A child and its future, before the first poll; all other handles belong to other code. -/
structure Initial (s : FutureWorld H) : Prop where
  proc : ∃ p, s.proc = some p ∧ s.table p = some { target := .child, owner := .winChild }
  pc : s.pc = .idle
  waiters : s.waiters = []

end FutureWorld

/-! ## The invariant -/

/-- The clone that the poll in progress holds. -/
def PollPc.clone : PollPc H → Option H
  | .checking proc => some proc
  | .cloned proc => some proc
  | .spawned proc _ => some proc
  | _ => none

/-- The handles of the `WinChild` and of the poll in progress are open and denote the child; a
waiter in its call is the one of the poll in progress and holds its clone; and only an exit lets a
waiter past its call. -/
structure Sound (s : FutureWorld H) : Prop where
  proc : ∀ p, s.proc = some p → s.table p = some { target := .child, owner := .winChild }
  clone : ∀ h, s.pc.clone = some h → s.table h = some { target := .child, owner := .poll }
  handle : ∀ (h : H) (i : ℕ) (w : Waiter H), s.pc = .spawned h i → s.waiters[i]? = some w →
    w.handle = h
  waiting : ∀ (i : ℕ) (w : Waiter H), s.waiters[i]? = some w → w.pc = .waiting →
    s.pc = .spawned w.handle i
  returned : ∀ (i : ℕ) (w : Waiter H), s.waiters[i]? = some w → w.pc = .returned → s.exited.isSome
  woken : ∀ (i : ℕ) (w : Waiter H) (exited : Bool), s.waiters[i]? = some w →
    w.pc = .woken exited → exited = true

namespace FutureWorld

/-- A waiter that moves. -/
theorem moveWaiter_eq_some_iff {s t : FutureWorld H} {i : ℕ} {pc pc' : WaiterPc} :
    s.moveWaiter i pc pc' = some t ↔
      ∃ w, s.waiters[i]? = some w ∧ w.pc = pc ∧
        { s with waiters := s.waiters.set i { w with pc := pc' } } = t := by
  unfold moveWaiter
  rcases s.waiters[i]? with _ | w
  · simp
  · by_cases hpc : w.pc = pc
    · simp [hpc]
    · simp [hpc]

/-- After a move a waiter is the moved one or as before. -/
theorem getElem?_moved {ws : List (Waiter H)} {i j : ℕ} {w w' v : Waiter H}
    (hi : ws[i]? = some w) (hj : (ws.set i w')[j]? = some v) :
    (j = i ∧ v = w') ∨ ws[j]? = some v := by
  by_cases hij : i = j
  · subst hij
    rw [List.getElem?_set_self (List.getElem?_eq_some_iff.mp hi).1] at hj
    exact .inl ⟨rfl, (Option.some.inj hj).symm⟩
  · rw [List.getElem?_set_ne hij] at hj
    exact .inr hj

/-- A waiter of the list with a new one is an old one or the new one. -/
theorem getElem?_appended {ws : List (Waiter H)} {j : ℕ} {w' v : Waiter H}
    (hj : (ws ++ [w'])[j]? = some v) : ws[j]? = some v ∨ (j = ws.length ∧ v = w') := by
  rcases Nat.lt_trichotomy j ws.length with hlt | rfl | hgt
  · rw [List.getElem?_append_left hlt] at hj
    exact .inl hj
  · rw [List.getElem?_concat_length] at hj
    exact .inr ⟨rfl, (Option.some.inj hj).symm⟩
  · rw [List.getElem?_eq_none (by simp; omega)] at hj
    cases hj

end FutureWorld

/-- A child and its future before the first poll are sound. -/
theorem Sound.initial {s : FutureWorld H} (h : s.Initial) : Sound s := by
  obtain ⟨⟨p, hp, hopen⟩, hpc, hwaiters⟩ := h
  constructor
  · intro p' hp'
    obtain rfl := Option.some.inj (hp.symm.trans hp')
    exact hopen
  · intro h hclone
    rw [hpc] at hclone
    cases hclone
  all_goals
    intros
    simp_all

/-- Without a poll between its spawn and its drop no waiter is in its call. -/
theorem Sound.not_waiting {s : FutureWorld H} (h : Sound s) (hpc : ∀ p i, s.pc ≠ .spawned p i)
    (i : ℕ) (w : Waiter H) (hi : s.waiters[i]? = some w) : w.pc ≠ .waiting :=
  fun hw => hpc _ _ (h.waiting i w hi hw)

/-- Other code keeps the world sound: it leaves the handles that are not its own. -/
theorem Sound.elsewhere {s : FutureWorld H} (h : Sound s) {table : H → Option OpenHandle}
    (hkeep : ∀ h' x, s.table h' = some x → x.owner ≠ .elsewhere → table h' = some x) :
    Sound { s with table } where
  proc p hp := hkeep p _ (h.proc p hp) nofun
  clone c hc := hkeep c _ (h.clone c hc) nofun
  handle := h.handle
  waiting := h.waiting
  returned := h.returned
  woken := h.woken

/-- The poll moves on, while no waiter is in its call. -/
theorem Sound.poll {s : FutureWorld H} (h : Sound s)
    (hidle : ∀ (i : ℕ) (w : Waiter H), s.waiters[i]? = some w → w.pc ≠ .waiting)
    {table : H → Option OpenHandle} {pc : PollPc H}
    (hproc : ∀ p, s.proc = some p → table p = some { target := .child, owner := .winChild })
    (hclone : ∀ c, pc.clone = some c → table c = some { target := .child, owner := .poll })
    (hpc : ∀ p i, pc ≠ .spawned p i) : Sound { s with table, pc } where
  proc := hproc
  clone := hclone
  handle p i _ hspawned := absurd hspawned (hpc p i)
  waiting i w hi hw := absurd hw (hidle i w hi)
  returned := h.returned
  woken := h.woken

/-- A waiter moves on. -/
theorem Sound.move {s : FutureWorld H} (h : Sound s) {i : ℕ} {w : Waiter H} {pc : WaiterPc}
    (hi : s.waiters[i]? = some w) (hwaiting : pc = .waiting → s.pc = .spawned w.handle i)
    (hreturned : pc = .returned → s.exited.isSome) (hwoken : ∀ exited, pc = .woken exited →
      exited = true) :
    Sound { s with waiters := s.waiters.set i { w with pc } } where
  proc := h.proc
  clone := h.clone
  handle p j v hspawned hj := by
    rcases FutureWorld.getElem?_moved hi hj with ⟨rfl, rfl⟩ | hold
    · exact h.handle p j w hspawned hi
    · exact h.handle p j v hspawned hold
  waiting j v hj hv := by
    rcases FutureWorld.getElem?_moved hi hj with ⟨rfl, rfl⟩ | hold
    · exact hwaiting hv
    · exact h.waiting j v hold hv
  returned j v hj hv := by
    rcases FutureWorld.getElem?_moved hi hj with ⟨rfl, rfl⟩ | hold
    · exact hreturned hv
    · exact h.returned j v hold hv
  woken j v exited hj hv := by
    rcases FutureWorld.getElem?_moved hi hj with ⟨rfl, rfl⟩ | hold
    · exact hwoken exited hv
    · exact h.woken j v exited hold hv

/-- A waiter in its call waits on an open handle to the child. -/
theorem Sound.waits_open {s : FutureWorld H} (h : Sound s) {i : ℕ} {w : Waiter H}
    (hi : s.waiters[i]? = some w) (hw : w.pc = .waiting) :
    s.table w.handle = some { target := .child, owner := .poll } := by
  apply h.clone
  rw [h.waiting i w hi hw]
  rfl

/-- A new waiter starts with the clone of the poll. -/
theorem Sound.spawn {s : FutureWorld H} (h : Sound s) {c : H} (hpc : s.pc = .cloned c)
    (hclone : s.pc.clone = some c) :
    Sound { s with
      pc := .spawned c s.waiters.length
      waiters := s.waiters ++ [{ handle := c, pc := .starting }] } where
  proc := h.proc
  clone c' hc' := by
    obtain rfl := Option.some.inj hc'
    exact h.clone c hclone
  handle c' i w hspawned hi := by
    obtain ⟨rfl, rfl⟩ := PollPc.spawned.inj hspawned
    rw [List.getElem?_concat_length] at hi
    obtain rfl := Option.some.inj hi
    rfl
  waiting j v hj hv := by
    rcases FutureWorld.getElem?_appended hj with hold | ⟨-, rfl⟩
    · exact absurd hv (h.not_waiting (by simp [hpc]) j v hold)
    · cases hv
  returned j v hj hv := by
    rcases FutureWorld.getElem?_appended hj with hold | ⟨-, rfl⟩
    · exact h.returned j v hold hv
    · cases hv
  woken j v exited hj hv := by
    rcases FutureWorld.getElem?_appended hj with hold | ⟨-, rfl⟩
    · exact h.woken j v exited hold hv
    · cases hv

/-! ## The steps -/

variable [DecidableEq H]

namespace FutureWorld

/-- The table after `try_clone` made a handle with a value that was not open. -/
def tryClone (s : FutureWorld H) (h : H) : Option (H → Option OpenHandle) :=
  match s.proc.bind s.table, s.table h with
  | some proc, none => some (Function.update s.table h (some { target := proc.target, owner := .poll }))
  | _, _ => none

/-- The table after a handle was closed. -/
def close (s : FutureWorld H) (h : H) : H → Option OpenHandle := Function.update s.table h none

/-- One step.
Source: `win/mod.rs` `Future for WinChild`, `poll`; `WinChild::is_complete` -/
def step (s : FutureWorld H) : FutureEvent H → Option (FutureWorld H)
  | .exit code => if s.exited.isNone then some { s with exited := some code } else none
  | .pollClone h =>
      match s.pc with
      | .idle => (s.tryClone h).map fun table => { s with table, pc := .checking h }
      | _ => none
  | .pollCheck answered =>
      match s.pc with
      | .checking proc =>
          match isComplete (if answered then getExitCodeProcess s.exited else none) with
          | .ok none => some { s with table := s.close proc, pc := .pending }
          | _ => some { s with table := s.close proc, pc := .idle }
      | _ => none
  | .pollTryClone h =>
      match s.pc with
      | .pending => (s.tryClone h).map fun table => { s with table, pc := .cloned h }
      | _ => none
  | .pollTryCloneFails =>
      match s.pc with
      | .pending => some { s with pc := .idle }
      | _ => none
  | .pollSpawn =>
      match s.pc with
      | .cloned proc =>
          some { s with
            pc := .spawned proc s.waiters.length
            waiters := s.waiters ++ [{ handle := proc, pc := .starting }] }
      | _ => none
  | .pollDrop =>
      match s.pc with
      | .spawned proc _ => some { s with table := s.close proc, pc := .idle }
      | _ => none
  | .waiterCall i => s.moveWaiter i .starting .waiting
  | .waiterReturn i =>
      match s.waiters[i]? with
      | some w => if s.waitReturns w.handle then s.moveWaiter i .waiting .returned else none
      | none => none
  | .waiterWake i => s.moveWaiter i .returned (.woken s.exited.isSome)
  | .dropChild =>
      match s.pc, s.proc with
      | .idle, some proc => some { s with table := s.close proc, proc := none }
      | _, _ => none
  | .opens h target =>
      match s.table h with
      | none =>
          some { s with table := Function.update s.table h (some { target, owner := .elsewhere }) }
      | some _ => none
  | .closes h =>
      match s.table h with
      | some { owner := .elsewhere, .. } => some { s with table := s.close h }
      | _ => none

/-- A new handle leaves the open ones. -/
theorem update_open {table : H → Option OpenHandle} {h h' : H} {x : OpenHandle}
    {new : Option OpenHandle} (hfree : table h = none) (hopen : table h' = some x) :
    Function.update table h new h' = some x := by
  have hne : h' ≠ h := by
    rintro rfl
    rw [hfree] at hopen
    cases hopen
  rw [Function.update_of_ne hne, hopen]

/-- Closing a handle leaves the others. -/
theorem close_open {s : FutureWorld H} {h h' : H} {x : OpenHandle} (hne : s.table h ≠ some x)
    (hopen : s.table h' = some x) : s.close h h' = some x := by
  have hne : h' ≠ h := by
    rintro rfl
    exact hne hopen
  rw [close, Function.update_of_ne hne, hopen]

/-- What `try_clone` needs and makes. -/
theorem tryClone_eq_some_iff {s : FutureWorld H} {h : H} {table : H → Option OpenHandle} :
    s.tryClone h = some table ↔
      ∃ p x, s.proc = some p ∧ s.table p = some x ∧ s.table h = none ∧
        Function.update s.table h (some { target := x.target, owner := .poll }) = table := by
  unfold tryClone
  rcases hproc : s.proc with _ | p
  · simp
  · rcases hp : s.table p with _ | x
    · simp [hp]
    · rcases hh : s.table h with _ | y
      · simp [hp]
      · simp [hp]

end FutureWorld

/-! ## What the waiters rely on -/

/-- **A waiter waits on a live handle to the child**: while it is in `WaitForSingleObject` its value
is open and denotes the child; a waker is woken only after the child exited; and once the child has
exited, a waiter in its call can return. -/
structure WaitsOnChild (s : FutureWorld H) : Prop where
  live : ∀ (i : ℕ) (w : Waiter H), s.waiters[i]? = some w → w.pc = .waiting →
    ∃ owner, s.table w.handle = some { target := .child, owner }
  not_early : ∀ (i : ℕ) (w : Waiter H) (exited : Bool), s.waiters[i]? = some w → w.pc = .woken exited → exited = true
  not_lost : ∀ (i : ℕ) (w : Waiter H), s.waiters[i]? = some w → w.pc = .waiting →
    s.exited.isSome → (s.step (.waiterReturn i)).isSome

/-- **The order that nothing enforces**: a waiter calls `WaitForSingleObject` before the poll that
started it drops its clone, and the clone is not dropped while the waiter is in the call. -/
def WaitBeforeDrop (s : FutureWorld H) : FutureEvent H → Prop
  | .waiterCall i => ∃ proc, s.pc = .spawned proc i
  | .pollDrop => ∀ proc i w, s.pc = .spawned proc i → s.waiters[i]? = some w → w.pc ≠ .waiting
  | _ => True

/-! ## Whole runs -/

/-- A clone of the `WinChild`'s handle denotes the child. -/
theorem Sound.tryClone {s : FutureWorld H} (h : Sound s) {c : H} {table : H → Option OpenHandle}
    (ht : s.tryClone c = some table) :
    (∀ p, s.proc = some p → table p = some { target := .child, owner := .winChild }) ∧
      table c = some { target := .child, owner := .poll } := by
  obtain ⟨p, x, hp, hx, hfree, rfl⟩ := FutureWorld.tryClone_eq_some_iff.mp ht
  obtain rfl := Option.some.inj ((h.proc p hp).symm.trans hx)
  exact ⟨fun p' hp' => FutureWorld.update_open hfree (h.proc p' hp'), Function.update_self _ _ _⟩

/-- The poll makes a clone and holds it. -/
theorem Sound.pollClones {s : FutureWorld H} (h : Sound s)
    (hidle : ∀ (i : ℕ) (w : Waiter H), s.waiters[i]? = some w → w.pc ≠ .waiting) {c : H}
    {table : H → Option OpenHandle} (ht : s.tryClone c = some table) {pc : PollPc H}
    (hclone : pc.clone = some c) (hpc : ∀ p i, pc ≠ .spawned p i) :
    Sound { s with table, pc } := by
  obtain ⟨hproc, hc⟩ := h.tryClone ht
  refine h.poll hidle hproc ?_ hpc
  intro c' hc'
  obtain rfl := Option.some.inj (hclone.symm.trans hc')
  exact hc

/-- When the poll drops its clone, the handle of the `WinChild` stays. -/
theorem Sound.close_clone {s : FutureWorld H} (h : Sound s) {c : H} (hc : s.pc.clone = some c) :
    ∀ p, s.proc = some p → s.close c p = some { target := .child, owner := .winChild } := by
  intro p hp
  refine FutureWorld.close_open ?_ (h.proc p hp)
  rw [h.clone c hc]
  exact nofun

/-- Every step that meets the order keeps the world sound. -/
theorem Sound.step {s t : FutureWorld H} {e : FutureEvent H} (h : Sound s)
    (horder : WaitBeforeDrop s e) (ht : s.step e = some t) : Sound t := by
  cases e with
  | exit code =>
      simp only [FutureWorld.step] at ht
      split_ifs at ht
      obtain rfl := Option.some.inj ht
      exact ⟨h.proc, h.clone, h.handle, h.waiting, fun _ _ _ _ => rfl, h.woken⟩
  | pollClone c =>
      simp only [FutureWorld.step] at ht
      split at ht
      · next hpc =>
          obtain ⟨table, hclone, rfl⟩ := Option.map_eq_some_iff.mp ht
          exact h.pollClones (h.not_waiting (by simp [hpc])) hclone rfl nofun
      · cases ht
  | pollCheck answered =>
      simp only [FutureWorld.step] at ht
      split at ht
      · next c hpc =>
          have hclone : s.pc.clone = some c := by rw [hpc]; rfl
          have hproc := h.close_clone hclone
          have hidle := h.not_waiting (by simp [hpc])
          split at ht
          all_goals
            obtain rfl := Option.some.inj ht
            exact h.poll hidle hproc nofun nofun
      · cases ht
  | pollTryClone c =>
      simp only [FutureWorld.step] at ht
      split at ht
      · next hpc =>
          obtain ⟨table, hclone, rfl⟩ := Option.map_eq_some_iff.mp ht
          exact h.pollClones (h.not_waiting (by simp [hpc])) hclone rfl nofun
      · cases ht
  | pollTryCloneFails =>
      simp only [FutureWorld.step] at ht
      split at ht
      · next hpc =>
          obtain rfl := Option.some.inj ht
          exact h.poll (h.not_waiting (by simp [hpc])) h.proc nofun nofun
      · cases ht
  | pollSpawn =>
      simp only [FutureWorld.step] at ht
      split at ht
      · next c hpc =>
          obtain rfl := Option.some.inj ht
          have hclone : s.pc.clone = some c := by rw [hpc]; rfl
          exact h.spawn hpc hclone
      · cases ht
  | pollDrop =>
      simp only [FutureWorld.step] at ht
      split at ht
      · next c i hpc =>
          obtain rfl := Option.some.inj ht
          have hclone : s.pc.clone = some c := by rw [hpc]; rfl
          refine h.poll ?_ (h.close_clone hclone) nofun nofun
          -- a waiter in its call would be the one of this poll, which the order excludes
          intro j w hj hw
          have hspawned := h.waiting j w hj hw
          exact horder _ j w hspawned hj hw
      · cases ht
  | waiterCall i =>
      obtain ⟨w, hi, -, rfl⟩ := FutureWorld.moveWaiter_eq_some_iff.mp ht
      obtain ⟨c, hpc⟩ := horder
      refine h.move hi (fun _ => ?_) nofun nofun
      rw [h.handle c i w hpc hi]
      exact hpc
  | waiterReturn i =>
      simp only [FutureWorld.step] at ht
      split at ht
      · next w hi =>
          split_ifs at ht with hreturns
          obtain ⟨w', hi', hw, rfl⟩ := FutureWorld.moveWaiter_eq_some_iff.mp ht
          obtain rfl := Option.some.inj (hi.symm.trans hi')
          refine h.move hi nofun (fun _ => ?_) nofun
          rwa [FutureWorld.waitReturns, h.waits_open hi hw] at hreturns
      · cases ht
  | waiterWake i =>
      obtain ⟨w, hi, hw, rfl⟩ := FutureWorld.moveWaiter_eq_some_iff.mp ht
      refine h.move hi nofun nofun fun exited hexited => ?_
      obtain rfl := WaiterPc.woken.inj hexited
      exact h.returned i w hi hw
  | dropChild =>
      simp only [FutureWorld.step] at ht
      split at ht
      · next p hpc hp =>
          obtain rfl := Option.some.inj ht
          have hidle := h.not_waiting (by simp [hpc])
          refine ⟨nofun, ?_, ?_, fun i w hi hw => absurd hw (hidle i w hi), h.returned, h.woken⟩
          · intro c hc
            rw [show s.pc = .idle from hpc] at hc
            cases hc
          · intro c i w hspawned
            cases hpc.symm.trans hspawned
      · cases ht
  | opens c target =>
      simp only [FutureWorld.step] at ht
      split at ht
      · next hfree =>
          obtain rfl := Option.some.inj ht
          exact h.elsewhere fun c' x hx _ => FutureWorld.update_open hfree hx
      · cases ht
  | closes c =>
      simp only [FutureWorld.step] at ht
      split at ht
      · next target hc =>
          obtain rfl := Option.some.inj ht
          refine h.elsewhere fun c' x hx hown => FutureWorld.close_open ?_ hx
          rw [hc]
          intro heq
          obtain rfl := Option.some.inj heq
          exact hown rfl
      · cases ht

/-- In a sound world every waiter waits on a live handle to the child. -/
theorem Sound.waitsOnChild {s : FutureWorld H} (h : Sound s) : WaitsOnChild s where
  live i w hi hw := ⟨.poll, h.waits_open hi hw⟩
  not_early := h.woken
  not_lost i w hi hw hexited := by
    have hreturns : s.waitReturns w.handle = true := by
      rw [FutureWorld.waitReturns, h.waits_open hi hw]
      exact hexited
    simp only [FutureWorld.step, hi, hreturns, if_true, FutureWorld.moveWaiter, hw, Option.isSome_some]

/-- **The waiters of a polled Windows child.** In every run, of any number of polls, waiters and other
users of the handle table in any interleaving, whose steps all keep each wait before the drop of the
clone whose value it was given: every waiter in `WaitForSingleObject` waits on an open handle to the
child, no waker is woken before the child exited, and no wake-up is lost.
Source: `win/mod.rs` `Future for WinChild` -/
theorem waits_on_child {s₀ s : FutureWorld H} {events : List (FutureEvent H)} (h0 : s₀.Initial)
    (horder : Along FutureWorld.step WaitBeforeDrop s₀ events)
    (hrun : exec FutureWorld.step s₀ events = some s) : WaitsOnChild s :=
  (exec_along_keeps (fun _ _ _ hI ho ht => Sound.step hI ho ht) (Sound.initial h0) horder
    hrun).waitsOnChild

/-- **The order is needed**: a step against it leads to a world in which a waiter in its call has no
live handle to the child, unless its value happens to have been opened again for the child. -/
theorem Sound.order_needed {s t : FutureWorld H} {e : FutureEvent H} (h : Sound s)
    (hnot : ¬ WaitBeforeDrop s e) (ht : s.step e = some t) :
    ¬ WaitsOnChild t ∨ ∃ i w owner, e = .waiterCall i ∧ s.waiters[i]? = some w ∧
      s.table w.handle = some { target := .child, owner } := by
  cases e with
  | pollDrop =>
      simp only [WaitBeforeDrop, not_forall, not_not] at hnot
      obtain ⟨c, i, w, hpc, hi, hw⟩ := hnot
      simp only [FutureWorld.step, hpc] at ht
      obtain rfl := Option.some.inj ht
      left
      intro hwaits
      obtain ⟨owner, hopen⟩ := hwaits.live i w hi hw
      rw [h.handle c i w hpc hi] at hopen
      simp [FutureWorld.close] at hopen
  | waiterCall i =>
      obtain ⟨w, hi, -, rfl⟩ := FutureWorld.moveWaiter_eq_some_iff.mp ht
      by_cases hopen : ∃ owner, s.table w.handle = some { target := .child, owner }
      · obtain ⟨owner, hopen⟩ := hopen
        exact .inr ⟨i, w, owner, rfl, hi, hopen⟩
      · left
        intro hwaits
        have hlt : i < s.waiters.length := (List.getElem?_eq_some_iff.mp hi).1
        exact hopen (hwaits.live i { w with pc := .waiting } (List.getElem?_set_self hlt) rfl)
  | _ => exact absurd trivial hnot

/-! ## Runs with and against the order -/

/-- A running child, whose `WinChild` has the handle 0. -/
def polledChild : FutureWorld ℕ where
  exited := none
  table h := if h = 0 then some { target := .child, owner := .winChild } else none
  proc := some 0
  pc := .idle
  waiters := []

theorem polledChild_initial : polledChild.Initial := ⟨⟨0, rfl, rfl⟩, rfl, rfl⟩

/-- A poll that starts a waiter with the handle 1. -/
def pollSteps : List (FutureEvent ℕ) := [.pollClone 1, .pollCheck true, .pollTryClone 1, .pollSpawn]

/-- A poll that is delayed at its end until the waiter's call has returned. -/
def delayedRun : List (FutureEvent ℕ) :=
  pollSteps ++ [.waiterCall 0, .exit 0, .waiterReturn 0, .pollDrop, .waiterWake 0]

theorem waits_on_child_delayed :
    ∃ s, exec FutureWorld.step polledChild delayedRun = some s ∧ WaitsOnChild s := by
  have horder : Along FutureWorld.step WaitBeforeDrop polledChild delayedRun := by
    refine (along_cons_iff rfl).mpr ⟨trivial, (along_cons_iff rfl).mpr ⟨trivial, ?_⟩⟩
    refine (along_cons_iff rfl).mpr ⟨trivial, (along_cons_iff rfl).mpr ⟨trivial, ?_⟩⟩
    refine (along_cons_iff rfl).mpr ⟨⟨1, rfl⟩, (along_cons_iff rfl).mpr ⟨trivial, ?_⟩⟩
    refine (along_cons_iff rfl).mpr ⟨trivial, (along_cons_iff rfl).mpr ⟨?_, ?_⟩⟩
    · intro proc i w hpc hi
      obtain ⟨-, rfl⟩ := PollPc.spawned.inj hpc
      obtain rfl := Option.some.inj hi
      decide
    · exact (along_cons_iff rfl).mpr ⟨trivial, along_nil _⟩
  exact ⟨_, rfl, waits_on_child polledChild_initial horder rfl⟩

/-- The poll returns before its waiter calls: the call fails on the closed handle and wakes the task
while the child runs; and where other code has opened the value again, the waiter waits on that
object and cannot return after the child exited. -/
theorem waiter_outlives_its_handle :
    polledChild.Initial ∧
    (∃ s, exec FutureWorld.step polledChild
        (pollSteps ++ [.pollDrop, .waiterCall 0, .waiterReturn 0, .waiterWake 0]) = some s ∧
      s.exited = none ∧ s.waiters = [{ handle := 1, pc := .woken false }] ∧ ¬ WaitsOnChild s) ∧
    ∃ s, exec FutureWorld.step polledChild
        (pollSteps ++ [.pollDrop, .opens 1 (.other false), .waiterCall 0, .exit 0]) = some s ∧
      s.exited = some 0 ∧ s.step (.waiterReturn 0) = none ∧ ¬ WaitsOnChild s := by
  refine ⟨polledChild_initial, ⟨_, rfl, rfl, rfl, fun h => ?_⟩, _, rfl, rfl, rfl, fun h => ?_⟩
  · exact absurd (h.not_early 0 _ false rfl rfl) Bool.false_ne_true
  · exact absurd (h.not_lost 0 _ rfl rfl rfl) Bool.false_ne_true

end SysprimsPty.Process
