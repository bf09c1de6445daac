import SysprimsPty.Core.Io
import SysprimsPty.Found.Handles
import SysprimsPty.Found.Transition
import Mathlib.Tactic.Abel

/-!
# The handles of a Windows child

The process and the thread handle that `CreateProcessW` opens, the clones that the calls of a
`WinChild` make of the former, and the `WinChildKiller`s cloned from it, in one table with the handles
of all other code of the process. Calls on the `WinChild` and polls of it as a future follow one
another; the killers act at any moment, and so do other code and the waiter threads that the polls
start. A waiter has a number and no handle, and a number that was closed may be opened again for
anything; so the wait of a waiter is the one call that is not spoken of below (see `Process.WinFuture`).

* `HandleWorld.step` — the spawn, the calls, the polls, the killers and the other code.
* `HandleWorld.held` — who holds what.
* `ReachesOwn` — the system calls through handles each reached the object that they are meant for.
* `win_calls_reach_own` — they do in every run, and the handles held are the ones that are open.
-/

namespace SysprimsPty.Process

open SysprimsPty.Core
open SysprimsPty.Found

/-! ## The world -/

/-- What a handle denotes. -/
inductive KernelObject
  | child
  /-- The primary thread of the child. -/
  | mainThread
  | other (id : ℕ)
  deriving DecidableEq

/-- A system call that the crate makes with the number of a handle. -/
inductive Api
  | resumeThread
  | terminateProcess
  | getExitCodeProcess
  | waitForSingleObject
  | getProcessId
  /-- `WaitForSingleObject` in a waiter thread, which holds no handle. -/
  | waiterWait
  deriving DecidableEq

/-- The object that a call is meant for. -/
def Api.own : Api → KernelObject
  | .resumeThread => .mainThread
  | _ => .child

/-- A call that was made, and what its number denoted; `none`: it was not open. -/
structure ApiCall where
  api : Api
  target : Option KernelObject
  deriving DecidableEq

/-- A call on the `WinChild` that clones the process handle. -/
inductive ChildCall
  /-- `do_kill` -/
  | kill
  /-- `is_complete` -/
  | isComplete
  /-- The part of `wait` after its `try_wait`. -/
  | wait
  /-- The part of `poll` after its `is_complete`. -/
  | poll
  deriving DecidableEq

/-- The point that the call on the `WinChild` has reached, with the clone that it holds. -/
inductive ChildCallPc (H : Type)
  | idle
  | cloned (call : ChildCall) (proc : H)
  /-- After `WaitForSingleObject`. -/
  | waited (proc : H)
  /-- Before the drop of the clone. -/
  | done (proc : H)

/-- The child, the handles of the crate to it, the other handles of the process and the calls made,
newest first. -/
structure HandleWorld (H : Type) where
  exited : Bool
  table : HandleTable H KernelObject
  /-- `proc` of the `WinChild`, until it is dropped. -/
  proc : Option H
  /-- A panic of a `try_clone().unwrap()` poisons the lock of `proc`. -/
  poisoned : Bool
  /-- `thread` of the `SuspendedThread`, or `_main_thread`. -/
  thread : Option H
  pc : ChildCallPc H
  /-- The `proc`s of the `WinChildKiller`s. -/
  killers : Multiset H
  /-- The numbers that waiter threads have and have not yet waited with. -/
  waiters : Multiset H
  elsewhere : Multiset (H × KernelObject)
  calls : List ApiCall

/-- A step of a call, a clone or a drop, or a move of other code. A clone comes with the number that
the system gives it. -/
inductive HandleEvent (H : Type)
  | exit
  /-- `SuspendedThread::resume`, which drops the handle after its call. -/
  | resume
  | dropThread
  /-- `self.proc.lock().unwrap().try_clone()` at the beginning of a call. -/
  | call (call : ChildCall) (clone : H)
  /-- The `try_clone` fails, and its `unwrap` panics with the lock held. In `poll` the failure is returned
  instead, which changes nothing here. -/
  | callPanics
  | terminateProcess
  | waitForSingleObject
  | getExitCodeProcess
  /-- `std::thread::spawn` in a poll, which panics where no thread can be had. -/
  | spawnWaiter (starts : Bool)
  | waiterWait (number : H)
  | dropClone
  /-- `process_id` -/
  | processId
  /-- `WinChild::clone_killer` -/
  | cloneKiller (clone : H)
  | dropChild
  /-- `WinChildKiller::kill` -/
  | killerKill (killer : H)
  /-- `WinChildKiller::clone_killer` -/
  | killerClone (killer clone : H)
  | dropKiller (killer : H)
  | opens (h : H) (object : KernelObject)
  | closes (h : H) (object : KernelObject)

variable {H : Type}

/-! ## Who holds what -/

/-- The clone that the call in progress holds. -/
def ChildCallPc.clone : ChildCallPc H → Option H
  | .idle => none
  | .cloned _ proc => some proc
  | .waited proc => some proc
  | .done proc => some proc

namespace HandleWorld

/-- What the crate holds; the waiters hold nothing. -/
def crate (s : HandleWorld H) : Multiset (H × KernelObject) :=
  holding .child s.proc + holding .mainThread s.thread + holding .child s.pc.clone +
    s.killers.map fun killer => (killer, .child)

/-- What the crate and the other code hold. -/
def held (s : HandleWorld H) : Multiset (H × KernelObject) := s.crate + s.elsewhere

/-- A call with the number of a handle. -/
def log (s : HandleWorld H) (api : Api) (h : H) : HandleWorld H :=
  { s with calls := { api, target := s.table h } :: s.calls }

end HandleWorld

/-- **The calls through handles reached what they are meant for.** -/
def ReachesOwn (s : HandleWorld H) : Prop :=
  ∀ c ∈ s.calls, c.api ≠ .waiterWait → c.target = some c.api.own

/-- The invariant of the handles and the calls. -/
structure HandlesSound (s : HandleWorld H) : Prop where
  custody : Custody s.table s.held
  reaches : ReachesOwn s

namespace HandleWorld

variable {s t : HandleWorld H}

/-- The handle of the `WinChild` is held. -/
theorem mem_held_proc {h : H} (hp : s.proc = some h) : (h, .child) ∈ s.held := by
  simp [held, crate, hp]

/-- The thread handle is held. -/
theorem mem_held_thread {h : H} (ht : s.thread = some h) : (h, .mainThread) ∈ s.held := by
  simp [held, crate, ht]

/-- The clone of the call in progress is held. -/
theorem mem_held_clone {h : H} (hpc : s.pc.clone = some h) : (h, .child) ∈ s.held := by
  simp [held, crate, hpc]

/-- The handle of a killer is held. -/
theorem mem_held_killer {h : H} (hk : h ∈ s.killers) : (h, .child) ∈ s.held := by
  simp [held, crate, hk]

/-- A call through a held handle reaches its object. -/
theorem reaches_log (hs : HandlesSound s) {api : Api} {h : H} (hheld : (h, api.own) ∈ s.held) :
    ReachesOwn (s.log api h) := by
  intro c hc hapi
  rcases List.mem_cons.mp hc with rfl | hc
  · exact hs.custody.denotes hheld
  · exact hs.reaches c hc hapi

/-- The wait of a waiter is not spoken of. -/
theorem reaches_waiterWait (hs : HandlesSound s) (number : H) : ReachesOwn (s.log .waiterWait number) := by
  intro c hc hapi
  rcases List.mem_cons.mp hc with rfl | hc
  · exact absurd rfl hapi
  · exact hs.reaches c hc hapi

/-- A step that makes a call through a held handle, which stays with its holder. -/
theorem sound_log (hs : HandlesSound s) {api : Api} {h : H} (hheld : (h, api.own) ∈ s.held)
    (hsame : t.held = s.held) (htable : t.table = s.table)
    (hcalls : t.calls = (s.log api h).calls) : HandlesSound t := by
  refine ⟨?_, ?_⟩
  · rw [hsame, htable]
    exact hs.custody
  · unfold ReachesOwn
    rw [hcalls]
    exact reaches_log hs hheld

/-- A step of a call on the `WinChild` whose next API call goes through its clone. -/
theorem sound_api (hs : HandlesSound s) {api : Api} (hown : api.own = .child) {proc : H}
    {pc : ChildCallPc H} (hbefore : s.pc.clone = some proc) (hafter : pc.clone = some proc) :
    HandlesSound { s.log api proc with pc } := by
  refine sound_log hs ?_ ?_ rfl rfl
  · rw [hown]
    exact mem_held_clone hbefore
  · simp only [held, crate, log, hbefore, hafter]

end HandleWorld

/-! ## The steps -/

variable [DecidableEq H]

namespace HandleWorld

/-- A process in which `CreateProcessW` has returned the handles `proc` and `thread`. -/
def created (table : HandleTable H KernelObject) (elsewhere : Multiset (H × KernelObject))
    (proc thread : H) : HandleWorld H where
  exited := false
  table := (table.opened proc .child).opened thread .mainThread
  proc := some proc
  poisoned := false
  thread := some thread
  pc := .idle
  killers := 0
  waiters := 0
  elsewhere
  calls := []

/-- `OwnedHandle::try_clone` of the handle `h`, with the number of the clone. -/
def clone (s : HandleWorld H) (h clone : H) : Option (HandleTable H KernelObject) :=
  match s.table h, s.table clone with
  | some object, none => some (s.table.opened clone object)
  | _, _ => none

/-- `WaitForSingleObject` on a process returns once it has exited. -/
def waitReturns (s : HandleWorld H) (h : H) : Bool :=
  match s.table h with
  | some .child => s.exited
  | _ => true

/-- One step.
Source: `win/mod.rs` `WinChild`, `Future for WinChild`, `WinChildKiller`, `SuspendedThread::resume` -/
def step (s : HandleWorld H) : HandleEvent H → Option (HandleWorld H)
  | .exit => if s.exited then none else some { s with exited := true }
  | .resume =>
      s.thread.map fun thread =>
        { s.log .resumeThread thread with table := s.table.closed thread, thread := none }
  | .dropThread => s.thread.map fun thread => { s with table := s.table.closed thread, thread := none }
  | .call call clone =>
      match s.pc, s.proc with
      | .idle, some proc =>
          if s.poisoned then none
          else (s.clone proc clone).map fun table => { s with table, pc := .cloned call clone }
      | _, _ => none
  | .callPanics =>
      match s.pc, s.proc with
      | .idle, some _ => some { s with poisoned := true }
      | _, _ => none
  | .terminateProcess =>
      match s.pc with
      | .cloned .kill proc => some { s.log .terminateProcess proc with pc := .done proc }
      | _ => none
  | .waitForSingleObject =>
      match s.pc with
      | .cloned .wait proc =>
          if s.waitReturns proc then some { s.log .waitForSingleObject proc with pc := .waited proc }
          else none
      | _ => none
  | .getExitCodeProcess =>
      match s.pc with
      | .cloned .isComplete proc => some { s.log .getExitCodeProcess proc with pc := .done proc }
      | .waited proc => some { s.log .getExitCodeProcess proc with pc := .done proc }
      | _ => none
  | .spawnWaiter starts =>
      match s.pc with
      | .cloned .poll proc =>
          some { s with
            pc := .done proc
            waiters := if starts then proc ::ₘ s.waiters else s.waiters }
      | _ => none
  | .waiterWait number =>
      if number ∈ s.waiters then
        some { s.log .waiterWait number with waiters := s.waiters.erase number }
      else none
  | .dropClone =>
      match s.pc with
      | .done proc => some { s with table := s.table.closed proc, pc := .idle }
      | _ => none
  | .processId =>
      match s.pc, s.proc with
      | .idle, some proc => if s.poisoned then none else some (s.log .getProcessId proc)
      | _, _ => none
  | .cloneKiller clone =>
      match s.pc, s.proc with
      | .idle, some proc =>
          if s.poisoned then none
          else (s.clone proc clone).map fun table => { s with table, killers := clone ::ₘ s.killers }
      | _, _ => none
  | .dropChild =>
      match s.pc, s.proc with
      | .idle, some proc => some { s with table := s.table.closed proc, proc := none }
      | _, _ => none
  | .killerKill killer => if killer ∈ s.killers then some (s.log .terminateProcess killer) else none
  | .killerClone killer clone =>
      if killer ∈ s.killers then
        (s.clone killer clone).map fun table => { s with table, killers := clone ::ₘ s.killers }
      else none
  | .dropKiller killer =>
      if killer ∈ s.killers then
        some { s with table := s.table.closed killer, killers := s.killers.erase killer }
      else none
  | .opens h object =>
      if s.table h = none then
        some { s with table := s.table.opened h object, elsewhere := (h, object) ::ₘ s.elsewhere }
      else none
  | .closes h object =>
      if (h, object) ∈ s.elsewhere then
        some { s with table := s.table.closed h, elsewhere := s.elsewhere.erase (h, object) }
      else none

end HandleWorld

/-! ## One step -/

namespace HandleWorld

variable {s t : HandleWorld H}

/-- What `try_clone` needs and makes. -/
theorem clone_eq_some_iff {h clone : H} {table : HandleTable H KernelObject} :
    s.clone h clone = some table ↔
      ∃ object, s.table h = some object ∧ s.table clone = none ∧ s.table.opened clone object = table := by
  unfold HandleWorld.clone
  rcases s.table h with _ | object
  · simp
  · rcases s.table clone with _ | _
    · simp
    · simp

/-- A clone of a held handle to the child. -/
theorem custody_clone (hs : HandlesSound s) {h clone : H} {table : HandleTable H KernelObject}
    (hheld : (h, .child) ∈ s.held) (hclone : s.clone h clone = some table) :
    Custody table ((clone, .child) ::ₘ s.held) := by
  obtain ⟨object, hopen, hfree, rfl⟩ := clone_eq_some_iff.mp hclone
  rw [hs.custody.denotes hheld] at hopen
  obtain rfl := Option.some.inj hopen
  exact hs.custody.opened hfree .child

/-- A step that clones a held handle to the child, for a new holder. -/
theorem sound_clone (hs : HandlesSound s) {h clone : H} (hheld : (h, .child) ∈ s.held)
    (hclone : s.clone h clone = some t.table) (hnew : t.held = (clone, .child) ::ₘ s.held)
    (hcalls : t.calls = s.calls) : HandlesSound t := by
  refine ⟨?_, ?_⟩
  · rw [hnew]
    exact custody_clone hs hheld hclone
  · unfold ReachesOwn
    rw [hcalls]
    exact hs.reaches

/-- A step that closes a held handle. -/
theorem sound_close (hs : HandlesSound s) {h : H} {object : KernelObject}
    (hheld : s.held = (h, object) ::ₘ t.held) (htable : t.table = s.table.closed h)
    (hreaches : ReachesOwn t) : HandlesSound t := by
  refine ⟨?_, hreaches⟩
  rw [htable]
  exact hs.custody.closes hheld

/-- The thread handle is closed, with the calls `calls` made by then. -/
theorem sound_closeThread (hs : HandlesSound s) {thread : H} (hthread : s.thread = some thread)
    {calls : List ApiCall} (hcalls : ReachesOwn { s with calls }) :
    HandlesSound { s with table := s.table.closed thread, thread := none, calls } := by
  refine @sound_close _ _ s _ hs thread .mainThread ?_ rfl hcalls
  simp only [held, crate, hthread, holding_some, holding_none, ← Multiset.singleton_add]
  abel

/-- A call begins with its clone. -/
theorem sound_call (hs : HandlesSound s) (hpc : s.pc = .idle) {proc clone : H}
    (hproc : s.proc = some proc) {table : HandleTable H KernelObject}
    (htable : s.clone proc clone = some table) (call : ChildCall) :
    HandlesSound { s with table, pc := .cloned call clone } := by
  refine sound_clone hs (mem_held_proc hproc) htable ?_ rfl
  simp only [held, crate, hpc, ChildCallPc.clone, holding_some, holding_none, ← Multiset.singleton_add]
  abel

/-- A call ends with the drop of its clone. -/
theorem sound_dropClone (hs : HandlesSound s) {proc : H} (hpc : s.pc.clone = some proc) :
    HandlesSound { s with table := s.table.closed proc, pc := .idle } := by
  refine @sound_close _ _ s _ hs proc .child ?_ rfl hs.reaches
  have hidle : (ChildCallPc.idle : ChildCallPc H).clone = none := rfl
  simp only [held, crate, hpc, hidle, holding_some, holding_none, ← Multiset.singleton_add]
  abel

/-- The `WinChild` is dropped. -/
theorem sound_dropChild (hs : HandlesSound s) {proc : H} (hproc : s.proc = some proc) :
    HandlesSound { s with table := s.table.closed proc, proc := none } := by
  refine @sound_close _ _ s _ hs proc .child ?_ rfl hs.reaches
  simp only [held, crate, hproc, holding_some, holding_none, ← Multiset.singleton_add]
  abel

/-- A killer is cloned from a held handle to the child. -/
theorem sound_newKiller (hs : HandlesSound s) {h clone : H} (hheld : (h, .child) ∈ s.held)
    {table : HandleTable H KernelObject} (htable : s.clone h clone = some table) :
    HandlesSound { s with table, killers := clone ::ₘ s.killers } := by
  refine sound_clone hs hheld htable ?_ rfl
  simp only [held, crate, Multiset.map_cons]
  simp only [← Multiset.singleton_add]
  abel

/-- A killer is dropped. -/
theorem sound_dropKiller (hs : HandlesSound s) {killer : H} (hkiller : killer ∈ s.killers) :
    HandlesSound { s with table := s.table.closed killer, killers := s.killers.erase killer } := by
  refine @sound_close _ _ s _ hs killer .child ?_ rfl hs.reaches
  simp only [held, crate]
  rw [map_eq_cons_erase hkiller]
  simp only [← Multiset.singleton_add]
  abel

/-- Other code opens a handle with a number that is not open. -/
theorem sound_opens (hs : HandlesSound s) {h : H} (hfree : s.table h = none) (object : KernelObject) :
    HandlesSound
      { s with table := s.table.opened h object, elsewhere := (h, object) ::ₘ s.elsewhere } := by
  refine ⟨hs.custody.opens hfree ?_, hs.reaches⟩
  simp only [held, crate, ← Multiset.singleton_add]
  abel

/-- Other code closes a handle of its own. -/
theorem sound_closes (hs : HandlesSound s) {h : H} {object : KernelObject}
    (hmem : (h, object) ∈ s.elsewhere) :
    HandlesSound
      { s with table := s.table.closed h, elsewhere := s.elsewhere.erase (h, object) } := by
  refine @sound_close _ _ s _ hs h object ?_ rfl hs.reaches
  simp only [held, crate]
  conv_lhs => rw [← Multiset.cons_erase hmem]
  simp only [← Multiset.singleton_add]
  abel

/-- **The step lemma.** -/
theorem sound_step (hs : HandlesSound s) {e : HandleEvent H} (ht : s.step e = some t) :
    HandlesSound t := by
  cases e with
  | exit =>
      simp only [step] at ht
      split_ifs at ht
      obtain rfl := Option.some.inj ht
      exact ⟨hs.custody, hs.reaches⟩
  | resume =>
      obtain ⟨thread, hthread, rfl⟩ := Option.map_eq_some_iff.mp ht
      exact sound_closeThread hs hthread (reaches_log hs (mem_held_thread hthread))
  | dropThread =>
      obtain ⟨thread, hthread, rfl⟩ := Option.map_eq_some_iff.mp ht
      exact sound_closeThread hs hthread hs.reaches
  | call call clone =>
      simp only [step] at ht
      split at ht
      · next hpc hproc =>
        split_ifs at ht
        obtain ⟨table, htable, rfl⟩ := Option.map_eq_some_iff.mp ht
        exact sound_call hs hpc hproc htable call
      · cases ht
  | callPanics =>
      simp only [step] at ht
      split at ht
      · obtain rfl := Option.some.inj ht
        exact ⟨hs.custody, hs.reaches⟩
      · cases ht
  | terminateProcess =>
      simp only [step] at ht
      split at ht
      · next proc hpc =>
        obtain rfl := Option.some.inj ht
        exact sound_api hs rfl (by rw [hpc]; rfl) rfl
      · cases ht
  | waitForSingleObject =>
      simp only [step] at ht
      split at ht
      · next proc hpc =>
        split_ifs at ht
        obtain rfl := Option.some.inj ht
        exact sound_api hs rfl (by rw [hpc]; rfl) rfl
      · cases ht
  | getExitCodeProcess =>
      simp only [step] at ht
      split at ht
      · next proc hpc =>
        obtain rfl := Option.some.inj ht
        exact sound_api hs rfl (by rw [hpc]; rfl) rfl
      · next proc hpc =>
        obtain rfl := Option.some.inj ht
        exact sound_api hs rfl (by rw [hpc]; rfl) rfl
      · cases ht
  | spawnWaiter starts =>
      simp only [step] at ht
      split at ht
      · next proc hpc =>
        obtain rfl := Option.some.inj ht
        refine ⟨?_, hs.reaches⟩
        -- the clone stays with the poll, and the waiter holds nothing
        have hsame := hs.custody
        simpa only [held, crate, hpc, ChildCallPc.clone] using hsame
      · cases ht
  | waiterWait number =>
      simp only [step] at ht
      split_ifs at ht
      obtain rfl := Option.some.inj ht
      exact ⟨hs.custody, reaches_waiterWait hs number⟩
  | dropClone =>
      simp only [step] at ht
      split at ht
      · next proc hpc =>
        obtain rfl := Option.some.inj ht
        exact sound_dropClone hs (by rw [hpc]; rfl)
      · cases ht
  | processId =>
      simp only [step] at ht
      split at ht
      · next hpc hproc =>
        split_ifs at ht
        obtain rfl := Option.some.inj ht
        exact sound_log hs (mem_held_proc hproc) rfl rfl rfl
      · cases ht
  | cloneKiller clone =>
      simp only [step] at ht
      split at ht
      · next hpc hproc =>
        split_ifs at ht
        obtain ⟨table, htable, rfl⟩ := Option.map_eq_some_iff.mp ht
        exact sound_newKiller hs (mem_held_proc hproc) htable
      · cases ht
  | dropChild =>
      simp only [step] at ht
      split at ht
      · next hpc hproc =>
        obtain rfl := Option.some.inj ht
        exact sound_dropChild hs hproc
      · cases ht
  | killerKill killer =>
      simp only [step] at ht
      split_ifs at ht with hkiller
      obtain rfl := Option.some.inj ht
      exact sound_log hs (mem_held_killer hkiller) rfl rfl rfl
  | killerClone killer clone =>
      simp only [step] at ht
      split_ifs at ht with hkiller
      obtain ⟨table, htable, rfl⟩ := Option.map_eq_some_iff.mp ht
      exact sound_newKiller hs (mem_held_killer hkiller) htable
  | dropKiller killer =>
      simp only [step] at ht
      split_ifs at ht with hkiller
      obtain rfl := Option.some.inj ht
      exact sound_dropKiller hs hkiller
  | opens h object =>
      simp only [step] at ht
      split_ifs at ht with hfree
      obtain rfl := Option.some.inj ht
      exact sound_opens hs hfree object
  | closes h object =>
      simp only [step] at ht
      split_ifs at ht with hmem
      obtain rfl := Option.some.inj ht
      exact sound_closes hs hmem

/-- The handles that `CreateProcessW` opens. -/
theorem sound_created {table : HandleTable H KernelObject} {elsewhere : Multiset (H × KernelObject)}
    (h0 : Custody table elsewhere) {proc thread : H} (hproc : table proc = none)
    (hthread : table thread = none) (hne : thread ≠ proc) :
    HandlesSound (created table elsewhere proc thread) := by
  have hfree : table.opened proc .child thread = none := by rw [table.opened_of_ne hne, hthread]
  refine ⟨(h0.opened hproc .child).opens hfree ?_, by simp [ReachesOwn, created]⟩
  simp only [held, crate, created, ChildCallPc.clone, holding_some, holding_none, Multiset.map_zero,
    ← Multiset.singleton_add]
  abel

end HandleWorld

/-! ## Whole runs -/

/-- **The calls of a Windows child and of its killers reach the child.** Let `CreateProcessW` open the
two handles in any process. Then along every interleaving of the calls on the `WinChild`, the polls of
it and their waiters, the resume, the killers and their clones, the drops, and other code that opens and
closes handles of its own and gets numbers that the crate has closed: every API call of theirs, except
the waits of the waiters, is made through an open handle that denotes the child, or its thread for the
resume; and the open handles are exactly those that someone holds, so that nothing leaks and nothing is
closed twice.
Source: `win/mod.rs` `WinChild`, `Future for WinChild`, `WinChildKiller`, `SuspendedThread` -/
theorem win_calls_reach_own {table : HandleTable H KernelObject}
    {elsewhere : Multiset (H × KernelObject)} (h0 : Custody table elsewhere) {proc thread : H}
    (hproc : table proc = none) (hthread : table thread = none) (hne : thread ≠ proc)
    {events : List (HandleEvent H)} {s : HandleWorld H}
    (h : exec HandleWorld.step (.created table elsewhere proc thread) events = some s) :
    ReachesOwn s ∧ Custody s.table s.held := by
  have hend := exec_invariant (fun _ _ _ hs ht => HandleWorld.sound_step hs ht)
    (HandleWorld.sound_created h0 hproc hthread hne) h
  exact ⟨hend.reaches, hend.custody⟩

/-- A killer and a waiter outlive the child and the `WinChild`, whose numbers go to other code. -/
def outlivingRun : List (HandleEvent ℕ) :=
  [.resume, .cloneKiller 12, .call .isComplete 16, .getExitCodeProcess, .dropClone, .call .poll 16,
    .spawnWaiter true, .dropClone, .exit, .dropChild, .opens 8 (.other 0), .opens 16 (.other 1),
    .waiterWait 16, .killerKill 12, .closes 8 (.other 0), .dropKiller 12]

/-- The late kill of the outliving run reaches the child, and in the end the crate holds nothing. -/
theorem win_calls_reach_own_outliving :
    ∃ s, exec HandleWorld.step (.created (fun _ => none) 0 8 12) outlivingRun = some s ∧
      s.crate = 0 ∧ s.calls.length = 4 ∧ ReachesOwn s ∧ Custody s.table s.held :=
  ⟨_, rfl, rfl, rfl, @win_calls_reach_own ℕ _ _ _ (Custody.empty_iff.mpr rfl) 8 12 rfl rfl (by decide)
    outlivingRun _ rfl⟩

end SysprimsPty.Process
