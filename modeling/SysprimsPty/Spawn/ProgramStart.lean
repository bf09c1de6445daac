import SysprimsPty.Found.Descriptors
import SysprimsPty.Spawn.ChildStart

/-!
# What a spawned program starts with

The state of a process on its way from the fork to its program, with what the two `pre_exec` closures
of the Unix spawns set in it: signal dispositions, the signal mask, the session, the controlling
terminal, the umask and the descriptors. The guarded spawn has the session hook in the place of
`setsid`, and relies on close-on-exec where the legacy spawn closes what `/dev/fd` lists. The hook is
outside the repository: it is a function on the state of the process, and what the code relies on about
it is a `SessionHook`.

* `legacyClosure`, `containedClosure` — the two closures.
* `legacyClosure_result`, `containedClosure_result` — their results are those of the closures over
  the bare descriptors.
* `spawns_start_alike_iff` — both spawns start a program with the same state of its own, except for
  the descriptors, which agree exactly if all that is inherited beyond the standard streams is
  close-on-exec.
-/

namespace SysprimsPty.Spawn

open SysprimsPty.Core
open SysprimsPty.Found

/-! ## The state of a process -/

/-- The signals that the closures reset, and the others. -/
inductive Signo
  | sigchld
  | sighup
  | sigint
  | sigquit
  | sigterm
  | sigalrm
  | other (n : ℕ)
  deriving DecidableEq

/-- A signal disposition. -/
inductive Disposition
  | default
  | ignored
  /-- A handler of the parent's program. -/
  | handler
  deriving DecidableEq

/-- What a process has besides its memory; `O` is the type of the objects of descriptors. -/
structure ProcessState (O : Type) where
  disposition : Signo → Disposition
  blocked : Signo → Bool
  /-- It leads a session of its own. -/
  leader : Bool
  controllingTty : Option O
  umask : ℕ
  fds : Descriptors ℤ O

variable {O : Type}

namespace ProcessState

/-- `libc::signal(signo, libc::SIG_DFL)` -/
def setDefault (s : ProcessState O) (signo : Signo) : ProcessState O :=
  { s with disposition := Function.update s.disposition signo .default }

/-- `libc::sigprocmask(libc::SIG_SETMASK, &empty_set, null)` -/
def unblock (s : ProcessState O) : ProcessState O := { s with blocked := fun _ => false }

/-- What a `setsid` that succeeds does. -/
def newSession (s : ProcessState O) : ProcessState O :=
  { s with leader := true, controllingTty := none }

/-- What a `libc::ioctl(0, libc::TIOCSCTTY, 0)` that succeeds does. -/
def takeTty (s : ProcessState O) : ProcessState O :=
  { s with controllingTty := (s.fds 0).map Descriptor.object }

/-- The `umask`, if one is configured. -/
def configureUmask (s : ProcessState O) (mask : Option ℕ) : ProcessState O :=
  match mask with
  | none => s
  | some mask => { s with umask := mask }

/-- Close what `/dev/fd` lists beyond the standard streams. -/
def closeListed (s : ProcessState O) (devFd : Option (List (Option String))) : ProcessState O :=
  { s with fds := fun fd => if fd ∈ closeRandomFds devFd [fd] then s.fds fd else none }

/-- A successful exec: handlers are reset and close-on-exec descriptors are closed. -/
def execed (s : ProcessState O) : ProcessState O :=
  { s with
    disposition := fun signo =>
      match s.disposition signo with
      | .handler => .default
      | disposition => disposition
    fds := s.fds.execed }

end ProcessState

/-! ## The closures -/

/-- The signals that both closures reset. -/
def resetSignals : List Signo := [.sigchld, .sighup, .sigint, .sigquit, .sigterm, .sigalrm]

/-- What the calls of a closure answer. -/
structure StartAnswers (O : Type) where
  setsid : IoResult Unit
  /-- `hook.acquire()`, with the state in which it leaves the process. -/
  acquire : ProcessState O → IoResult (ProcessState O)
  tiocsctty : IoResult Unit
  devFd : Option (List (Option String))

/-- What a session hook that succeeds is documented to do: the process leads a session of its own,
which has no terminal yet, and keeps the rest of its state. The hook may open and close close-on-exec
descriptors other than the standard input. -/
structure SessionHook (acquire : ProcessState O → IoResult (ProcessState O)) : Prop where
  leader : ∀ s t, acquire s = .ok t → t.leader = true
  controllingTty : ∀ s t, acquire s = .ok t → t.controllingTty = none
  disposition : ∀ s t, acquire s = .ok t → t.disposition = s.disposition
  blocked : ∀ s t, acquire s = .ok t → t.blocked = s.blocked
  umask : ∀ s t, acquire s = .ok t → t.umask = s.umask
  stdin : ∀ s t, acquire s = .ok t → t.fds 0 = s.fds 0
  inherited : ∀ s t, acquire s = .ok t → t.fds.execed = s.fds.execed

/-- What the builder asks for. -/
structure StartOptions where
  controllingTty : Bool
  umask : Option ℕ

/-- The beginning of both closures. -/
def resetSignalState (s : ProcessState O) : ProcessState O :=
  (resetSignals.foldl ProcessState.setDefault s).unblock

/-- Set the PTY as the controlling terminal, if that is asked for. -/
def StartAnswers.control (a : StartAnswers O) (o : StartOptions) (s : ProcessState O) :
    IoResult (ProcessState O) :=
  if o.controllingTty then a.tiocsctty.map fun () => s.takeTty else .ok s

/-- Source: `unix.rs` `PtyFd::spawn_command`, `pre_exec` -/
def legacyClosure (a : StartAnswers O) (o : StartOptions) (s : ProcessState O) :
    IoResult (ProcessState O) := do
  let s := resetSignalState s
  a.setsid
  let s := s.newSession
  let s ← a.control o s
  let s := s.closeListed a.devFd
  .ok (s.configureUmask o.umask)

/-- The hook is the only session acquirer of the spawn, in the place of `setsid`.
Source: `unix.rs` `PtyFd::spawn_contained_command_with_fault`, `pre_exec` -/
def containedClosure (a : StartAnswers O) (o : StartOptions) (s : ProcessState O) :
    IoResult (ProcessState O) := do
  let s := resetSignalState s
  let s ← a.acquire s
  let s ← a.control o s
  .ok (s.configureUmask o.umask)

/-- The same answers to the closures over bare descriptors, for a child in the state `s`. -/
def StartAnswers.world (a : StartAnswers O) (s : ProcessState O) (parentFds : List ℤ) (pipe : ℤ)
    (exec : IoResult Unit) : ChildWorld where
  parentFds
  pipe
  devFd := a.devFd
  setsid := a.setsid
  acquire fds := ((a.acquire (resetSignalState s)).map fun _ => (), fds)
  tiocsctty := a.tiocsctty
  exec

/-! ## What the closures do -/

/-- The state that both closures reach before the closing of descriptors and the `umask`. -/
def onTty (o : StartOptions) (s : ProcessState O) : ProcessState O :=
  if o.controllingTty then (resetSignalState s).newSession.takeTty
  else (resetSignalState s).newSession

/-- The step that takes the terminal. -/
theorem control_eq_ok_iff {a : StartAnswers O} {o : StartOptions} {s t : ProcessState O} :
    a.control o s = .ok t ↔
      (o.controllingTty = true → a.tiocsctty = .ok ()) ∧
        t = if o.controllingTty then s.takeTty else s := by
  unfold StartAnswers.control
  by_cases htty : o.controllingTty = true
  · simp only [htty, if_true, true_implies]
    rcases a.tiocsctty with e | _
    · simp [Except.map]
    · simp [Except.map, eq_comm]
  · simp [htty, eq_comm]

/-- The legacy closure succeeds if its `setsid` and its `ioctl` do. -/
theorem legacyClosure_eq_ok_iff {a : StartAnswers O} {o : StartOptions} {s l : ProcessState O} :
    legacyClosure a o s = .ok l ↔
      a.setsid = .ok () ∧ (o.controllingTty = true → a.tiocsctty = .ok ()) ∧
        l = ((onTty o s).closeListed a.devFd).configureUmask o.umask := by
  simp only [legacyClosure, onTty, bind_eq_ok_iff, control_eq_ok_iff, Except.ok.injEq]
  constructor
  · rintro ⟨⟨⟩, hsetsid, t, ⟨htty, rfl⟩, rfl⟩
    exact ⟨hsetsid, htty, rfl⟩
  · rintro ⟨hsetsid, htty, rfl⟩
    exact ⟨(), hsetsid, _, ⟨htty, rfl⟩, rfl⟩

/-- The contained closure succeeds if the hook and the `ioctl` do. -/
theorem containedClosure_eq_ok_iff {a : StartAnswers O} {o : StartOptions} {s c : ProcessState O} :
    containedClosure a o s = .ok c ↔
      ∃ t, a.acquire (resetSignalState s) = .ok t ∧
        (o.controllingTty = true → a.tiocsctty = .ok ()) ∧
          c = (if o.controllingTty then t.takeTty else t).configureUmask o.umask := by
  simp only [containedClosure, bind_eq_ok_iff, control_eq_ok_iff, Except.ok.injEq]
  constructor
  · rintro ⟨t, hacquire, u, ⟨htty, rfl⟩, rfl⟩
    exact ⟨t, hacquire, htty, rfl⟩
  · rintro ⟨t, hacquire, htty, rfl⟩
    exact ⟨t, hacquire, _, ⟨htty, rfl⟩, rfl⟩

/-- The `umask` is what the configuration sets, if anything. -/
theorem configureUmask_eq (s : ProcessState O) (mask : Option ℕ) :
    s.configureUmask mask = { s with umask := mask.getD s.umask } := by
  rcases mask with _ | mask
  · rfl
  · rfl

/-- What both closures reach, field by field. -/
theorem onTty_eq (o : StartOptions) (s : ProcessState O) :
    onTty o s = { s with
      disposition := (resetSignals.foldl ProcessState.setDefault s).disposition
      blocked := fun _ => false
      leader := true
      controllingTty := if o.controllingTty then (s.fds 0).map Descriptor.object else none } := by
  unfold onTty
  split_ifs
  · rfl
  · rfl

/-- A closing step keeps what it does not list. -/
theorem mem_closeRandomFds {devFd : Option (List (Option String))} {fds : List ℤ} {fd : ℤ} :
    fd ∈ closeRandomFds devFd fds ↔ fd ∈ fds ∧ fd ∈ closeRandomFds devFd [fd] := by
  unfold closeRandomFds
  rcases devFd with _ | entries
  · simp
  · rw [mem_foldl_closeFd, mem_foldl_closeFd]
    simp

/-- **The legacy closure on bare descriptors.** It ends in the same way, and leaves the same numbers
open. -/
theorem legacyClosure_result (a : StartAnswers O) (o : StartOptions) (s : ProcessState O)
    {fds parentFds : List ℤ} {pipe : ℤ} {exec : IoResult Unit}
    (hfds : ∀ fd, fd ∈ fds ↔ s.fds fd ≠ none) :
    ((legacyClosure a o s).map fun _ => ()) =
        ((a.world s parentFds pipe exec).legacyPreExec o.controllingTty fds).1 ∧
      ∀ l, legacyClosure a o s = .ok l → ∀ fd,
        fd ∈ ((a.world s parentFds pipe exec).legacyPreExec o.controllingTty fds).2 ↔
          l.fds fd ≠ none := by
  have hresult : ((legacyClosure a o s).map fun _ => ()) =
      ((a.world s parentFds pipe exec).legacyPreExec o.controllingTty fds).1 := by
    unfold legacyClosure ChildWorld.legacyPreExec StartAnswers.world StartAnswers.control
    rcases a.setsid with e | _
    · rfl
    · by_cases htty : o.controllingTty = true
      · simp only [htty, if_true]
        rcases a.tiocsctty with e | _
        · rfl
        · rfl
      · simp only [htty, Bool.false_eq_true, if_false]
        rfl
  refine ⟨hresult, fun l hl fd => ?_⟩
  obtain ⟨hsetsid, htty, rfl⟩ := legacyClosure_eq_ok_iff.mp hl
  have hclosed : ((a.world s parentFds pipe exec).legacyPreExec o.controllingTty fds).2 =
      closeRandomFds a.devFd fds := by
    have hanswer : (if o.controllingTty = true then a.tiocsctty else .ok ()) = .ok () := by
      split_ifs with h
      · exact htty h
      · rfl
    simp [ChildWorld.legacyPreExec, StartAnswers.world, hsetsid, hanswer]
  rw [hclosed, mem_closeRandomFds, hfds]
  simp [ProcessState.closeListed, configureUmask_eq, onTty_eq, and_comm]

/-- The contained closure on bare descriptors ends in the same way. -/
theorem containedClosure_result (a : StartAnswers O) (o : StartOptions) (s : ProcessState O)
    (fds parentFds : List ℤ) (pipe : ℤ) (exec : IoResult Unit) :
    ((containedClosure a o s).map fun _ => ()) =
      ((a.world s parentFds pipe exec).containedPreExec o.controllingTty fds).1 := by
  unfold containedClosure ChildWorld.containedPreExec StartAnswers.world StartAnswers.control
  rcases hacquire : a.acquire (resetSignalState s) with e | t
  · simp only [hacquire]
    rfl
  · by_cases htty : o.controllingTty = true
    · simp only [hacquire, htty, if_true]
      rcases a.tiocsctty with e | _
      · rfl
      · rfl
    · simp only [hacquire, htty, Bool.false_eq_true, if_false]
      rfl

/-! ## The program -/

/-- **What a program on the terminal starts with**, besides its descriptors; `s` is the state of the
child before the closure. -/
structure StartsOnTty (o : StartOptions) (s p : ProcessState O) : Prop where
  reset : ∀ signo ∈ resetSignals, p.disposition signo = .default
  others : ∀ signo ∉ resetSignals,
    p.disposition signo = if s.disposition signo = .ignored then .ignored else .default
  unblocked : ∀ signo, p.blocked signo = false
  leader : p.leader = true
  controllingTty : p.controllingTty =
    if o.controllingTty then (s.fds 0).map Descriptor.object else none
  umask : p.umask = o.umask.getD s.umask

/-- The dispositions after the resets. -/
theorem foldl_setDefault_disposition (signos : List Signo) (s : ProcessState O) (signo : Signo) :
    (signos.foldl ProcessState.setDefault s).disposition signo =
      if signo ∈ signos then .default else s.disposition signo := by
  induction signos generalizing s with
  | nil => simp
  | cons signo' signos ih =>
      rw [List.foldl_cons, ih]
      by_cases hmem : signo ∈ signos
      · simp [hmem]
      · by_cases heq : signo = signo'
        · obtain rfl := heq
          simp [hmem, ProcessState.setDefault]
        · simp [hmem, heq, ProcessState.setDefault]

/-- What both closures leave besides the descriptors is a start on the terminal. -/
theorem startsOnTty (o : StartOptions) (s : ProcessState O) (fds : Descriptors ℤ O) :
    StartsOnTty o s ({ (onTty o s).configureUmask o.umask with fds } : ProcessState O).execed := by
  rw [configureUmask_eq, onTty_eq]
  refine ⟨?_, ?_, fun _ => rfl, rfl, rfl, rfl⟩
  · intro signo hsigno
    simp [ProcessState.execed, foldl_setDefault_disposition, hsigno]
  · intro signo hsigno
    simp only [ProcessState.execed, foldl_setDefault_disposition, if_neg hsigno]
    rcases s.disposition signo with _ | _ | _
    · rfl
    · rfl
    · rfl

/-- The standard streams are not closed. -/
theorem closeListed_std (s : ProcessState O) (devFd : Option (List (Option String))) {fd : ℤ}
    (hfd : fd ≤ 2) : (s.closeListed devFd).fds fd = s.fds fd := by
  have hkept : fd ∈ closeRandomFds devFd [fd] := by
    unfold closeRandomFds
    rcases devFd with _ | entries
    · simp
    · rw [mem_foldl_closeFd, List.mem_filter]
      simp [hfd]
  exact if_pos hkept

/-- `/dev/fd` lists the descriptors that are open. -/
def ListsAll (a : StartAnswers O) (s : ProcessState O) : Prop :=
  ∃ entries, a.devFd = some entries ∧
    ∀ fd d, s.fds fd = some d → ∃ name, some name ∈ entries ∧ parseCInt name = some fd

/-- What is listed beyond the standard streams is closed. -/
theorem closeListed_beyond {a : StartAnswers O} {s : ProcessState O} (h : ListsAll a s) {fd : ℤ}
    (hfd : 2 < fd) : (s.closeListed a.devFd).fds fd = none := by
  obtain ⟨entries, hentries, hlisted⟩ := h
  unfold ProcessState.closeListed
  dsimp only
  split_ifs with hkept
  · rcases hopen : s.fds fd with _ | d
    · rfl
    · obtain ⟨name, hname, hparse⟩ := hlisted fd d hopen
      rw [hentries] at hkept
      exact absurd hkept (notMem_closeRandomFds hname hparse hfd)
  · rfl

/-- The legacy closure leaves a start on the terminal with the descriptors that are not listed. -/
theorem legacyClosure_state {a : StartAnswers O} {o : StartOptions} {s l : ProcessState O}
    (h : legacyClosure a o s = .ok l) :
    l = { (onTty o s).configureUmask o.umask with fds := (s.closeListed a.devFd).fds } := by
  obtain ⟨-, -, rfl⟩ := legacyClosure_eq_ok_iff.mp h
  rw [configureUmask_eq, configureUmask_eq, onTty_eq]
  rfl

/-- The state in which a session hook leaves a process. -/
theorem SessionHook.eq_newSession {acquire : ProcessState O → IoResult (ProcessState O)}
    (h : SessionHook acquire) {s t : ProcessState O} (ht : acquire s = .ok t) :
    t = { s.newSession with fds := t.fds } := by
  have hleader := h.leader s t ht
  have htty := h.controllingTty s t ht
  have hdisposition := h.disposition s t ht
  have hblocked := h.blocked s t ht
  have humask := h.umask s t ht
  rcases t with ⟨disposition, blocked, leader, tty, umask, fds⟩
  dsimp only at hleader htty hdisposition hblocked humask
  rw [hleader, htty, hdisposition, hblocked, humask]
  rfl

/-- Under a session hook the contained closure leaves a start on the terminal with the descriptors
that the child inherits. -/
theorem containedClosure_state {a : StartAnswers O} {o : StartOptions} {s c : ProcessState O}
    (hhook : SessionHook a.acquire) (h : containedClosure a o s = .ok c) :
    ∃ fds, c = { (onTty o s).configureUmask o.umask with fds } ∧ fds.execed = s.fds.execed := by
  obtain ⟨t, ht, -, rfl⟩ := containedClosure_eq_ok_iff.mp h
  have hreset : (resetSignalState s).fds = s.fds := rfl
  have hstdin := hhook.stdin _ _ ht
  have hinherited := hhook.inherited _ _ ht
  rw [hreset] at hstdin hinherited
  refine ⟨t.fds, ?_, hinherited⟩
  rw [hhook.eq_newSession ht, configureUmask_eq, configureUmask_eq]
  unfold onTty
  split_ifs
  · simp only [ProcessState.takeTty, hstdin]
    rfl
  · rfl

/-- The standard streams of the two programs are those of the child before the closures. -/
theorem closeListed_execed_std (s : ProcessState O) (devFd : Option (List (Option String))) {fd : ℤ}
    (hfd : fd ≤ 2) : (s.closeListed devFd).fds.execed fd = s.fds.execed fd := by
  unfold Descriptors.execed
  rw [closeListed_std s devFd hfd]

/-- Beyond the standard streams the legacy program has no descriptor. -/
theorem closeListed_execed_beyond {a : StartAnswers O} {s : ProcessState O} (h : ListsAll a s)
    {fd : ℤ} (hfd : 2 < fd) : (s.closeListed a.devFd).fds.execed fd = none := by
  unfold Descriptors.execed
  rw [closeListed_beyond h hfd]
  rfl

/-- Closing what is listed leaves a program with what it inherits exactly if all of that is
close-on-exec beyond the standard streams. -/
theorem closeListed_execed_eq_iff {a : StartAnswers O} {s : ProcessState O} (h : ListsAll a s) :
    (s.closeListed a.devFd).fds.execed = s.fds.execed ↔
      ∀ fd d, s.fds fd = some d → 2 < fd → d.cloexec = true := by
  constructor
  · intro heq fd d hopen hfd
    have hnone : s.fds.execed fd = none := by
      rw [← heq]
      exact closeListed_execed_beyond h hfd
    rcases hflag : d.cloexec with _ | _
    · rw [Descriptors.execed_eq_some_iff.mpr ⟨hopen, hflag⟩] at hnone
      cases hnone
    · rfl
  · intro hsealed
    funext fd
    rcases Int.lt_or_le 2 fd with hfd | hfd
    · rw [closeListed_execed_beyond h hfd]
      rcases hkept : s.fds.execed fd with _ | d
      · rfl
      · obtain ⟨hopen, hflag⟩ := Descriptors.execed_eq_some_iff.mp hkept
        rw [hsealed fd d hopen hfd] at hflag
        cases hflag
    · exact closeListed_execed_std s a.devFd hfd

/-- **The two spawns start a program alike.** Let `s` be the state of a child before its closure, let
the hook of the guarded spawn be a session hook, and let both closures succeed on `s`. Then both
programs start with default dispositions, no signal blocked, as leaders of their session, with the
terminal and the `umask` that were asked for, and with the same standard streams; beyond these the
legacy one has no descriptor, and the states agree entirely if and only if every descriptor that the
child has beyond them is close-on-exec.
Source: `unix.rs` `PtyFd::spawn_command`, `PtyFd::spawn_contained_command_with_fault`,
`close_random_fds` -/
theorem spawns_start_alike_iff {a : StartAnswers O} {o : StartOptions} {s l c : ProcessState O}
    (hhook : SessionHook a.acquire) (hlisted : ListsAll a s) (hl : legacyClosure a o s = .ok l)
    (hc : containedClosure a o s = .ok c) :
    StartsOnTty o s l.execed ∧ StartsOnTty o s c.execed ∧
      (∀ fd ≤ 2, l.execed.fds fd = c.execed.fds fd) ∧ (∀ fd, 2 < fd → l.execed.fds fd = none) ∧
      (l.execed = c.execed ↔ ∀ fd d, s.fds fd = some d → 2 < fd → d.cloexec = true) := by
  obtain rfl := legacyClosure_state hl
  obtain ⟨fds, rfl, hfds⟩ := containedClosure_state hhook hc
  refine ⟨startsOnTty o s _, startsOnTty o s fds, ?_, ?_, ?_⟩
  · intro fd hfd
    have hstd := closeListed_execed_std s a.devFd hfd
    rw [← hfds] at hstd
    exact hstd
  · intro fd hfd
    exact closeListed_execed_beyond hlisted hfd
  · rw [← closeListed_execed_eq_iff hlisted, ← hfds]
    constructor
    · intro heq
      exact congrArg ProcessState.fds heq
    · intro heq
      simp only [ProcessState.execed, heq]

/-- A child with its standard streams, a close-on-exec pipe at 3 and a log file at 4 that the parent
has not marked. -/
def loggingChild : ProcessState String where
  disposition signo := if signo = .sighup then .ignored else .handler
  blocked _ := true
  leader := false
  controllingTty := none
  umask := 18
  fds fd :=
    if fd = 0 ∨ fd = 1 ∨ fd = 2 then some { object := "tty", cloexec := false }
    else if fd = 3 then some { object := "pipe", cloexec := true }
    else if fd = 4 then some { object := "log", cloexec := false }
    else none

/-- Calls that all succeed in that child. -/
def startingAnswers : StartAnswers String where
  setsid := .ok ()
  acquire s := .ok s.newSession
  tiocsctty := .ok ()
  devFd := some [some "0", some "1", some "2", some "3", some "4"]

theorem startingAnswers_hook : SessionHook startingAnswers.acquire := by
  constructor <;>
    · intro s t ht
      cases ht
      rfl

theorem loggingChild_listed : ListsAll startingAnswers loggingChild := by
  refine ⟨_, rfl, fun fd d hopen => ?_⟩
  unfold loggingChild at hopen
  dsimp only at hopen
  split_ifs at hopen with hstd hpipe hlog
  · rcases hstd with rfl | rfl | rfl
    · exact ⟨"0", by decide, rfl⟩
    · exact ⟨"1", by decide, rfl⟩
    · exact ⟨"2", by decide, rfl⟩
  · exact ⟨"3", by decide, by rw [hpipe]; rfl⟩
  · exact ⟨"4", by decide, by rw [hlog]; rfl⟩

/-- The log file tells the two programs apart. -/
theorem spawns_start_alike_logging :
    ∃ l c, legacyClosure startingAnswers { controllingTty := true, umask := none } loggingChild = .ok l ∧
      containedClosure startingAnswers { controllingTty := true, umask := none } loggingChild = .ok c ∧
      l.execed.controllingTty = some "tty" ∧ l.execed ≠ c.execed := by
  refine ⟨_, _, rfl, rfl, rfl, fun heq => ?_⟩
  have hiff := (@spawns_start_alike_iff String startingAnswers { controllingTty := true, umask := none }
    loggingChild _ _ startingAnswers_hook loggingChild_listed rfl rfl).2.2.2.2
  have hsealed := hiff.mp heq 4 _ rfl (by decide)
  cases hsealed

end SysprimsPty.Spawn
