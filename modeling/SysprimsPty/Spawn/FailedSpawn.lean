import SysprimsPty.Recovery.UnixDrain
import SysprimsPty.Recovery.WinSystem
import SysprimsPty.Spawn.Unix
import SysprimsPty.Spawn.Windows

/-!
# What becomes of the child of a failed spawn

The two guarded spawns put together with the recovery over the process that they created: from the
first call of the spawn to the end of the worker that its error leaves behind.

* `overUnix`, `overWindows` — a recovery over the process of the child and a clock.
* `UnixRecovers`, `WindowsRecovers` — what that recovery does for the child, along every run.
* `failed_unix_spawn_recovers`, `failed_windows_spawn_recovers` — the errors of a failed spawn.
-/

namespace SysprimsPty.Spawn

open SysprimsPty.Core
open SysprimsPty.Found
open SysprimsPty.Process
open SysprimsPty.Recovery

variable {C R G : Type} {c : C}

/-- The answers by which the holder of an error learns that nothing is left to recover: `Ok(true)` of
`recover`, or `false` of `recovery_pending`. -/
def saysResolved : ClientEvent C → Bool
  | .attemptReturn _ (.ok resolved) => resolved
  | .isPending pending => !pending
  | _ => false

/-- Such an answer is given only when the flag is false, and leaves it so. -/
theorem AfterAttach.pending_of_resolved {s t : System C} {e : ClientEvent C} (h : AfterAttach c s)
    (ht : s.step (.client e) = some t) (he : saysResolved e = true) : t.pending = false := by
  unfold saysResolved at he
  split at he
  · next source resolved =>
      obtain rfl := he
      obtain ⟨hb, rfl⟩ := h.backs ht
      exact pending_of_backs_true hb
  · next pending =>
      obtain ⟨-, rfl, rfl⟩ := pending_of_reports ht
      simpa using he
  · cases he

/-- By then the child has been taken out of the slot. -/
theorem AfterAttach.reaped_of_resolved {s t : System C} {e : ClientEvent C} (h : AfterAttach c s)
    (ht : s.step (.client e) = some t) (he : saysResolved e = true) : c ∈ t.reaped := by
  have hafter := h.step ht
  exact (hafter.owned.reaped_of_not_pending hafter.attached (h.pending_of_resolved ht he)).2

/-- A worker that has ended has taken out the child and nothing else. -/
theorem AfterAttach.reaped_of_ended {s : System C} (h : AfterAttach c s)
    (hended : s.worker = .ended) : s.reaped = [c] := by
  obtain ⟨-, -, hreaped, -⟩ := h.owned.ended hended
  rw [hreaped, h.attached]
  rfl

/-! ## Unix -/

/-- A recovery over the child that `Command::spawn` has returned. -/
def overUnix (system : System C) (clock : Instant) : UnixSystem C where
  system
  world := .spawned
  clock
  calls := []

/-- **What the recovery does for the child `c`**, along every interleaving of the holder's calls, the
worker's steps, the exit of the child and a reuse of its pid, whatever the system answers. -/
structure UnixRecovers (c : C) (s : UnixSystem C) : Prop where
  /-- Every signal of the worker reaches the child. -/
  hits : ∀ moves t, exec UnixSystem.step s moves = some t → SignalsHitChild t.world
  /-- The holder learns that nothing is left to recover only when the child has been reaped. -/
  resolved : ∀ moves e t, saysResolved e = true →
    exec UnixSystem.step s (moves ++ [.client e]) = some t → t.world.process = .reaped
  /-- After a drop of the error, unless polls go on failing, the worker ends exactly if the child comes
  to its exit. -/
  ends_iff : ∀ moves t, exec UnixSystem.step s moves = some t → t.system.client = .dropped →
    ∀ (os : ℕ → OsMoment) (N : ℕ), (∀ n, N < n → (os n).waitFails = none) →
      ((∃ n u, exec UnixSystem.step t (UnixSystem.ticks os n) = some u ∧ u.system.worker = .ended) ↔
        ∃ n u, exec UnixSystem.step t (UnixSystem.ticks os n) = some u ∧ Exited u.world)
  /-- A worker that has ended has reaped the child and nothing else. -/
  ended : ∀ moves t, exec UnixSystem.step s moves = some t → t.system.worker = .ended →
    t.system.reaped = [c] ∧ t.world.process = .reaped

/-- The invariant of the recovery to which `c` was attached, over its process. -/
structure UnixHeld (c : C) (s : UnixSystem C) : Prop where
  drained : Drained s
  after : AfterAttach c s.system

namespace UnixHeld

variable {s t : UnixSystem C}

/-- Every move keeps it. -/
theorem step {move : UnixMove C} (h : UnixHeld c s) (ht : s.step move = some t) : UnixHeld c t := by
  obtain ⟨es, hes⟩ := UnixSystem.exec_system (exec_single ht)
  exact ⟨UnixSystem.drained_step h.drained ht,
    exec_invariant (fun _ _ _ hx hy => AfterAttach.step hx hy) h.after hes⟩

/-- Every run keeps it. -/
theorem run {moves : List (UnixMove C)} (h : UnixHeld c s)
    (ht : exec UnixSystem.step s moves = some t) : UnixHeld c t :=
  exec_invariant (fun _ _ _ hx hy => hx.step hy) h ht

/-- The child that was taken out of the slot has been reaped. -/
theorem reaped (h : UnixHeld c s) (hc : c ∈ s.system.reaped) : s.world.process = .reaped :=
  h.drained.fits.mp (h.drained.reaped (List.ne_nil_of_mem hc))

/-- With the controller dropped. -/
theorem abandoned (h : UnixHeld c s) (hclient : s.system.client = .dropped) :
    Abandoned (some c) s :=
  ⟨h.drained, hclient, h.after.attached⟩

/-- A worker that has ended has reaped the child and nothing else. -/
theorem ended (h : UnixHeld c s) (hended : s.system.worker = .ended) :
    s.system.reaped = [c] ∧ s.world.process = .reaped := by
  have hreaped := h.after.reaped_of_ended hended
  exact ⟨hreaped, h.reaped (by rw [hreaped]; exact List.mem_singleton_self c)⟩

/-- **Along every run.** -/
theorem recovers (h : UnixHeld c s) : UnixRecovers c s := by
  refine ⟨?_, ?_, ?_, ?_⟩
  · intro moves t ht
    exact (h.run ht).drained.sound.hits
  · intro moves e t he ht
    obtain ⟨u, v, hu, huv, hv⟩ := exec_append_cons UnixSystem.step ht
    cases hv
    obtain ⟨system, hsystem, rfl⟩ := Option.map_eq_some_iff.mp huv
    have hreaped : c ∈ system.reaped := AfterAttach.reaped_of_resolved (h.run hu).after hsystem he
    exact ((h.run hu).step huv).reaped hreaped
  · intro moves t ht hclient os N hwait
    have habandoned := (h.run ht).abandoned hclient
    constructor
    · rintro ⟨n, u, hu, hended⟩
      refine ⟨n, u, hu, ?_⟩
      rw [Exited, (((h.run ht).run hu).ended hended).2]
      simp
    · rintro ⟨n, u, hu, hexited⟩
      exact habandoned.ends hwait hu hexited
  · intro moves t ht hended
    exact (h.run ht).ended hended

/-- The child is attached to a prepared recovery. -/
theorem of_attach {system : System C} (h : System.prepare.attach c = some system) (clock : Instant) :
    UnixHeld c (overUnix system clock) := by
  obtain ⟨s', hs', hafter⟩ := attach_prepare c
  obtain rfl : system = s' := Option.some.inj (h.symm.trans hs')
  have hrun : exec UnixSystem.step (.prepare .spawned clock)
      [.client (.attachStore c), .client .attachSend] = some (overUnix system clock) := by
    obtain rfl := Option.some.inj h
    rfl
  exact ⟨exec_invariant (fun _ _ _ hx hy => UnixSystem.drained_step hx hy)
    (UnixSystem.drained_prepare (.inl rfl) clock) hrun, hafter⟩

end UnixHeld

/-- A recovery that the call drops has no child. -/
theorem discarded_ends (u : UnixSteps C R G) {s : System C}
    (h : u.spawnContainedCommand.discarded = some s) : EndsUnused s := by
  have hdrop : System.prepare.step (.client .drop) = some s → EndsUnused s := by
    intro hs
    obtain ⟨s', hs', hends⟩ := @dropped_ends C
    rwa [Option.some.inj (hs.symm.trans hs')]
  unfold UnixSteps.spawnContainedCommand at h
  split at h
  · cases h
  · split at h
    · cases h
    · dsimp only at h
      split at h
      · exact hdrop h
      · split at h
        · cases h
        · split at h
          · exact hdrop h
          · cases h

/-- **The error of a failed Unix spawn.** Whatever step fails, the call has either created no child,
and then a recovery that was prepared ends without one, or the recovery behind the error is over the
created child and does for it what `UnixRecovers` says.
Source: `unix.rs` `PtyFd::spawn_contained_command_with_fault`, `lib.rs` `ContainedPtySpawnError`,
`failed_child_recovery_worker`, `attempt_failed_child_recovery` -/
theorem failed_unix_spawn_recovers {u : UnixSteps C R G} (hu : u.HandsBackChild)
    {e : ContainedPtySpawnError C} (he : u.spawnContainedCommand.result = some (.error e))
    (clock : Instant) :
    (e.recovery = none ∧ (∀ c, ¬ u.Creates c) ∧
        ∀ s, u.spawnContainedCommand.discarded = some s → EndsUnused s) ∨
      ∃ c s, u.Creates c ∧ e.recovery = some s ∧ UnixRecovers c (overUnix s clock) := by
  have hpath := unix_path u
  have hdiscarded := @discarded_ends C R G u
  generalize u.spawnContainedCommand = o at he hpath hdiscarded ⊢
  cases hpath with
  | notCreated e' trace discarded h =>
      cases he
      exact .inl ⟨rfl, h, fun s => @hdiscarded s⟩
  | failed c c' e' s hc hf hback hs hr =>
      obtain rfl := hback hu
      cases he
      exact .inr ⟨c', s, hc, hr, (UnixHeld.of_attach hs clock).recovers⟩
  | guarded c g h => cases he

/-- The adoption of child 7 fails, and the recovery behind the error is over child 7. -/
theorem failed_unix_spawn_recovers_unadopted :
    ∃ e, unadoptedSteps.spawnContainedCommand.result = some (.error e) ∧
      ∃ s, e.recovery = some s ∧ UnixRecovers 7 (overUnix s 0) := by
  have hback : unadoptedSteps.HandsBackChild := by
    intro c r adoption h
    cases h
    rfl
  refine ⟨_, rfl, ?_⟩
  rcases failed_unix_spawn_recovers hback rfl 0 with ⟨hnone, -⟩ | ⟨c, s, hc, hs, hrecovers⟩
  · cases hnone
  · obtain rfl : c = 7 := hc.unique ⟨rfl, rfl, rfl, rfl, rfl, rfl, rfl⟩
    exact ⟨s, hs, hrecovers⟩

/-! ## Windows -/

/-- A recovery over the suspended child that `CreateProcessW` has returned. -/
def overWindows (system : System C) (clock : Instant) : WinSystem C where
  system
  process := .running
  clock
  panicked := false

/-- **What the recovery does for the child `c`**, along every interleaving of the holder's calls, the
worker's steps and the end of the child, whatever the system answers. -/
structure WindowsRecovers (c : C) (s : WinSystem C) : Prop where
  /-- The holder learns that nothing is left to recover only when the child has exited. -/
  resolved : ∀ moves e t, saysResolved e = true →
    exec WinSystem.step s (moves ++ [.client e]) = some t → t.process.ShowsExit
  /-- After a drop of the error, if no clone of the process handle fails from then on and
  `GetExitCodeProcess` does not go on failing, a worker that has not panicked ends exactly if the child
  comes to an exit that shows. -/
  ends_iff : ∀ moves t, exec WinSystem.step s moves = some t → t.panicked = false →
    t.system.client = .dropped → ∀ (os : ℕ → WinMoment) (N : ℕ), (∀ n, (os n).cloned = true) →
      (∀ n, N < n → (os n).queried = true) →
        ((∃ n u, exec WinSystem.step t (WinSystem.ticks os n) = some u ∧ u.system.worker = .ended) ↔
          ∃ n u, exec WinSystem.step t (WinSystem.ticks os n) = some u ∧ u.process.ShowsExit)
  /-- A worker that has ended without a panic has taken the child out of the slot and nothing else. -/
  ended : ∀ moves t, exec WinSystem.step s moves = some t → t.panicked = false →
    t.system.worker = .ended → t.system.reaped = [c] ∧ t.process.ShowsExit
  /-- After a panic of the worker nobody is told any more that nothing is left to recover. -/
  lost : ∀ moves t, exec WinSystem.step s moves = some t → t.panicked = true →
    ∀ moves' e, saysResolved e = true → exec WinSystem.step t (moves' ++ [.client e]) = none

/-- A protocol whose worker has panicked over its child: the flag stays true, and no response says
otherwise. -/
structure Lost (s : System C) : Prop where
  worker : s.worker = .ended
  pending : s.pending = true
  attached : s.attached ≠ none
  handing : s.client.isAttaching = false
  waiting : ∀ i, s.client = .waiting i → (i, .ok true) ∉ s.responses
  returning : ∀ source, s.client ≠ .returning source (.ok true)

/-- A lost protocol is lost at every point of the client that does not say otherwise. -/
theorem Lost.setClient {s : System C} (h : Lost s) {client : ClientPc C}
    (hhanding : client.isAttaching = false)
    (hwaiting : ∀ i, client = .waiting i → (i, .ok true) ∉ s.responses)
    (hreturning : ∀ source, client ≠ .returning source (.ok true)) : Lost { s with client } :=
  ⟨h.worker, h.pending, h.attached, hhanding, hwaiting, hreturning⟩

/-- **A call of the client on a lost protocol** leaves it lost, and does not say otherwise. -/
theorem Lost.clientStep {s t : System C} {e : ClientEvent C} (h : Lost s)
    (ht : s.clientStep e = some t) : Lost t ∧ saysResolved e = false := by
  have hhanding := h.handing
  cases clientStep_move ht with
  | attachStore child hc ha => exact absurd ha h.attached
  | abort child hc hw =>
      rw [hc] at hhanding
      cases hhanding
  | attachSend child hc =>
      rw [hc] at hhanding
      cases hhanding
  | loadTrue timeout hc hp => exact ⟨h.setClient rfl (by simp) (by simp), rfl⟩
  | loadFalse timeout hc hp =>
      rw [h.pending] at hp
      cases hp
  | sendFails timeout hc hw => exact ⟨h.setClient rfl (by simp) (by simp), rfl⟩
  | attemptSend timeout hc =>
      -- the receiver is gone, so that the send fails
      simp [System.clientStep, hc, h.worker, WorkerPc.isEnded] at ht
  | receive response result hc hr =>
      refine ⟨h.setClient rfl (by simp) ?_, rfl⟩
      intro source heq
      obtain ⟨-, rfl⟩ := ClientPc.returning.inj heq
      exact h.waiting response hc hr
  | giveUp response error hc => exact ⟨h.setClient rfl (by simp) (by simp), rfl⟩
  | ret source result hc =>
      refine ⟨h.setClient rfl (by simp) (by simp), ?_⟩
      rcases result with error | _ | _
      · rfl
      · rfl
      · exact absurd hc (h.returning source)
  | isPending hc =>
      refine ⟨h, ?_⟩
      rw [h.pending]
      rfl
  | drop hd ha => exact ⟨h.setClient rfl (by simp) (by simp), rfl⟩

/-- A panic in a call of an attempt loses the child. -/
theorem AfterAttach.lost {s : System C} (h : AfterAttach c s) {timeout : Duration}
    {response : Option ℕ} {pc : AttemptPc} (hw : s.worker = .attempting timeout response pc)
    (hrun : ∀ r, pc ≠ .returned r) : Lost s.unwound := by
  have hpending : s.pending = true := by
    have hfits := h.owned.fits
    rw [hw] at hfits
    exact h.owned.flagged ((AttemptPc.holds_iff_of_ne (hrun (.ok true))).mp hfits)
  refine ⟨rfl, hpending, ?_, ?_, ?_, ?_⟩
  · show s.attached ≠ none
    rw [h.attached]
    simp
  · rcases hhanding : s.client.isAttaching with _ | _
    · exact hhanding
    · have hnone := h.owned.handing hhanding
      rw [h.attached] at hnone
      cases hnone
  · intro i hi hmem
    have hclient : s.client = .waiting i := hi
    have hflag := h.reported.latest i _ hmem (h.reported.waiting i hclient) (by rw [hclient]; rfl)
    rw [hpending] at hflag
    cases hflag
  · intro source hsource
    have hflag := pending_of_backs_true (h.reported.returning source _ hsource)
    rw [hpending] at hflag
    cases hflag

/-- The invariant of the recovery to which `c` was attached, over its process. -/
structure WindowsHeld (c : C) (s : WinSystem C) : Prop where
  drained : WinDrained s
  after : s.panicked = false → AfterAttach c s.system
  lost : s.panicked = true → Lost s.system

namespace WindowsHeld

variable {s t : WinSystem C}

/-- A move that ends in a panicked worker. -/
theorem lost_step {move : WinMove C} (h : WindowsHeld c s) (ht : s.step move = some t)
    (hpanicked : t.panicked = true) : Lost t.system := by
  rcases move with e | m
  · obtain ⟨system, hsystem, rfl⟩ := Option.map_eq_some_iff.mp ht
    exact ((h.lost hpanicked).clientStep hsystem).1
  · rcases hs : s.panicked with _ | _
    · have hwork : WinWork (s.elapse m) m t := WinSystem.work_move ht
      obtain ⟨timeout, response, pc, hw, hrun, hunwound⟩ := WinSystem.work_panics hwork hs hpanicked
      rw [hunwound]
      exact (h.after hs).lost hw hrun
    · have hended : (s.elapse m).system.worker = .ended := (h.lost hs).worker
      have hnone : (s.elapse m).work m = some t := ht
      rw [WinSystem.work_ended hended] at hnone
      cases hnone

/-- Every move keeps it. -/
theorem step {move : WinMove C} (h : WindowsHeld c s) (ht : s.step move = some t) :
    WindowsHeld c t := by
  refine ⟨WinSystem.drained_step h.drained ht, fun hintact => ?_, h.lost_step ht⟩
  obtain ⟨hs, e, hstep⟩ := WinSystem.step_system ht hintact
  exact (h.after hs).step hstep

/-- Every run keeps it. -/
theorem run {moves : List (WinMove C)} (h : WindowsHeld c s)
    (ht : exec WinSystem.step s moves = some t) : WindowsHeld c t :=
  exec_invariant (fun _ _ _ hx hy => hx.step hy) h ht

/-- The exit of a child that was taken out of the slot shows. -/
theorem shows (h : WindowsHeld c s) (hc : c ∈ s.system.reaped) : s.process.ShowsExit :=
  h.drained.reaped (List.ne_nil_of_mem hc)

/-- A worker that has ended without a panic has taken the child out of the slot and nothing else. -/
theorem ended (h : WindowsHeld c s) (hintact : s.panicked = false)
    (hended : s.system.worker = .ended) : s.system.reaped = [c] ∧ s.process.ShowsExit := by
  have hreaped := (h.after hintact).reaped_of_ended hended
  exact ⟨hreaped, h.shows (by rw [hreaped]; exact List.mem_singleton_self c)⟩

/-- After a panic no answer says that nothing is left to recover. -/
theorem not_resolved (h : WindowsHeld c s) (hpanicked : s.panicked = true) {e : ClientEvent C}
    (ht : s.step (.client e) = some t) : saysResolved e = false := by
  obtain ⟨system, hsystem, -⟩ := Option.map_eq_some_iff.mp ht
  exact ((h.lost hpanicked).clientStep hsystem).2

/-- **Along every run.** -/
theorem recovers (h : WindowsHeld c s) : WindowsRecovers c s := by
  refine ⟨?_, ?_, ?_, ?_⟩
  · intro moves e t he ht
    obtain ⟨u, v, hu, huv, hv⟩ := exec_append_cons WinSystem.step ht
    cases hv
    have hheld := h.run hu
    rcases hpanicked : u.panicked with _ | _
    · have hnext := hheld.step huv
      obtain ⟨system, hsystem, rfl⟩ := Option.map_eq_some_iff.mp huv
      exact hnext.shows (AfterAttach.reaped_of_resolved (hheld.after hpanicked) hsystem he)
    · rw [hheld.not_resolved hpanicked huv] at he
      cases he
  · intro moves t ht hintact hclient os N hcloned hqueried
    have hattached := ((h.run ht).after hintact).attached
    rw [((h.run ht).drained.ends_iff hintact hclient hcloned hqueried).1, hattached]
    simp
  · intro moves t ht hintact hended
    exact (h.run ht).ended hintact hended
  · intro moves t ht hpanicked moves' e he
    rcases hu : exec WinSystem.step t (moves' ++ [.client e]) with _ | u
    · exact hu
    · obtain ⟨v, w, hv, hvw, -⟩ := exec_append_cons WinSystem.step hu
      have hstill : v.panicked = true :=
        exec_invariant (fun _ _ _ hx hy => WinSystem.panicked_step hx hy) hpanicked hv
      rw [((h.run ht).run hv).not_resolved hstill hvw] at he
      cases he

/-- The child is attached to a prepared recovery. -/
theorem of_attach {system : System C} (h : System.prepare.attach c = some system) (clock : Instant) :
    WindowsHeld c (overWindows system clock) := by
  obtain ⟨s', hs', hafter⟩ := attach_prepare c
  obtain rfl : system = s' := Option.some.inj (h.symm.trans hs')
  have hrun : exec WinSystem.step (.prepare .running clock)
      [.client (.attachStore c), .client .attachSend] = some (overWindows system clock) := by
    obtain rfl := Option.some.inj h
    rfl
  exact ⟨exec_invariant (fun _ _ _ hx hy => WinSystem.drained_step hx hy)
    (WinSystem.drained_prepare .running clock) hrun, fun _ => hafter, nofun⟩

end WindowsHeld

/-- **The error of a failed Windows spawn.** Whatever step fails, the call has created no child, or the
recovery behind the error is over the created child and does for it what `WindowsRecovers` says, or the
child was contained and the call ended with a `terminate` of its guard.
Source: `win/conpty.rs` `spawn_contained_command_inner`, `lib.rs` `ContainedPtySpawnError`,
`failed_child_recovery_worker`, `attempt_failed_child_recovery` -/
theorem failed_windows_spawn_recovers {w : WindowsSteps C R G} (hw : w.HandsBackChild)
    {e : ContainedPtySpawnError C} (he : w.spawnContainedCommandInner.result = some (.error e))
    (clock : Instant) :
    (e.recovery = none ∧ ∀ c, ¬ w.Creates c) ∨
      (∃ c s, w.Creates c ∧ e.recovery = some s ∧ WindowsRecovers c (overWindows s clock)) ∨
      (e.recovery = none ∧ ∃ c g, w.Contains c g ∧ w.Refuses g ∧
        w.spawnContainedCommandInner.trace.getLast? =
          some (.terminated (reportsExited (w.terminate g resolveConfig)))) := by
  have hpath := spawn_path w
  generalize w.spawnContainedCommandInner = o at he hpath ⊢
  cases hpath with
  | notCreated e' h =>
      cases he
      exact .inl ⟨rfl, h⟩
  | notAssigned c source error hc ha hafter =>
      cases he
      obtain ⟨s, hs, -, rfl⟩ := afterSpawn_eq_some hafter
      exact .inr (.inl ⟨c, s, hc, rfl, (WindowsHeld.of_attach hs clock).recovers⟩)
  | notAdopted c r adoption error hc ha hg hafter =>
      cases he
      obtain ⟨s, hs, -, rfl⟩ := afterSpawn_eq_some hafter
      rw [hw c r adoption hg] at hs
      exact .inr (.inl ⟨c, s, hc, rfl, (WindowsHeld.of_attach hs clock).recovers⟩)
  | refused c g source hc hr =>
      cases he
      have hrefuses : w.Refuses g := .inl (by simp [hr])
      exact .inr (.inr ⟨rfl, c, g, hc, hrefuses, List.getLast?_concat⟩)
  | notResumed c g source hc hr hresume =>
      cases he
      have hrefuses : w.Refuses g := by
        refine .inr fun hone => ?_
        rw [resume_eq_ok_iff.mpr hone] at hresume
        cases hresume
      exact .inr (.inr ⟨rfl, c, g, hc, hrefuses, List.getLast?_concat⟩)
  | spawned c g hc hr h1 => cases he

/-- Child 7 is created and assigned, and the adoption fails, handing it back. -/
def unadoptedWindowsSteps : WindowsSteps ℕ Unit Unit :=
  { unresumedSteps false with
    contain := fun c _ => .error { error := .msg "injected adoption failure", child := c } }

/-- The recovery behind the error of the failed adoption is over child 7. -/
theorem failed_windows_spawn_recovers_unadopted :
    ∃ e, unadoptedWindowsSteps.spawnContainedCommandInner.result = some (.error e) ∧
      ∃ s, e.recovery = some s ∧ WindowsRecovers 7 (overWindows s 0) := by
  have hback : unadoptedWindowsSteps.HandsBackChild := by
    intro c r adoption h
    cases h
    rfl
  refine ⟨_, rfl, ?_⟩
  rcases failed_windows_spawn_recovers hback rfl 0 with
    ⟨hnone, -⟩ | ⟨c, s, hc, hs, hrecovers⟩ | ⟨hnone, -⟩
  · cases hnone
  · obtain rfl : c = 7 := hc.unique ⟨rfl, rfl, rfl, rfl, rfl, rfl⟩
    exact ⟨s, hs, hrecovers⟩
  · cases hnone

end SysprimsPty.Spawn
