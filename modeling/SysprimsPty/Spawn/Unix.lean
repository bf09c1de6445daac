import SysprimsPty.Spawn.Error

/-!
# The guarded spawn on Unix

`PtyFd::spawn_contained_command_with_fault`, without a test fault, as a function of what each step
answers. The answers are a `UnixSteps`; the outcome is what the call returns, who received the child
and the recovery that the call dropped. `sysprims_session` and `sysprims_timeout` are outside the
repository, so their calls are fields of `UnixSteps`, and what the code relies on about the adoption
is `UnixSteps.HandsBackChild`.

* `UnixSteps.Creates`, `UnixSteps.Succeeds` — which of the nine steps have to succeed.
* `UnixPath`, `unix_path` — the ways through the function.
* `dropped_ends` — a worker whose controller is dropped before an `attach` ends without a child.
* `spawn_contained_transaction` — the result, the stage and the owner of the child, for every
  combination of answers.
-/

namespace SysprimsPty.Spawn

open SysprimsPty.Core
open SysprimsPty.Found
open SysprimsPty.Recovery

/-- What every step of the Unix spawn answers: `C` is the type of the children, `R` of the receipts
and `G` of the guards. -/
structure UnixSteps (C R G : Type) where
  /-- `builder.as_command()` -/
  asCommand : Except Error Unit
  /-- `sysprims_session::prepare_session_acquisition()` -/
  prepareSessionAcquisition : Except Error Unit
  /-- The `as_stdio()` for each of the three streams. -/
  stdin : Except Error Unit
  stdout : Except Error Unit
  stderr : Except Error Unit
  /-- The thread spawn in `FailedChildRecovery::prepare()`. -/
  prepareRecovery : IoResult Unit
  /-- `cmd.spawn()` -/
  spawn : IoResult C
  /-- `pending_receipt.into_receipt(child.child.id())` -/
  intoReceipt : C → Except Error R
  /-- `sysprims_timeout::contain_acquired_session(child, receipt)` -/
  contain : C → R → Except (AdoptionError C) G

/-- The moments at which the recovery worker or the child changes hands, in order. -/
inductive UnixEvent (C : Type)
  | recoveryPrepared
  | spawned (child : C)
  /-- The child is moved to the recovery worker. -/
  | attached (child : C)
  /-- The child is moved into the guard. -/
  | adopted (child : C)
  /-- The controller goes out of scope without an `attach`. -/
  | recoveryDropped
  deriving DecidableEq

/-- What the call returns (`none`: it aborted the process), what it did, and the protocol state
behind a controller that it dropped. -/
structure UnixOutcome (C G : Type) where
  result : Option (Except (ContainedPtySpawnError C) G)
  trace : List (UnixEvent C)
  discarded : Option (System C)

variable {C R G : Type}

namespace UnixSteps

/-- The steps before the recovery is prepared.
Source: `unix.rs` `spawn_contained_command_with_fault`, up to `pre_exec` -/
def configure (u : UnixSteps C R G) : Except Error Unit := do
  u.asCommand
  u.prepareSessionAcquisition
  u.stdin
  u.stdout
  u.stderr

/-- Source: `unix.rs` `PtyFd::spawn_contained_command_with_fault` -/
def spawnContainedCommand (u : UnixSteps C R G) : UnixOutcome C G :=
  match u.configure with
  | .error e => { result := some (.error (.beforeSpawn e)), trace := [], discarded := none }
  | .ok () =>
  match u.prepareRecovery with
  | .error e => { result := some (.error (.beforeSpawn (.io e))), trace := [], discarded := none }
  | .ok () =>
  let recovery : System C := System.prepare
  match u.spawn with
  | .error e =>
      { result := some (.error (.beforeSpawn (.io e)))
        trace := [.recoveryPrepared, .recoveryDropped]
        discarded := recovery.step (.client .drop) }
  | .ok child =>
  match u.intoReceipt child with
  | .error e =>
      { result := (ContainedPtySpawnError.afterSpawn .receipt e child recovery).map .error
        trace := [.recoveryPrepared, .spawned child, .attached child]
        discarded := none }
  | .ok receipt =>
  match u.contain child receipt with
  | .ok guard =>
      { result := some (.ok guard)
        trace := [.recoveryPrepared, .spawned child, .adopted child, .recoveryDropped]
        discarded := recovery.step (.client .drop) }
  | .error adoption =>
      { result := (ContainedPtySpawnError.afterSpawn .adoption adoption.error adoption.child
          recovery).map .error
        trace := [.recoveryPrepared, .spawned child, .attached adoption.child]
        discarded := none }

/-- A failed adoption hands back the child it was given. -/
def HandsBackChild (u : UnixSteps C R G) : Prop :=
  ∀ c r adoption, u.contain c r = .error adoption → adoption.child = c

/-- The six steps before `Command::spawn` succeed, and it returns the child `c`. -/
structure Creates (u : UnixSteps C R G) (c : C) : Prop where
  asCommand : u.asCommand = .ok ()
  prepareSessionAcquisition : u.prepareSessionAcquisition = .ok ()
  stdin : u.stdin = .ok ()
  stdout : u.stdout = .ok ()
  stderr : u.stderr = .ok ()
  prepareRecovery : u.prepareRecovery = .ok ()
  spawn : u.spawn = .ok c

/-- All nine steps succeed, with the child `c` and the guard `g`. -/
def Succeeds (u : UnixSteps C R G) (c : C) (g : G) : Prop :=
  u.Creates c ∧ ∃ r, u.intoReceipt c = .ok r ∧ u.contain c r = .ok g

/-- `configure` succeeds exactly if its five steps do. -/
theorem configure_eq_ok_iff {u : UnixSteps C R G} :
    u.configure = .ok () ↔ u.asCommand = .ok () ∧ u.prepareSessionAcquisition = .ok () ∧
      u.stdin = .ok () ∧ u.stdout = .ok () ∧ u.stderr = .ok () := by
  simp only [configure, seq_eq_ok_iff]

/-- The child is created exactly if `configure`, the preparation and `Command::spawn` succeed. -/
theorem creates_iff {u : UnixSteps C R G} {c : C} :
    u.Creates c ↔ u.configure = .ok () ∧ u.prepareRecovery = .ok () ∧ u.spawn = .ok c := by
  rw [configure_eq_ok_iff]
  constructor
  · rintro ⟨hcommand, hsession, hin, hout, herr, hprep, hspawn⟩
    exact ⟨⟨hcommand, hsession, hin, hout, herr⟩, hprep, hspawn⟩
  · rintro ⟨⟨hcommand, hsession, hin, hout, herr⟩, hprep, hspawn⟩
    exact ⟨hcommand, hsession, hin, hout, herr, hprep, hspawn⟩

/-- The step that failed after the creation of `c`, as the stage and the source of the error. -/
def FailsAfter (u : UnixSteps C R G) (c : C) (e : ContainedPtySpawnError C) : Prop :=
  (e.stage = .receipt ∧ u.intoReceipt c = .error e.source) ∨
    (e.stage = .adoption ∧ ∃ r adoption, u.intoReceipt c = .ok r ∧
      u.contain c r = .error adoption ∧ adoption.error = e.source)

end UnixSteps

/-! ## A worker that never receives a child -/

/-- The states of a protocol whose controller was dropped before an `attach`. -/
structure Unused (s : System C) : Prop where
  client : s.client = .dropped
  queue : s.queue = []
  child : s.child = none
  attached : s.attached = none
  reaped : s.reaped = []
  worker : s.worker = .recv ∨ s.worker = .checking ∨ s.worker = .ended

/-- The steps left to a worker that never receives a child. -/
def stepsLeft (s : System C) : ℕ :=
  match s.worker with
  | .recv => 2
  | .checking => 1
  | _ => 0

/-- Every step of such a protocol brings its worker closer to the end. -/
theorem Unused.step {s t : System C} {e : Event C} (h : Unused s) (ht : s.step e = some t) :
    Unused t ∧ stepsLeft t < stepsLeft s := by
  have hworker := h.worker
  rcases e with e | e
  · have hm : ClientMove s e t := clientStep_move ht
    have hclient := h.client
    cases hm <;> simp_all [ClientPc.isDropped]
  · have hm : WorkerMove s e t := workerStep_move ht
    cases hm with
    | adopt _ _ _ hq => simp [h.queue] at hq
    | attempt _ _ _ _ hq => simp [h.queue] at hq
    | disconnected hw _ _ =>
        refine ⟨⟨h.client, h.queue, h.child, h.attached, h.reaped, .inr (.inl rfl)⟩, ?_⟩
        simp [stepsLeft, hw]
    | stop hw _ =>
        refine ⟨⟨h.client, h.queue, h.child, h.attached, h.reaped, .inr (.inr rfl)⟩, ?_⟩
        simp [stepsLeft, hw]
    | again _ _ hs => simp [h.child] at hs
    | call _ _ _ _ _ hw => simp [hw] at hworker
    | store _ _ _ hw => simp [hw] at hworker
    | drainStore _ _ hw => simp [hw] at hworker
    | respond _ _ hw => simp [hw] at hworker
    | slept hw => simp [hw] at hworker

/-- Until its worker has ended, such a protocol can take a step. -/
theorem Unused.progress {s : System C} (h : Unused s) (hw : s.worker ≠ .ended) :
    ∃ e t, s.step e = some t := by
  rcases h.worker with hrecv | hcheck | hend
  · refine ⟨.worker .disconnected, { s with worker := .checking }, ?_⟩
    simp [System.step, System.workerStep, hrecv, h.queue, h.client, ClientPc.isDropped]
  · refine ⟨.worker .check, { s with worker := .ended }, ?_⟩
    simp [System.step, System.workerStep, hcheck, h.child]
  · exact absurd hend hw

/-- **The worker ends without a child**: along every run no child is anywhere in the protocol, the
run has at most two steps, and it can go on until the worker has ended. -/
def EndsUnused (s : System C) : Prop :=
  ∀ as t, exec System.step s as = some t →
    t.attached = none ∧ t.children = [] ∧ as.length ≤ 2 ∧
      (t.worker = .ended ∨ ∃ e u, t.step e = some u)

/-- Dropping the controller of a fresh recovery lets its worker end without a child. -/
theorem dropped_ends :
    ∃ s : System C, System.prepare.step (.client .drop) = some s ∧ EndsUnused s := by
  have h0 : Unused ({ System.prepare with client := .dropped } : System C) :=
    ⟨rfl, rfl, rfl, rfl, rfl, .inl rfl⟩
  refine ⟨_, rfl, ?_⟩
  intro as t ht
  have hend : Unused t := exec_invariant (fun _ _ _ hx hy => (hx.step hy).1) h0 ht
  have hlen := exec_length_le (fun _ _ _ hx hy => Unused.step hx hy) h0 ht
  have hrank : stepsLeft ({ System.prepare with client := .dropped } : System C) = 2 := rfl
  refine ⟨hend.attached, ?_, ?_, ?_⟩
  · simp [System.children, hend.queue, hend.child, hend.reaped]
  · omega
  · by_cases hw : t.worker = .ended
    · exact .inl hw
    · exact .inr (hend.progress hw)

/-! ## The transaction -/

/-- The ways through `spawn_contained_command`. -/
inductive UnixPath (u : UnixSteps C R G) : UnixOutcome C G → Prop
  | notCreated (e : Error) (trace : List (UnixEvent C)) (discarded : Option (System C))
      (h : ∀ c, ¬ u.Creates c) :
      UnixPath u { result := some (.error (.beforeSpawn e)), trace, discarded }
  | failed (c c' : C) (e : ContainedPtySpawnError C) (s : System C) (hc : u.Creates c)
      (hf : u.FailsAfter c e) (hback : u.HandsBackChild → c' = c)
      (hs : System.prepare.attach c' = some s) (hr : e.recovery = some s) :
      UnixPath u { result := some (.error e)
                   trace := [.recoveryPrepared, .spawned c, .attached c']
                   discarded := none }
  | guarded (c : C) (g : G) (h : u.Succeeds c g) :
      UnixPath u { result := some (.ok g)
                   trace := [.recoveryPrepared, .spawned c, .adopted c, .recoveryDropped]
                   discarded := System.prepare.step (.client .drop) }

/-- Every outcome of the call is one of its paths. -/
theorem unix_path (u : UnixSteps C R G) : UnixPath u u.spawnContainedCommand := by
  unfold UnixSteps.spawnContainedCommand
  split
  · next e hconf =>
      refine .notCreated e _ _ ?_
      intro c hc
      obtain ⟨h, -, -⟩ := UnixSteps.creates_iff.mp hc
      rw [hconf] at h
      cases h
  · next hconf =>
      split
      · next e hprep =>
          refine .notCreated (.io e) _ _ ?_
          intro c hc
          have h := hc.prepareRecovery
          rw [hprep] at h
          cases h
      · next hprep =>
          dsimp only
          split
          · next e hspawn =>
              refine .notCreated (.io e) _ _ ?_
              intro c hc
              have h := hc.spawn
              rw [hspawn] at h
              cases h
          · next c hspawn =>
              have hc : u.Creates c := UnixSteps.creates_iff.mpr ⟨hconf, hprep, hspawn⟩
              split
              · next e hreceipt =>
                  obtain ⟨error, he⟩ := exists_afterSpawn .receipt e c
                  obtain ⟨s, hs, -, rfl⟩ := afterSpawn_eq_some he
                  rw [he]
                  exact .failed c c _ s hc (.inl ⟨rfl, hreceipt⟩) (fun _ => rfl) hs rfl
              · next r hreceipt =>
                  split
                  · next g hcontain => exact .guarded c g ⟨hc, r, hreceipt, hcontain⟩
                  · next adoption hcontain =>
                      obtain ⟨error, he⟩ :=
                        exists_afterSpawn .adoption adoption.error adoption.child
                      obtain ⟨s, hs, -, rfl⟩ := afterSpawn_eq_some he
                      rw [he]
                      exact .failed c adoption.child _ s hc
                        (.inr ⟨rfl, r, adoption, hreceipt, hcontain, rfl⟩)
                        (fun hback => hback c r adoption hcontain) hs rfl

/-- The child that the call creates is determined. -/
theorem UnixSteps.Creates.unique {u : UnixSteps C R G} {c c' : C} (h : u.Creates c)
    (h' : u.Creates c') : c = c' :=
  Except.ok.inj (h.spawn.symm.trans h'.spawn)

/-- A step that fails after the creation excludes success. -/
theorem UnixSteps.FailsAfter.not_succeeds {u : UnixSteps C R G} {c c' : C} {g : G}
    {e : ContainedPtySpawnError C} (hc : u.Creates c) (h : u.FailsAfter c e) :
    ¬ u.Succeeds c' g := by
  rintro ⟨hc', r, hreceipt, hcontain⟩
  obtain rfl := hc.unique hc'
  rcases h with ⟨-, hfail⟩ | ⟨-, r', adoption, hok, hfail, -⟩
  · rw [hfail] at hreceipt
    cases hreceipt
  · obtain rfl : r = r' := Except.ok.inj (hreceipt.symm.trans hok)
    rw [hfail] at hcontain
    cases hcontain

/-- **The spawn transaction**: what an outcome promises about its result and the owner of the
child. -/
structure UnixSteps.Transaction (u : UnixSteps C R G) (o : UnixOutcome C G) : Prop where
  returned : o.result.isSome
  guard_iff : ∀ g, o.result = some (.ok g) ↔ ∃ c, u.Succeeds c g
  before_spawn_iff :
    (∃ e, o.result = some (.error e) ∧ e.stage = .beforeSpawn) ↔ ∀ c, ¬ u.Creates c
  before_spawn_empty :
    ∀ e, o.result = some (.error e) → e.stage = .beforeSpawn → e.recovery = none
  /-- After the creation of `c` the stage names the step that failed, and `c` itself, no other
  child, is with the worker that was prepared before the spawn. -/
  failed : ∀ c e, u.Creates c → o.result = some (.error e) →
    u.FailsAfter c e ∧ o.trace = [.recoveryPrepared, .spawned c, .attached c] ∧
      ∃ s, e.recovery = some s ∧ System.prepare.attach c = some s ∧ s.attached = some c ∧
        s.children = [c]
  /-- The guard alone owns the child, and the recovery worker ends unused. -/
  guarded : ∀ c g, u.Creates c → o.result = some (.ok g) →
    o.trace = [.recoveryPrepared, .spawned c, .adopted c, .recoveryDropped] ∧
      ∃ s, o.discarded = some s ∧ EndsUnused s

/-- Every path keeps the promises of the transaction. -/
theorem UnixPath.transaction {u : UnixSteps C R G} {o : UnixOutcome C G} (hu : u.HandsBackChild)
    (h : UnixPath u o) : u.Transaction o := by
  cases h with
  | notCreated e trace discarded h =>
      refine ⟨rfl, ?_, ?_, ?_, ?_, ?_⟩
      · intro g
        constructor
        · nofun
        · rintro ⟨c, hc, -⟩
          exact absurd hc (h c)
      · exact ⟨fun _ => h, fun _ => ⟨_, rfl, rfl⟩⟩
      · intro e' he' _
        cases he'
        rfl
      · intro c e' hc
        exact absurd hc (h c)
      · intro c g hc
        exact absurd hc (h c)
  | failed c c' e s hc hf hback hs hr =>
      obtain rfl := hback hu
      have hstage : e.stage ≠ .beforeSpawn := by
        rcases hf with ⟨hstage, -⟩ | ⟨hstage, -⟩
        · rw [hstage]
          nofun
        · rw [hstage]
          nofun
      refine ⟨rfl, ?_, ?_, ?_, ?_, ?_⟩
      · intro g
        constructor
        · nofun
        · rintro ⟨c, hsucceeds⟩
          exact absurd hsucceeds (hf.not_succeeds hc)
      · constructor
        · rintro ⟨e', he', hbefore⟩
          cases he'
          exact absurd hbefore hstage
        · intro hnone
          exact absurd hc (hnone c')
      · intro e' he' hbefore
        cases he'
        exact absurd hbefore hstage
      · intro c e' hc' he'
        obtain rfl := hc.unique hc'
        cases he'
        obtain ⟨s', hs', hafter⟩ := attach_prepare c'
        obtain rfl : s = s' := Option.some.inj (hs.symm.trans hs')
        refine ⟨hf, rfl, s, hr, hs, hafter.attached, ?_⟩
        rw [hafter.owned.children_eq, hafter.attached]
        rfl
      · nofun
  | guarded c g h =>
      refine ⟨rfl, ?_, ?_, ?_, ?_, ?_⟩
      · intro g'
        constructor
        · intro hg'
          cases hg'
          exact ⟨c, h⟩
        · rintro ⟨c', hc', r', hreceipt', hcontain'⟩
          obtain ⟨hc, r, hreceipt, hcontain⟩ := h
          obtain rfl := hc.unique hc'
          obtain rfl : r = r' := Except.ok.inj (hreceipt.symm.trans hreceipt')
          obtain rfl : g = g' := Except.ok.inj (hcontain.symm.trans hcontain')
          rfl
      · constructor
        · rintro ⟨e, he, -⟩
          cases he
        · intro hnone
          exact absurd h.1 (hnone c)
      · intro e he
        cases he
      · intro c' e _ he
        cases he
      · intro c' g' hc' _
        obtain rfl := h.1.unique hc'
        exact ⟨rfl, dropped_ends⟩

/-- **The Unix spawn transaction.** For every combination of answers the call returns the guard
exactly when every step succeeded, reports `BeforeSpawn` exactly when no child was created, and
otherwise leaves the created child with the recovery worker.
Source: `unix.rs` `PtyFd::spawn_contained_command_with_fault` -/
theorem spawn_contained_transaction {u : UnixSteps C R G} (hu : u.HandsBackChild) :
    u.Transaction u.spawnContainedCommand :=
  (unix_path u).transaction hu

/-- Child 7 is created and the adoption fails, handing it back. -/
def unadoptedSteps : UnixSteps ℕ Unit Unit where
  asCommand := .ok ()
  prepareSessionAcquisition := .ok ()
  stdin := .ok ()
  stdout := .ok ()
  stderr := .ok ()
  prepareRecovery := .ok ()
  spawn := .ok 7
  intoReceipt _ := .ok ()
  contain c _ := .error { error := .msg "injected adoption failure", child := c }

/-- The failed adoption leaves child 7 with the recovery worker. -/
theorem spawn_contained_transaction_unadopted :
    unadoptedSteps.spawnContainedCommand.trace =
      [.recoveryPrepared, .spawned 7, .attached 7] := by
  have hback : unadoptedSteps.HandsBackChild := by
    intro c r adoption h
    cases h
    rfl
  have h := spawn_contained_transaction hback
  exact (h.failed 7 _ ⟨rfl, rfl, rfl, rfl, rfl, rfl, rfl⟩ rfl).2.1

end SysprimsPty.Spawn
