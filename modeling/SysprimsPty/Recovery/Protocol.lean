import SysprimsPty.Recovery.Attempt

/-!
# The failed-spawn recovery protocol

Two threads joined by a FIFO channel and a shared flag. The client holds a `FailedChildRecovery`
(the sender and `pending`); the worker runs `failed_child_recovery_worker`, whose local variable
`child` is the slot. A `System` is the whole: channel, flag, slot, the point each thread has
reached, and the responses sent so far. One `Event` moves one thread by one access to shared state
or one call into the operating system, with the answer as the event's argument, so that a list of
events is one interleaving under one pattern of answers.

Three fields are written and never read: `attached`, `reaped` and `overwritten` record where the
child has been, for the statements about it.

* `System.prepare` — the state that `FailedChildRecovery::prepare` returns.
* `System.step` — the transition function.
* `ClientMove`, `WorkerMove` — its graph, one constructor for each move that changes the state, with
  `clientStep_move` and `workerStep_move`; the invariants split on these and never unfold a step.
-/

namespace SysprimsPty.Recovery

open SysprimsPty.Core
open SysprimsPty.Found

/-- A message on the channel; `response` names the one-shot channel of an attempt.
Source: `lib.rs` `FailedChildRecoveryCommand` -/
inductive FailedChildRecoveryCommand (C : Type)
  | adopt (child : C)
  | attempt (timeout : Duration) (response : ℕ)
  deriving DecidableEq

/-- Source: `std::sync::mpsc::RecvTimeoutError` -/
inductive RecvTimeoutError
  | timeout
  | disconnected
  deriving DecidableEq

/-- The `Display` text of a `RecvTimeoutError`. -/
def RecvTimeoutError.display : RecvTimeoutError → String
  | .timeout => "timed out waiting on channel"
  | .disconnected => "channel is empty and sending half is closed"

/-- Where the result of an `attempt` call comes from. -/
inductive AttemptSource
  /-- The flag was already false. -/
  | flag
  /-- The worker's response. -/
  | worker
  /-- `send` failed. -/
  | brokenPipe
  /-- `recv_timeout` gave up. -/
  | timedOut
  /-- The error holds no recovery state: `recover` answers without a call to `attempt`. -/
  | noRecovery
  deriving DecidableEq

/-- The point the client has reached inside `attach` or `attempt_inner`. -/
inductive ClientPc (C : Type)
  | idle
  /-- In `attach`, between the store and the send. -/
  | attaching (child : C)
  /-- In `bounded_local_recovery_or_abort`, which does not return. -/
  | aborting (child : C)
  /-- In `attempt_inner`, after the flag was read as true. -/
  | sending (timeout : Duration)
  /-- In `recv_timeout`. -/
  | waiting (response : ℕ)
  | returning (source : AttemptSource) (result : IoResult Bool)
  /-- The controller, and with it the sender, is dropped. -/
  | dropped

/-- The point the worker has reached. An attempt serves either the message whose response channel
is given, or, with `none`, the loop after the disconnect. -/
inductive WorkerPc
  /-- In `receiver.recv()`. -/
  | recv
  | attempting (timeout : Duration) (response : Option ℕ) (pc : AttemptPc)
  | responding (response : ℕ) (result : IoResult Bool)
  /-- At `while child.is_some()`. -/
  | checking
  | sleeping
  | ended

/-- The state of both threads and of what they share. -/
structure System (C : Type) where
  /-- The command channel, oldest message first. -/
  queue : List (FailedChildRecoveryCommand C)
  /-- `pending: Arc<AtomicBool>` -/
  pending : Bool
  worker : WorkerPc
  /-- The worker's `let mut child = None`. -/
  child : Option C
  client : ClientPc C
  /-- The results sent on the one-shot response channels. -/
  responses : List (ℕ × IoResult Bool)
  nextResponse : ℕ
  /-- The child whose `Adopt` was sent. -/
  attached : Option C
  /-- The children taken out of the slot after a poll reported their exit. -/
  reaped : List C
  /-- The children that an `Adopt` dropped from an occupied slot. -/
  overwritten : List C

/-- A move of the client; arguments are what the caller passes or observes. -/
inductive ClientEvent (C : Type)
  | attachStore (child : C)
  | attachSend
  | attemptLoad (timeout : Duration)
  | attemptSend
  | attemptReceive
  | attemptGiveUp (error : RecvTimeoutError)
  | attemptReturn (source : AttemptSource) (result : IoResult Bool)
  | isPending (answer : Bool)
  | drop

/-- A move of the worker. -/
inductive WorkerEvent
  /-- `receiver.recv()` returns `Ok`. -/
  | recv
  /-- `receiver.recv()` returns `Err`. -/
  | disconnected
  /-- A call inside `attempt_failed_child_recovery`. -/
  | call (event : AttemptEvent)
  /-- `pending.store(child.is_some(), Release)` -/
  | store
  /-- `response.send(result)` -/
  | respond
  /-- `while child.is_some()` -/
  | check
  | slept

/-- One step of one of the two threads. -/
inductive Event (C : Type)
  | client (event : ClientEvent C)
  | worker (event : WorkerEvent)

variable {C : Type}

/-- A fresh channel, the flag false, the worker started.
Source: `lib.rs` `FailedChildRecovery::prepare` -/
def System.prepare : System C where
  queue := []
  pending := false
  worker := .recv
  child := none
  client := .idle
  responses := []
  nextResponse := 0
  attached := none
  reaped := []
  overwritten := []

/-- The worker has returned, and its receiver is dropped with it. -/
def WorkerPc.isEnded : WorkerPc → Bool
  | .ended => true
  | _ => false

/-- The client no longer holds the sender. -/
def ClientPc.isDropped : ClientPc C → Bool
  | .dropped => true
  | _ => false

/-- The client is inside `attach`, before the send. -/
def ClientPc.isAttaching : ClientPc C → Bool
  | .attaching _ => true
  | _ => false

/-- The client is inside `bounded_local_recovery_or_abort`. -/
def ClientPc.isAborting : ClientPc C → Bool
  | .aborting _ => true
  | _ => false

/-- The client is inside `attempt_inner`, past the read of the flag. -/
def ClientPc.isCalling : ClientPc C → Bool
  | .sending _ | .waiting _ => true
  | _ => false

/-- Source: `lib.rs` `attempt_inner`, `"exact-child recovery owner stopped"` -/
def ownerStopped : IoError := .custom .brokenPipe "exact-child recovery owner stopped"

/-- Source: `lib.rs` `attempt_inner`, `"exact-child recovery response unavailable: {error}"` -/
def responseUnavailable (error : RecvTimeoutError) : IoError :=
  .custom .timedOut ("exact-child recovery response unavailable: " ++ error.display)

/-- How long the client waits for the response: `result.recv_timeout(timeout + 250 ms)`, with the
timeout capped before.
Source: `lib.rs` `FailedChildRecovery::attempt_inner` -/
def responseWindow (timeout : Duration) : Duration :=
  min timeout attemptCap + Duration.fromMillis 250

/-- The client's moves.
Source: `lib.rs` `FailedChildRecovery::{attach, attempt_inner, is_pending}` -/
def System.clientStep (s : System C) : ClientEvent C → Option (System C)
  | .attachStore child =>
      match s.client, s.attached with
      | .idle, none => some { s with pending := true, client := .attaching child }
      | _, _ => none
  | .attachSend =>
      match s.client with
      | .attaching child =>
          if s.worker.isEnded then some { s with client := .aborting child }
          else some { s with
            queue := s.queue ++ [.adopt child], client := .idle, attached := some child }
      | _ => none
  | .attemptLoad timeout =>
      match s.client with
      | .idle =>
          some { s with client := if s.pending then .sending timeout else .returning .flag (.ok true) }
      | _ => none
  | .attemptSend =>
      match s.client with
      | .sending timeout =>
          if s.worker.isEnded then
            some { s with client := .returning .brokenPipe (.error ownerStopped) }
          else some { s with
            queue := s.queue ++ [.attempt (min timeout attemptCap) s.nextResponse]
            client := .waiting s.nextResponse
            nextResponse := s.nextResponse + 1 }
      | _ => none
  | .attemptReceive =>
      match s.client with
      | .waiting response =>
          (s.responses.lookup response).map fun result =>
            { s with client := .returning .worker result }
      | _ => none
  | .attemptGiveUp error =>
      match s.client with
      | .waiting _ =>
          some { s with client := .returning .timedOut (.error (responseUnavailable error)) }
      | _ => none
  | .attemptReturn source result =>
      match s.client with
      | .returning source' result' =>
          if source = source' ∧ result = result' then some { s with client := .idle } else none
      | _ => none
  | .isPending answer =>
      match s.client with
      | .idle => if answer = s.pending then some s else none
      | _ => none
  | .drop =>
      match s.client with
      | .attaching _ | .aborting _ | .dropped => none
      | _ => some { s with client := .dropped }

/-- The children that an attempt's step has taken out of the slot. -/
def takenOut (before after : Option C) : List C :=
  if after.isNone then before.toList else []

/-- The worker's moves.
Source: `lib.rs` `failed_child_recovery_worker` -/
def System.workerStep (s : System C) : WorkerEvent → Option (System C)
  | .recv =>
      match s.worker, s.queue with
      | .recv, .adopt child :: queue =>
          some { s with
            queue, child := some child, overwritten := s.child.toList ++ s.overwritten }
      | .recv, .attempt timeout response :: queue =>
          some { s with
            queue, worker := .attempting timeout (some response) (Attempt.enter s.child).pc }
      | _, _ => none
  | .disconnected =>
      match s.worker, s.queue with
      | .recv, [] => if s.client.isDropped then some { s with worker := .checking } else none
      | _, _ => none
  | .call event =>
      match s.worker with
      | .attempting timeout response pc =>
          (attemptStep timeout { pc, child := s.child } event).map fun a =>
            { s with
              worker := .attempting timeout response a.pc
              child := a.child
              reaped := takenOut s.child a.child ++ s.reaped }
      | _ => none
  | .store =>
      match s.worker with
      | .attempting _ (some response) (.returned result) =>
          some { s with pending := s.child.isSome, worker := .responding response result }
      | .attempting _ none (.returned _) =>
          some { s with
            pending := s.child.isSome, worker := if s.child.isSome then .sleeping else .checking }
      | _ => none
  | .respond =>
      match s.worker with
      | .responding response result =>
          some { s with responses := (response, result) :: s.responses, worker := .recv }
      | _ => none
  | .check =>
      match s.worker with
      | .checking =>
          some { s with
            worker := if s.child.isSome then
                .attempting attemptCap none (Attempt.enter s.child).pc
              else .ended }
      | _ => none
  | .slept =>
      match s.worker with
      | .sleeping => some { s with worker := .checking }
      | _ => none

/-- One step of the protocol. -/
def System.step (s : System C) : Event C → Option (System C)
  | .client event => s.clientStep event
  | .worker event => s.workerStep event

/-- `FailedChildRecovery::attach`, run by the client to its end; `none` when it aborts instead. -/
def System.attach (s : System C) (child : C) : Option (System C) :=
  exec System.step s [.client (.attachStore child), .client .attachSend]

/-! ## The moves -/

/-- What a client step can do. -/
inductive ClientMove (s : System C) : ClientEvent C → System C → Prop
  | attachStore (child : C) (hc : s.client = .idle) (ha : s.attached = none) :
      ClientMove s (.attachStore child) { s with pending := true, client := .attaching child }
  | abort (child : C) (hc : s.client = .attaching child) (hw : s.worker = .ended) :
      ClientMove s .attachSend { s with client := .aborting child }
  | attachSend (child : C) (hc : s.client = .attaching child) :
      ClientMove s .attachSend { s with
        queue := s.queue ++ [.adopt child], client := .idle, attached := some child }
  | loadTrue (timeout : Duration) (hc : s.client = .idle) (hp : s.pending = true) :
      ClientMove s (.attemptLoad timeout) { s with client := .sending timeout }
  | loadFalse (timeout : Duration) (hc : s.client = .idle) (hp : s.pending = false) :
      ClientMove s (.attemptLoad timeout) { s with client := .returning .flag (.ok true) }
  | sendFails (timeout : Duration) (hc : s.client = .sending timeout) (hw : s.worker = .ended) :
      ClientMove s .attemptSend
        { s with client := .returning .brokenPipe (.error ownerStopped) }
  | attemptSend (timeout : Duration) (hc : s.client = .sending timeout) :
      ClientMove s .attemptSend { s with
        queue := s.queue ++ [.attempt (min timeout attemptCap) s.nextResponse]
        client := .waiting s.nextResponse
        nextResponse := s.nextResponse + 1 }
  | receive (response : ℕ) (result : IoResult Bool) (hc : s.client = .waiting response)
      (hr : (response, result) ∈ s.responses) :
      ClientMove s .attemptReceive { s with client := .returning .worker result }
  | giveUp (response : ℕ) (error : RecvTimeoutError) (hc : s.client = .waiting response) :
      ClientMove s (.attemptGiveUp error)
        { s with client := .returning .timedOut (.error (responseUnavailable error)) }
  | ret (source : AttemptSource) (result : IoResult Bool)
      (hc : s.client = .returning source result) :
      ClientMove s (.attemptReturn source result) { s with client := .idle }
  | isPending (hc : s.client = .idle) : ClientMove s (.isPending s.pending) s
  | drop (hd : s.client.isDropped = false) (ha : s.client.isAttaching = false) :
      ClientMove s .drop { s with client := .dropped }

/-- What a worker step can do. -/
inductive WorkerMove (s : System C) : WorkerEvent → System C → Prop
  | adopt (child : C) (queue : List (FailedChildRecoveryCommand C)) (hw : s.worker = .recv)
      (hq : s.queue = .adopt child :: queue) :
      WorkerMove s .recv { s with
        queue, child := some child, overwritten := s.child.toList ++ s.overwritten }
  | attempt (timeout : Duration) (response : ℕ) (queue : List (FailedChildRecoveryCommand C))
      (hw : s.worker = .recv) (hq : s.queue = .attempt timeout response :: queue) :
      WorkerMove s .recv { s with
        queue, worker := .attempting timeout (some response) (Attempt.enter s.child).pc }
  | disconnected (hw : s.worker = .recv) (hq : s.queue = []) (hc : s.client = .dropped) :
      WorkerMove s .disconnected { s with worker := .checking }
  | call (timeout : Duration) (response : Option ℕ) (pc : AttemptPc) (event : AttemptEvent)
      (a : Attempt C) (hw : s.worker = .attempting timeout response pc)
      (ha : attemptStep timeout { pc, child := s.child } event = some a) :
      WorkerMove s (.call event) { s with
        worker := .attempting timeout response a.pc
        child := a.child
        reaped := takenOut s.child a.child ++ s.reaped }
  | store (timeout : Duration) (response : ℕ) (result : IoResult Bool)
      (hw : s.worker = .attempting timeout (some response) (.returned result)) :
      WorkerMove s .store
        { s with pending := s.child.isSome, worker := .responding response result }
  | drainStore (timeout : Duration) (result : IoResult Bool)
      (hw : s.worker = .attempting timeout none (.returned result)) :
      WorkerMove s .store { s with
        pending := s.child.isSome, worker := if s.child.isSome then .sleeping else .checking }
  | respond (response : ℕ) (result : IoResult Bool) (hw : s.worker = .responding response result) :
      WorkerMove s .respond
        { s with responses := (response, result) :: s.responses, worker := .recv }
  | again (child : C) (hw : s.worker = .checking) (hs : s.child = some child) :
      WorkerMove s .check
        { s with worker := .attempting attemptCap none (Attempt.enter s.child).pc }
  | stop (hw : s.worker = .checking) (hs : s.child = none) :
      WorkerMove s .check { s with worker := .ended }
  | slept (hw : s.worker = .sleeping) : WorkerMove s .slept { s with worker := .checking }

theorem WorkerPc.isEnded_iff {w : WorkerPc} : w.isEnded = true ↔ w = .ended := by
  cases w <;> simp [isEnded]

theorem ClientPc.isDropped_iff {c : ClientPc C} : c.isDropped = true ↔ c = .dropped := by
  cases c <;> simp [isDropped]

theorem ClientPc.isAttaching_iff {c : ClientPc C} :
    c.isAttaching = true ↔ ∃ child, c = .attaching child := by
  cases c <;> simp [isAttaching]

/-- Every client step is one of its moves. -/
theorem clientStep_move {s t : System C} {e : ClientEvent C} (h : s.clientStep e = some t) :
    ClientMove s e t := by
  cases e with
  | attachStore child =>
      simp only [System.clientStep] at h
      split at h
      · next hc ha =>
          cases h
          exact .attachStore child hc ha
      · cases h
  | attachSend =>
      simp only [System.clientStep] at h
      split at h
      · next child hc =>
          split at h
          · next hw =>
              cases h
              exact .abort child hc (WorkerPc.isEnded_iff.mp hw)
          · cases h
            exact .attachSend child hc
      · cases h
  | attemptLoad timeout =>
      simp only [System.clientStep] at h
      split at h
      · next hc =>
          cases h
          by_cases hp : s.pending = true
          · rw [if_pos hp]
            exact .loadTrue timeout hc hp
          · rw [if_neg hp]
            exact .loadFalse timeout hc (Bool.eq_false_iff.mpr hp)
      · cases h
  | attemptSend =>
      simp only [System.clientStep] at h
      split at h
      · next timeout hc =>
          split at h
          · next hw =>
              cases h
              exact .sendFails timeout hc (WorkerPc.isEnded_iff.mp hw)
          · cases h
            exact .attemptSend timeout hc
      · cases h
  | attemptReceive =>
      simp only [System.clientStep] at h
      split at h
      · next response hc =>
          rw [Option.map_eq_some_iff] at h
          obtain ⟨result, hr, rfl⟩ := h
          obtain ⟨before, after, hsplit, -⟩ := List.lookup_eq_some_iff.mp hr
          refine .receive response result hc ?_
          rw [hsplit]
          exact List.mem_append_right _ List.mem_cons_self
      · cases h
  | attemptGiveUp error =>
      simp only [System.clientStep] at h
      split at h
      · next response hc =>
          cases h
          exact .giveUp response error hc
      · cases h
  | attemptReturn source result =>
      simp only [System.clientStep] at h
      split at h
      · next source' result' hc =>
          split at h
          · next heq =>
              cases h
              obtain ⟨rfl, rfl⟩ := heq
              exact .ret source result hc
          · cases h
      · cases h
  | isPending answer =>
      simp only [System.clientStep] at h
      split at h
      · next hc =>
          split at h
          · next heq =>
              cases h
              subst heq
              exact .isPending hc
          · cases h
      · cases h
  | drop =>
      simp only [System.clientStep] at h
      split at h
      · cases h
      · cases h
      · cases h
      · next hattaching _ hdropped =>
          cases h
          refine .drop (Bool.eq_false_iff.mpr fun hd => hdropped (ClientPc.isDropped_iff.mp hd))
            (Bool.eq_false_iff.mpr fun ha => ?_)
          obtain ⟨child, hchild⟩ := ClientPc.isAttaching_iff.mp ha
          exact hattaching child hchild

/-- Every worker step is one of its moves. -/
theorem workerStep_move {s t : System C} {e : WorkerEvent} (h : s.workerStep e = some t) :
    WorkerMove s e t := by
  cases e with
  | recv =>
      simp only [System.workerStep] at h
      split at h
      · next child queue hw hq =>
          cases h
          exact .adopt child queue hw hq
      · next timeout response queue hw hq =>
          cases h
          exact .attempt timeout response queue hw hq
      · cases h
  | disconnected =>
      simp only [System.workerStep] at h
      split at h
      · next hw hq =>
          split at h
          · next hc =>
              cases h
              exact .disconnected hw hq (ClientPc.isDropped_iff.mp hc)
          · cases h
      · cases h
  | call event =>
      simp only [System.workerStep] at h
      split at h
      · next timeout response pc hw =>
          rw [Option.map_eq_some_iff] at h
          obtain ⟨a, ha, rfl⟩ := h
          exact .call timeout response pc event a hw ha
      · cases h
  | store =>
      simp only [System.workerStep] at h
      split at h
      · next timeout response result hw =>
          cases h
          exact .store timeout response result hw
      · next timeout result hw =>
          cases h
          exact .drainStore timeout result hw
      · cases h
  | respond =>
      simp only [System.workerStep] at h
      split at h
      · next response result hw =>
          cases h
          exact .respond response result hw
      · cases h
  | check =>
      simp only [System.workerStep] at h
      split at h
      · next hw =>
          cases h
          by_cases hs : s.child.isSome = true
          · rw [if_pos hs]
            obtain ⟨child, hchild⟩ := Option.isSome_iff_exists.mp hs
            exact .again child hw hchild
          · rw [if_neg hs]
            exact .stop hw (Option.not_isSome_iff_eq_none.mp hs)
      · cases h
  | slept =>
      simp only [System.workerStep] at h
      split at h
      · next hw =>
          cases h
          exact .slept hw
      · cases h

end SysprimsPty.Recovery
