import SysprimsPty.Recovery.Ownership

/-!
# What the client is told is true

The client learns the child's fate from two places written at different moments: the flag and the
response of its own attempt. `Reported` is the invariant that ties them together. Attempts are
numbered in the order in which they are sent, so that `System.outstanding`, the attempts the worker
has still to answer, is increasing and everything answered lies below it; an attempt that is both
the latest and answered therefore leaves the worker idle, and the flag then says what its answer
says (`flagAfter`).

* `Reported.step` — one step keeps the invariant.
* `Owned.reaped_of_not_pending`, `Owned.pending_step` — the flag is false only after the child was
  reaped, and stays false.
* `Quiet.step` — after the client has its answer, nothing but its next attempt or its drop can move
  the flag.
* `awaited_step` — no request is lost: the one that the client waits for is outstanding or answered.
-/

namespace SysprimsPty.Recovery

open SysprimsPty.Core
open SysprimsPty.Found

variable {C : Type}

/-- The response channel of a message. -/
def FailedChildRecoveryCommand.response? : FailedChildRecoveryCommand C → Option ℕ
  | .adopt _ => none
  | .attempt _ response => some response

/-- The attempt that the worker is serving. -/
def WorkerPc.response? : WorkerPc → Option ℕ
  | .attempting _ response _ => response
  | .responding response _ => some response
  | _ => none

/-- The attempts that are sent and not answered, in the order in which they were sent. -/
def System.outstanding (s : System C) : List ℕ :=
  s.worker.response?.toList ++ s.queue.filterMap FailedChildRecoveryCommand.response?

/-- The flag that goes with an answer of the worker. -/
def flagAfter : IoResult Bool → Bool
  | .ok resolved => !resolved
  | .error _ => true

/-- What a result that the client is about to return says about the state. -/
def System.Backs (s : System C) (result : IoResult Bool) : AttemptSource → Prop
  | .flag => result = .ok true ∧ s.pending = false
  | .worker => s.outstanding = [] ∧ s.pending = flagAfter result
  | .brokenPipe | .timedOut => ∃ e, result = .error e
  | .noRecovery => False

/-- **The invariant behind the reported status.** -/
structure Reported (s : System C) : Prop where
  sorted : s.outstanding.Pairwise (· < ·)
  issued : ∀ i ∈ s.outstanding, i < s.nextResponse
  /-- Attempts are answered in the order in which they are sent. -/
  answered : ∀ i r, (i, r) ∈ s.responses → i < s.nextResponse ∧ ∀ j ∈ s.outstanding, i < j
  waiting : ∀ i, s.client = .waiting i → i + 1 = s.nextResponse
  /-- The flag is stored before the response is sent. -/
  responding : ∀ i r, s.worker = .responding i r → s.pending = flagAfter r
  latest : ∀ i r, (i, r) ∈ s.responses → i + 1 = s.nextResponse → s.client.isDropped = false →
    s.pending = flagAfter r
  returning : ∀ source r, s.client = .returning source r → s.Backs r source

theorem Reported.prepare : Reported (System.prepare : System C) where
  sorted := List.Pairwise.nil
  issued := nofun
  answered := nofun
  waiting := nofun
  responding := nofun
  latest := nofun
  returning := nofun

/-- An attempt's answer and the slot agree. -/
theorem isSome_of_holds {child : Option C} {r : IoResult Bool}
    (h : (AttemptPc.returned r).Holds child) : child.isSome = flagAfter r := by
  rcases r with e | _ | _
  · exact h
  · exact h
  · rw [show child = none from h]
    rfl

/-- If the latest attempt is answered, none is outstanding. -/
theorem Reported.outstanding_of_latest {s : System C} (h : Reported s) {i : ℕ} {r : IoResult Bool}
    (hr : (i, r) ∈ s.responses) (hi : i + 1 = s.nextResponse) : s.outstanding = [] := by
  rw [List.eq_nil_iff_forall_not_mem]
  intro j hj
  have hlow := (h.answered i r hr).2 j hj
  have hhigh := h.issued j hj
  omega

/-- The flag is false only after the attached child was reaped. -/
theorem Owned.reaped_of_not_pending {s : System C} (h : Owned s) {c : C}
    (hc : s.attached = some c) (hp : s.pending = false) : s.child = none ∧ c ∈ s.reaped := by
  have hch := h.children_eq
  have hchild : s.child = none := by
    rw [← Option.not_isSome_iff_eq_none]
    intro hsome
    have := h.flagged hsome
    rw [hp] at this
    cases this
  have hqueue : adopts s.queue = [] := by
    rw [List.eq_nil_iff_forall_not_mem]
    intro d hd
    obtain ⟨-, -, hflag, -⟩ := h.adopt_first d (mem_adopts.mp hd)
    rw [hp] at hflag
    cases hflag
  rw [System.children, hqueue, hchild, hc] at hch
  refine ⟨hchild, ?_⟩
  rw [show s.reaped = [c] from hch]
  exact List.mem_cons_self

/-- The attached child stays the same. -/
theorem attached_step {s t : System C} {e : Event C} (h : Owned s) {c : C}
    (hc : s.attached = some c) (ht : s.step e = some t) : t.attached = some c := by
  cases e with
  | worker e => cases workerStep_move ht <;> exact hc
  | client e =>
      cases clientStep_move ht with
      | attachSend child hclient => exact absurd hclient (h.not_attaching hc child)
      | _ => exact hc

/-- After the child was attached, a false flag stays false. -/
theorem Owned.pending_step {s t : System C} {e : Event C} (h : Owned s) {c : C}
    (hc : s.attached = some c) (hp : s.pending = false) (ht : s.step e = some t) :
    t.pending = false := by
  obtain ⟨hchild, -⟩ := h.reaped_of_not_pending hc hp
  cases e with
  | client e =>
      cases clientStep_move ht with
      | attachStore child hclient ha =>
          rw [hc] at ha
          cases ha
      | _ => exact hp
  | worker e =>
      cases workerStep_move ht with
      | store timeout response result hw =>
          show s.child.isSome = false
          rw [hchild]
          rfl
      | drainStore timeout result hw =>
          show s.child.isSome = false
          rw [hchild]
          rfl
      | _ => exact hp

/-- The moves that leave the flag, the responses and the outstanding attempts as they are. -/
theorem Reported.frame {s t : System C} (h : Reported s) (hout : t.outstanding = s.outstanding)
    (hnext : t.nextResponse = s.nextResponse) (hresp : t.responses = s.responses)
    (hpend : t.pending = s.pending)
    (hworker : ∀ i r, t.worker = .responding i r → s.worker = .responding i r)
    (hwait : ∀ i, t.client = .waiting i → i + 1 = s.nextResponse)
    (hdrop : t.client.isDropped = false → s.client.isDropped = false)
    (hret : ∀ source r, t.client = .returning source r → s.Backs r source) : Reported t where
  sorted := by
    rw [hout]
    exact h.sorted
  issued := by
    rw [hout, hnext]
    exact h.issued
  answered := by
    rw [hout, hnext, hresp]
    exact h.answered
  waiting := by
    rw [hnext]
    exact hwait
  responding := by
    intro i r hr
    rw [hpend]
    exact h.responding i r (hworker i r hr)
  latest := by
    intro i r hmem hi hd
    rw [hresp] at hmem
    rw [hnext] at hi
    rw [hpend]
    exact h.latest i r hmem hi (hdrop hd)
  returning := by
    intro source r hr
    have hs := hret source r hr
    cases source with
    | flag => exact ⟨hs.1, hpend.trans hs.2⟩
    | worker => exact ⟨hout.trans hs.1, hpend.trans hs.2⟩
    | brokenPipe => exact hs
    | timedOut => exact hs
    | noRecovery => exact hs

/-- A request is sent with a response channel that is newer than all others. -/
theorem Reported.sends {s : System C} (h : Reported s) (timeout : Duration) :
    Reported { s with
      queue := s.queue ++ [.attempt (min timeout attemptCap) s.nextResponse]
      client := .waiting s.nextResponse
      nextResponse := s.nextResponse + 1 } := by
  have hout : ∀ client : ClientPc C,
      System.outstanding { s with
        queue := s.queue ++ [.attempt (min timeout attemptCap) s.nextResponse]
        client, nextResponse := s.nextResponse + 1 } = s.outstanding ++ [s.nextResponse] := by
    intro client
    simp [System.outstanding, FailedChildRecoveryCommand.response?]
  constructor
  · rw [hout, List.pairwise_append]
    refine ⟨h.sorted, List.pairwise_singleton _ _, ?_⟩
    intro i hi j hj
    rw [List.mem_singleton.mp hj]
    exact h.issued i hi
  · rw [hout]
    intro i hi
    rcases List.mem_append.mp hi with hi | hi
    · exact Nat.lt_succ_of_lt (h.issued i hi)
    · rw [List.mem_singleton.mp hi]
      exact Nat.lt_succ_self _
  · rw [hout]
    intro i r hr
    obtain ⟨hnext, hlow⟩ := h.answered i r hr
    refine ⟨Nat.lt_succ_of_lt hnext, ?_⟩
    intro j hj
    rcases List.mem_append.mp hj with hj | hj
    · exact hlow j hj
    · rw [List.mem_singleton.mp hj]
      exact hnext
  · intro i hi
    cases hi
    rfl
  · exact h.responding
  · intro i r hr hi
    have := (h.answered i r hr).1
    have hi : i + 1 = s.nextResponse + 1 := hi
    omega
  · exact nofun

/-- The client's moves keep the invariant. -/
theorem Reported.client_move {s t : System C} {e : ClientEvent C} (hO : Owned s)
    (h : Reported s) (hm : ClientMove s e t) : Reported t := by
  cases hm with
  | attachStore child hc ha =>
      obtain ⟨hq, hr, -⟩ := hO.unattached ha
      have hrecv := hO.recv_of_unattached ha (by rw [hc]; rfl)
      refine { h with responding := ?_, latest := ?_, waiting := nofun, returning := nofun }
      · intro i r hresp
        rw [show s.worker = .recv from hrecv] at hresp
        cases hresp
      · intro i r hmem
        rw [show s.responses = [] from hr] at hmem
        cases hmem
  | abort child hc hw =>
      have hdrain := hO.not_draining (by rw [hc]; rfl)
      rw [hw] at hdrain
      cases hdrain
  | attachSend child hc =>
      refine h.frame ?_ rfl rfl rfl (fun _ _ => id) nofun (fun _ => by rw [hc]; rfl) nofun
      simp [System.outstanding, FailedChildRecoveryCommand.response?]
  | attemptSend timeout hc => exact h.sends timeout
  | loadTrue timeout hc hp =>
      exact h.frame rfl rfl rfl rfl (fun _ _ => id) nofun (fun _ => by rw [hc]; rfl) nofun
  | loadFalse timeout hc hp =>
      refine h.frame rfl rfl rfl rfl (fun _ _ => id) nofun (fun _ => by rw [hc]; rfl) ?_
      intro source r hr
      cases hr
      exact ⟨rfl, hp⟩
  | sendFails timeout hc hw =>
      refine h.frame rfl rfl rfl rfl (fun _ _ => id) nofun (fun _ => by rw [hc]; rfl) ?_
      intro source r hr
      cases hr
      exact ⟨_, rfl⟩
  | receive response result hc hr =>
      have hlatest := h.waiting response hc
      refine h.frame rfl rfl rfl rfl (fun _ _ => id) nofun (fun _ => by rw [hc]; rfl) ?_
      intro source r hret
      cases hret
      exact ⟨h.outstanding_of_latest hr hlatest,
        h.latest response result hr hlatest (by rw [hc]; rfl)⟩
  | giveUp response error hc =>
      refine h.frame rfl rfl rfl rfl (fun _ _ => id) nofun (fun _ => by rw [hc]; rfl) ?_
      intro source r hr
      cases hr
      exact ⟨_, rfl⟩
  | ret source result hc =>
      exact h.frame rfl rfl rfl rfl (fun _ _ => id) nofun (fun _ => by rw [hc]; rfl) nofun
  | isPending hc => exact h
  | drop hd ha => exact h.frame rfl rfl rfl rfl (fun _ _ => id) nofun nofun nofun

/-- The flag that an attempt stores is the one that its answer will show. -/
theorem Reported.stores {s : System C} (h : Reported s) (hO : Owned s) {timeout : Duration}
    {response : ℕ} {result : IoResult Bool}
    (hw : s.worker = .attempting timeout (some response) (.returned result)) :
    Reported { s with pending := s.child.isSome, worker := .responding response result } := by
  have hserve : s.attached ≠ none :=
    hO.attached_of_serving (by rw [hw]; exact nofun) (by rw [hw]; rfl)
  obtain ⟨c, hc⟩ := Option.ne_none_iff_exists'.mp hserve
  have hmem : response ∈ s.outstanding := by
    simp [System.outstanding, hw, WorkerPc.response?]
  have hout : System.outstanding
      { s with pending := s.child.isSome, worker := .responding response result } =
      s.outstanding := by
    simp [System.outstanding, hw, WorkerPc.response?]
  have hflag : s.child.isSome = flagAfter result := by
    have := hO.fits
    rw [hw] at this
    exact isSome_of_holds this
  constructor
  · rw [hout]
    exact h.sorted
  · rw [hout]
    exact h.issued
  · rw [hout]
    exact h.answered
  · exact h.waiting
  · intro i r hr
    cases hr
    exact hflag
  · intro i r hr hi
    have hempty := h.outstanding_of_latest hr hi
    rw [hempty] at hmem
    cases hmem
  · intro source r hret
    have hs := h.returning source r hret
    cases source with
    | flag =>
        refine ⟨hs.1, ?_⟩
        show s.child.isSome = false
        rw [(hO.reaped_of_not_pending hc hs.2).1]
        rfl
    | worker =>
        rw [hs.1] at hmem
        cases hmem
    | brokenPipe => exact hs
    | timedOut => exact hs
    | noRecovery => exact hs

/-- After the disconnect there is no client to which the stored flag could matter. -/
theorem Reported.drainStores {s : System C} (h : Reported s) (hO : Owned s) {timeout : Duration}
    {result : IoResult Bool} (hw : s.worker = .attempting timeout none (.returned result)) :
    Reported { s with
      pending := s.child.isSome
      worker := if s.child.isSome then .sleeping else .checking } := by
  obtain ⟨hdrop, hqueue⟩ := hO.drained (by rw [hw]; rfl)
  have hclient := ClientPc.isDropped_iff.mp hdrop
  have hout : System.outstanding { s with
      pending := s.child.isSome, worker := if s.child.isSome then .sleeping else .checking } =
      s.outstanding := by
    cases hs : s.child <;> simp [System.outstanding, hw, WorkerPc.response?]
  constructor
  · rw [hout]
    exact h.sorted
  · rw [hout]
    exact h.issued
  · rw [hout]
    exact h.answered
  · exact h.waiting
  · intro i r hr
    dsimp only at hr
    split at hr <;> cases hr
  · intro i r hr hi hd
    rw [show s.client.isDropped = true from hdrop] at hd
    cases hd
  · intro source r hret
    rw [show s.client = .dropped from hclient] at hret
    cases hret

/-- The oldest request is answered, and the flag is what its answer shows. -/
theorem Reported.responds {s : System C} (h : Reported s) {response : ℕ} {result : IoResult Bool}
    (hw : s.worker = .responding response result) :
    Reported { s with responses := (response, result) :: s.responses, worker := .recv } := by
  have hout : s.outstanding = response :: System.outstanding
      { s with responses := (response, result) :: s.responses, worker := .recv } := by
    simp [System.outstanding, hw, WorkerPc.response?]
  have hsorted := h.sorted
  rw [hout, List.pairwise_cons] at hsorted
  constructor
  · exact hsorted.2
  · intro i hi
    exact h.issued i (by rw [hout]; exact List.mem_cons_of_mem _ hi)
  · intro i r hr
    rcases List.mem_cons.mp hr with heq | hr
    · cases heq
      exact ⟨h.issued response (by rw [hout]; exact List.mem_cons_self), hsorted.1⟩
    · obtain ⟨hnext, hlow⟩ := h.answered i r hr
      exact ⟨hnext, fun j hj => hlow j (by rw [hout]; exact List.mem_cons_of_mem _ hj)⟩
  · exact h.waiting
  · exact nofun
  · intro i r hr hi hd
    rcases List.mem_cons.mp hr with heq | hr
    · cases heq
      exact h.responding response result hw
    · exact h.latest i r hr hi hd
  · intro source r hret
    have hs := h.returning source r hret
    cases source with
    | flag => exact hs
    | worker =>
        have := hs.1
        rw [hout] at this
        cases this
    | brokenPipe => exact hs
    | timedOut => exact hs
    | noRecovery => exact hs

/-- The worker's moves keep the invariant. -/
theorem Reported.worker_move {s t : System C} {e : WorkerEvent} (hO : Owned s)
    (h : Reported s) (hm : WorkerMove s e t) : Reported t := by
  cases hm with
  | adopt child queue hw hq =>
      refine h.frame ?_ rfl rfl rfl (fun _ _ => id) h.waiting id h.returning
      rw [System.outstanding, System.outstanding, hq]
      rfl
  | attempt timeout response queue hw hq =>
      refine h.frame ?_ rfl rfl rfl nofun h.waiting id h.returning
      simp [System.outstanding, hq, hw, FailedChildRecoveryCommand.response?, WorkerPc.response?]
  | disconnected hw hq hc =>
      refine h.frame ?_ rfl rfl rfl nofun h.waiting id h.returning
      simp [System.outstanding, hw, WorkerPc.response?]
  | call timeout response pc event a hw ha =>
      refine h.frame ?_ rfl rfl rfl nofun h.waiting id h.returning
      simp [System.outstanding, hw, WorkerPc.response?]
  | store timeout response result hw => exact h.stores hO hw
  | drainStore timeout result hw => exact h.drainStores hO hw
  | respond response result hw => exact h.responds hw
  | again child hw hs =>
      refine h.frame ?_ rfl rfl rfl nofun h.waiting id h.returning
      simp [System.outstanding, hw, WorkerPc.response?]
  | stop hw hs =>
      refine h.frame ?_ rfl rfl rfl nofun h.waiting id h.returning
      simp [System.outstanding, hw, WorkerPc.response?]
  | slept hw =>
      refine h.frame ?_ rfl rfl rfl nofun h.waiting id h.returning
      simp [System.outstanding, hw, WorkerPc.response?]

/-- One step of the protocol keeps both invariants. -/
theorem Reported.step {s t : System C} {e : Event C} (h : Owned s ∧ Reported s)
    (ht : s.step e = some t) : Owned t ∧ Reported t := by
  refine ⟨h.1.step ht, ?_⟩
  cases e with
  | client e => exact h.2.client_move h.1 (clientStep_move ht)
  | worker e => exact h.2.worker_move h.1 (workerStep_move ht)

/-! ## Between an answer and the next call -/

/-- The client has its answer: no attempt is outstanding and it is not inside a call. While it is
there, the flag is `flag`. -/
structure Quiet (flag : Bool) (s : System C) : Prop where
  idle : s.outstanding = []
  no_call : s.client.isCalling = false
  pending : s.client.isDropped = false → s.pending = flag

/-- A client that has its answer is not at a point inside a call. -/
theorem Quiet.not_calling {flag : Bool} {s : System C} (h : Quiet flag s) {client : ClientPc C}
    (hclient : s.client = client) : client.isCalling = false := by
  rw [← hclient]
  exact h.no_call

/-- The client's event that begins a call to `attempt`. -/
def Event.isLoad : Event C → Bool
  | .client (.attemptLoad _) => true
  | _ => false

/-- **Only the client's next attempt or its drop can move the flag.** -/
theorem Quiet.step {flag : Bool} {s t : System C} {e : Event C} (hO : Owned s) {c : C}
    (hc : s.attached = some c) (h : Quiet flag s) (hload : e.isLoad = false)
    (ht : s.step e = some t) : Quiet flag t := by
  cases e with
  | client e =>
      cases clientStep_move ht with
      | attachStore child hclient ha =>
          rw [hc] at ha
          cases ha
      | abort child hclient hw => exact absurd hclient (hO.not_attaching hc child)
      | attachSend child hclient => exact absurd hclient (hO.not_attaching hc child)
      | loadTrue timeout hclient hp => cases hload
      | loadFalse timeout hclient hp => cases hload
      | sendFails timeout hclient hw =>
          cases h.not_calling hclient
      | attemptSend timeout hclient =>
          cases h.not_calling hclient
      | receive response result hclient hr =>
          cases h.not_calling hclient
      | giveUp response error hclient =>
          cases h.not_calling hclient
      | ret source result hclient =>
          exact ⟨h.idle, rfl, fun _ => h.pending (by rw [hclient]; rfl)⟩
      | isPending hclient => exact h
      | drop hd ha => exact ⟨h.idle, rfl, nofun⟩
  | worker e =>
      have hidle := h.idle
      rw [System.outstanding, List.append_eq_nil_iff] at hidle
      cases workerStep_move ht with
      | adopt child queue hw hq =>
          refine ⟨?_, h.no_call, h.pending⟩
          have hall := h.idle
          rw [System.outstanding, hq] at hall
          exact hall
      | attempt timeout response queue hw hq =>
          have := hidle.2
          rw [hq] at this
          cases this
      | disconnected hw hq hclient =>
          refine ⟨?_, h.no_call, h.pending⟩
          simp [System.outstanding, WorkerPc.response?, hq]
      | call timeout response pc event a hw ha =>
          refine ⟨?_, h.no_call, h.pending⟩
          have hall := h.idle
          rw [System.outstanding, hw] at hall
          exact hall
      | store timeout response result hw =>
          have := hidle.1
          rw [hw] at this
          cases this
      | drainStore timeout result hw =>
          obtain ⟨hdrop, hqueue⟩ := hO.drained (by rw [hw]; rfl)
          refine ⟨?_, h.no_call, ?_⟩
          · cases hs : s.child <;> simp [System.outstanding, WorkerPc.response?, hqueue]
          · intro hd
            rw [show s.client.isDropped = true from hdrop] at hd
            cases hd
      | respond response result hw =>
          have := hidle.1
          rw [hw] at this
          cases this
      | again child hw hs =>
          exact ⟨by simp [System.outstanding, WorkerPc.response?, hidle.2], h.no_call, h.pending⟩
      | stop hw hs =>
          exact ⟨by simp [System.outstanding, WorkerPc.response?, hidle.2], h.no_call, h.pending⟩
      | slept hw =>
          exact ⟨by simp [System.outstanding, WorkerPc.response?, hidle.2], h.no_call, h.pending⟩

/-! ## The request of a waiting client -/

/-- The request that the client waits for is outstanding or answered. -/
def Awaited (s : System C) : Prop :=
  ∀ i, s.client = .waiting i → i ∈ s.outstanding ∨ ∃ result, (i, result) ∈ s.responses

/-- A fresh protocol. -/
theorem awaited_prepare : Awaited (System.prepare : System C) := by
  simp [Awaited, System.prepare]

/-- A step keeps that. -/
theorem awaited_step {s t : System C} {e : Event C} (h : Awaited s) (ht : s.step e = some t) :
    Awaited t := by
  unfold Awaited at h ⊢
  rcases e with e | e
  · cases clientStep_move ht with
    | attemptSend timeout hc =>
        intro i hi
        obtain rfl := ClientPc.waiting.inj hi
        refine .inl (List.mem_append_right _ ?_)
        simp [FailedChildRecoveryCommand.response?]
    | isPending hc => exact h
    | _ => simp
  · cases workerStep_move ht with
    | respond response result hw =>
        intro i hi
        rcases h i hi with hout | ⟨r, hr⟩
        · simp only [System.outstanding, hw, WorkerPc.response?, Option.toList_some, List.mem_append,
            List.mem_singleton] at hout
          rcases hout with rfl | hqueue
          · exact .inr ⟨result, List.mem_cons_self⟩
          · exact .inl (List.mem_append_right _ hqueue)
        · exact .inr ⟨r, List.mem_cons_of_mem _ hr⟩
    | adopt child queue hw hq =>
        simpa [System.outstanding, hw, hq, FailedChildRecoveryCommand.response?] using h
    | attempt timeout response queue hw hq =>
        simpa [System.outstanding, hw, hq, WorkerPc.response?, FailedChildRecoveryCommand.response?]
          using h
    | disconnected hw hq hc => simpa [System.outstanding, hw, WorkerPc.response?] using h
    | call timeout response pc event a hw ha =>
        simpa [System.outstanding, hw, WorkerPc.response?] using h
    | store timeout response result hw => simpa [System.outstanding, hw, WorkerPc.response?] using h
    | drainStore timeout result hw =>
        rcases hchild : s.child with _ | c
        · simpa [System.outstanding, hw, WorkerPc.response?] using h
        · simpa [System.outstanding, hw, WorkerPc.response?] using h
    | again child hw hs => simpa [System.outstanding, hw, WorkerPc.response?] using h
    | stop hw hs => simpa [System.outstanding, hw, WorkerPc.response?] using h
    | slept hw => simpa [System.outstanding, hw, WorkerPc.response?] using h

end SysprimsPty.Recovery
