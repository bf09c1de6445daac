import SysprimsPty.Recovery.Protocol

/-!
# The child is always in exactly one place

* `Owned` — the invariant: the children in the channel, in the slot and among the reaped are
  together exactly the attached one; an `Adopt` still queued is the first message the worker will
  see; the flag is true while the child is queued or in the slot; past the receive loop the client
  is gone and the channel is empty.
* `Owned.step` — one step keeps it, by the client's and by the worker's moves.
* `recovery_owns_child` — what it says of every reachable state.
-/

namespace SysprimsPty.Recovery

open SysprimsPty.Core
open SysprimsPty.Found

variable {C : Type}

/-- The child that a message carries. -/
def FailedChildRecoveryCommand.adopted? : FailedChildRecoveryCommand C → Option C
  | .adopt child => some child
  | .attempt _ _ => none

/-- The children in the channel. -/
def adopts (queue : List (FailedChildRecoveryCommand C)) : List C :=
  queue.filterMap FailedChildRecoveryCommand.adopted?

@[simp] theorem adopts_nil : adopts ([] : List (FailedChildRecoveryCommand C)) = [] := rfl

@[simp] theorem adopts_adopt_cons (c : C) (q : List (FailedChildRecoveryCommand C)) :
    adopts (.adopt c :: q) = c :: adopts q := rfl

@[simp] theorem adopts_attempt_cons (d : Duration) (i : ℕ)
    (q : List (FailedChildRecoveryCommand C)) : adopts (.attempt d i :: q) = adopts q := rfl

@[simp] theorem adopts_append (p q : List (FailedChildRecoveryCommand C)) :
    adopts (p ++ q) = adopts p ++ adopts q :=
  List.filterMap_append

theorem mem_adopts {c : C} {q : List (FailedChildRecoveryCommand C)} :
    c ∈ adopts q ↔ .adopt c ∈ q := by
  unfold adopts
  rw [List.mem_filterMap]
  constructor
  · rintro ⟨m, hm, hc⟩
    cases m <;> cases hc
    exact hm
  · exact fun h => ⟨_, h, rfl⟩

/-- The three places of a child. -/
inductive Place
  | channel
  | slot
  | reaped
  deriving DecidableEq

/-- `s.At c p`: the child `c` is at the place `p`. -/
def System.At (s : System C) (c : C) : Place → Prop
  | .channel => .adopt c ∈ s.queue
  | .slot => s.child = some c
  | .reaped => c ∈ s.reaped

/-- The children at any of the three places. -/
def System.children (s : System C) : List C := adopts s.queue ++ s.child.toList ++ s.reaped

/-- What the worker's point says about the slot. -/
def WorkerPc.Fits (child : Option C) : WorkerPc → Prop
  | .attempting _ _ pc => pc.Holds child
  | .responding _ result => (AttemptPc.returned result).Holds child
  | .sleeping => child.isSome
  | .ended => child = none
  | .recv | .checking => True

/-- The worker has left the receive loop. -/
def WorkerPc.isDraining : WorkerPc → Bool
  | .attempting _ none _ | .checking | .sleeping | .ended => true
  | _ => false

/-- **The ownership invariant.** -/
structure Owned (s : System C) : Prop where
  /-- The children at the three places are the attached one. -/
  children_eq : s.children = s.attached.toList
  /-- No `Adopt` met an occupied slot. -/
  kept : s.overwritten = []
  /-- Nothing precedes an `Adopt`. -/
  adopt_first : ∀ c, .adopt c ∈ s.queue →
    s.worker = .recv ∧ s.responses = [] ∧ s.pending = true ∧ ∃ q, s.queue = .adopt c :: q
  /-- Before the send of the `Adopt` nothing else is sent. -/
  unattached : s.attached = none →
    s.queue = [] ∧ s.responses = [] ∧ (s.worker = .recv ∨ s.worker.isDraining = true) ∧
      s.client.isCalling = false ∧ s.pending = s.client.isAttaching
  handing : s.client.isAttaching = true → s.attached = none
  /-- The flag is true while the child is in the slot. -/
  flagged : s.child.isSome → s.pending = true
  fits : s.worker.Fits s.child
  /-- The receive loop ends only without a client and without a message. -/
  drained : s.worker.isDraining = true → s.client.isDropped = true ∧ s.queue = []
  no_abort : s.client.isAborting = false

theorem Owned.prepare : Owned (System.prepare : System C) where
  children_eq := rfl
  kept := rfl
  adopt_first := by simp [System.prepare]
  unattached := by simp [System.prepare, ClientPc.isCalling, ClientPc.isAttaching]
  handing := by simp [System.prepare, ClientPc.isAttaching]
  flagged := by simp [System.prepare]
  fits := trivial
  drained := by simp [System.prepare, WorkerPc.isDraining]
  no_abort := rfl

/-- An empty channel holds no `Adopt`. -/
theorem System.no_adopt_of_nil {s : System C} (h : s.queue = []) (c : C) : .adopt c ∉ s.queue := by
  rw [h]
  exact List.not_mem_nil

/-- A client that still runs keeps the worker in the receive loop. -/
theorem Owned.not_draining {s : System C} (h : Owned s) (hc : s.client.isDropped = false) :
    s.worker.isDraining = false := by
  cases hd : s.worker.isDraining with
  | false => rfl
  | true =>
      have := (h.drained hd).1
      rw [hc] at this
      cases this

/-- Before the `Adopt` is sent a running client finds the worker waiting for it. -/
theorem Owned.recv_of_unattached {s : System C} (h : Owned s) (ha : s.attached = none)
    (hc : s.client.isDropped = false) : s.worker = .recv := by
  obtain ⟨-, -, hrecv | hdrain, -⟩ := h.unattached ha
  · exact hrecv
  · rw [h.not_draining hc] at hdrain
    cases hdrain

/-- Once the `Adopt` is sent the client is outside `attach`. -/
theorem Owned.not_attaching {s : System C} (h : Owned s) {c : C} (hc : s.attached = some c)
    (child : C) : s.client ≠ .attaching child := by
  intro hclient
  have hnone := h.handing (by rw [hclient]; rfl)
  rw [hc] at hnone
  cases hnone

/-- What a worker leaves behind that has ended. -/
theorem Owned.ended {s : System C} (h : Owned s) (hended : s.worker = .ended) :
    s.queue = [] ∧ s.child = none ∧ s.reaped = s.attached.toList ∧ s.overwritten = [] := by
  have hslot : s.child = none := by
    have hfits := h.fits
    rw [hended] at hfits
    exact hfits
  have hqueue : s.queue = [] := (h.drained (by rw [hended]; rfl)).2
  refine ⟨hqueue, hslot, ?_, h.kept⟩
  have hchildren := h.children_eq
  rw [System.children, hslot, hqueue] at hchildren
  simpa using hchildren

/-- Before the `Adopt` is sent the slot is empty and nothing is reaped. -/
theorem Owned.empty_of_unattached {s : System C} (h : Owned s) (ha : s.attached = none) :
    s.child = none ∧ s.reaped = [] := by
  have hch := h.children_eq
  rw [System.children, ha, (h.unattached ha).1] at hch
  simpa using hch

/-- The client's moves that only change its own point, outside `attach`. -/
theorem Owned.setClient {s : System C} (h : Owned s) {client : ClientPc C}
    (hs : s.client.isAttaching = false) (hattach : client.isAttaching = false)
    (habort : client.isAborting = false)
    (hcall : client.isCalling = true → s.attached.isSome)
    (hdrop : s.client.isDropped = true → client.isDropped = true) :
    Owned { s with client } where
  children_eq := h.children_eq
  kept := h.kept
  adopt_first := h.adopt_first
  unattached := fun ha => by
    obtain ⟨hq, hr, hw, -, hp⟩ := h.unattached ha
    refine ⟨hq, hr, hw, ?_, ?_⟩
    · cases hc : client.isCalling with
      | false => rfl
      | true =>
          have := hcall hc
          rw [show s.attached = none from ha] at this
          cases this
    · rw [hs] at hp
      exact hp.trans hattach.symm
  handing := fun hf => by
    rw [hattach] at hf
    cases hf
  flagged := h.flagged
  fits := h.fits
  drained := fun hd => by
    obtain ⟨hc, hq⟩ := h.drained hd
    exact ⟨hdrop hc, hq⟩
  no_abort := habort

/-- The worker's moves inside the loop after the disconnect that change only its own point. -/
theorem Owned.setDraining {s : System C} (h : Owned s) {worker : WorkerPc}
    (hs : s.worker.isDraining = true) (hw : worker.isDraining = true)
    (hfits : worker.Fits s.child) : Owned { s with worker } where
  children_eq := h.children_eq
  kept := h.kept
  adopt_first := fun c hmem => absurd hmem (System.no_adopt_of_nil (h.drained hs).2 c)
  unattached := fun ha => by
    obtain ⟨hq, hr, -, hcall, hp⟩ := h.unattached ha
    exact ⟨hq, hr, Or.inr hw, hcall, hp⟩
  handing := h.handing
  flagged := h.flagged
  fits := hfits
  drained := fun _ => h.drained hs
  no_abort := h.no_abort

/-- A client inside a call that read the flag as true has attached its child. -/
theorem Owned.attached_of_calling {s : System C} (h : Owned s) (hc : s.client.isCalling = true) :
    s.attached.isSome := by
  cases ha : s.attached with
  | some c => rfl
  | none =>
      obtain ⟨-, -, -, hno, -⟩ := h.unattached ha
      rw [hc] at hno
      cases hno

/-- The client's moves keep the invariant. -/
theorem Owned.client_move {s t : System C} {e : ClientEvent C} (h : Owned s)
    (hm : ClientMove s e t) : Owned t := by
  cases hm with
  | attachStore child hc ha =>
      obtain ⟨hq, hr, -⟩ := h.unattached ha
      have hdrain := h.not_draining (by rw [hc]; rfl)
      have hrecv := h.recv_of_unattached ha (by rw [hc]; rfl)
      exact {
        children_eq := h.children_eq
        kept := h.kept
        adopt_first := fun c hmem => absurd hmem (System.no_adopt_of_nil hq c)
        unattached := fun _ => ⟨hq, hr, Or.inl hrecv, rfl, rfl⟩
        handing := fun _ => ha
        flagged := fun _ => rfl
        fits := h.fits
        drained := fun hd => by
          rw [hdrain] at hd
          cases hd
        no_abort := rfl }
  | abort child hc hw =>
      have hdrain := h.not_draining (by rw [hc]; rfl)
      rw [hw] at hdrain
      cases hdrain
  | attachSend child hc =>
      have ha := h.handing (by rw [hc]; rfl)
      obtain ⟨hq, hr, -, -, hp⟩ := h.unattached ha
      obtain ⟨hchild, hreaped⟩ := h.empty_of_unattached ha
      have hdrain := h.not_draining (by rw [hc]; rfl)
      have hrecv := h.recv_of_unattached ha (by rw [hc]; rfl)
      have hpending : s.pending = true := by rw [hp, hc]; rfl
      exact {
        children_eq := by simp [System.children, hq, hchild, hreaped]
        kept := h.kept
        adopt_first := fun c hmem => by
          refine ⟨hrecv, hr, hpending, [], ?_⟩
          simp only [hq, List.nil_append, List.mem_singleton] at hmem ⊢
          cases hmem
          rfl
        unattached := fun hn => nomatch hn
        handing := fun hf => nomatch hf
        flagged := h.flagged
        fits := h.fits
        drained := fun hd => by
          rw [hdrain] at hd
          cases hd
        no_abort := rfl }
  | loadTrue timeout hc hp =>
      refine h.setClient (by rw [hc]; rfl) rfl rfl (fun _ => ?_) (by rw [hc]; exact nofun)
      cases ha : s.attached with
      | some c => rfl
      | none =>
          obtain ⟨-, -, -, -, hno⟩ := h.unattached ha
          rw [hp, hc] at hno
          cases hno
  | loadFalse timeout hc hp =>
      exact h.setClient (by rw [hc]; rfl) rfl rfl nofun (by rw [hc]; exact nofun)
  | sendFails timeout hc hw =>
      exact h.setClient (by rw [hc]; rfl) rfl rfl nofun (by rw [hc]; exact nofun)
  | attemptSend timeout hc =>
      have hsome := h.attached_of_calling (by rw [hc]; rfl)
      have hdrain := h.not_draining (by rw [hc]; rfl)
      exact {
        children_eq := by
          have := h.children_eq
          simpa [System.children] using this
        kept := h.kept
        adopt_first := fun c hmem => by
          have hold : .adopt c ∈ s.queue := by simpa using hmem
          obtain ⟨hw, hr, hp, q, hq⟩ := h.adopt_first c hold
          exact ⟨hw, hr, hp, _, by rw [hq]; rfl⟩
        unattached := fun hn => by
          rw [show s.attached = none from hn] at hsome
          cases hsome
        handing := fun hf => nomatch hf
        flagged := h.flagged
        fits := h.fits
        drained := fun hd => by
          rw [hdrain] at hd
          cases hd
        no_abort := rfl }
  | receive response result hc hr =>
      exact h.setClient (by rw [hc]; rfl) rfl rfl nofun (by rw [hc]; exact nofun)
  | giveUp response error hc =>
      exact h.setClient (by rw [hc]; rfl) rfl rfl nofun (by rw [hc]; exact nofun)
  | ret source result hc =>
      exact h.setClient (by rw [hc]; rfl) rfl rfl nofun (by rw [hc]; exact nofun)
  | isPending hc => exact h
  | drop hd ha => exact h.setClient ha rfl rfl nofun (fun _ => rfl)

/-- A queued `Adopt` is the only child there is. -/
theorem Owned.of_adopt {s : System C} (h : Owned s) {c : C}
    {q : List (FailedChildRecoveryCommand C)} (hq : s.queue = .adopt c :: q) :
    s.attached = some c ∧ adopts q = [] ∧ s.child = none ∧ s.reaped = [] := by
  have hch := h.children_eq
  rw [System.children, hq, adopts_adopt_cons] at hch
  cases ha : s.attached with
  | none =>
      rw [ha] at hch
      cases hch
  | some d =>
      rw [ha] at hch
      simp only [List.cons_append, Option.toList_some, List.cons.injEq, List.append_eq_nil_iff,
        Option.toList_eq_nil_iff] at hch
      obtain ⟨rfl, ⟨hq, hs⟩, hr⟩ := hch
      exact ⟨rfl, hq, hs, hr⟩

/-- Outside `recv` the channel holds no `Adopt`. -/
theorem Owned.no_adopt {s : System C} (h : Owned s) (hw : s.worker ≠ .recv) (c : C) :
    .adopt c ∉ s.queue :=
  fun hmem => hw (h.adopt_first c hmem).1

/-- A worker that serves an attempt has had its `Adopt`. -/
theorem Owned.attached_of_serving {s : System C} (h : Owned s) (hw : s.worker ≠ .recv)
    (hd : s.worker.isDraining = false) : s.attached ≠ none := by
  intro ha
  obtain ⟨-, -, hrecv | hdrain, -⟩ := h.unattached ha
  · exact hw hrecv
  · rw [hd] at hdrain
    cases hdrain

/-- Nothing is taken out of a slot that stays as it is. -/
theorem takenOut_self (child : Option C) : takenOut child child = [] := by
  unfold takenOut
  rcases child with _ | c <;> rfl

/-- An attempt's step moves its child from the slot to the reaped ones, or nowhere. -/
theorem takenOut_append {timeout : Duration} {a b : Attempt C} {e : AttemptEvent}
    (h : attemptStep timeout a e = some b) (reaped : List C) :
    b.child.toList ++ (takenOut a.child b.child ++ reaped) = a.child.toList ++ reaped := by
  rcases attemptStep_cases h with ⟨hchild, -, -⟩ | ⟨hchild, -, -⟩
  · rw [hchild]
    cases a.child <;> rfl
  · rw [hchild]
    rfl

/-- A step that makes no call on the child takes nothing out of the slot. -/
theorem workerStep_reaped {s t : System C} {e : WorkerEvent} (h : s.workerStep e = some t)
    (hquiet : ∀ event, e ≠ .call event) : t.reaped = s.reaped := by
  cases workerStep_move h
  case call event a hw ha => exact absurd rfl (hquiet event)
  all_goals rfl

/-- The worker takes the `Adopt` out of the channel: the child moves into the slot. -/
theorem Owned.adopted {s : System C} (h : Owned s) {child : C}
    {queue : List (FailedChildRecoveryCommand C)} (hw : s.worker = .recv)
    (hq : s.queue = .adopt child :: queue) :
    Owned { s with
      queue, child := some child, overwritten := s.child.toList ++ s.overwritten } := by
  obtain ⟨ha, hnone, hchild, hreaped⟩ := h.of_adopt hq
  obtain ⟨-, -, hp, -⟩ := h.adopt_first child (by rw [hq]; exact List.mem_cons_self)
  exact {
    children_eq := by simp [System.children, hnone, hreaped, ha]
    kept := by simp [hchild, h.kept]
    adopt_first := fun c hmem => by
      rw [← mem_adopts, show adopts queue = [] from hnone] at hmem
      cases hmem
    unattached := fun hn => by
      rw [show s.attached = none from hn] at ha
      cases ha
    handing := h.handing
    flagged := fun _ => hp
    fits := by rw [show s.worker = .recv from hw]; trivial
    drained := fun hd => by
      rw [show s.worker = .recv from hw] at hd
      cases hd
    no_abort := h.no_abort }

/-- The worker takes an attempt out of the channel; there is none before the `Adopt`. -/
theorem Owned.entered {s : System C} (h : Owned s) {timeout : Duration} {response : ℕ}
    {queue : List (FailedChildRecoveryCommand C)} (hq : s.queue = .attempt timeout response :: queue) :
    Owned { s with
      queue, worker := .attempting timeout (some response) (Attempt.enter s.child).pc } where
  children_eq := by
    have := h.children_eq
    rwa [System.children, hq, adopts_attempt_cons] at this
  kept := h.kept
  adopt_first := fun c hmem => by
    obtain ⟨-, -, -, q, hq'⟩ := h.adopt_first c (by rw [hq]; exact List.mem_cons_of_mem _ hmem)
    rw [hq] at hq'
    cases hq'
  unattached := fun hn => by
    have := (h.unattached hn).1
    rw [hq] at this
    cases this
  handing := h.handing
  flagged := h.flagged
  fits := Attempt.enter_holds s.child
  drained := fun hd => nomatch hd
  no_abort := h.no_abort

/-- The worker finds the channel empty and its sender dropped. -/
theorem Owned.disconnects {s : System C} (h : Owned s) (hq : s.queue = []) (hc : s.client = .dropped) :
    Owned { s with worker := .checking } where
  children_eq := h.children_eq
  kept := h.kept
  adopt_first := fun c hmem => absurd hmem (System.no_adopt_of_nil hq c)
  unattached := fun hn => by
    obtain ⟨hq, hr, -, hcall, hp⟩ := h.unattached hn
    exact ⟨hq, hr, Or.inr rfl, hcall, hp⟩
  handing := h.handing
  flagged := h.flagged
  fits := trivial
  drained := fun _ => ⟨by rw [show s.client = .dropped from hc]; rfl, hq⟩
  no_abort := h.no_abort

/-- An attempt takes a step: its child stays in the slot or moves to the reaped ones. -/
theorem Owned.calls {s : System C} (h : Owned s) {timeout : Duration} {response : Option ℕ}
    {pc : AttemptPc} {event : AttemptEvent} {a : Attempt C}
    (hw : s.worker = .attempting timeout response pc)
    (ha : attemptStep timeout { pc, child := s.child } event = some a) :
    Owned { s with
      worker := .attempting timeout response a.pc
      child := a.child
      reaped := takenOut s.child a.child ++ s.reaped } := by
  have hrecv : s.worker ≠ .recv := by rw [hw]; exact nofun
  exact {
    children_eq := by
      have := h.children_eq
      rw [System.children, List.append_assoc] at this ⊢
      rw [← this]
      exact congrArg _ (takenOut_append ha s.reaped)
    kept := h.kept
    adopt_first := fun c hmem => absurd hmem (h.no_adopt hrecv c)
    unattached := fun hn => by
      obtain ⟨hq, hr, hrecv' | hdrain, hcall, hp⟩ := h.unattached hn
      · exact absurd hrecv' hrecv
      · rw [hw] at hdrain
        cases response
        · exact ⟨hq, hr, Or.inr rfl, hcall, hp⟩
        · cases hdrain
    handing := h.handing
    flagged := fun hsome => by
      rcases attemptStep_cases ha with ⟨hchild, -, -⟩ | ⟨hchild, -, -⟩
      · rw [show a.child = s.child from hchild] at hsome
        exact h.flagged hsome
      · rw [hchild] at hsome
        cases hsome
    fits := by
      refine attemptStep_holds ?_ ha
      have := h.fits
      rwa [hw] at this
    drained := fun hd => by
      refine h.drained ?_
      rw [hw]
      cases response
      · rfl
      · cases hd
    no_abort := h.no_abort }

/-- An attempt that a client waits for stores whether the slot is still full. -/
theorem Owned.stores {s : System C} (h : Owned s) {timeout : Duration} {response : ℕ}
    {result : IoResult Bool} (hw : s.worker = .attempting timeout (some response) (.returned result)) :
    Owned { s with pending := s.child.isSome, worker := .responding response result } := by
  have hrecv : s.worker ≠ .recv := by rw [hw]; exact nofun
  exact {
    children_eq := h.children_eq
    kept := h.kept
    adopt_first := fun c hmem => absurd hmem (h.no_adopt hrecv c)
    unattached := fun hn => absurd hn (h.attached_of_serving hrecv (by rw [hw]; rfl))
    handing := h.handing
    flagged := id
    fits := by
      have := h.fits
      rwa [hw] at this
    drained := fun hd => nomatch hd
    no_abort := h.no_abort }

/-- An attempt of the loop after the disconnect stores whether the slot is still full. -/
theorem Owned.drainStores {s : System C} (h : Owned s) {timeout : Duration} {result : IoResult Bool}
    (hw : s.worker = .attempting timeout none (.returned result)) :
    Owned { s with
      pending := s.child.isSome
      worker := if s.child.isSome then .sleeping else .checking } := by
  have hrecv : s.worker ≠ .recv := by rw [hw]; exact nofun
  obtain ⟨hdrop, hqueue⟩ := h.drained (by rw [hw]; rfl)
  exact {
    children_eq := h.children_eq
    kept := h.kept
    adopt_first := fun c hmem => absurd hmem (h.no_adopt hrecv c)
    unattached := fun hn => by
      obtain ⟨hq, hr, -, hcall, hp⟩ := h.unattached hn
      obtain ⟨hchild, -⟩ := h.empty_of_unattached hn
      have hattach : s.client.isAttaching = false := by
        rw [ClientPc.isDropped_iff.mp hdrop]
        rfl
      refine ⟨hq, hr, Or.inr ?_, hcall, ?_⟩
      · rw [hchild]
        rfl
      · rw [hchild, hattach]
        rfl
    handing := h.handing
    flagged := id
    fits := by
      by_cases hsome : s.child.isSome = true
      · rw [if_pos hsome]
        exact hsome
      · rw [if_neg hsome]
        trivial
    drained := fun _ => ⟨hdrop, hqueue⟩
    no_abort := h.no_abort }

/-- The worker answers an attempt and goes back to its channel. -/
theorem Owned.responds {s : System C} (h : Owned s) {response : ℕ} {result : IoResult Bool}
    (hw : s.worker = .responding response result) :
    Owned { s with responses := (response, result) :: s.responses, worker := .recv } := by
  have hrecv : s.worker ≠ .recv := by rw [hw]; exact nofun
  exact {
    children_eq := h.children_eq
    kept := h.kept
    adopt_first := fun c hmem => absurd hmem (h.no_adopt hrecv c)
    unattached := fun hn => absurd hn (h.attached_of_serving hrecv (by rw [hw]; rfl))
    handing := h.handing
    flagged := h.flagged
    fits := trivial
    drained := fun hd => nomatch hd
    no_abort := h.no_abort }

/-- The worker's moves keep the invariant. -/
theorem Owned.worker_move {s t : System C} {e : WorkerEvent} (h : Owned s)
    (hm : WorkerMove s e t) : Owned t := by
  cases hm with
  | adopt child queue hw hq => exact h.adopted hw hq
  | attempt timeout response queue hw hq => exact h.entered hq
  | disconnected hw hq hc => exact h.disconnects hq hc
  | call timeout response pc event a hw ha => exact h.calls hw ha
  | store timeout response result hw => exact h.stores hw
  | drainStore timeout result hw => exact h.drainStores hw
  | respond response result hw => exact h.responds hw
  | again child hw hs =>
      exact h.setDraining (by rw [hw]; rfl) rfl (Attempt.enter_holds s.child)
  | stop hw hs => exact h.setDraining (by rw [hw]; rfl) rfl hs
  | slept hw => exact h.setDraining (by rw [hw]; rfl) rfl trivial

/-- One step of the protocol keeps the invariant. -/
theorem Owned.step {s t : System C} {e : Event C} (h : Owned s) (ht : s.step e = some t) :
    Owned t := by
  cases e with
  | client e => exact h.client_move (clientStep_move ht)
  | worker e => exact h.worker_move (workerStep_move ht)

theorem Owned.of_reachable {s : System C}
    (h : Reachable System.step (· = System.prepare) s) : Owned s :=
  h.induct (fun _ h0 => h0 ▸ Owned.prepare) (fun _ _ _ hI ht => hI.step ht)

/-! ## What the invariant says -/

/-- One child in all is one child at one place. -/
theorem System.at_unique {s : System C} {c : C} (h : s.children = [c]) : ∃! p, s.At c p := by
  rw [System.children] at h
  cases hq : adopts s.queue with
  | cons d q =>
      rw [hq] at h
      simp only [List.cons_append, List.cons.injEq, List.append_eq_nil_iff,
        Option.toList_eq_nil_iff] at h
      obtain ⟨rfl, ⟨rfl, hs⟩, hr⟩ := h
      refine ⟨.channel, mem_adopts.mp (by rw [hq]; exact List.mem_cons_self), fun p hp => ?_⟩
      cases p with
      | channel => rfl
      | slot => rw [At, hs] at hp; cases hp
      | reaped => rw [At, hr] at hp; cases hp
  | nil =>
      have hno : .adopt c ∉ s.queue := by
        rw [← mem_adopts, hq]
        exact List.not_mem_nil
      cases hs : s.child with
      | some d =>
          rw [hq, hs] at h
          simp only [List.nil_append, Option.toList_some, List.cons_append, List.cons.injEq] at h
          obtain ⟨rfl, hr⟩ := h
          refine ⟨.slot, hs, fun p hp => ?_⟩
          cases p with
          | channel => exact absurd hp hno
          | slot => rfl
          | reaped => rw [At, hr] at hp; cases hp
      | none =>
          rw [hq, hs] at h
          have hr : s.reaped = [c] := h
          have hmem : c ∈ s.reaped := by
            rw [hr]
            exact List.mem_cons_self
          refine ⟨.reaped, hmem, fun p hp => ?_⟩
          cases p with
          | channel => exact absurd hp hno
          | slot => rw [At, hs] at hp; cases hp
          | reaped => rfl

/-- In every reachable state the attached child is at exactly one place. -/
theorem Owned.at_unique {s : System C} (h : Owned s) {c : C} (hc : s.attached = some c) :
    ∃! p, s.At c p :=
  System.at_unique (by rw [h.children_eq, hc]; rfl)

/-- A slot is emptied only by a poll that reported the exit. -/
theorem slot_left_only_by_exit {s t : System C} {e : Event C} {c : C} (h : Owned s)
    (ht : s.step e = some t) (hs : s.child = some c) (hleft : t.child ≠ some c) :
    (∃ status, e = .worker (.call (.tryWait (.ok (some status))))) ∧
      t.child = none ∧ c ∈ t.reaped := by
  cases e with
  | client e =>
      refine absurd ?_ hleft
      cases clientStep_move ht <;> exact hs
  | worker e =>
      cases workerStep_move ht with
      | adopt child queue hw hq =>
          have := (h.of_adopt hq).2.2.1
          rw [hs] at this
          cases this
      | call timeout response pc event a hw ha =>
          rcases attemptStep_cases ha with ⟨hchild, -, -⟩ | ⟨hchild, hexit, -⟩
          · exact absurd (hchild.trans hs) hleft
          · refine ⟨?_, hchild, ?_⟩
            · obtain ⟨answer⟩ | _ | _ | _ := event
              · rcases answer with _ | _ | status
                · cases hexit
                · cases hexit
                · exact ⟨status, rfl⟩
              all_goals cases hexit
            · rw [show a.child = none from hchild, hs]
              exact List.mem_cons_self
      | _ => exact absurd hs hleft

/-- **Exact-child ownership of the recovery protocol.** In every state that the client and the
worker can reach, under every interleaving and every pattern of answers: an `Adopt` never met an
occupied slot and the client never aborts; and once the child is attached, it is at exactly one of
the three places, it leaves the slot only to the reaped ones in the step in which `try_wait`
reported its exit, and when the worker has ended, its slot is empty and the child is reaped.
Source: `lib.rs` `FailedChildRecovery`, `failed_child_recovery_worker`,
`attempt_failed_child_recovery` -/
theorem recovery_owns_child {s : System C} (h : Reachable System.step (· = System.prepare) s)
    {c : C} (hc : s.attached = some c) :
    (∃! p, s.At c p) ∧ s.children = [c] ∧ s.overwritten = [] ∧ s.client.isAborting = false ∧
      (s.worker = .ended → s.child = none ∧ c ∈ s.reaped) ∧
      ∀ e t, s.step e = some t → s.child = some c → t.child ≠ some c →
        (∃ status, e = .worker (.call (.tryWait (.ok (some status))))) ∧
          t.child = none ∧ c ∈ t.reaped := by
  have hI := Owned.of_reachable h
  have hchildren : s.children = [c] := by rw [hI.children_eq, hc]; rfl
  refine ⟨hI.at_unique hc, hchildren, hI.kept, hI.no_abort, fun hw => ?_,
    fun e t ht hs hleft => slot_left_only_by_exit hI ht hs hleft⟩
  have hslot : s.child = none := by
    have := hI.fits
    rwa [hw] at this
  have hqueue : s.queue = [] := (hI.drained (by rw [hw]; rfl)).2
  rw [System.children, hqueue, hslot] at hchildren
  refine ⟨hslot, ?_⟩
  rw [show s.reaped = [c] from hchildren]
  exact List.mem_cons_self

/-- A run in which the client gives up on its first attempt and is dropped, and the worker reaps
the child in the loop after the disconnect. -/
def abandonedRun : List (Event ℕ) :=
  [.client (.attachStore 7), .client .attachSend, .client (.attemptLoad 0), .client .attemptSend,
    .worker .recv, .worker .recv, .client (.attemptGiveUp .timeout),
    .client (.attemptReturn .timedOut (.error (responseUnavailable .timeout))), .client .drop,
    .worker (.call (.tryWait (.ok none))), .worker (.call (.kill (.error (.os 1)))),
    .worker .store, .worker .respond, .worker .disconnected, .worker .check,
    .worker (.call (.tryWait (.ok (some (ExitStatus.withExitCode 0))))), .worker .store,
    .worker .check]

/-- The abandoned run ends with the worker gone and the child reaped. -/
theorem recovery_owns_child_abandoned :
    ∃ s, exec System.step System.prepare abandonedRun = some s ∧ s.worker = .ended ∧
      (∃! p, s.At 7 p) ∧ 7 ∈ s.reaped := by
  refine ⟨_, rfl, rfl, ?_⟩
  have h := recovery_owns_child ⟨System.prepare, abandonedRun, rfl, rfl⟩ (rfl : _ = some 7)
  exact ⟨h.1, (h.2.2.2.2.1 rfl).2⟩

end SysprimsPty.Recovery
