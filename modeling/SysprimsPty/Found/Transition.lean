import Mathlib.Algebra.GroupWithZero.Nat
import Mathlib.Data.List.Basic
import Mathlib.Data.Option.Basic

/-!
# Labelled partial transitions

A system is a partial step function `step : σ → α → Option σ`: the label says which party moves
and what its environment answers, and `none` means that the label is not enabled. `exec` runs a
list of labels, so that a concrete schedule can be evaluated and a general one reasoned about.

* `Reachable step init s` — `s` ends some run from an initial state.
* `Reachable.induct` — the invariant rule: what holds initially and is kept by one step holds in
  every reachable state.
* `exec_keeps` — the same along a run whose labels all satisfy a side condition.
* `exec_length_le` — the ranking rule: a run whose steps all lower a rank is no longer than the rank.
* `exec_potential_le` — the cost rule: a run raises a potential by no more than its labels cost.
* `exec_reaches` — the termination rule: a final state is reached under every stream of labels.
* `exec_reaches_from` — the same when the rank is lowered only from some state of the run on.
* `exec_simulates` — the simulation rule: a run of one system gives a run of another.
* `Along`, `exec_along_keeps` — the same along a run whose steps all satisfy a side condition on the
  state and the label.
* `exec_iff_along` — the accumulation rule: a property that every step keeps or loses according to
  its state and label holds at the end of a run if and only if no label lost it.
* `exec_ending` — the run rule: with an invariant of the states, every label of a run is enabled in
  a state that satisfies it.
-/

namespace SysprimsPty.Found

variable {σ α : Type*} (step : σ → α → Option σ)

/-- Run the labels in order; `none` as soon as one of them is not enabled. -/
def exec : σ → List α → Option σ
  | s, [] => some s
  | s, a :: as => (step s a).bind fun t => exec t as

@[simp] theorem exec_cons (s : σ) (a : α) (as : List α) :
    exec step s (a :: as) = (step s a).bind fun t => exec step t as := rfl

/-- A run splits at any point of its label list. -/
theorem exec_append (s : σ) (as bs : List α) :
    exec step s (as ++ bs) = (exec step s as).bind fun t => exec step t bs := by
  induction as generalizing s with
  | nil => rfl
  | cons a as ih =>
      rw [List.cons_append, exec_cons, exec_cons, Option.bind_assoc]
      exact congrArg _ (funext fun t => ih t)

/-- A run over `as ++ a :: bs` passes through a state in which `a` is taken. -/
theorem exec_append_cons {s u : σ} {as bs : List α} {a : α}
    (h : exec step s (as ++ a :: bs) = some u) :
    ∃ t t', exec step s as = some t ∧ step t a = some t' ∧ exec step t' bs = some u := by
  rw [exec_append, Option.bind_eq_some_iff] at h
  obtain ⟨t, ht, h⟩ := h
  rw [exec_cons, Option.bind_eq_some_iff] at h
  obtain ⟨t', ht', h⟩ := h
  exact ⟨t, t', ht, ht', h⟩

variable {step}

/-- A step as a run. -/
theorem exec_single {s t : σ} {a : α} (h : step s a = some t) : exec step s [a] = some t := by
  rw [exec_cons, h]
  rfl

/-- A property kept by every step whose label satisfies `ok` is kept by a run of such labels. -/
theorem exec_keeps {I : σ → Prop} {ok : α → Prop}
    (hstep : ∀ s a t, ok a → I s → step s a = some t → I t) {as : List α} {s t : σ}
    (hok : ∀ a ∈ as, ok a) (hs : I s) (h : exec step s as = some t) : I t := by
  induction as generalizing s with
  | nil =>
      cases h
      exact hs
  | cons a as ih =>
      rw [exec_cons, Option.bind_eq_some_iff] at h
      obtain ⟨u, hu, h⟩ := h
      have hI := hstep s a u (hok a List.mem_cons_self) hs hu
      exact ih (fun b hb => hok b (List.mem_cons_of_mem a hb)) hI h

/-- A property kept by every step is kept by every run. -/
theorem exec_invariant {I : σ → Prop} (hstep : ∀ s a t, I s → step s a = some t → I t)
    {as : List α} {s t : σ} (hs : I s) (h : exec step s as = some t) : I t :=
  @exec_keeps _ _ step I (fun _ => True) (fun s a t _ => hstep s a t) as s t (fun _ _ => trivial) hs h

/-- Steps that lower a rank bound the length of a run. -/
theorem exec_length_le {I : σ → Prop} {rank : σ → ℕ}
    (hstep : ∀ s a t, I s → step s a = some t → I t ∧ rank t < rank s) {as : List α} {s t : σ}
    (hs : I s) (h : exec step s as = some t) : as.length + rank t ≤ rank s := by
  induction as generalizing s with
  | nil =>
      cases h
      simp
  | cons a as ih =>
      rw [exec_cons, Option.bind_eq_some_iff] at h
      obtain ⟨u, hu, hut⟩ := h
      obtain ⟨hI, hlt⟩ := hstep s a u hs hu
      have := ih hI hut
      rw [List.length_cons]
      omega

/-- Steps that raise a potential by no more than their label costs. -/
theorem exec_potential_le {I : σ → Prop} {potential : σ → ℕ} {cost : α → ℕ}
    (hstep : ∀ s a t, I s → step s a = some t → I t ∧ potential t ≤ potential s + cost a)
    {as : List α} {s t : σ} (hs : I s) (h : exec step s as = some t) :
    potential t ≤ potential s + (as.map cost).sum := by
  induction as generalizing s with
  | nil =>
      cases h
      simp
  | cons a as ih =>
      rw [exec_cons, Option.bind_eq_some_iff] at h
      obtain ⟨u, hu, hut⟩ := h
      obtain ⟨hI, hle⟩ := hstep s a u hs hu
      have := ih hI hut
      rw [List.map_cons, List.sum_cons]
      omega

/-- **The termination rule**: if in every state that is not final each label can be taken and lowers a
rank, then every stream of labels leads to a final state. -/
theorem exec_reaches {I final : σ → Prop} {rank : σ → ℕ}
    (hstep : ∀ s a, I s → ¬ final s → ∃ t, step s a = some t ∧ I t ∧ rank t < rank s) {s : σ}
    (hs : I s) (labels : ℕ → α) :
    ∃ n ≤ rank s, ∃ t, exec step s ((List.range n).map labels) = some t ∧ I t ∧ final t := by
  induction hrank : rank s using Nat.strongRecOn generalizing s labels with
  | ind r ih =>
    by_cases hfinal : final s
    · exact ⟨0, Nat.zero_le r, s, rfl, hs, hfinal⟩
    · obtain ⟨u, hu, hI, hlt⟩ := hstep s (labels 0) hs hfinal
      rw [hrank] at hlt
      obtain ⟨n, hn, t, hrun, ht⟩ := ih (rank u) hlt hI (fun i => labels (i + 1)) rfl
      refine ⟨n + 1, by omega, t, ?_, ht⟩
      rw [List.range_succ_eq_map, List.map_cons, List.map_map, exec_cons, hu]
      exact hrun

/-- A run over translated labels. -/
theorem exec_map {β : Type*} (f : β → α) (s : σ) (bs : List β) :
    exec step s (bs.map f) = exec (fun s b => step s (f b)) s bs := by
  induction bs generalizing s with
  | nil => rfl
  | cons b bs ih =>
      rw [List.map_cons, exec_cons, exec_cons]
      exact congrArg _ (funext ih)

/-- The termination rule for a stream whose labels all satisfy `ok`. -/
theorem exec_reaches_of {I final : σ → Prop} {ok : α → Prop} {rank : σ → ℕ}
    (hstep : ∀ s a, ok a → I s → ¬ final s → ∃ t, step s a = some t ∧ I t ∧ rank t < rank s) {s : σ}
    (hs : I s) {labels : ℕ → α} (hok : ∀ n, ok (labels n)) :
    ∃ n t, exec step s ((List.range n).map labels) = some t ∧ I t ∧ final t := by
  let allowed : ℕ → {a // ok a} := fun n => ⟨labels n, hok n⟩
  obtain ⟨n, -, t, hrun, ht⟩ := @exec_reaches σ {a // ok a} (fun s a => step s a.1) I final rank
    (fun s a hI hfinal => hstep s a.1 a.2 hI hfinal) s hs allowed
  refine ⟨n, t, ?_, ht⟩
  rw [← exec_map, List.map_map] at hrun
  exact hrun

/-- A run that can always go on is as long as one likes, or comes to a final state. -/
theorem exec_runs_or_final {I final : σ → Prop} (labels : ℕ → α)
    (hkeep : ∀ s a, I s → ¬ final s → ∃ t, step s a = some t ∧ I t) {s : σ} (hs : I s) (n : ℕ) :
    (∃ m t, exec step s ((List.range m).map labels) = some t ∧ I t ∧ final t) ∨
      ∃ t, exec step s ((List.range n).map labels) = some t ∧ I t := by
  induction n with
  | zero => exact .inr ⟨s, rfl, hs⟩
  | succ n ih =>
      rcases ih with hended | ⟨t, ht, hI⟩
      · exact .inl hended
      · by_cases hfinal : final t
        · exact .inl ⟨n, t, ht, hI, hfinal⟩
        · obtain ⟨u, hu, hI'⟩ := hkeep t (labels n) hI hfinal
          refine .inr ⟨u, ?_, hI'⟩
          rw [List.range_succ, List.map_append, exec_append, ht]
          simp [exec, hu]

/-- **The rule of a rank that is lowered from some state on**: once the run has come to `Q`, it stays
there, and each label lowers the rank. -/
theorem exec_reaches_from {I Q final : σ → Prop} {ok : α → Prop} {rank : σ → ℕ}
    {labels : ℕ → α} {N : ℕ}
    (hkeep : ∀ s a, I s → ¬ final s → ∃ t, step s a = some t ∧ I t)
    (hstay : ∀ s a t, I s ∧ Q s → step s a = some t → I t ∧ Q t)
    (hlower : ∀ s a t, ok a → I s → Q s → step s a = some t → rank t < rank s)
    (hok : ∀ n, N < n → ok (labels n)) {s t : σ} {n : ℕ} (hs : I s)
    (ht : exec step s ((List.range n).map labels) = some t) (hI : I t) (hQ : Q t) :
    ∃ m u, exec step s ((List.range m).map labels) = some u ∧ I u ∧ final u := by
  rcases exec_runs_or_final labels hkeep hs (n + (N + 1)) with hended | ⟨u, hu, -⟩
  · exact hended
  · have hsplit (k m : ℕ) : (List.range (k + m)).map labels =
        (List.range k).map labels ++ (List.range m).map fun i => labels (k + i) := by
      rw [List.range_add, List.map_append, List.map_map]
      rfl
    have hrest := hu
    rw [hsplit, exec_append, ht, Option.bind_some] at hrest
    have hu' : I u ∧ Q u := exec_invariant hstay ⟨hI, hQ⟩ hrest
    obtain ⟨m, v, hv, ⟨hIv, -⟩, hfinal⟩ := @exec_reaches_of σ α step (fun s => I s ∧ Q s) final ok rank
      (fun w a ha hw hnot => by
        obtain ⟨x, hx, -⟩ := hkeep w a hw.1 hnot
        exact ⟨x, hx, hstay w a x hw hx, hlower w a x ha hw.1 hw.2 hx⟩) u hu'
      (fun i => labels (n + (N + 1) + i)) (fun i => hok _ (by omega))
    refine ⟨n + (N + 1) + m, v, ?_, hIv, hfinal⟩
    rw [hsplit, exec_append, hu]
    exact hv

/-- **The simulation rule**: if a system whose steps are runs of another one runs, so does the other
one. -/
theorem exec_simulates {τ β : Type*} {step' : τ → β → Option τ} {f : σ → τ}
    (hstep : ∀ s a t, step s a = some t → ∃ bs, exec step' (f s) bs = some (f t)) {as : List α}
    {s t : σ} (h : exec step s as = some t) : ∃ bs, exec step' (f s) bs = some (f t) := by
  induction as generalizing s with
  | nil =>
      cases h
      exact ⟨[], rfl⟩
  | cons a as ih =>
      rw [exec_cons, Option.bind_eq_some_iff] at h
      obtain ⟨u, hu, hut⟩ := h
      obtain ⟨bs, hbs⟩ := hstep s a u hu
      obtain ⟨cs, hcs⟩ := ih hut
      refine ⟨bs ++ cs, ?_⟩
      rw [exec_append, hbs]
      exact hcs

/-- Along a run every label is taken in a state that satisfies the invariant, and so does the
state it leads to. -/
theorem exec_ending {I : σ → Prop} (hstep : ∀ s a t, I s → step s a = some t → I t)
    {as bs : List α} {a : α} {s u : σ} (hs : I s) (h : exec step s (as ++ a :: bs) = some u) :
    ∃ t t', I t ∧ step t a = some t' ∧ I t' ∧ exec step t' bs = some u := by
  obtain ⟨t, t', hst, hta, htu⟩ := exec_append_cons step h
  have ht := exec_invariant hstep hs hst
  exact ⟨t, t', ht, hta, hstep t a t' ht hta, htu⟩

/-- Every label of a run is taken in a state that goes with it. -/
def Along (step : σ → α → Option σ) (P : σ → α → Prop) (s : σ) (as : List α) : Prop :=
  ∀ before a after t, as = before ++ a :: after → exec step s before = some t → P t a

theorem along_nil {P : σ → α → Prop} (s : σ) : Along step P s [] := by
  intro before a after t hsplit
  simp at hsplit

/-- The labels of a run are its first one and those of the rest. -/
theorem along_cons_iff {P : σ → α → Prop} {s t : σ} {a : α} {as : List α}
    (h : step s a = some t) : Along step P s (a :: as) ↔ P s a ∧ Along step P t as := by
  constructor
  · intro hall
    refine ⟨hall [] a as s rfl rfl, ?_⟩
    intro before b after u hsplit hrun
    refine hall (a :: before) b after u (by rw [hsplit, List.cons_append]) ?_
    rw [exec_cons, h]
    exact hrun
  · rintro ⟨hs, ht⟩ before b after u hsplit hrun
    cases before with
    | nil =>
        obtain ⟨rfl, -⟩ := List.cons.inj hsplit
        cases hrun
        exact hs
    | cons a' before =>
        obtain ⟨rfl, hrest⟩ := List.cons.inj hsplit
        rw [exec_cons, h] at hrun
        exact ht before b after u hrest hrun

/-- A side condition on the label alone. -/
theorem along_label_iff {p : α → Prop} {as : List α} {s t : σ} (h : exec step s as = some t) :
    Along step (fun _ a => p a) s as ↔ ∀ a ∈ as, p a := by
  constructor
  · intro halong a ha
    obtain ⟨before, after, rfl⟩ := List.append_of_mem ha
    obtain ⟨u, -, hu, -, -⟩ := exec_append_cons step h
    exact halong before a after u rfl hu
  · rintro hall before a after u rfl -
    exact hall a (by simp)

/-- A property kept by every step that goes with its state is kept by a run of such steps. -/
theorem exec_along_keeps {I : σ → Prop} {P : σ → α → Prop}
    (hstep : ∀ s a t, I s → P s a → step s a = some t → I t) {as : List α} {s t : σ} (hs : I s)
    (halong : Along step P s as) (h : exec step s as = some t) : I t := by
  induction as generalizing s with
  | nil =>
      cases h
      exact hs
  | cons a as ih =>
      rw [exec_cons, Option.bind_eq_some_iff] at h
      obtain ⟨u, hu, hut⟩ := h
      obtain ⟨ha, hrest⟩ := (along_cons_iff hu).mp halong
      exact ih (hstep s a u hs ha hu) hrest hut

/-- **The accumulation rule.** -/
theorem exec_iff_along {I Q : σ → Prop} {P : σ → α → Prop}
    (hstep : ∀ s a t, I s → step s a = some t → I t ∧ (Q t ↔ Q s ∧ P s a)) {as : List α}
    {s t : σ} (hs : I s) (h : exec step s as = some t) : Q t ↔ Q s ∧ Along step P s as := by
  induction as generalizing s with
  | nil =>
      cases h
      exact ⟨fun hq => ⟨hq, along_nil _⟩, And.left⟩
  | cons a as ih =>
      rw [exec_cons, Option.bind_eq_some_iff] at h
      obtain ⟨u, hu, hut⟩ := h
      obtain ⟨hI, hQ⟩ := hstep s a u hs hu
      rw [ih hI hut, hQ, along_cons_iff hu, and_assoc]

variable (step)

/-- The states that end a run from an initial state. -/
def Reachable (init : σ → Prop) (s : σ) : Prop :=
  ∃ s₀ as, init s₀ ∧ exec step s₀ as = some s

variable {step}

/-- **The invariant rule.** -/
theorem Reachable.induct {init I : σ → Prop} (h0 : ∀ s, init s → I s)
    (hstep : ∀ s a t, I s → step s a = some t → I t) {s : σ} (h : Reachable step init s) :
    I s := by
  obtain ⟨s₀, as, hinit, hrun⟩ := h
  exact exec_invariant hstep (h0 s₀ hinit) hrun

end SysprimsPty.Found
