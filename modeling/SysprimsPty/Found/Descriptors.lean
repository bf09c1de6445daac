import SysprimsPty.Found.Handles

/-!
# Descriptors across fork and exec

A Unix process inherits a copy of its parent's descriptor table, and loses the close-on-exec
descriptors of it when it starts a program. An object is sealed in a table if all its descriptors are
close-on-exec: then the copies of the table hold it until they start a program, and no longer.

* `Descriptors.execed`, `Descriptors.duped` — exec and `dup2`.
* `Descriptors.Holds`, `Descriptors.Sealed` — what a table has of an object.
* `Sealed.not_holds_execed` — the rule of exec; `Holds.of_opened`, `Holds.of_closed`,
  `Holds.of_duped` — nothing but an open or a `dup2` brings an object in.
-/

namespace SysprimsPty.Found

/-- An open descriptor. -/
structure Descriptor (O : Type*) where
  object : O
  cloexec : Bool
  deriving DecidableEq

/-- The descriptors of a process. -/
abbrev Descriptors (F O : Type*) := HandleTable F (Descriptor O)

namespace Descriptors

variable {F O : Type*} {t : Descriptors F O} {x : O}

/-- What is left after an exec. -/
def execed (t : Descriptors F O) : Descriptors F O := fun fd => (t fd).filter fun d => !d.cloexec

/-- Some descriptor denotes the object. -/
def Holds (t : Descriptors F O) (x : O) : Prop := ∃ fd d, t fd = some d ∧ d.object = x

/-- All descriptors of the object are close-on-exec. -/
def Sealed (t : Descriptors F O) (x : O) : Prop :=
  ∀ fd d, t fd = some d → d.object = x → d.cloexec = true

/-- A descriptor after an exec. -/
theorem execed_eq_some_iff {fd : F} {d : Descriptor O} :
    t.execed fd = some d ↔ t fd = some d ∧ d.cloexec = false := by
  unfold execed
  rw [Option.filter_eq_some_iff]
  simp

theorem Sealed.of_not_holds (h : ¬ t.Holds x) : t.Sealed x :=
  fun fd d hopen hx => absurd ⟨fd, d, hopen, hx⟩ h

/-- **The rule of exec.** -/
theorem Sealed.not_holds_execed (h : t.Sealed x) : ¬ t.execed.Holds x := by
  rintro ⟨fd, d, hopen, hx⟩
  obtain ⟨hopen, hkept⟩ := execed_eq_some_iff.mp hopen
  rw [h fd d hopen hx] at hkept
  cases hkept

variable [DecidableEq F]

/-- `dup2`, with the close-on-exec flag of the copy. -/
def duped (t : Descriptors F O) (old copy : F) (cloexec : Bool) : Descriptors F O :=
  match t old with
  | none => t
  | some d => t.opened copy { d with cloexec }

/-- A descriptor of a table with one more. -/
theorem opened_eq_some {fd fd' : F} {d d' : Descriptor O} (h : t.opened fd d fd' = some d') :
    d' = d ∨ t fd' = some d' := by
  by_cases heq : fd' = fd
  · obtain rfl := heq
    rw [HandleTable.opened, Function.update_self] at h
    exact .inl (Option.some.inj h).symm
  · rw [t.opened_of_ne heq] at h
    exact .inr h

/-- A descriptor of a table with one less. -/
theorem closed_eq_some {fd fd' : F} {d' : Descriptor O} (h : t.closed fd fd' = some d') :
    t fd' = some d' := by
  by_cases heq : fd' = fd
  · obtain rfl := heq
    rw [HandleTable.closed, Function.update_self] at h
    cases h
  · rwa [HandleTable.closed, Function.update_of_ne heq] at h

theorem Holds.of_opened {fd : F} {d : Descriptor O} (h : Holds (t.opened fd d) x) :
    d.object = x ∨ t.Holds x := by
  obtain ⟨fd', d', hopen, hx⟩ := h
  rcases opened_eq_some hopen with rfl | hopen
  · exact .inl hx
  · exact .inr ⟨fd', d', hopen, hx⟩

theorem Holds.of_closed {fd : F} (h : Holds (t.closed fd) x) : t.Holds x := by
  obtain ⟨fd', d', hopen, hx⟩ := h
  exact ⟨fd', d', closed_eq_some hopen, hx⟩

/-- A `dup2` brings no new object in. -/
theorem Holds.of_duped {old copy : F} {cloexec : Bool} (h : (t.duped old copy cloexec).Holds x) :
    t.Holds x := by
  unfold duped at h
  rcases hold : t old with _ | d
  · rwa [hold] at h
  · rw [hold] at h
    rcases h.of_opened with hx | hheld
    · exact ⟨old, d, hold, hx⟩
    · exact hheld

theorem Sealed.opened (h : t.Sealed x) {fd : F} {d : Descriptor O}
    (hd : d.object = x → d.cloexec = true) : Sealed (t.opened fd d) x := by
  intro fd' d' hopen hx
  rcases opened_eq_some hopen with rfl | hopen
  · exact hd hx
  · exact h fd' d' hopen hx

theorem Sealed.closed (h : t.Sealed x) {fd : F} : Sealed (t.closed fd) x :=
  fun fd' d' hopen hx => h fd' d' (closed_eq_some hopen) hx

end Descriptors

end SysprimsPty.Found
