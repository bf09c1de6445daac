import SysprimsPty.Found.Transition
import SysprimsPty.Master.ConPty

/-!
# The cached size of a ConPTY

A ConPTY and the master's clones, which share one `Inner` behind a lock. A call through a clone takes
the lock first and releases it at its return, so that a state has at most one call in progress; the
console answers in the middle of a resize, before the cached size is stored. The spawns of the slave
and the reader and writer calls take the same lock and leave the size alone. The history fields of the
world hold what the console was given and what the calls returned.

* `ConPtyWorld.step` — the opening, the clones, the calls and the console.
* `Tracks` — the cached size tracks the console.
* `InStep` — the invariant: outside of a resize that the console has answered, the cache holds the
  size that the console accepted last.
* `size_tracks_console_iff` — the cached size tracks the console exactly in the runs whose sizes fit
  into a `SHORT`.
-/

namespace SysprimsPty.Master

open SysprimsPty.Core
open SysprimsPty.Found

/-- The call that holds the lock. -/
inductive Holding
  /-- In `ResizePseudoConsole`. -/
  | resizing (size : PtySize)
  /-- After `ResizePseudoConsole` has answered. -/
  | answered (size : PtySize) (answer : Hresult)
  /-- In `get_size`. -/
  | reading
  deriving DecidableEq

/-- An open ConPTY. -/
structure ConPtyPair (F H : Type) where
  inner : Inner F H
  /-- The number of masters: the first one and the clones made so far. -/
  masters : ℕ
  holding : Option Holding
  /-- The size of the last call that the console accepted, or the opening size. -/
  accepted : PtySize
  deriving DecidableEq

/-- A `resize` that has returned, with the cached size before and after it. -/
structure ResizeCall where
  size : PtySize
  answer : Hresult
  before : PtySize
  after : PtySize
  result : Except Error Unit

/-- A `get_size` that has returned, with the size that the console had accepted last. -/
structure SizeCall where
  accepted : PtySize
  result : Except Error PtySize

/-- The ConPTY, once it is open, what the console was given and what the calls returned, newest
first. -/
structure ConPtyWorld (F H : Type) where
  pair : Option (ConPtyPair F H)
  passed : List Passed
  resizes : List ResizeCall
  sizes : List SizeCall

/-- A step of a call through a master, or an answer of the system. -/
inductive ConPtyEvent (F H : Type)
  | openpty (size : PtySize) (answers : OpenAnswers F H)
  | clone (master : ℕ)
  /-- A `resize` takes the lock and calls the console. -/
  | resize (master : ℕ) (size : PtySize)
  | console (answer : Hresult)
  /-- The `resize` returns. -/
  | resized
  /-- A `get_size` takes the lock. -/
  | getSize (master : ℕ)
  /-- The `get_size` returns. -/
  | gotSize

variable {F H : Type}

namespace ConPtyWorld

/-- Before `openpty`. -/
def unopened : ConPtyWorld F H := { pair := none, passed := [], resizes := [], sizes := [] }

/-- The opening of the ConPTY. -/
def openpty (s : ConPtyWorld F H) (size : PtySize) (answers : OpenAnswers F H) : ConPtyWorld F H :=
  { s with
    passed := (openConpty size answers).1 ++ s.passed
    pair :=
      match (openConpty size answers).2 with
      | .ok inner => some { inner, masters := 1, holding := none, accepted := size }
      | .error _ => none }

/-- The return of a resize, after the answer of the console. -/
def resized (s : ConPtyWorld F H) (p : ConPtyPair F H) (size : PtySize) (answer : Hresult) :
    ConPtyWorld F H :=
  let (inner, result) := p.inner.masterResize size answer
  { s with
    pair := some { p with inner, holding := none }
    resizes := { size, answer, before := p.inner.size, after := inner.size, result } :: s.resizes }

/-- One step of an open ConPTY. -/
def stepOpen (s : ConPtyWorld F H) (p : ConPtyPair F H) : ConPtyEvent F H → Option (ConPtyWorld F H)
  | .openpty _ _ => none
  | .clone master =>
      if master < p.masters then some { s with pair := some { p with masters := p.masters + 1 } }
      else none
  | .resize master size =>
      if master < p.masters ∧ p.holding = none then
        some { s with
          pair := some { p with holding := some (.resizing size) }
          passed := { size, coord := .ofSize size.cols size.rows } :: s.passed }
      else none
  | .console answer =>
      match p.holding with
      | some (.resizing size) =>
          some { s with
            pair := some { p with
              holding := some (.answered size answer)
              accepted := if answer = sOk then size else p.accepted } }
      | _ => none
  | .resized =>
      match p.holding with
      | some (.answered size answer) => some (s.resized p size answer)
      | _ => none
  | .getSize master =>
      if master < p.masters ∧ p.holding = none then
        some { s with pair := some { p with holding := some .reading } }
      else none
  | .gotSize =>
      match p.holding with
      | some .reading =>
          some { s with
            pair := some { p with holding := none }
            sizes := { accepted := p.accepted, result := p.inner.getSize } :: s.sizes }
      | _ => none

/-- One step.
Source: `win/conpty.rs` `open_conpty`, `MasterPty for ConPtyMasterPty` -/
def step (s : ConPtyWorld F H) (e : ConPtyEvent F H) : Option (ConPtyWorld F H) :=
  match s.pair with
  | some p => s.stepOpen p e
  | none =>
      match e with
      | .openpty size answers => some (s.openpty size answers)
      | _ => none

end ConPtyWorld

/-! ## What is expected of the cache -/

/-- The `COORD` has the columns and the rows that were asked for, as integers. -/
def Passed.Exact (p : Passed) : Prop :=
  p.coord.x.toInt = p.size.cols.toNat ∧ p.coord.y.toInt = p.size.rows.toNat

/-- **The cached size tracks the console.** -/
structure Tracks (s : ConPtyWorld F H) : Prop where
  coords : ∀ p ∈ s.passed, p.Exact
  accepted : ∀ c ∈ s.resizes, c.answer = sOk → c.after = c.size ∧ c.result = .ok ()
  rejected : ∀ c ∈ s.resizes, c.answer ≠ sOk → c.after = c.before ∧ ∃ e, c.result = .error e
  sizes : ∀ c ∈ s.sizes, c.result = .ok c.accepted

/-- Rows and columns fit into a `SHORT`. -/
def FitsShort (size : PtySize) : Prop := size.cols.toNat < 2 ^ 15 ∧ size.rows.toNat < 2 ^ 15

instance : DecidablePred FitsShort :=
  fun size => inferInstanceAs (Decidable (size.cols.toNat < 2 ^ 15 ∧ size.rows.toNat < 2 ^ 15))

/-- The pipes of `open_conpty` could be made. -/
def OpenAnswers.PipesMade (answers : OpenAnswers F H) : Prop :=
  answers.stdin.isOk = true ∧ answers.stdout.isOk = true

/-- A size that the event asks the console for fits. -/
def ConPtyEvent.Fits : ConPtyEvent F H → Prop
  | .openpty size answers => answers.PipesMade → FitsShort size
  | .resize _ size => FitsShort size
  | _ => True

/-! ## One step -/

/-- The size that the cache holds, or is about to hold, is the one that the console accepted last. -/
def ConPtyPair.InStep (p : ConPtyPair F H) : Prop :=
  match p.holding with
  | some (.answered size answer) => p.accepted = if answer = sOk then size else p.inner.size
  | _ => p.accepted = p.inner.size

/-- What holds in every run, whatever sizes are asked for. -/
structure CacheSound (s : ConPtyWorld F H) : Prop where
  inStep : ∀ p, s.pair = some p → p.InStep
  accepted : ∀ c ∈ s.resizes, c.answer = sOk → c.after = c.size ∧ c.result = .ok ()
  rejected : ∀ c ∈ s.resizes, c.answer ≠ sOk → c.after = c.before ∧ ∃ e, c.result = .error e
  sizes : ∀ c ∈ s.sizes, c.result = .ok c.accepted

/-- What the console has been given so far is exact. -/
def CoordsExact (s : ConPtyWorld F H) : Prop := ∀ p ∈ s.passed, p.Exact

/-- A `COORD` is exact when the size fits. -/
theorem exact_ofSize_iff (size : PtySize) :
    (Passed.mk size (.ofSize size.cols size.rows)).Exact ↔ FitsShort size := by
  simp only [Passed.Exact, Coord.ofSize, toInt_toInt16_iff, FitsShort]

/-- What `open_conpty` gives the console. -/
theorem openConpty_exact_iff (size : PtySize) (answers : OpenAnswers F H) :
    (∀ p ∈ (openConpty size answers).1, p.Exact) ↔ (answers.PipesMade → FitsShort size) := by
  obtain ⟨stdin, stdout, create⟩ := answers
  unfold openConpty OpenAnswers.PipesMade
  rcases stdin with e | stdin
  · simp [Except.isOk, Except.toBool]
  · rcases stdout with e | stdout
    · simp [Except.isOk, Except.toBool]
    · simp [Except.isOk, Except.toBool, exact_ofSize_iff]

/-- The size with which a ConPTY opens. -/
theorem openConpty_size {size : PtySize} {answers : OpenAnswers F H} {inner : Inner F H}
    (h : (openConpty size answers).2 = .ok inner) : inner.size = size := by
  obtain ⟨stdin, stdout, create⟩ := answers
  unfold openConpty PsuedoCon.new at h
  rcases stdin with e | stdin
  · simp at h
  · rcases stdout with e | stdout
    · simp at h
    · by_cases hok : create.1 = sOk
      · simp only [hok, if_true, Except.ok.injEq] at h
        rw [← h]
      · simp [hok] at h

/-- An event that gives the console nothing keeps what it was given. -/
theorem coordsExact_quiet {s t : ConPtyWorld F H} {e : ConPtyEvent F H} (hpassed : t.passed = s.passed)
    (hfits : e.Fits) : CoordsExact t ↔ CoordsExact s ∧ e.Fits := by
  unfold CoordsExact
  rw [hpassed]
  exact (and_iff_left hfits).symm

/-- An event at which no call returns keeps the cache sound if it keeps it in step. -/
theorem CacheSound.frame {s t : ConPtyWorld F H} (h : CacheSound s) {p : ConPtyPair F H}
    (hpair : t.pair = some p) (hin : p.InStep) (hresizes : t.resizes = s.resizes)
    (hsizes : t.sizes = s.sizes) : CacheSound t := by
  refine ⟨?_, ?_, ?_, ?_⟩
  · intro q hq
    rw [hpair] at hq
    rwa [← Option.some.inj hq]
  · rw [hresizes]
    exact h.accepted
  · rw [hresizes]
    exact h.rejected
  · rw [hsizes]
    exact h.sizes

/-- The opening leaves the cache in step and gives the console the opening size. -/
theorem openpty_sound {s : ConPtyWorld F H} (h : CacheSound s) (size : PtySize)
    (answers : OpenAnswers F H) :
    CacheSound (s.openpty size answers) ∧
      (CoordsExact (s.openpty size answers) ↔
        CoordsExact s ∧ (ConPtyEvent.openpty size answers).Fits) := by
  refine ⟨⟨?_, h.accepted, h.rejected, h.sizes⟩, ?_⟩
  · intro p hp
    unfold ConPtyWorld.openpty at hp
    rcases hopen : (openConpty size answers).2 with e | inner
    · simp [hopen] at hp
    · simp only [hopen, Option.some.injEq] at hp
      rw [← hp]
      exact (openConpty_size hopen).symm
  · unfold CoordsExact ConPtyWorld.openpty
    simp only [List.forall_mem_append, openConpty_exact_iff]
    exact and_comm

/-- A resize that returns has stored the size exactly if the console accepted it. -/
theorem resized_sound {s : ConPtyWorld F H} (h : CacheSound s) {p : ConPtyPair F H} {size : PtySize}
    {answer : Hresult} (hstep : p.accepted = if answer = sOk then size else p.inner.size) :
    CacheSound (s.resized p size answer) := by
  unfold ConPtyWorld.resized
  by_cases hok : answer = sOk
  · rw [if_pos hok] at hstep
    rw [hok, Inner.masterResize_accepted]
    refine ⟨?_, ?_, ?_, h.sizes⟩
    · simpa [ConPtyPair.InStep] using hstep
    · simpa using h.accepted
    · simpa using h.rejected
  · rw [if_neg hok] at hstep
    obtain ⟨e, he⟩ := p.inner.masterResize_rejected size hok
    rw [he]
    refine ⟨?_, ?_, ?_, h.sizes⟩
    · simpa [ConPtyPair.InStep] using hstep
    · simpa [hok] using h.accepted
    · simpa [hok] using h.rejected

/-- **The step lemma.** Every step of an open ConPTY keeps the cache sound, and keeps what the console
was given exact unless it asks for a size that does not fit. -/
theorem stepOpen_sound {s t : ConPtyWorld F H} (h : CacheSound s) {p : ConPtyPair F H}
    (hp : s.pair = some p) {e : ConPtyEvent F H} (ht : s.stepOpen p e = some t) :
    CacheSound t ∧ (CoordsExact t ↔ CoordsExact s ∧ e.Fits) := by
  have hin := h.inStep p hp
  unfold ConPtyPair.InStep at hin
  rcases e with ⟨size, answers⟩ | master | ⟨master, size⟩ | answer | _ | master | _ <;>
    simp only [ConPtyWorld.stepOpen, reduceCtorEq] at ht
  case clone =>
    split_ifs at ht
    obtain rfl := Option.some.inj ht
    exact ⟨h.frame rfl hin rfl rfl, coordsExact_quiet rfl trivial⟩
  case resize =>
    split_ifs at ht with hfree
    obtain rfl := Option.some.inj ht
    simp only [hfree.2] at hin
    refine ⟨h.frame rfl hin rfl rfl, ?_⟩
    simp only [CoordsExact, List.forall_mem_cons, exact_ofSize_iff, ConPtyEvent.Fits]
    exact and_comm
  case console =>
    split at ht
    · next size hholding =>
        obtain rfl := Option.some.inj ht
        simp only [hholding] at hin
        have hanswered : (if answer = sOk then size else p.accepted) =
            if answer = sOk then size else p.inner.size := by rw [hin]
        exact ⟨h.frame rfl hanswered rfl rfl, coordsExact_quiet rfl trivial⟩
    · cases ht
  case resized =>
    split at ht
    · next size answer hholding =>
        obtain rfl := Option.some.inj ht
        simp only [hholding] at hin
        exact ⟨resized_sound h hin, coordsExact_quiet rfl trivial⟩
    · cases ht
  case getSize =>
    split_ifs at ht with hfree
    obtain rfl := Option.some.inj ht
    simp only [hfree.2] at hin
    exact ⟨h.frame rfl hin rfl rfl, coordsExact_quiet rfl trivial⟩
  case gotSize =>
    split at ht
    · next hholding =>
        obtain rfl := Option.some.inj ht
        simp only [hholding] at hin
        refine ⟨⟨?_, h.accepted, h.rejected, ?_⟩, coordsExact_quiet rfl trivial⟩
        · simpa [ConPtyPair.InStep] using hin
        · rw [List.forall_mem_cons]
          exact ⟨by rw [hin, Inner.getSize], h.sizes⟩
    · cases ht

/-- The same before the ConPTY is open. -/
theorem step_sound {s t : ConPtyWorld F H} (h : CacheSound s) {e : ConPtyEvent F H}
    (ht : s.step e = some t) : CacheSound t ∧ (CoordsExact t ↔ CoordsExact s ∧ e.Fits) := by
  unfold ConPtyWorld.step at ht
  split at ht
  · next p hp => exact stepOpen_sound h hp ht
  · split at ht
    · obtain rfl := Option.some.inj ht
      exact openpty_sound h _ _
    · cases ht

/-! ## Whole runs -/

/-- **When the cached size tracks the console.** Along every run from the opening, with resizes and
reads through any clones and every pattern of answers of the system: the console is given the columns
and rows that were asked for, a resize stores its size exactly if the console accepts it and returns
an error if not, and `get_size` returns the size that the console accepted last, if and only if all
sizes that the console is asked for fit into a `SHORT`.
Source: `win/conpty.rs` `open_conpty`, `Inner::resize`, `MasterPty for ConPtyMasterPty` -/
theorem size_tracks_console_iff {events : List (ConPtyEvent F H)} {s : ConPtyWorld F H}
    (hrun : exec ConPtyWorld.step .unopened events = some s) :
    Tracks s ↔ ∀ e ∈ events, e.Fits := by
  have hsound : CacheSound (.unopened : ConPtyWorld F H) := ⟨nofun, nofun, nofun, nofun⟩
  have hexact : CoordsExact (.unopened : ConPtyWorld F H) := nofun
  have hcoords : CoordsExact s ↔ ∀ e ∈ events, e.Fits := by
    rw [exec_iff_along (fun _ _ _ hI ht => step_sound hI ht) hsound hrun, along_label_iff hrun]
    exact and_iff_right hexact
  have hs : CacheSound s := exec_invariant (fun _ _ _ hI ht => (step_sound hI ht).1) hsound hrun
  rw [← hcoords]
  exact ⟨Tracks.coords, fun h => ⟨h, hs.accepted, hs.rejected, hs.sizes⟩⟩

/-- Pipes and a console that the system gives. -/
def openAnswers : OpenAnswers ℕ ℕ where
  stdin := .ok { read := 10, write := 11 }
  stdout := .ok { read := 12, write := 13 }
  create := (sOk, 14)

/-- The size of `PtySize::default()`, and another one. -/
def plainSize : PtySize := { rows := 24, cols := 80, pixelWidth := 0, pixelHeight := 0 }

def widerSize : PtySize := { rows := 30, cols := 100, pixelWidth := 0, pixelHeight := 0 }

/-- A resize through a clone that the console accepts, one through the first master that it rejects
with `E_FAIL`, and a read through the clone. -/
def fittingRun : List (ConPtyEvent ℕ ℕ) :=
  [.openpty plainSize openAnswers, .clone 0, .resize 1 widerSize, .console sOk, .resized,
    .resize 0 plainSize, .console (-2147467259), .resized, .getSize 1, .gotSize]

/-- The cached size tracks the console in that run, whose `get_size` returns the accepted size. -/
theorem size_tracks_console_fitting :
    ∃ s, exec ConPtyWorld.step .unopened fittingRun = some s ∧
      s.sizes.map (·.accepted) = [widerSize] ∧ Tracks s := by
  refine ⟨_, rfl, rfl, (@size_tracks_console_iff _ _ fittingRun _ rfl).mpr ?_⟩
  have hplain : FitsShort plainSize := by decide
  have hwider : FitsShort widerSize := by decide
  simp [fittingRun, ConPtyEvent.Fits, hplain, hwider]

/-- 40000 columns, above the range of a `SHORT`. -/
def wideSize : PtySize := { rows := 24, cols := 40000, pixelWidth := 0, pixelHeight := 0 }

/-- Opening the ConPTY with 40000 columns asks the console for -25536 of them. -/
theorem wide_size_wraps :
    ∃ s, exec ConPtyWorld.step .unopened
        [(.openpty wideSize openAnswers : ConPtyEvent ℕ ℕ)] = some s ∧
      s.passed = [{ size := wideSize, coord := { x := -25536, y := 24 } }] ∧ ¬ Tracks s := by
  refine ⟨_, rfl, rfl, fun h => ?_⟩
  have hexact := h.coords _ List.mem_cons_self
  exact absurd hexact.1 (by decide)

end SysprimsPty.Master
