import Mathlib.Algebra.Order.Group.Multiset
import Mathlib.Logic.Function.Basic

/-!
# Handles and who holds them

A process names the objects of its operating system by handles. A handle is a number; the system
gives a number away again once it is closed, and a close by the wrong party, or a second close, hits
whatever the number denotes by then. Code that gives every handle one holder, which closes it once,
is right about that whatever the numbers are.

* `Custody table held` — the holders together hold exactly the open handles, each once, and know what
  each of them denotes. The multiset `held` is read as a separating conjunction of facts `h ↦ o`, so
  that handing a handle over is an equation of multisets.
* `Custody.opened`, `Custody.closed` — the rules of the two operations on the table; `Custody.opens`
  and `Custody.closes` are the same rules for holders whose handles are an equation away.
* `Custody.denotes` — a held handle denotes what its holder thinks.
* `Custody.not_open`, `Custody.empty_iff` — what is not held is not open: nothing leaks.
-/

namespace SysprimsPty.Found

variable {H O : Type*}

/-- What each open handle denotes. -/
abbrev HandleTable (H O : Type*) := H → Option O

/-- **The holders hold the open handles**: `(h, o)` is held once for each open handle `h`, where `o`
is the object that it denotes. -/
structure Custody (table : HandleTable H O) (held : Multiset (H × O)) : Prop where
  nodup : (held.map Prod.fst).Nodup
  open_iff : ∀ h o, table h = some o ↔ (h, o) ∈ held

/-- What the holder of at most one handle holds. -/
def holding (o : O) : Option H → Multiset (H × O)
  | none => 0
  | some h => {(h, o)}

@[simp] theorem holding_none (o : O) : holding o (none : Option H) = 0 := rfl

@[simp] theorem holding_some (o : O) (h : H) : holding o (some h) = {(h, o)} := rfl

theorem mem_holding {x o : O} {h : H} {held : Option H} :
    (h, x) ∈ holding o held ↔ held = some h ∧ x = o := by
  rcases held with _ | h'
  · simp
  · simp [eq_comm]

/-- The handles of a group of holders, with one of them set apart. -/
theorem map_eq_cons_erase {α : Type*} [DecidableEq α] {holders : Multiset α} {a : α}
    (hmem : a ∈ holders) (f : α → H × O) :
    holders.map f = f a ::ₘ (holders.erase a).map f := by
  conv_lhs => rw [← Multiset.cons_erase hmem, Multiset.map_cons]

variable {table : HandleTable H O} {held : Multiset (H × O)} {h : H} {o : O}

/-- A held handle denotes what its holder thinks. -/
theorem Custody.denotes (hc : Custody table held) (hmem : (h, o) ∈ held) : table h = some o :=
  (hc.open_iff h o).mpr hmem

/-- A handle that is not open is not held. -/
theorem Custody.free (hc : Custody table held) (hfree : table h = none) (o : O) :
    (h, o) ∉ held := by
  intro hmem
  have hopen := hc.denotes hmem
  rw [hfree] at hopen
  cases hopen

/-- An object that no held handle denotes is not open at all. -/
theorem Custody.not_open (hc : Custody table held) {x : O} (hnone : ∀ p ∈ held, p.2 ≠ x) (h : H) :
    table h ≠ some x := by
  intro hopen
  exact hnone _ ((hc.open_iff h x).mp hopen) rfl

/-- Where nothing is held, nothing is open. -/
theorem Custody.empty_iff : Custody table 0 ↔ table = fun _ => none := by
  constructor
  · intro hc
    funext h
    rcases hopen : table h with _ | o
    · rfl
    · have hmem := (hc.open_iff h o).mp hopen
      simp at hmem
  · rintro rfl
    exact ⟨by simp, by simp⟩

variable [DecidableEq H]

/-- The system opens the number `h` for the object `o`. -/
def HandleTable.opened (table : HandleTable H O) (h : H) (o : O) : HandleTable H O :=
  Function.update table h (some o)

/-- The number `h` is closed. -/
def HandleTable.closed (table : HandleTable H O) (h : H) : HandleTable H O :=
  Function.update table h none

/-- **The rule of opening**: the system gives out a number that is not open. -/
theorem Custody.opened (hc : Custody table held) (hfree : table h = none) (o : O) :
    Custody (table.opened h o) ((h, o) ::ₘ held) := by
  refine ⟨?_, fun h' o' => ?_⟩
  · rw [Multiset.map_cons, Multiset.nodup_cons]
    refine ⟨fun hmem => ?_, hc.nodup⟩
    obtain ⟨⟨h', o'⟩, hheld, rfl⟩ := Multiset.mem_map.mp hmem
    exact hc.free hfree o' hheld
  · unfold HandleTable.opened
    rw [Multiset.mem_cons, Prod.mk.injEq]
    by_cases heq : h' = h
    · obtain rfl := heq
      rw [Function.update_self, Option.some.injEq]
      have hnot := hc.free hfree o'
      constructor
      · rintro rfl
        exact .inl ⟨rfl, rfl⟩
      · rintro (⟨-, rfl⟩ | hmem)
        · rfl
        · exact absurd hmem hnot
    · rw [Function.update_of_ne heq, hc.open_iff]
      simp [heq]

/-- **The rule of closing**: the holder of a handle closes it. -/
theorem Custody.closed (hc : Custody table ((h, o) ::ₘ held)) : Custody (table.closed h) held := by
  have hnodup := hc.nodup
  rw [Multiset.map_cons, Multiset.nodup_cons] at hnodup
  obtain ⟨hnot, hrest⟩ := hnodup
  refine ⟨hrest, fun h' o' => ?_⟩
  unfold HandleTable.closed
  by_cases heq : h' = h
  · obtain rfl := heq
    rw [Function.update_self]
    constructor
    · intro hnone
      cases hnone
    · intro hmem
      exact absurd (Multiset.mem_map_of_mem Prod.fst hmem) hnot
  · rw [Function.update_of_ne heq, hc.open_iff]
    simp [heq]

/-- A closed number is free. -/
@[simp] theorem HandleTable.closed_self (table : HandleTable H O) (h : H) : table.closed h h = none :=
  Function.update_self _ _ _

/-- An open handle comes to denote another object. -/
theorem Custody.replaced (hc : Custody table ((h, o) ::ₘ held)) (o' : O) :
    Custody (table.opened h o') ((h, o') ::ₘ held) := by
  have hnew := hc.closed.opened (table.closed_self h) o'
  rwa [HandleTable.opened, HandleTable.closed, Function.update_idem] at hnew

/-- The rule of opening, for a new holder. -/
theorem Custody.opens (hc : Custody table held) (hfree : table h = none)
    {held' : Multiset (H × O)} (hnew : held' = (h, o) ::ₘ held) : Custody (table.opened h o) held' := by
  rw [hnew]
  exact hc.opened hfree o

/-- The rule of closing, by one of the holders. -/
theorem Custody.closes (hc : Custody table held) {held' : Multiset (H × O)}
    (hold : held = (h, o) ::ₘ held') : Custody (table.closed h) held' := by
  rw [hold] at hc
  exact hc.closed

/-- A handle of a number that is not open leaves the other handles as they are. -/
theorem HandleTable.opened_of_ne (table : HandleTable H O) {h h' : H} (hne : h' ≠ h) (o : O) :
    table.opened h o h' = table h' :=
  Function.update_of_ne hne _ _

end SysprimsPty.Found
