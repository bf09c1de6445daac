import Mathlib.Data.List.Basic

/-!
# Named strings

A table of names and values over an arbitrary alphabet, written in any order as strings of a name, a
separator and a value, and searched for the first string that begins with a name and the separator.

* `namedString`, `searchNamed` — a string of the table, and the search.
* `namedString_eq_iff` — a string can be read as one of any of its separators.
* `searchNamed_exact_iff` — the search gives what the table holds, in every order, exactly if every
  such reading is held.
-/

namespace SysprimsPty.Found

variable {α : Type*} (sep : α)

/-- The string of a name and a value. -/
def namedString (entry : List α × List α) : List α := entry.1 ++ sep :: entry.2

variable {sep}

/-- A string read at a separator: at the one after its name, or at one inside the name. -/
theorem namedString_eq_iff {name value key held : List α} (hname : sep ∉ name) :
    namedString sep (key, held) = namedString sep (name, value) ↔
      (key = name ∧ held = value) ∨
        ∃ rest, key = name ++ sep :: rest ∧ value = namedString sep (rest, held) := by
  simp only [namedString, List.append_eq_append_iff]
  constructor
  · rintro (⟨as, hkey, hheld⟩ | ⟨bs, hkey, hvalue⟩)
    · rcases as with _ | ⟨a, as⟩
      · obtain ⟨-, rfl⟩ := List.cons.inj hheld
        exact .inl ⟨by simpa using hkey.symm, rfl⟩
      · obtain ⟨rfl, -⟩ := List.cons.inj hheld
        exact absurd (by simp [hkey]) hname
    · rcases bs with _ | ⟨b, bs⟩
      · obtain ⟨-, rfl⟩ := List.cons.inj hvalue
        exact .inl ⟨by simpa using hkey, rfl⟩
      · obtain ⟨rfl, rfl⟩ := List.cons.inj hvalue
        exact .inr ⟨bs, hkey, rfl⟩
  · rintro (⟨rfl, rfl⟩ | ⟨rest, rfl, rfl⟩)
    · exact .inl ⟨[], by simp⟩
    · exact .inr ⟨sep :: rest, by simp⟩

variable [DecidableEq α] (sep)

/-- What stands after `name` and the separator, if the string begins with them. -/
def valueOf (name string : List α) : Option (List α) :=
  if name ++ [sep] <+: string then some (string.drop (name.length + 1)) else none

/-- The value in the first string that begins with `name` and the separator. -/
def searchNamed (strings : List (List α)) (name : List α) : Option (List α) :=
  strings.findSome? (valueOf sep name)

variable {sep}

/-- A string has the value that makes it one of `name`. -/
theorem valueOf_eq_some_iff {name string value : List α} :
    valueOf sep name string = some value ↔ string = namedString sep (name, value) := by
  unfold valueOf namedString
  constructor
  · intro h
    split_ifs at h with hbegins
    obtain ⟨rest, rfl⟩ := hbegins
    have hdrop : (name ++ [sep] ++ rest).drop (name.length + 1) = rest :=
      List.drop_left' (by simp)
    rw [hdrop] at h
    obtain rfl := Option.some.inj h
    simp
  · rintro rfl
    have hbegins : name ++ [sep] <+: name ++ sep :: value := ⟨value, by simp⟩
    have hdrop : (name ++ sep :: value).drop (name.length + 1) = value := by
      rw [List.append_cons]
      exact List.drop_left' (by simp)
    rw [if_pos hbegins, hdrop]

/-- **When a search gives what the table holds.** For a table that `held` looks up, every order of its
strings and every name that is asked for, the search gives the value of the name exactly if a value is
held wherever a longer name can be read as a name that is asked for. -/
theorem searchNamed_exact_iff {entries : List (List α × List α)} {held : List α → Option (List α)}
    (hheld : ∀ name value, (name, value) ∈ entries ↔ held name = some value) {asked : List α → Prop}
    (hasked : ∀ name, asked name → sep ∉ name) :
    (∀ order : List (List α × List α), order.Perm entries → ∀ name, asked name →
        searchNamed sep (order.map (namedString sep)) name = held name) ↔
      ∀ name rest value, asked name → held (name ++ sep :: rest) = some value →
        held name = some (namedString sep (rest, value)) := by
  constructor
  · intro hexact name rest value hname hlonger
    -- the longer name comes first
    have hmem := (hheld _ _).mpr hlonger
    rw [← hexact _ (List.perm_cons_erase hmem).symm name hname, List.map_cons]
    have hvalue : valueOf sep name (namedString sep (name ++ sep :: rest, value)) =
        some (namedString sep (rest, value)) := by
      rw [valueOf_eq_some_iff, namedString_eq_iff (hasked name hname)]
      exact .inr ⟨rest, rfl, rfl⟩
    exact (List.findSome?_cons_of_isSome (by rw [hvalue]; rfl)).trans hvalue
  · intro hreadings order horder name hname
    rcases hsearch : searchNamed sep (order.map (namedString sep)) name with _ | value
    · rcases hvalue : held name with _ | value
      · rfl
      · have hmem := horder.mem_iff.mpr ((hheld name value).mpr hvalue)
        have hnone := List.findSome?_eq_none_iff.mp hsearch _ (List.mem_map_of_mem hmem)
        rw [valueOf_eq_some_iff.mpr rfl] at hnone
        cases hnone
    · obtain ⟨string, hstring, hvalue⟩ := List.exists_of_findSome?_eq_some hsearch
      obtain ⟨⟨key, text⟩, hentry, rfl⟩ := List.mem_map.mp hstring
      have hkey := (hheld key text).mp (horder.mem_iff.mp hentry)
      rcases (namedString_eq_iff (hasked name hname)).mp (valueOf_eq_some_iff.mp hvalue) with
        ⟨rfl, rfl⟩ | ⟨rest, rfl, rfl⟩
      · exact hkey.symm
      · exact (hreadings name rest text hname hkey).symm

end SysprimsPty.Found
