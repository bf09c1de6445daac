import Mathlib.Data.List.Basic
import Mathlib.Data.Option.Basic

/-!
# Following paths

Names in a tree of directories with working directories, over an arbitrary alphabet with a
separator. A file system is given by what one directory says of one name, links included; a path is
followed from the root if it begins with the separator and from a working directory otherwise.

* `join`, `join_assoc` — a path under a directory.
* `FileSystem.resolve` — the node that a path denotes from a working directory.
* `resolve_join` — following a relative path from the directory that another path denotes is
  following the two joined.
* `resolve_absolute` — an absolute path denotes the same node everywhere.
-/

namespace SysprimsPty.Found

section join

variable {α : Type*} [DecidableEq α] (sep : α)

/-- A path that is followed from the root. -/
def isAbsolute (path : List α) : Bool := path.head? == some sep

/-- What separates a path from the base before it: nothing after the empty base and after one that
ends in a separator. -/
def gap (base : List α) : List α :=
  if base = [] ∨ base.getLast? = some sep then [] else [sep]

/-- `path` under `base`: an absolute path replaces the base. -/
def join (base path : List α) : List α :=
  if isAbsolute sep path then path else base ++ gap sep base ++ path

variable {sep}

theorem join_of_absolute {base path : List α} (h : isAbsolute sep path = true) :
    join sep base path = path := by
  rw [join, if_pos h]

theorem join_of_relative {base path : List α} (h : isAbsolute sep path = false) :
    join sep base path = base ++ gap sep base ++ path := by
  rw [join, h, if_neg Bool.false_ne_true]

/-- A base that is not empty ends in a separator once its gap is added. -/
theorem getLast?_append_gap {base : List α} (hne : base ≠ []) :
    (base ++ gap sep base).getLast? = some sep := by
  unfold gap
  split_ifs with h
  · rw [List.append_nil]
    exact h.resolve_left hne
  · simp

/-- The gap after a path depends on the path alone. -/
theorem gap_append {base path : List α} (hne : path ≠ []) :
    gap sep (base ++ path) = gap sep path := by
  have hlast : (base ++ path).getLast? = path.getLast? := by
    rw [List.getLast?_append_of_ne_nil _ hne]
  simp [gap, hlast, hne]

/-- After a gap there is no gap. -/
theorem gap_append_gap (base : List α) : gap sep (base ++ gap sep base) = [] := by
  by_cases hne : base = []
  · simp [hne, gap]
  · rw [gap, if_pos (.inr (getLast?_append_gap hne))]

/-- The empty base adds nothing. -/
@[simp] theorem nil_join (path : List α) : join sep [] path = path := by
  unfold join
  split_ifs
  · rfl
  · simp [gap]

/-- A path under an absolute base is absolute. -/
theorem isAbsolute_join {base path : List α} (h : isAbsolute sep base = true) :
    isAbsolute sep (join sep base path) = true := by
  unfold join
  split_ifs with hpath
  · exact hpath
  · cases base with
    | nil => cases h
    | cons c cs => exact h

/-- A relative path under a relative base is relative. -/
theorem isAbsolute_join_false {base path : List α} (hbase : isAbsolute sep base = false)
    (hpath : isAbsolute sep path = false) : isAbsolute sep (join sep base path) = false := by
  cases base with
  | nil => rwa [nil_join]
  | cons c cs =>
      rw [join_of_relative hpath]
      exact hbase

/-- A path under a base that is not empty contains the separator. -/
theorem sep_mem_join {base path : List α} (hne : base ≠ []) : sep ∈ join sep base path := by
  unfold join
  split_ifs with hpath
  · exact List.mem_of_head? (beq_iff_eq.mp hpath)
  · exact List.mem_append_left path (List.mem_of_getLast? (getLast?_append_gap hne))

/-- Joining is associative. -/
theorem join_assoc (a b c : List α) :
    join sep (join sep a b) c = join sep a (join sep b c) := by
  cases hc : isAbsolute sep c with
  | true => rw [join_of_absolute hc, join_of_absolute hc, join_of_absolute hc]
  | false =>
      cases hb : isAbsolute sep b with
      | true => rw [join_of_absolute hb, join_of_absolute (isAbsolute_join hb)]
      | false =>
          rw [join_of_relative hc, join_of_relative hb,
            join_of_relative (isAbsolute_join_false hb hc), join_of_relative hc]
          by_cases hne : b = []
          · rw [hne, List.append_nil, gap_append_gap]
            simp [gap]
          · rw [gap_append hne]
            simp only [List.append_assoc]

end join

/-- What is known of the nodes of a file system. -/
structure FileSystem (α N : Type*) where
  root : N
  isDir : N → Bool
  /-- The node that a name in a directory denotes after following links, `.` and `..` included. -/
  lookup : N → List α → Option N

variable {α N : Type*} [DecidableEq α] {sep : α}

namespace FileSystem

/-- Follow one segment; an empty one, as between two separators, needs a directory and stays. -/
def follow (fs : FileSystem α N) (n : N) (segment : List α) : Option N :=
  if segment = [] then if fs.isDir n then some n else none else fs.lookup n segment

/-- Follow a path whose first segment has been read up to `segment`. -/
def walk (sep : α) (fs : FileSystem α N) (n : N) (segment : List α) : List α → Option N
  | [] => fs.follow n segment
  | c :: path =>
      if c = sep then (fs.follow n segment).bind fun m => walk sep fs m [] path
      else walk sep fs n (segment ++ [c]) path

/-- The node that a path denotes from the working directory `cwd`; the empty path denotes none. -/
def resolve (sep : α) (fs : FileSystem α N) (cwd : N) (path : List α) : Option N :=
  if path = [] then none
  else fs.walk sep (if isAbsolute sep path then fs.root else cwd) [] path

variable (fs : FileSystem α N)

/-- A walk splits at every separator. -/
theorem walk_append_sep (n : N) (segment p q : List α) :
    fs.walk sep n segment (p ++ sep :: q) =
      (fs.walk sep n segment p).bind fun m => fs.walk sep m [] q := by
  induction p generalizing n segment with
  | nil => simp [walk]
  | cons c p ih =>
      rw [List.cons_append, walk, walk]
      split_ifs with hc
      · rw [Option.bind_assoc]
        exact congrArg _ (funext fun m => ih m [])
      · exact ih n (segment ++ [c])

/-- A walk that ends with a separator ends at a directory. -/
theorem walk_sep_end (n : N) (segment p : List α) :
    fs.walk sep n segment (p ++ [sep]) =
      (fs.walk sep n segment p).bind fun m => if fs.isDir m then some m else none := by
  rw [walk_append_sep]
  rfl

/-- An absolute path denotes the same node from everywhere. -/
theorem resolve_absolute {path : List α} (h : isAbsolute sep path = true) (n m : N) :
    fs.resolve sep n path = fs.resolve sep m path := by
  unfold resolve
  rw [if_pos h, if_pos h]

/-- A path that ends in a separator denotes a directory. -/
theorem isDir_of_resolve {path : List α} (h : path.getLast? = some sep) {cwd n : N}
    (hn : fs.resolve sep cwd path = some n) : fs.isDir n = true := by
  obtain ⟨front, rfl⟩ := List.getLast?_eq_some_iff.mp h
  rw [resolve, if_neg (by simp), walk_sep_end, Option.bind_eq_some_iff] at hn
  obtain ⟨m, -, hm⟩ := hn
  split_ifs at hm with hdir
  cases hm
  exact hdir

/-- **Changing directory.** From the directory that `base` denotes, a relative path denotes what
the joined path denotes from where `base` was followed. -/
theorem resolve_join {cwd d : N} {base path : List α} (hbase : fs.resolve sep cwd base = some d)
    (hne : path ≠ []) (hpath : isAbsolute sep path = false) :
    fs.resolve sep cwd (join sep base path) = fs.resolve sep d path := by
  have hbne : base ≠ [] := by
    rintro rfl
    simp [resolve] at hbase
  obtain ⟨front, hfront⟩ := List.getLast?_eq_some_iff.mp (@getLast?_append_gap _ _ sep _ hbne)
  have hhead : isAbsolute sep (join sep base path) = isAbsolute sep base := by
    rw [join_of_relative hpath]
    cases base with
    | nil => exact absurd rfl hbne
    | cons c cs => rfl
  have hjne : join sep base path ≠ [] := by
    rw [join_of_relative hpath]
    simp [hbne]
  rw [resolve, if_neg hjne, hhead, join_of_relative hpath, hfront, List.append_assoc,
    List.singleton_append, walk_append_sep]
  rw [resolve, if_neg hne, hpath, if_neg Bool.false_ne_true]
  -- the walk up to the last separator of the base ends where the base does
  suffices hwalk : fs.walk sep (if isAbsolute sep base then fs.root else cwd) [] front = some d by
    rw [hwalk]
    rfl
  rw [resolve, if_neg hbne] at hbase
  by_cases hgap : gap sep base = []
  · rw [hgap, List.append_nil] at hfront
    rw [hfront, walk_sep_end, Option.bind_eq_some_iff, ← hfront] at hbase
    obtain ⟨m, hm, hmd⟩ := hbase
    split_ifs at hmd
    cases hmd
    exact hm
  · have hsep : gap sep base = [sep] := by
      unfold gap at hgap ⊢
      split_ifs at hgap ⊢ with h
      · exact absurd rfl hgap
      · rfl
    rw [hsep] at hfront
    rw [← (List.append_inj' hfront rfl).1]
    exact hbase

end FileSystem

end SysprimsPty.Found
