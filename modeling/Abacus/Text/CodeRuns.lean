namespace Abacus.Text

-- The first and the last code point of each run, in increasing order.
abbrev CodeRuns := List (Nat × Nat)

def CodeRuns.contains (runs : CodeRuns) (c : Char) : Bool :=
  runs.any fun (first, last) => first ≤ c.toNat && c.toNat ≤ last

theorem CodeRuns.contains_iff (runs : CodeRuns) (c : Char) :
    runs.contains c ↔ ∃ run ∈ runs, run.1 ≤ c.toNat ∧ c.toNat ≤ run.2 := by
  simp [CodeRuns.contains]

end Abacus.Text
