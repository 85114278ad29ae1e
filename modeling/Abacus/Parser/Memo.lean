import Abacus.Match.Basic
import Std.Data.TreeMap

namespace Abacus

-- What a remembered result is found by: the name of its rule and the view it was asked for. A
-- source is part of the key, so that the results for one text are never taken for another.
structure MemoKey where
  rule : String
  pos : Nat
  stop : Nat
  source : Source
deriving DecidableEq

-- By name, then by text.
def Source.order : Source → Source → Ordering :=
  compareLex (compareOn Source.name)
    (compareLex (compareOn Source.text) (compareOn Source.marksMissingNewline))

instance : Std.TransCmp Source.order :=
  inferInstanceAs (Std.TransCmp (compareLex _ (compareLex _ _)))

instance : Std.LawfulEqCmp Source.order where
  eq_of_compare := by
    intro a b h
    cases a
    cases b
    simp only [Source.order, compareLex, Ordering.then_eq_eq, compareOn,
      Std.compare_eq_iff_eq] at h
    simp [h]

instance : Ord Source := ⟨Source.order⟩

instance : Std.TransOrd Source := inferInstanceAs (Std.TransCmp Source.order)

instance : Std.LawfulEqOrd Source := inferInstanceAs (Std.LawfulEqCmp Source.order)

-- By rule, then by beginning, then by end, then by source.
def MemoKey.order : MemoKey → MemoKey → Ordering :=
  compareLex (compareOn MemoKey.rule)
    (compareLex (compareOn MemoKey.pos)
      (compareLex (compareOn MemoKey.stop) (compareOn MemoKey.source)))

instance : Std.TransCmp MemoKey.order :=
  inferInstanceAs (Std.TransCmp (compareLex _ (compareLex _ (compareLex _ _))))

instance : Std.LawfulEqCmp MemoKey.order where
  eq_of_compare := by
    intro a b h
    cases a
    cases b
    simp only [MemoKey.order, compareLex, Ordering.then_eq_eq, compareOn,
      Std.compare_eq_iff_eq] at h
    simp [h]

namespace MemoKey

def of (rule : String) (view : View) : MemoKey := ⟨rule, view.pos, view.stop, view.source⟩

theorem of_inj {rule rule' : String} {view view' : View} :
    of rule view = of rule' view' ↔ rule = rule' ∧ view = view' := by
  cases view
  cases view'
  simp only [of, MemoKey.mk.injEq, View.mk.injEq]
  grind

end MemoKey

-- Rules that share a source share its table.
abbrev MemoTable := Std.TreeMap MemoKey Match MemoKey.order

end Abacus
