import Abacus.Proofs.Parsing.Effects

namespace Abacus

theorem View.advance_eq_ok {view : View} {count : Nat} (h : count ≤ view.size) :
    view.advance count = .ok (view.drop count) := by
  have hrange : (0 : Int) ≤ count ∧ (count : Int) ≤ view.size := by omega
  rw [advance, if_pos hrange, Int.toNat_natCast]

theorem View.stopAt_eq_ok {view : View} {count : Nat} (h : count ≤ view.size) :
    view.stopAt (view.pos + count) = .ok (view.take count) := by
  have hrange : (view.pos : Int) ≤ view.pos + count ∧ (view.pos + count : Int) ≤ view.stop := by
    have := view.ordered
    simp only [size] at h
    omega
  have hcount : ((view.pos + count : Int) - view.pos).toNat = count := by omega
  rw [stopAt, if_pos hrange, hcount]

theorem Match.rebaseFailed_eq_ok {result : Match} (h : result.failed = true) (input : View) :
    rebaseFailed input result = .ok (rebase input result) := by
  rw [rebaseFailed, if_pos h]

namespace Asserting

def satisfy (suits : Char → Bool) (expected : String) : Parser := fun input =>
  match input.head? with
  | none => pure (.failure input .endOfInput)
  | some c =>
      if suits c then do
        Match.success (.str (String.singleton c)) input.pos (← input.advance 1)
      else pure (.failure input (.unsuitable c expected))

def seq (p q : Parser) (combine : Combiner) : Parser := fun input => do
  let first ← p input
  if first.failed then Match.rebaseFailed input first
  else
    let second ← q first.rest
    if second.failed then Match.rebaseFailed input second
    else first.merge combine second

def both (p q : Parser) (combine : Combiner) : Parser := fun input => do
  let first ← p input
  if first.failed then Match.rebaseFailed input first
  else
    let second ← q input
    if second.failed then Match.rebaseFailed input second
    else first.merge combine second

def repeatWithin (p : Parser) (combine : Combiner) : Nat → Parser
  | 0 => Parser.stalled
  | rounds + 1 => .alt (seq p (repeatWithin p combine rounds) combine) p

def repeatUntilWithin (body stop : Parser) (combine : Combiner) : Nat → Parser
  | 0 => Parser.stalled
  | rounds + 1 => .alt stop (seq body (repeatUntilWithin body stop combine rounds) combine)

def searchSplits (p q : Parser) (combine : Combiner) (input : View) :
    List Nat → Option Match → ParseM Match
  | [], none => pure (.failure input .noSplit)
  | [], some failure => Match.rebaseFailed input failure
  | count :: counts, lastFailure => do
      let second ← q (← input.advance count)
      if second.failed then searchSplits p q combine input counts lastFailure
      else
        let first ← Parser.complete p (← input.stopAt (input.pos + count))
        if first.failed then searchSplits p q combine input counts (some first)
        else first.merge combine second

def splitShortest (p q : Parser) (combine : Combiner) : Parser := fun input =>
  searchSplits p q combine input (List.range' 1 (input.size - 1)) none

theorem satisfy_eq (suits : Char → Bool) (expected : String) :
    satisfy suits expected = Parser.satisfy suits expected := by
  funext input
  unfold satisfy Parser.satisfy
  rw [View.head?, View.next?_eq]
  cases hchars : input.chars with
  | nil => rfl
  | cons c rest =>
    have hsize : 1 ≤ input.size := by
      rw [← View.length_chars, hchars]
      simp
    have hadvance : input.advance 1 = .ok (input.drop 1) := View.advance_eq_ok hsize
    simp only [List.head?_cons, Option.map_some, hadvance]
    rfl

theorem seq_eq (p q : Parser) (combine : Combiner) : seq p q combine = Parser.seq p q combine := by
  funext input
  refine bind_congr fun first => ?_
  split
  · next hf => rw [Match.rebaseFailed_eq_ok hf, ParseM.lift_ok]
  · refine bind_congr fun second => ?_
    split
    · next hf => rw [Match.rebaseFailed_eq_ok hf, ParseM.lift_ok]
    · rfl

theorem both_eq (p q : Parser) (combine : Combiner) :
    both p q combine = Parser.both p q combine := by
  funext input
  refine bind_congr fun first => ?_
  split
  · next hf => rw [Match.rebaseFailed_eq_ok hf, ParseM.lift_ok]
  · refine bind_congr fun second => ?_
    split
    · next hf => rw [Match.rebaseFailed_eq_ok hf, ParseM.lift_ok]
    · rfl

theorem repeatWithin_eq (p : Parser) (combine : Combiner) (rounds : Nat) :
    repeatWithin p combine rounds = Parser.repeatWithin p combine rounds := by
  induction rounds with
  | zero => rfl
  | succ rounds ih => rw [repeatWithin, Parser.repeatWithin, seq_eq, ih]

theorem repeatUntilWithin_eq (body stop : Parser) (combine : Combiner) (rounds : Nat) :
    repeatUntilWithin body stop combine rounds =
      Parser.repeatUntilWithin body stop combine rounds := by
  induction rounds with
  | zero => rfl
  | succ rounds ih => rw [repeatUntilWithin, Parser.repeatUntilWithin, seq_eq, ih]

-- Every cut lies within the input, and what is reported at the end is a failure.
theorem searchSplits_eq (p q : Parser) (combine : Combiner) (input : View) (counts : List Nat)
    (hcounts : ∀ count ∈ counts, count ≤ input.size) (lastFailure : Option Match)
    (hlast : ∀ failure ∈ lastFailure, failure.failed = true) :
    searchSplits p q combine input counts lastFailure =
      Parser.searchSplits p q combine input
        (counts.map fun count => (input.take count, input.drop count)) lastFailure := by
  induction counts generalizing lastFailure with
  | nil =>
    cases lastFailure with
    | none => rfl
    | some failure =>
      rw [searchSplits, Match.rebaseFailed_eq_ok (hlast failure rfl)]
      rfl
  | cons count counts ih =>
    have hcount := hcounts count List.mem_cons_self
    have hrest := fun other h => hcounts other (List.mem_cons_of_mem _ h)
    simp only [searchSplits, View.advance_eq_ok hcount, View.stopAt_eq_ok hcount, ParseM.lift_ok,
      pure_bind, List.map_cons, Parser.searchSplits]
    refine bind_congr fun second => ?_
    split
    · exact ih hrest lastFailure hlast
    · refine bind_congr fun first => ?_
      split
      · next hf =>
        refine ih hrest (some first) fun failure h => ?_
        cases h
        exact hf
      · rfl

theorem splitShortest_eq (p q : Parser) (combine : Combiner) :
    splitShortest p q combine = Parser.splitShortest p q combine := by
  funext input
  refine searchSplits_eq p q combine input _ (fun count h => ?_) none fun _ h => by cases h
  obtain ⟨_, hlast⟩ := List.mem_range'_1.mp h
  omega

end Asserting

namespace Pattern

-- What a pattern means where all assertions are made.
def asserting (rules : RuleName → Parser) : Pattern → View → ParseM Match
  | always value, input => Parser.always value input
  | never complaint, input => Parser.never complaint input
  | satisfy suits expected, input => Asserting.satisfy suits expected input
  | notAhead p, input => Parser.notAhead (p.asserting rules) input
  | seq p q combine, input => Asserting.seq (p.asserting rules) (q.asserting rules) combine input
  | alt p q, input => Parser.alt (p.asserting rules) (q.asserting rules) input
  | both p q combine, input => Asserting.both (p.asserting rules) (q.asserting rules) combine input
  | many1 p combine, input =>
      Asserting.repeatWithin (p.asserting rules) combine (input.size + 1) input
  | manyTill body stop combine, input =>
      Asserting.repeatUntilWithin (body.asserting rules) (stop.asserting rules) combine
        (input.size + 1) input
  | complete p, input => Parser.complete (p.asserting rules) input
  | splitShortest p q combine, input =>
      Asserting.splitShortest (p.asserting rules) (q.asserting rules) combine input
  | remember rule p, input => Parser.remember rule (p.asserting rules) input
  | mapMatch p change, input => Parser.mapMatch (p.asserting rules) change input
  | mapValue p change, input => Parser.mapValue (p.asserting rules) change input
  | reword p change, input => Parser.reword (p.asserting rules) change input
  | watch label p, input => Parser.watch label (p.asserting rules) input
  | call rule, input => rules rule input

-- Whatever the pattern and whatever the rules, no cut of a view and no failure is refused.
theorem asserting_eq (rules : RuleName → Parser) (p : Pattern) :
    p.asserting rules = p.parser rules := by
  induction p <;> funext input <;>
    simp only [asserting, parser, Asserting.satisfy_eq, Asserting.seq_eq, Asserting.both_eq,
      Asserting.repeatWithin_eq, Asserting.repeatUntilWithin_eq, Asserting.splitShortest_eq, *] <;>
    rfl

end Pattern

end Abacus
