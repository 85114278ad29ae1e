import Abacus.Proofs.Parsing.Effects

namespace Abacus

namespace Pattern

-- The pattern that remembers nothing.
def plain : Pattern → Pattern
  | always value => always value
  | never complaint => never complaint
  | satisfy suits expected => satisfy suits expected
  | notAhead p => notAhead p.plain
  | seq p q combine => seq p.plain q.plain combine
  | alt p q => alt p.plain q.plain
  | both p q combine => both p.plain q.plain combine
  | many1 p combine => many1 p.plain combine
  | manyTill body stop combine => manyTill body.plain stop.plain combine
  | complete p => complete p.plain
  | splitShortest p q combine => splitShortest p.plain q.plain combine
  | remember _ p => p.plain
  | mapMatch p change => mapMatch p.plain change
  | mapValue p change => mapValue p.plain change
  | reword p change => reword p.plain change
  | watch label p => watch label p.plain
  | call rule => call rule

-- The patterns whose results are remembered, by the names under which they are.
def remembered : Pattern → List (String × Pattern)
  | always _ | never _ | satisfy .. | call _ => []
  | notAhead p | many1 p _ | complete p | mapMatch p _ | mapValue p _ | reword p _ | watch _ p =>
      p.remembered
  | seq p q _ | alt p q | both p q _ | manyTill p q _ | splitShortest p q _ =>
      p.remembered ++ q.remembered
  | remember rule p => (rule, p) :: p.remembered

-- Whether nothing is remembered or watched, but by the rules that are called.
def quiet : Pattern → Bool
  | always _ | never _ | satisfy .. | call _ => true
  | remember .. | watch .. => false
  | notAhead p | many1 p _ | complete p | mapMatch p _ | mapValue p _ | reword p _ => p.quiet
  | seq p q _ | alt p q | both p q _ | manyTill p q _ | splitShortest p q _ => p.quiet && q.quiet

theorem plain_plain (p : Pattern) : p.plain.plain = p.plain := by
  induction p <;> simp_all [plain]

theorem remembered_plain (p : Pattern) : p.plain.remembered = [] := by
  induction p <;> simp_all [plain, remembered]

theorem remembered_of_quiet {p : Pattern} (h : p.quiet = true) : p.remembered = [] := by
  induction p <;> simp_all [quiet, remembered]

end Pattern

namespace Rules

-- The rules that remember nothing.
def plain (rules : Rules) : Rules where
  expression := rules.expression.plain
  argument := rules.argument.plain
  arguments := rules.arguments.plain
  named := rules.named.map fun (name, p) => (name, p.plain)

theorem body?_plain (rules : Rules) (name : RuleName) :
    rules.plain.body? name = (rules.body? name).map Pattern.plain := by
  cases name with
  | expression => rfl
  | argument => rfl
  | arguments => rfl
  | named name =>
    simp only [body?, plain, ← List.map_reverse, List.find?_map, Option.map_map]
    rfl

-- Whether `p`, or a rule, remembers the results of `q` under `name`.
def Remembers (rules : Rules) (p : Pattern) (name : String) (q : Pattern) : Prop :=
  (name, q) ∈ p.remembered ∨
    ∃ rule body, rules.body? rule = some body ∧ (name, q) ∈ body.remembered

-- Every name stands for the results of one pattern only.
def NamesApart (rules : Rules) (p : Pattern) : Prop :=
  ∀ name q q', rules.Remembers p name q → rules.Remembers p name q' → q = q'

-- The results that a pattern gives, where calls may nest to some depth or other.
def Yields (rules : Rules) (p : Pattern) (view : View) (result : Match) : Prop :=
  ∃ depth before after, (p.parser (rules.runWithin depth) view).run before = .ok (result, after)

-- What the table holds is what is found without a table.
def Truthful (rules : Rules) (p : Pattern) (table : MemoTable) : Prop :=
  ∀ name q view result, rules.Remembers p name q → table[MemoKey.of name view]? = some result →
    rules.plain.Yields q.plain view result

theorem truthful_empty (rules : Rules) (p : Pattern) : rules.Truthful p ∅ := by
  intro name q view result _ h
  simp at h

end Rules

namespace Parser

def Simulates (related : ParseState → ParseState → Prop) (f g : Parser) : Prop :=
  ∀ view, ParseM.Simulates related (f view) (g view)

def Refines (good : ParseState → Prop) (f g : Parser) : Prop :=
  ∀ view, ParseM.Refines good (f view) (g view)

namespace Simulates

open ParseM

variable {related : ParseState → ParseState → Prop} {f f' g g' : Parser} {combine : Combiner}

theorem notAhead (h : Simulates related f g) :
    Simulates related (Parser.notAhead f) (Parser.notAhead g) := by
  intro view
  refine .bind (h view) fun result => ?_
  split
  · exact .lift _
  · exact .pure _

theorem seq (h : Simulates related f g) (h' : Simulates related f' g') :
    Simulates related (Parser.seq f f' combine) (Parser.seq g g' combine) := by
  intro view
  refine .bind (h view) fun first => ?_
  split
  · exact .pure _
  · refine .bind (h' first.rest) fun second => ?_
    split
    · exact .pure _
    · exact .lift _

theorem alt (h : Simulates related f g) (h' : Simulates related f' g') :
    Simulates related (Parser.alt f f') (Parser.alt g g') := by
  intro view
  refine .bind (h view) fun first => ?_
  split
  · exact h' view
  · exact .pure _

theorem both (h : Simulates related f g) (h' : Simulates related f' g') :
    Simulates related (Parser.both f f' combine) (Parser.both g g' combine) := by
  intro view
  refine .bind (h view) fun first => ?_
  split
  · exact .pure _
  · refine .bind (h' view) fun second => ?_
    split
    · exact .pure _
    · exact .lift _

theorem complete (h : Simulates related f g) :
    Simulates related (Parser.complete f) (Parser.complete g) := by
  intro view
  refine .bind (h view) fun result => ?_
  split <;> exact .pure _

theorem mapMatch (h : Simulates related f g) (change : Match → Except Fault Match) :
    Simulates related (Parser.mapMatch f change) (Parser.mapMatch g change) := by
  intro view
  refine .bind (h view) fun result => ?_
  split
  · exact .pure _
  · exact .lift _

theorem reword (h : Simulates related f g) (change : Complaint → Complaint) :
    Simulates related (Parser.reword f change) (Parser.reword g change) := by
  intro view
  refine .bind (h view) fun result => ?_
  split <;> exact .pure _

theorem repeatWithin (h : Simulates related f g) (rounds : Nat) :
    Simulates related (Parser.repeatWithin f combine rounds) (Parser.repeatWithin g combine rounds) := by
  induction rounds with
  | zero => exact fun _ => .throw _ _
  | succ rounds ih => exact alt (seq h ih) h

theorem repeatUntilWithin (h : Simulates related f g) (h' : Simulates related f' g') (rounds : Nat) :
    Simulates related (Parser.repeatUntilWithin f f' combine rounds)
      (Parser.repeatUntilWithin g g' combine rounds) := by
  induction rounds with
  | zero => exact fun _ => .throw _ _
  | succ rounds ih => exact alt h' (seq h ih)

theorem many1 (h : Simulates related f g) :
    Simulates related (Parser.many1 f combine) (Parser.many1 g combine) := fun view =>
  repeatWithin h (view.size + 1) view

theorem manyTill (h : Simulates related f g) (h' : Simulates related f' g') :
    Simulates related (Parser.manyTill f f' combine) (Parser.manyTill g g' combine) := fun view =>
  repeatUntilWithin h h' (view.size + 1) view

theorem searchSplits (h : Simulates related f g) (h' : Simulates related f' g') (view : View)
    (cuts : List (View × View)) (lastFailure : Option Match) :
    ParseM.Simulates related (Parser.searchSplits f f' combine view cuts lastFailure)
      (Parser.searchSplits g g' combine view cuts lastFailure) := by
  induction cuts generalizing lastFailure with
  | nil => cases lastFailure <;> exact .pure _
  | cons cut cuts ih =>
    obtain ⟨front, back⟩ := cut
    refine .bind (h' back) fun second => ?_
    split
    · exact ih lastFailure
    · refine .bind (complete h front) fun first => ?_
      split
      · exact ih (some first)
      · exact .lift _

theorem splitShortest (h : Simulates related f g) (h' : Simulates related f' g') :
    Simulates related (Parser.splitShortest f f' combine) (Parser.splitShortest g g' combine) :=
  fun view => searchSplits h h' view view.splits none

-- The log may differ, so related states have to stay related whatever is logged.
theorem watch (hlog : ∀ state before attempts attempts', related state before →
      related { state with attempts := attempts } { before with attempts := attempts' })
    (h : Simulates related f g) (label : String) :
    Simulates related (Parser.watch label f) (Parser.watch label g) := by
  intro view result before after hrun state hrelated
  let attempt : Attempt := ⟨label, view.pos, view.stop⟩
  exact h view result { before with attempts := attempt :: before.attempts } after hrun
    { state with attempts := attempt :: state.attempts } (hlog state before _ _ hrelated)

-- The first run may log what the second one does not.
theorem watched (hlog : ∀ state before attempts, related state before →
      related { state with attempts := attempts } before)
    (h : Simulates related f g) (label : String) :
    Simulates related (Parser.watch label f) g := by
  intro view result before after hrun state hrelated
  exact h view result before after hrun
    { state with attempts := ⟨label, view.pos, view.stop⟩ :: state.attempts }
    (hlog state before _ hrelated)

end Simulates

end Parser

namespace Pattern

-- It is enough that looking into the table is harmless for each pattern that is remembered.
theorem simulates_pattern {related : ParseState → ParseState → Prop}
    {rules rules' : RuleName → Parser}
    (hlog : ∀ state before attempts attempts', related state before →
      related { state with attempts := attempts } { before with attempts := attempts' })
    (hrules : ∀ name, Parser.Simulates related (rules name) (rules' name)) (p : Pattern)
    (hremember : ∀ name q, (name, q) ∈ p.remembered →
      Parser.Simulates related (q.parser rules) (q.plain.parser rules') →
      Parser.Simulates related (Parser.remember name (q.parser rules)) (q.plain.parser rules')) :
    Parser.Simulates related (p.parser rules) (p.plain.parser rules') := by
  induction p with
  | always value => exact fun _ => .lift _
  | never complaint => exact fun _ => .pure _
  | satisfy suits expected =>
    intro view
    change ParseM.Simulates related (Parser.satisfy suits expected view)
      (Parser.satisfy suits expected view)
    unfold Parser.satisfy
    split
    · exact .pure _
    · split
      · exact .lift _
      · exact .pure _
  | notAhead p ih => exact .notAhead (ih hremember)
  | seq p q combine ihp ihq =>
    exact .seq (ihp fun name q h => hremember name q (List.mem_append_left _ h))
      (ihq fun name q h => hremember name q (List.mem_append_right _ h))
  | alt p q ihp ihq =>
    exact .alt (ihp fun name q h => hremember name q (List.mem_append_left _ h))
      (ihq fun name q h => hremember name q (List.mem_append_right _ h))
  | both p q combine ihp ihq =>
    exact .both (ihp fun name q h => hremember name q (List.mem_append_left _ h))
      (ihq fun name q h => hremember name q (List.mem_append_right _ h))
  | many1 p combine ih => exact .many1 (ih hremember)
  | manyTill body stop combine ihbody ihstop =>
    exact .manyTill (ihbody fun name q h => hremember name q (List.mem_append_left _ h))
      (ihstop fun name q h => hremember name q (List.mem_append_right _ h))
  | complete p ih => exact .complete (ih hremember)
  | splitShortest p q combine ihp ihq =>
    exact .splitShortest (ihp fun name q h => hremember name q (List.mem_append_left _ h))
      (ihq fun name q h => hremember name q (List.mem_append_right _ h))
  | remember rule p ih =>
    exact hremember rule p List.mem_cons_self
      (ih fun name q h => hremember name q (List.mem_cons_of_mem _ h))
  | mapMatch p change ih => exact .mapMatch (ih hremember) change
  | mapValue p change ih => exact .mapMatch (ih hremember) _
  | reword p change ih => exact .reword (ih hremember) change
  | watch label p ih => exact .watch hlog (ih hremember) label
  | call name => exact hrules name

theorem refines_pattern {good : ParseState → Prop} {rules rules' : RuleName → Parser}
    (hlog : ∀ state attempts, good state → good { state with attempts := attempts })
    (hrules : ∀ name, Parser.Refines good (rules name) (rules' name)) (p : Pattern)
    (hremember : ∀ name q, (name, q) ∈ p.remembered →
      Parser.Refines good (q.parser rules) (q.plain.parser rules') →
      Parser.Refines good (Parser.remember name (q.parser rules)) (q.plain.parser rules')) :
    Parser.Refines good (p.parser rules) (p.plain.parser rules') :=
  simulates_pattern (fun state _ attempts _ => hlog state attempts) hrules p hremember

theorem refines_plain {rules rules' : RuleName → Parser}
    (hrules : ∀ name, Parser.Refines (fun _ => True) (rules name) (rules' name)) (p : Pattern) :
    Parser.Refines (fun _ => True) (p.plain.parser rules) (p.plain.parser rules') := by
  have hp := refines_pattern (fun _ _ _ => trivial) hrules p.plain (by simp [remembered_plain])
  rwa [plain_plain] at hp

end Pattern

namespace Rules

variable {rules : Rules}

-- A greater depth changes no result of rules that remember nothing.
theorem refines_plain_runWithin {depth depth' : Nat} (h : depth ≤ depth') (name : RuleName) :
    Parser.Refines (fun _ => True) (rules.plain.runWithin depth' name)
      (rules.plain.runWithin depth name) := by
  induction depth generalizing depth' name with
  | zero => exact fun _ => .throw _ _
  | succ depth ih =>
    obtain ⟨depth', rfl⟩ : ∃ n, depth' = n + 1 := ⟨depth' - 1, by omega⟩
    intro view
    simp only [runWithin, body?_plain]
    cases rules.body? name with
    | none => exact .throw _ _
    | some body => exact Pattern.refines_plain (ih (Nat.le_of_succ_le_succ h)) body view

theorem refines_plain_pattern {depth depth' : Nat} (h : depth ≤ depth') (p : Pattern) :
    Parser.Refines (fun _ => True) (p.plain.parser (rules.plain.runWithin depth'))
      (p.plain.parser (rules.plain.runWithin depth)) :=
  Pattern.refines_plain (refines_plain_runWithin h) p

-- Without a table a view has one result, whatever the depth and the state.
theorem Yields.unique {p : Pattern} {view : View} {result result' : Match}
    (h : rules.plain.Yields p.plain view result) (h' : rules.plain.Yields p.plain view result') :
    result = result' := by
  obtain ⟨depth, before, after, hrun⟩ := h
  obtain ⟨depth', before', after', hrun'⟩ := h'
  have hleft := refines_plain_pattern (Nat.le_max_left depth depth') p view result before after
    hrun {} trivial
  have hright := refines_plain_pattern (Nat.le_max_right depth depth') p view result' before' after'
    hrun' {} trivial
  obtain ⟨left, hleft, -⟩ := hleft
  obtain ⟨right, hright, -⟩ := hright
  rw [hleft] at hright
  cases hright
  rfl

-- The table is looked into for the one pattern that its name stands for, and what is put there is
-- a result of that pattern for the view of its key.
theorem refines_remember {p : Pattern} (hapart : rules.NamesApart p) {depth : Nat}
    {name : String} {q : Pattern} (hq : rules.Remembers p name q)
    (h : Parser.Refines (fun state => rules.Truthful p state.memo)
      (q.parser (rules.runWithin depth)) (q.plain.parser (rules.plain.runWithin depth))) :
    Parser.Refines (fun state => rules.Truthful p state.memo)
      (Parser.remember name (q.parser (rules.runWithin depth)))
      (q.plain.parser (rules.plain.runWithin depth)) := by
  intro view result before after hrun state htruthful
  have hyields : rules.plain.Yields q.plain view result := ⟨depth, before, after, hrun⟩
  cases hfound : state.memo[MemoKey.of name view]? with
  | some found =>
    have hsame : found = result := (htruthful name q view found hq hfound).unique hyields
    exact ⟨state, Parser.run_remember_eq_ok.mpr (.inl ⟨hsame ▸ hfound, rfl⟩), htruthful⟩
  | none =>
    obtain ⟨between, hbetween, htruthful'⟩ := h view result before after hrun state htruthful
    refine ⟨{ between with memo := between.memo.insert (.of name view) result },
      Parser.run_remember_eq_ok.mpr (.inr ⟨hfound, between, hbetween, rfl⟩), ?_⟩
    intro name' q' view' result' hq' hresult'
    simp only [Std.TreeMap.getElem?_insert, Std.LawfulEqCmp.compare_eq_iff_eq,
      MemoKey.of_inj] at hresult'
    split at hresult'
    · next heq =>
      cases hresult'
      obtain ⟨rfl, rfl⟩ := heq
      exact hapart name q q' hq hq' ▸ hyields
    · exact htruthful' name' q' view' result' hq' hresult'

theorem refines_runWithin {p : Pattern} (hapart : rules.NamesApart p) (depth : Nat)
    (name : RuleName) :
    Parser.Refines (fun state => rules.Truthful p state.memo) (rules.runWithin depth name)
      (rules.plain.runWithin depth name) := by
  induction depth generalizing name with
  | zero => exact fun _ => .throw _ _
  | succ depth ih =>
    intro view
    simp only [runWithin, body?_plain]
    cases hbody : rules.body? name with
    | none => exact .throw _ _
    | some body =>
      exact Pattern.refines_pattern (fun _ _ htruthful => htruthful) ih body
        (fun _ _ hq => refines_remember hapart (.inr ⟨name, body, hbody, hq⟩)) view

theorem refines_pattern {p : Pattern} (hapart : rules.NamesApart p) (depth : Nat) :
    Parser.Refines (fun state => rules.Truthful p state.memo)
      (p.parser (rules.runWithin depth)) (p.plain.parser (rules.plain.runWithin depth)) :=
  Pattern.refines_pattern (fun _ _ htruthful => htruthful) (refines_runWithin hapart depth) p
    fun _ _ hq => refines_remember hapart (.inl hq)

end Rules

end Abacus
