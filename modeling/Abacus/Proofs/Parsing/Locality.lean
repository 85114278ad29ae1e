import Abacus.Proofs.Parsing.Discipline

namespace Abacus

open ParseM

-- Two sources, and how much further on the text that they share stands in the first one.
structure Move where
  first : Source
  second : Source
  distance : Int

namespace Move

variable {move : Move}

-- The same text, in each of the sources.
structure Views (move : Move) (view view' : View) : Prop where
  first : view.source = move.first
  second : view'.source = move.second
  pos : (view.pos : Int) = view'.pos + move.distance
  stop : (view.stop : Int) = view'.stop + move.distance
  chars : view.chars = view'.chars

-- The same match, up to the place. A success has no offset of a failure.
structure Matches (move : Move) (result result' : Match) : Prop where
  value : result.value = result'.value
  rest : move.Views result.rest result'.rest
  start : result.start = result'.start + move.distance
  complaint : result.complaint = result'.complaint
  errorAt : result.failed = true → result.errorAt = result'.errorAt + move.distance
  noError : result.failed = false → result.errorAt < 0 ∧ result'.errorAt < 0

-- The same is remembered of the same text.
def States (move : Move) (state state' : ParseState) : Prop :=
  ∀ rule view view', move.Views view view' →
    Option.Rel move.Matches state.memo[MemoKey.of rule view]? state'.memo[MemoKey.of rule view']?

theorem states_of_empty {state state' : ParseState} (h : state.memo = ∅) (h' : state'.memo = ∅) :
    move.States state state' := by
  intro rule view view' _
  have hnone : ∀ key : MemoKey, (∅ : MemoTable)[key]? = none := fun key => by simp
  rw [h, h', hnone, hnone]
  exact .none

namespace Views

variable {view view' other other' : View}

-- A part of one source, and another source that consists of it.
theorem whole {source : Source} (h : source.chars = view.chars) :
    Views ⟨view.source, source, view.pos⟩ view (.whole source) where
  first := rfl
  second := rfl
  pos := by simp [View.whole]
  stop := by
    have hsize : source.size = view.size := by
      rw [← Source.length_chars, h, View.length_chars]
    have := view.ordered
    simp only [View.whole, View.size] at *
    omega
  chars := by rw [View.chars_whole, h]

-- The same text at the same place of two sources.
theorem samePlace (hpos : view.pos = view'.pos) (hstop : view.stop = view'.stop)
    (hchars : view.chars = view'.chars) : Views ⟨view.source, view'.source, 0⟩ view view' where
  first := rfl
  second := rfl
  pos := by simp [hpos]
  stop := by simp [hstop]
  chars := hchars

theorem size_eq (h : move.Views view view') : view.size = view'.size := by
  rw [← View.length_chars, h.chars, View.length_chars]

theorem drop (h : move.Views view view') (count : Nat) :
    move.Views (view.drop count) (view'.drop count) where
  first := h.first
  second := h.second
  pos := by
    have := h.pos
    have := h.stop
    simp only [View.drop]
    omega
  stop := h.stop
  chars := by rw [View.chars_drop, View.chars_drop, h.chars]

theorem take (h : move.Views view view') (count : Nat) :
    move.Views (view.take count) (view'.take count) where
  first := h.first
  second := h.second
  pos := h.pos
  stop := by
    have := h.pos
    have := h.stop
    simp only [View.take]
    omega
  chars := by rw [View.chars_take, View.chars_take, h.chars]

-- In either source the text stands in one place only.
theorem eq_iff (h : move.Views view view') (hother : move.Views other other') :
    view = other ↔ view' = other' := by
  have hpos := h.pos
  have hstop := h.stop
  have hpos' := hother.pos
  have hstop' := hother.stop
  constructor
  · rintro rfl
    cases view'
    cases other'
    simp only [View.mk.injEq]
    exact ⟨h.second.trans hother.second.symm, by simp at *; omega, by simp at *; omega⟩
  · rintro rfl
    cases view
    cases other
    simp only [View.mk.injEq]
    exact ⟨h.first.trans hother.first.symm, by simp at *; omega, by simp at *; omega⟩

end Views

namespace Matches

variable {view view' : View} {result result' second second' : Match}

theorem failed_eq (h : move.Matches result result') : result.failed = result'.failed := by
  rw [Match.failed, Match.failed, h.value]

theorem failureAt (h : move.Views view view') (complaint : Complaint) {offset offset' : Int}
    (hoffset : offset = offset' + move.distance) :
    move.Matches (.failureAt view complaint offset) (.failureAt view' complaint offset') where
  value := rfl
  rest := h
  start := h.pos
  complaint := rfl
  errorAt _ := hoffset
  noError hok := by cases hok

theorem failure (h : move.Views view view') (complaint : Complaint) :
    move.Matches (.failure view complaint) (.failure view' complaint) :=
  failureAt h complaint h.pos

theorem rebase (h : move.Views view view') (hresult : move.Matches result result')
    (hf : result.failed = true) : move.Matches (result.rebase view) (result'.rebase view') := by
  rw [Match.rebase, Match.rebase, hresult.complaint]
  exact failureAt h _ (hresult.errorAt hf)

theorem success {start start' : Int} (h : move.Views view view')
    (hstart : start = start' + move.distance) (value : Value) :
    Outcomes move.Matches (Match.success value start view) (Match.success value start' view') := by
  unfold Match.success
  split
  · exact .error _ _
  · next habsent =>
    have hnone : (-1 : Int) < 0 := by decide
    exact .ok ⟨rfl, h, hstart, rfl, fun hf => absurd hf habsent, fun _ => ⟨hnone, hnone⟩⟩

theorem merge (h : move.Matches result result') (hsecond : move.Matches second second')
    (combine : Combiner) :
    Outcomes move.Matches (result.merge combine second) (result'.merge combine second') := by
  rw [Match.merge, Match.merge, h.value, hsecond.value]
  cases combine result'.value second'.value with
  | error fault => exact .error _ _
  | ok value => exact success hsecond.rest h.start value

end Matches

end Move

namespace Parser

variable {move : Move} {p p' q q' : Parser} {combine : Combiner}

-- On the same text in two places, the parsers come to the same match up to the place.
def Alike (move : Move) (p p' : Parser) : Prop :=
  ∀ view view', move.Views view view' → ParseM.Alike move.States move.Matches (p view) (p' view')

namespace Alike

theorem always (value : Value) : Alike move (Parser.always value) (Parser.always value) :=
  fun _ _ hview => .lift (Move.Matches.success hview hview.pos value)

theorem never (complaint : Complaint) :
    Alike move (Parser.never complaint) (Parser.never complaint) :=
  fun _ _ hview => .pure (.failure hview complaint)

theorem satisfy (suits : Char → Bool) (expected : String) :
    Alike move (Parser.satisfy suits expected) (Parser.satisfy suits expected) := by
  intro view view' hview
  unfold Parser.satisfy
  rw [View.next?_eq, View.next?_eq, hview.chars]
  cases view'.chars.head? with
  | none => exact .pure (.failure hview _)
  | some c =>
    simp only [Option.map_some]
    split
    · exact .lift (Move.Matches.success (hview.drop 1) hview.pos _)
    · exact .pure (.failure hview _)

theorem notAhead (h : Alike move p p') : Alike move (Parser.notAhead p) (Parser.notAhead p') := by
  intro view view' hview
  refine .bind (h view view' hview) fun result result' hresult => ?_
  rw [hresult.failed_eq]
  split
  · exact .lift (Move.Matches.success hview hview.pos _)
  · have hcount : result.rest.pos - view.pos = result'.rest.pos - view'.pos := by
      have := hresult.rest.pos
      have := hview.pos
      omega
    rw [hcount, View.text, View.text, (hview.take _).chars]
    exact .pure (.failure hview _)

theorem seq (h : Alike move p p') (h' : Alike move q q') :
    Alike move (Parser.seq p q combine) (Parser.seq p' q' combine) := by
  intro view view' hview
  refine .bind (h view view' hview) fun first first' hfirst => ?_
  rw [hfirst.failed_eq]
  split
  · next hf => exact .pure (.rebase hview hfirst (hfirst.failed_eq.trans hf))
  · refine .bind (h' _ _ hfirst.rest) fun second second' hsecond => ?_
    rw [hsecond.failed_eq]
    split
    · next hs => exact .pure (.rebase hview hsecond (hsecond.failed_eq.trans hs))
    · exact .lift (hfirst.merge hsecond combine)

theorem alt (h : Alike move p p') (h' : Alike move q q') :
    Alike move (Parser.alt p q) (Parser.alt p' q') := by
  intro view view' hview
  refine .bind (h view view' hview) fun first first' hfirst => ?_
  rw [hfirst.failed_eq]
  split
  · exact h' view view' hview
  · exact .pure hfirst

theorem both (h : Alike move p p') (h' : Alike move q q') :
    Alike move (Parser.both p q combine) (Parser.both p' q' combine) := by
  intro view view' hview
  refine .bind (h view view' hview) fun first first' hfirst => ?_
  rw [hfirst.failed_eq]
  split
  · next hf => exact .pure (.rebase hview hfirst (hfirst.failed_eq.trans hf))
  · refine .bind (h' view view' hview) fun second second' hsecond => ?_
    rw [hsecond.failed_eq]
    split
    · next hs => exact .pure (.rebase hview hsecond (hsecond.failed_eq.trans hs))
    · exact .lift (hfirst.merge hsecond combine)

theorem complete (h : Alike move p p') : Alike move (Parser.complete p) (Parser.complete p') := by
  intro view view' hview
  refine .bind (h view view' hview) fun result result' hresult => ?_
  have hempty : result.rest.isEmpty = result'.rest.isEmpty := by
    rw [Bool.eq_iff_iff, View.isEmpty_iff, View.isEmpty_iff, hresult.rest.size_eq]
  rw [hresult.failed_eq, hempty]
  split
  · exact .pure hresult
  · rw [View.text, View.text, hresult.rest.chars]
    exact .pure (.failureAt hview _ hresult.rest.pos)

theorem mapMatch {change : Match → Except Fault Match} (h : Alike move p p')
    (hchange : ∀ result result', move.Matches result result' →
      Outcomes move.Matches (change result) (change result')) :
    Alike move (Parser.mapMatch p change) (Parser.mapMatch p' change) := by
  intro view view' hview
  refine .bind (h view view' hview) fun result result' hresult => ?_
  rw [hresult.failed_eq]
  split
  · exact .pure hresult
  · exact .lift (hchange _ _ hresult)

theorem mapValue (h : Alike move p p') (change : Value → Except Fault Value) :
    Alike move (Parser.mapValue p change) (Parser.mapValue p' change) := by
  refine h.mapMatch fun result result' hresult => ?_
  rw [hresult.value]
  cases change result'.value with
  | error fault => exact .error _ _
  | ok value => exact Move.Matches.success hresult.rest hresult.start value

theorem reword (h : Alike move p p') (change : Complaint → Complaint) :
    Alike move (Parser.reword p change) (Parser.reword p' change) := by
  intro view view' hview
  refine .bind (h view view' hview) fun result result' hresult => ?_
  rw [hresult.failed_eq]
  split
  · exact .pure ⟨hresult.value, hresult.rest, hresult.start,
      congrArg change hresult.complaint, hresult.errorAt, hresult.noError⟩
  · exact .pure hresult

-- A result is remembered for one text only, in one place of each source.
theorem remember (rule : String) (h : Alike move p p') :
    Alike move (Parser.remember rule p) (Parser.remember rule p') := by
  intro view view' hview
  have hget : ParseM.Alike move.States move.States get get :=
    fun _ _ hstates => .ok ⟨hstates, hstates⟩
  refine .bind hget fun state state' hstates => ?_
  have hfound := hstates rule view view' hview
  generalize state.memo[MemoKey.of rule view]? = found at hfound ⊢
  generalize state'.memo[MemoKey.of rule view']? = found' at hfound ⊢
  cases hfound with
  | some hfound => exact .pure hfound
  | none =>
    refine .bind (h view view' hview) fun result result' hresult => ?_
    intro before before' hbefore
    refine .ok ⟨hresult, fun rule' other other' hother => ?_⟩
    simp only [Std.TreeMap.getElem?_insert, Std.LawfulEqCmp.compare_eq_iff_eq, MemoKey.of_inj,
      hview.eq_iff hother]
    split
    · exact .some hresult
    · exact hbefore rule' other other' hother

theorem watch (label : String) (h : Alike move p p') :
    Alike move (Parser.watch label p) (Parser.watch label p') := by
  intro view view' hview state state' hstates
  exact h view view' hview { state with attempts := ⟨label, view.pos, view.stop⟩ :: state.attempts }
    { state' with attempts := ⟨label, view'.pos, view'.stop⟩ :: state'.attempts } hstates

theorem stalled : Alike move Parser.stalled Parser.stalled := fun _ _ _ => .throw _ _

theorem repeatWithin (h : Alike move p p') (rounds : Nat) :
    Alike move (Parser.repeatWithin p combine rounds) (Parser.repeatWithin p' combine rounds) := by
  induction rounds with
  | zero => exact stalled
  | succ rounds ih => exact alt (seq h ih) h

theorem repeatUntilWithin (h : Alike move p p') (h' : Alike move q q') (rounds : Nat) :
    Alike move (Parser.repeatUntilWithin p q combine rounds)
      (Parser.repeatUntilWithin p' q' combine rounds) := by
  induction rounds with
  | zero => exact stalled
  | succ rounds ih => exact alt h' (seq h ih)

theorem many1 (h : Alike move p p') :
    Alike move (Parser.many1 p combine) (Parser.many1 p' combine) := by
  intro view view' hview
  rw [Parser.many1, Parser.many1, hview.size_eq]
  exact repeatWithin h (view'.size + 1) view view' hview

theorem manyTill (h : Alike move p p') (h' : Alike move q q') :
    Alike move (Parser.manyTill p q combine) (Parser.manyTill p' q' combine) := by
  intro view view' hview
  rw [Parser.manyTill, Parser.manyTill, hview.size_eq]
  exact repeatUntilWithin h h' (view'.size + 1) view view' hview

theorem searchSplits (h : Alike move p p') (h' : Alike move q q') {view view' : View}
    (hview : move.Views view view') (counts : List Nat) {last last' : Option Match}
    (hlast : Option.Rel (fun failure failure' =>
      move.Matches failure failure' ∧ failure.failed = true) last last') :
    ParseM.Alike move.States move.Matches
      (Parser.searchSplits p q combine view
        (counts.map fun count => (view.take count, view.drop count)) last)
      (Parser.searchSplits p' q' combine view'
        (counts.map fun count => (view'.take count, view'.drop count)) last') := by
  induction counts generalizing last last' with
  | nil =>
    cases hlast with
    | none => exact .pure (.failure hview _)
    | some hfailure => exact .pure (.rebase hview hfailure.1 hfailure.2)
  | cons count counts ih =>
    refine .bind (h' _ _ (hview.drop count)) fun second second' hsecond => ?_
    rw [hsecond.failed_eq]
    split
    · exact ih hlast
    · refine .bind (complete h _ _ (hview.take count)) fun first first' hfirst => ?_
      rw [hfirst.failed_eq]
      split
      · next hf => exact ih (.some ⟨hfirst, hfirst.failed_eq.trans hf⟩)
      · exact .lift (hfirst.merge hsecond combine)

theorem splitShortest (h : Alike move p p') (h' : Alike move q q') :
    Alike move (Parser.splitShortest p q combine) (Parser.splitShortest p' q' combine) := by
  intro view view' hview
  rw [Parser.splitShortest, Parser.splitShortest, View.splits, View.splits, hview.size_eq]
  exact searchSplits h h' hview _ .none

end Alike

end Parser

namespace Pattern

-- A change of matches that looks at offsets only to move them.
def Moves (change : Match → Except Fault Match) : Prop :=
  ∀ (move : Move) result result', move.Matches result result' →
    Outcomes move.Matches (change result) (change result')

-- No change of matches in the pattern looks at offsets otherwise.
def OffsetFree : Pattern → Prop
  | always _ | never _ | satisfy .. | call _ => True
  | mapMatch p change => p.OffsetFree ∧ Moves change
  | notAhead p | many1 p _ | complete p | remember _ p | mapValue p _ | reword p _ | watch _ p =>
      p.OffsetFree
  | seq p q _ | alt p q | both p q _ | manyTill p q _ | splitShortest p q _ =>
      p.OffsetFree ∧ q.OffsetFree

theorem offsetFree_of_not_changesMatches {p : Pattern} (hp : p.changesMatches = false) :
    p.OffsetFree := by
  induction p <;> simp_all [changesMatches, OffsetFree]

theorem alike_pattern {move : Move} {rules rules' : RuleName → Parser}
    (hrules : ∀ name, Parser.Alike move (rules name) (rules' name)) (p : Pattern)
    (hp : p.OffsetFree) : Parser.Alike move (p.parser rules) (p.parser rules') := by
  induction p with
  | always value => exact .always value
  | never complaint => exact .never complaint
  | satisfy suits expected => exact .satisfy suits expected
  | notAhead p ih => exact .notAhead (ih hp)
  | seq p q combine ihp ihq => exact .seq (ihp hp.1) (ihq hp.2)
  | alt p q ihp ihq => exact .alt (ihp hp.1) (ihq hp.2)
  | both p q combine ihp ihq => exact .both (ihp hp.1) (ihq hp.2)
  | many1 p combine ih => exact .many1 (ih hp)
  | manyTill body stop combine ihbody ihstop => exact .manyTill (ihbody hp.1) (ihstop hp.2)
  | complete p ih => exact .complete (ih hp)
  | splitShortest p q combine ihp ihq => exact .splitShortest (ihp hp.1) (ihq hp.2)
  | remember rule p ih => exact .remember rule (ih hp)
  | mapMatch p change ih => exact .mapMatch (ih hp.1) (hp.2 move)
  | mapValue p change ih => exact .mapValue (ih hp) change
  | reword p change ih => exact .reword (ih hp) change
  | watch label p ih => exact .watch label (ih hp)
  | call name => exact hrules name

end Pattern

namespace Rules

variable {move : Move} {rules : Rules}

def OffsetFree (rules : Rules) : Prop :=
  ∀ name body, rules.body? name = some body → body.OffsetFree

theorem KeepMatches.offsetFree (hrules : rules.KeepMatches) : rules.OffsetFree :=
  fun name body hbody => Pattern.offsetFree_of_not_changesMatches (hrules name body hbody)

theorem alike_runWithin (hrules : rules.OffsetFree) (depth : Nat) (name : RuleName) :
    Parser.Alike move (rules.runWithin depth name) (rules.runWithin depth name) := by
  induction depth generalizing name with
  | zero => exact .stalled
  | succ depth ih =>
    intro view view' hview
    unfold runWithin
    split
    · exact .throw _ _
    · next body hbody => exact body.alike_pattern ih (hrules name body hbody) view view' hview

-- As many calls may nest in one place as in the other.
theorem alike_run (hrules : rules.OffsetFree) {p : Pattern} (hp : p.OffsetFree) :
    Parser.Alike move (rules.run p) (rules.run p) := by
  intro view view' hview
  rw [run, run, depthFor, depthFor, hview.size_eq]
  exact p.alike_pattern (alike_runWithin hrules _) hp view view' hview

end Rules

end Abacus
