import Abacus.Proofs.Parsing.Assertions
import Abacus.Proofs.Parsing.Reads

namespace Abacus

-- What is asked of two payloads that are combined, of one that is changed, and of what comes of it.
structure Requirements where
  combines : Combiner → Value → Value → Prop
  changes : (Value → Except Fault Value) → Value → Prop
  makes : Value → Prop

namespace Requirements

open Classical in
noncomputable def require (holds : Prop) : Except Fault Unit :=
  if holds then .ok () else .error (.raised "AssertionError" "")

variable (asked : Requirements)

noncomputable def combiner (combine : Combiner) : Combiner := fun left right => do
  require (asked.combines combine left right)
  let value ← combine left right
  require (asked.makes value)
  return value

noncomputable def changer (change : Value → Except Fault Value) : Value → Except Fault Value :=
  fun value => do
    require (asked.changes change value)
    let changed ← change value
    require (asked.makes changed)
    return changed

variable {asked}

theorem require_eq_ok {holds : Prop} (h : holds) : require holds = .ok () := if_pos h

theorem combiner_eq {combine : Combiner} {left right : Value}
    (h : asked.combines combine left right)
    (hmakes : ∀ value, combine left right = .ok value → asked.makes value) :
    asked.combiner combine left right = combine left right := by
  rw [combiner, require_eq_ok h]
  cases hvalue : combine left right with
  | error fault => rfl
  | ok value =>
    change (require (asked.makes value) >>= fun _ => pure value) = _
    rw [require_eq_ok (hmakes value hvalue)]
    rfl

theorem changer_eq {change : Value → Except Fault Value} {value : Value}
    (h : asked.changes change value)
    (hmakes : ∀ changed, change value = .ok changed → asked.makes changed) :
    asked.changer change value = change value := by
  rw [changer, require_eq_ok h]
  cases hchanged : change value with
  | error fault => rfl
  | ok changed =>
    change (require (asked.makes changed) >>= fun _ => pure changed) = _
    rw [require_eq_ok (hmakes changed hchanged)]
    rfl

end Requirements

namespace Parser

variable {p q : Parser} {combine combine' : Combiner} {described described' : Value → Prop}

-- Whatever the state, a success has a payload as described.
def Pays (p : Parser) (described : Value → Prop) : Prop :=
  ∀ view, ParseM.Ensures (fun _ => True) (p view) fun result =>
    result.failed = false → described result.value

def IsText (value : Value) : Prop := ∃ text, value = .str text

namespace Pays

theorem mono (h : p.Pays described) (himp : ∀ value, described value → described' value) :
    p.Pays described' := by
  intro view before result after hgood hrun
  obtain ⟨hresult, hgood'⟩ := h view before result after hgood hrun
  exact ⟨fun hok => himp _ (hresult hok), hgood'⟩

theorem of_reads {described : List Char → Value → Prop} (h : ∀ view, p.Reads view described) :
    p.Pays fun value => ∃ text, described text value := by
  intro view
  obtain ⟨result, hresult, hdescribed⟩ := (h view).exists_pure
  rw [hresult]
  refine .pure fun hok => ?_
  obtain ⟨text, -, -, htext⟩ := hdescribed hok
  exact ⟨text, htext⟩

theorem reword (hp : p.Pays described) (change : Complaint → Complaint) :
    (Parser.reword p change).Pays described := by
  intro view
  refine .bind (hp view) fun result hresult => ?_
  split
  · next hf => exact .pure fun hok => absurd hf (Bool.eq_false_iff.mp hok)
  · exact .pure hresult

theorem seq (hp : p.Pays described) (hq : q.Pays described) (h : ∀ left right value,
      described left → described right → combine left right = .ok value → described value) :
    (Parser.seq p q combine).Pays described := by
  intro view
  refine .bind (hp view) fun first hfirst => ?_
  split
  · exact .pure fun hok => by cases hok
  · next hf =>
    refine .bind (hq first.rest) fun second hsecond => ?_
    split
    · exact .pure fun hok => by cases hok
    · next hs =>
      refine .lift fun result hresult _ => ?_
      obtain ⟨value, hvalue, hsuccess⟩ := Match.exists_of_success hresult
      rw [(Match.value_and_rest_of_success hsuccess).1]
      exact h _ _ _ (hfirst (Bool.eq_false_iff.mpr hf)) (hsecond (Bool.eq_false_iff.mpr hs)) hvalue

theorem alt (hp : p.Pays described) (hq : q.Pays described) :
    (Parser.alt p q).Pays described := by
  intro view
  refine .bind (hp view) fun first hfirst => ?_
  split
  · exact hq view
  · exact .pure hfirst

theorem repeatWithin (hp : p.Pays described) (h : ∀ left right value,
      described left → described right → combine left right = .ok value → described value)
    (rounds : Nat) : (Parser.repeatWithin p combine rounds).Pays described := by
  induction rounds with
  | zero => exact fun _ => .throw _
  | succ rounds ih => exact alt (seq hp ih h) hp

end Pays

-- Combining otherwise makes no difference where the payloads that there are combine alike.
theorem seq_congr (hp : p.Pays described) (hq : q.Pays described') (h : ∀ left right,
      described left → described' right → combine left right = combine' left right) :
    seq p q combine = seq p q combine' := by
  funext view
  refine (hp view).bind_congr fun first hfirst => ?_
  split
  · rfl
  · next hf =>
    refine (hq first.rest).bind_congr fun second hsecond => ?_
    split
    · rfl
    · next hs =>
      rw [Match.merge, Match.merge, h _ _ (hfirst (Bool.eq_false_iff.mpr hf))
        (hsecond (Bool.eq_false_iff.mpr hs))]

theorem many1_congr (hp : p.Pays described) (hmakes : ∀ left right value,
      described left → described right → combine' left right = .ok value → described value)
    (h : ∀ left right, described left → described right →
      combine left right = combine' left right) :
    many1 p combine = many1 p combine' := by
  have hrounds : ∀ rounds, repeatWithin p combine rounds = repeatWithin p combine' rounds := by
    intro rounds
    induction rounds with
    | zero => rfl
    | succ rounds ih =>
      rw [repeatWithin, repeatWithin, ih, seq_congr hp (Pays.repeatWithin hp hmakes rounds) h]
  funext view
  exact congrFun (hrounds _) view

theorem mapValue_congr {change change' : Value → Except Fault Value} (hp : p.Pays described)
    (h : ∀ value, described value → change value = change' value) :
    mapValue p change = mapValue p change' := by
  funext view
  refine (hp view).bind_congr fun result hresult => ?_
  split
  · rfl
  · next hf => simp only [h _ (hresult (Bool.eq_false_iff.mpr hf))]

end Parser

namespace Pattern

-- The pattern that stops at a payload that is not as asked.
@[simp]
noncomputable def requiring (asked : Requirements) : Pattern → Pattern
  | always value => always value
  | never complaint => never complaint
  | satisfy suits expected => satisfy suits expected
  | notAhead p => notAhead (p.requiring asked)
  | seq p q combine => seq (p.requiring asked) (q.requiring asked) (asked.combiner combine)
  | alt p q => alt (p.requiring asked) (q.requiring asked)
  | both p q combine => both (p.requiring asked) (q.requiring asked) (asked.combiner combine)
  | many1 p combine => many1 (p.requiring asked) (asked.combiner combine)
  | manyTill body stop combine =>
      manyTill (body.requiring asked) (stop.requiring asked) (asked.combiner combine)
  | complete p => complete (p.requiring asked)
  | splitShortest p q combine =>
      splitShortest (p.requiring asked) (q.requiring asked) (asked.combiner combine)
  | remember rule p => remember rule (p.requiring asked)
  | mapMatch p change => mapMatch (p.requiring asked) change
  | mapValue p change => mapValue (p.requiring asked) (asked.changer change)
  | reword p change => reword (p.requiring asked) change
  | watch label p => watch label (p.requiring asked)
  | call rule => call rule

-- All payloads are as asked, whatever the rules are.
def Meets (asked : Requirements) (p : Pattern) : Prop :=
  ∀ rules, (p.requiring asked).parser rules = p.parser rules

namespace Meets

variable {asked : Requirements} {p q : Pattern} {combine : Combiner}

theorem notAhead (hp : p.Meets asked) : (notAhead p).Meets asked := by
  intro rules
  funext view
  simp only [requiring, parser, hp rules]

theorem alt (hp : p.Meets asked) (hq : q.Meets asked) : (alt p q).Meets asked := by
  intro rules
  funext view
  simp only [requiring, parser, hp rules, hq rules]

theorem complete (hp : p.Meets asked) : (complete p).Meets asked := by
  intro rules
  funext view
  simp only [requiring, parser, hp rules]

theorem remember (rule : String) (hp : p.Meets asked) : (remember rule p).Meets asked := by
  intro rules
  funext view
  simp only [requiring, parser, hp rules]

theorem reword (change : Complaint → Complaint) (hp : p.Meets asked) :
    (reword p change).Meets asked := by
  intro rules
  funext view
  simp only [requiring, parser, hp rules]

theorem seq (hp : p.Meets asked) (hq : q.Meets asked) (h : ∀ rules,
      Parser.seq (p.parser rules) (q.parser rules) (asked.combiner combine) =
        Parser.seq (p.parser rules) (q.parser rules) combine) :
    (seq p q combine).Meets asked := by
  intro rules
  funext view
  simp only [requiring, parser, hp rules, hq rules, h rules]

theorem many1 (hp : p.Meets asked) (h : ∀ rules,
      Parser.many1 (p.parser rules) (asked.combiner combine) =
        Parser.many1 (p.parser rules) combine) :
    (many1 p combine).Meets asked := by
  intro rules
  funext view
  simp only [requiring, parser, hp rules, h rules]

theorem splitShortest (hp : p.Meets asked) (hq : q.Meets asked)
    (h : asked.combiner combine = combine) : (splitShortest p q combine).Meets asked := by
  intro rules
  funext view
  simp only [requiring, parser, hp rules, hq rules, h]

theorem mapValue {change : Value → Except Fault Value} (hp : p.Meets asked) (h : ∀ rules,
      Parser.mapValue (p.parser rules) (asked.changer change) =
        Parser.mapValue (p.parser rules) change) :
    (mapValue p change).Meets asked := by
  intro rules
  funext view
  simp only [requiring, parser, hp rules, h rules]

end Meets

end Pattern

namespace Rules

noncomputable def requiring (asked : Requirements) (rules : Rules) : Rules where
  expression := rules.expression.requiring asked
  argument := rules.argument.requiring asked
  arguments := rules.arguments.requiring asked
  named := rules.named.map fun (name, p) => (name, p.requiring asked)

theorem body?_requiring (asked : Requirements) (rules : Rules) (name : RuleName) :
    (rules.requiring asked).body? name = (rules.body? name).map (Pattern.requiring asked) := by
  cases name with
  | expression => rfl
  | argument => rfl
  | arguments => rfl
  | named name =>
    simp only [body?, requiring, ← List.map_reverse, List.find?_map, Option.map_map]
    rfl

-- A rule whose calls may nest to the given depth, where all assertions are made.
def assertingWithin (rules : Rules) : Nat → RuleName → Parser
  | 0, _ => Parser.stalled
  | depth + 1, name => fun input =>
      match rules.body? name with
      | none => throw (.unboundRule name.text)
      | some body => body.asserting (rules.assertingWithin depth) input

-- Where the bodies of all rules meet what is asked, nothing is refused, however deep calls may nest.
theorem assertingWithin_requiring {asked : Requirements} {rules : Rules}
    (h : ∀ name body, rules.body? name = some body → body.Meets asked) (depth : Nat) :
    (rules.requiring asked).assertingWithin depth = rules.runWithin depth := by
  induction depth with
  | zero => rfl
  | succ depth ih =>
    funext name view
    rw [assertingWithin, runWithin, body?_requiring, ih]
    cases hbody : rules.body? name with
    | none => rfl
    | some body =>
      simp only [Option.map_some, Pattern.asserting_eq]
      rw [h name body hbody]

end Rules

end Abacus
