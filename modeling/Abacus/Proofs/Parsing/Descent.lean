import Abacus.Proofs.Parsing.Footprints
import Abacus.Proofs.Parsing.Watching

namespace Abacus

-- The attempt is made on a part of the view, or on a strictly smaller one.
structure Attempt.Below (strictly : Bool) (view : View) (attempt : Attempt) : Prop where
  first : view.pos ≤ attempt.pos
  last : attempt.stop ≤ view.stop
  smaller : strictly = true → attempt.stop - attempt.pos < view.size

theorem Attempt.Below.widen {strictly strictly' : Bool} {view inner : View} {attempt : Attempt}
    (h : attempt.Below strictly inner) (hfirst : view.pos ≤ inner.pos)
    (hlast : inner.stop ≤ view.stop)
    (hsmaller : strictly' = true → strictly = true ∨ inner.size < view.size) :
    attempt.Below strictly' view := by
  have := h.first
  have := h.last
  refine ⟨by omega, by omega, fun hstrictly => ?_⟩
  rcases hsmaller hstrictly with hstrictly | hsize
  · have := h.smaller hstrictly
    simp only [View.size] at *
    omega
  · simp only [View.size] at *
    omega

theorem Attempt.Below.mono {strictly strictly' : Bool} {view : View}
    (h : strictly' = true → strictly = true) (attempt : Attempt)
    (hbelow : attempt.Below strictly view) : attempt.Below strictly' view :=
  ⟨hbelow.first, hbelow.last, fun hstrictly => hbelow.smaller (h hstrictly)⟩

-- An attempt that is below what a view leaves is below the view.
theorem Attempt.Below.of_leaves {strictly : Bool} {view rest : View} {attempt : Attempt}
    (h : attempt.Below strictly rest) (hrest : view.Leaves rest) : attempt.Below strictly view :=
  h.widen hrest.2.2 (Nat.le_of_eq hrest.2.1) .inl

-- From one state to the other, what is allowed is logged and nothing else.
def ParseState.Logs (allowed : Attempt → Prop) (before after : ParseState) : Prop :=
  ∃ made, after.attempts = made ++ before.attempts ∧ ∀ attempt ∈ made, allowed attempt

namespace ParseState.Logs

variable {allowed allowed' : Attempt → Prop} {before between after : ParseState}

theorem refl (state : ParseState) : Logs allowed state state := ⟨[], rfl, by simp⟩

theorem trans (h : Logs allowed before between) (h' : Logs allowed between after) :
    Logs allowed before after := by
  obtain ⟨made, hmade, hallowed⟩ := h
  obtain ⟨later, hlater, hallowed'⟩ := h'
  refine ⟨later ++ made, by rw [hlater, hmade, List.append_assoc], fun attempt h => ?_⟩
  rcases List.mem_append.mp h with h | h
  · exact hallowed' attempt h
  · exact hallowed attempt h

theorem mono (h : Logs allowed before after) (himp : ∀ attempt, allowed attempt → allowed' attempt) :
    Logs allowed' before after := by
  obtain ⟨made, hmade, hallowed⟩ := h
  exact ⟨made, hmade, fun attempt h => himp attempt (hallowed attempt h)⟩

end ParseState.Logs

namespace ParseM

variable {α : Type} {allowed : Attempt → Prop}

-- A run from a table that keeps the discipline logs what is allowed, and nothing else.
def Logs (allowed : Attempt → Prop) (x : ParseM α) : Prop :=
  Changes (ParseState.Logs allowed) x

theorem Logs.mono {allowed' : Attempt → Prop} {x : ParseM α} (hx : Logs allowed x)
    (himp : ∀ attempt, allowed attempt → allowed' attempt) : Logs allowed' x :=
  Changes.mono hx fun _ _ h => h.mono himp

end ParseM

-- What is logged for a view is below it.
def ParseState.LogsBelow (strictly : Bool) (view : View) : ParseState → ParseState → Prop :=
  Logs (Attempt.Below strictly view)

theorem footprint_logsBelow : Footprint ParseState.LogsBelow where
  refl _ _ state := .refl state
  trans h h' := h.trans h'
  widen hinner hsmaller h := h.mono fun _ hbelow => hbelow.widen hinner.first hinner.last hsmaller

namespace Parser

open ParseM

variable {p q : Parser} {view : View} {combine : Combiner} {allowed : Attempt → Prop}

-- What the second parser logs comes behind all that the first one logs.
theorem attempts_of_seq {before after : ParseState} {result : Match} (hp : IsDisciplined p)
    (hrest : ∀ rest, view.Leaves rest → Logs allowed (q rest)) (hgood : before.Disciplined)
    (hrun : (seq p q combine view).run before = .ok (result, after)) :
    ∃ first between later, (p view).run before = .ok (first, between) ∧
      after.attempts = later ++ between.attempts ∧ ∀ attempt ∈ later, allowed attempt := by
  obtain ⟨first, between, hfirst, hrun⟩ := run_bind_eq_ok.mp hrun
  obtain ⟨hdisciplined, hbetween⟩ := hp view before first between hgood hfirst
  split at hrun
  · obtain ⟨-, rfl⟩ := run_pure_eq_ok.mp hrun
    exact ⟨first, between, [], hfirst, rfl, by simp⟩
  · next hf =>
    obtain ⟨second, between', hsecond, hrun⟩ := run_bind_eq_ok.mp hrun
    obtain ⟨later, hlater, hallowed⟩ := hrest first.rest
      (hdisciplined.leaves (Bool.eq_false_iff.mpr hf)) between second between' hbetween hsecond
    refine ⟨first, between, later, hfirst, ?_, hallowed⟩
    split at hrun
    · obtain ⟨-, rfl⟩ := run_pure_eq_ok.mp hrun
      exact hlater
    · obtain ⟨-, rfl⟩ := run_lift_eq_ok.mp hrun
      exact hlater

-- A watched attempt comes before all that its parser logs.
theorem attempts_of_watch {label : String} {before after : ParseState} {result : Match}
    (h : Logs allowed (p view)) (hgood : before.Disciplined)
    (hrun : (watch label p view).run before = .ok (result, after)) :
    ∃ made, after.attempts = made ++ ⟨label, view.pos, view.stop⟩ :: before.attempts ∧
      ∀ attempt ∈ made, allowed attempt :=
  h { before with attempts := ⟨label, view.pos, view.stop⟩ :: before.attempts } result after hgood
    hrun

end Parser

theorem open_logsBelow : Footprint.Open ParseState.LogsBelow where
  -- Looking into the table logs nothing.
  remember := by
    intro strictly view rule p h before result after hgood hrun
    rcases Parser.run_remember_eq_ok.mp hrun with ⟨-, rfl⟩ | ⟨-, between, hinner, rfl⟩
    · exact .refl before
    · exact h before result between hgood hinner
  watch := by
    intro view label p h before result after hgood hrun
    obtain ⟨made, hmade, hbelow⟩ := Parser.attempts_of_watch h hgood hrun
    refine ⟨made ++ [⟨label, view.pos, view.stop⟩], by simp [hmade], fun attempt hmem => ?_⟩
    rcases List.mem_append.mp hmem with hmem | hmem
    · exact hbelow attempt hmem
    · obtain rfl := List.mem_singleton.mp hmem
      exact ⟨Nat.le_refl _, Nat.le_refl _, nofun⟩

namespace Pattern

variable {rules : RuleName → Parser}

-- If rules are called on parts of a view only, then so they are by every pattern, and on strictly
-- smaller parts by a guarded one.
theorem logs_parser_below (hrules : ∀ name, (rules name).IsDisciplined)
    (hlogs : ∀ name view, ParseM.Logs (Attempt.Below false view) (rules name view)) (p : Pattern)
    (hp : p.changesMatches = false) (view : View) :
    ParseM.Logs (Attempt.Below p.guarded view) (p.parser rules view) :=
  changes_pattern footprint_logsBelow hrules hlogs p hp (.inr open_logsBelow) view

end Pattern

namespace Rules

variable {rules : Rules}

-- However deep calls may nest, a rule calls rules on parts of its view only.
theorem logs_runWithin_below (hrules : rules.KeepMatches) (depth : Nat) (name : RuleName)
    (view : View) :
    ParseM.Logs (Attempt.Below false view) (rules.runWithin depth name view) := by
  induction depth generalizing name view with
  | zero => exact .throw _
  | succ depth ih =>
    unfold runWithin
    split
    · exact .throw _
    · next body hbody =>
      have hlogs := Pattern.logs_parser_below (isDisciplined_runWithin hrules depth) ih body
        (hrules name body hbody) view
      exact hlogs.mono (.mono fun h => absurd h Bool.false_ne_true)

-- A rule with a guarded body calls rules on strictly smaller views only, and none of them again on
-- its own view.
theorem attempts_of_guarded (hrules : rules.KeepMatches) {depth : Nat} {name : RuleName}
    {body : Pattern} (hbody : rules.body? name = some body) (hguarded : body.guarded = true)
    {view : View} {before after : ParseState} {result : Match} (hgood : before.Disciplined)
    (hrun : (rules.watched.runWithin depth name view).run before = .ok (result, after)) :
    ∃ made, after.attempts = made ++ .ofCall name view :: before.attempts ∧
      ∀ attempt ∈ made, attempt.Below true view := by
  have hwatched := keepMatches_watched hrules
  cases depth with
  | zero => cases hrun
  | succ depth =>
    simp only [runWithin, body?_watched, hbody, Option.map_some] at hrun
    have hlogs := Pattern.logs_parser_below (isDisciplined_runWithin hwatched depth)
      (logs_runWithin_below hwatched depth) body (hrules name body hbody) view
    rw [hguarded] at hlogs
    exact Parser.attempts_of_watch hlogs hgood hrun

end Rules

end Abacus
