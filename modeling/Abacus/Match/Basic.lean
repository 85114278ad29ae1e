import Abacus.Match.Complaint
import Abacus.Source.Excerpt
import Abacus.Value.Conversion
import Abacus.Value.Equality
import Abacus.Value.Shown
import Abacus.View

namespace Abacus

-- A success has a payload and the input that is left. A failure has the absent payload, the input
-- of the outermost failed attempt, and the complaint and the offset of the innermost one.
structure Match where
  value : Value
  rest : View
  -- Where the attempt began; negative for a result with no input to point at.
  start : Int
  complaint : Complaint := .note ""
  errorAt : Int := -1

-- How the payloads of two successes become one.
abbrev Combiner := Value → Value → Except Fault Value

namespace Combiner

def pairing : Combiner := fun left right => .ok (.pair left right)

def joining : Combiner := Value.add

def first : Combiner := fun left _ => .ok left

def second : Combiner := fun _ right => .ok right

end Combiner

namespace Match

def failed (result : Match) : Bool := result.value.isAbsent

def ok (result : Match) : Bool := !result.failed

def success (value : Value) (start : Int) (rest : View) : Except Fault Match :=
  if value.isAbsent then .error .absentPayload
  else .ok { value := value, rest := rest, start := start }

def failureAt (input : View) (complaint : Complaint) (errorAt : Int) : Match where
  value := .absent
  rest := input
  start := input.pos
  complaint := complaint
  errorAt := errorAt

def failure (input : View) (complaint : Complaint) : Match := failureAt input complaint input.pos

-- The same failure, seen from an outer input.
def rebase (input : View) (inner : Match) : Match := failureAt input inner.complaint inner.errorAt

-- Only a failure can be seen from an outer input.
def rebaseFailed (input : View) (inner : Match) : Except Fault Match :=
  if inner.failed then .ok (rebase input inner) else .error (.notFailed "")

-- Two successes in a row begin where the first does and leave what the second leaves.
def merge (combine : Combiner) (first second : Match) : Except Fault Match := do
  success (← combine first.value second.value) first.start second.rest

def position (result : Match) : Except Fault Position := result.rest.source.position result.start

def errorPosition (result : Match) : Except Fault Position :=
  result.rest.source.position result.errorAt

def shown (result : Match) : Except Fault String := do
  let position ← result.position
  if result.failed then
    let errorPosition ← result.errorPosition
    return "Match(absent, pos=" ++ position.shown ++ ", err=" ++ errorPosition.shown ++ ", msg="
      ++ Text.quoted result.complaint.text ++ ")"
  return "Match(" ++ result.value.shown ++ ", pos=" ++ position.shown ++ ", rem="
    ++ Text.quoted result.rest.text ++ ")"

-- The complaint with the source line and a caret under the innermost failure.
def diagnostic (result : Match) (label : String) : Except Fault String := do
  if result.ok then throw (.notFailed (← result.shown))
  let offset := if 0 ≤ result.errorAt then result.errorAt else max result.start 0
  return (← result.rest.source.excerpt offset offset label result.complaint.text).text

def same (a b : Match) : Bool :=
  a.value.same b.value && a.rest.same b.rest && a.start == b.start
    && a.complaint.text == b.complaint.text && a.errorAt == b.errorAt

theorem failed_iff (result : Match) : result.failed ↔ result.value = .absent :=
  result.value.isAbsent_iff

@[simp]
theorem failed_failureAt (input : View) (complaint : Complaint) (errorAt : Int) :
    (failureAt input complaint errorAt).failed = true := rfl

theorem success_eq_ok {value : Value} (h : value.isAbsent = false) (start : Int) (rest : View) :
    success value start rest = .ok { value := value, rest := rest, start := start } := by
  simp [success, h]

-- A success is a success.
theorem failed_of_success {value : Value} {start : Int} {rest : View} {result : Match}
    (h : success value start rest = .ok result) : result.failed = false := by
  unfold success at h
  split at h
  · cases h
  · rename_i habsent
    cases h
    simpa [failed] using habsent

theorem value_and_rest_of_success {value : Value} {start : Int} {rest : View} {result : Match}
    (h : success value start rest = .ok result) : result.value = value ∧ result.rest = rest := by
  unfold success at h
  split at h
  · cases h
  · cases h
    exact ⟨rfl, rfl⟩

-- A success with a payload that is made first.
theorem exists_of_success {made : Except Fault Value} {start : Int} {rest : View} {result : Match}
    (h : (do success (← made) start rest) = .ok result) :
    ∃ value, made = .ok value ∧ success value start rest = .ok result := by
  cases made with
  | error fault => simp [bind, Except.bind] at h
  | ok value => exact ⟨value, rfl, h⟩

end Match

end Abacus
