import Abacus.Function.Builtin
import Abacus.Proofs.Arithmetic.Doubles

namespace Abacus

-- The failures of a library of mathematical functions, with their texts.
inductive MathFault
  | value (text : String)
  | overflow (text : String)
  | zeroDivision (text : String)
deriving DecidableEq, Repr

namespace MathFault

-- What a closure fails with if it lets the failure through.
def toFault : MathFault → Fault
  | value text => .raised "ValueError" text
  | overflow text => .raised "OverflowError" text
  | zeroDivision text => .raised "ZeroDivisionError" text

def substitute : MathFault → Float
  | value _ => Binary64.nan
  | overflow _ => Binary64.infinity
  | zeroDivision _ => Binary64.nan

end MathFault

def recover : Except MathFault Float → Float
  | .ok x => x
  | .error fault => fault.substitute

-- The functions take any doubles. `floor` and `ceil` give a whole number as a double.
structure MathLibrary where
  sqrt : Float → Except MathFault Float
  sin : Float → Except MathFault Float
  cos : Float → Except MathFault Float
  tan : Float → Except MathFault Float
  asin : Float → Except MathFault Float
  acos : Float → Except MathFault Float
  atan : Float → Except MathFault Float
  sinh : Float → Except MathFault Float
  cosh : Float → Except MathFault Float
  tanh : Float → Except MathFault Float
  exp : Float → Except MathFault Float
  log : Float → Except MathFault Float
  log2 : Float → Except MathFault Float
  log10 : Float → Except MathFault Float
  floor : Float → Except MathFault Float
  ceil : Float → Except MathFault Float
  powerOfTen : Float → Except MathFault Float
  fmod : Float → Float → Except MathFault Float
  atan2 : Float → Float → Except MathFault Float
  hypot : Float → Float → Except MathFault Float

namespace MathLibrary

open Arithmetic Binary64

variable {σ : Type} {x y : Float}

-- Only a zero divisor is refused.
def quotient (x y : Float) : Except MathFault Float :=
  if y == 0 then .error (.zeroDivision "division by zero") else .ok (x / y)

def guardedUnary (name : String) (f : Float → Except MathFault Float) : Closure σ :=
  Closure.unary name (fun x => recover (f x))

def guardedBinary (name : String) (f : Float → Float → Except MathFault Float) : Closure σ :=
  Closure.binary name (fun x y => recover (f x y))

-- What is not finite is not given to the library.
def ifFinite (f : Float → Except MathFault Float) (x : Float) : Except MathFault Float :=
  if x.isFinite then f x else .ok x

def logarithmOf (library : MathLibrary) (base x : Float) : Float :=
  if base == 2 then recover (library.log2 x)
  else if base == 10 then recover (library.log10 x)
  else recover (do quotient (← library.log x) (← library.log base))

def guardedLog (library : MathLibrary) : Closure σ
  | [x] => return .float (recover (library.log x))
  | [base, x] => return .float (library.logarithmOf base x)
  | arguments => Closure.refuse "log" "1 or 2" arguments

-- The division by the scale is the one that nothing catches.
def roundedBy (library : MathLibrary) (x scale : Float) : Except MathFault Float :=
  if x.isFinite && scale.isFinite && 0 < scale then
    quotient (withSignOf (recover (library.floor (x.abs * scale + 0.5))) x) scale
  else .ok x

def escaping : Except MathFault Float → ExceptT Fault (StateM σ) Value
  | .ok x => return .float x
  | .error fault => throw fault.toFault

def guardedRound (library : MathLibrary) : Closure σ
  | [x] => escaping (library.roundedBy x 1)
  | [x, places] => escaping (library.roundedBy x (recover (library.powerOfTen places)))
  | arguments => Closure.refuse "round" "1 or 2" arguments

def unaries (library : MathLibrary) : List (String × (Float → Except MathFault Float)) := [
  ("sin", library.sin), ("cos", library.cos), ("tan", library.tan),
  ("asin", library.asin), ("acos", library.acos), ("atan", library.atan),
  ("sinh", library.sinh), ("cosh", library.cosh), ("tanh", library.tanh),
  ("exp", library.exp), ("log2", library.log2), ("log10", library.log10)]

-- The built-in functions, in the order of `Builtin.all`.
def builtins (library : MathLibrary) (draw : StateM σ Float) : List (String × Closure σ) := [
    ("sqrt", guardedUnary "sqrt" library.sqrt),
    ("abs", guardedUnary "abs" (fun x => .ok x.abs)),
    ("mod", guardedBinary "mod" library.fmod),
    ("round", library.guardedRound),
    ("floor", guardedUnary "floor" (ifFinite library.floor)),
    ("ceil", guardedUnary "ceil" (ifFinite library.ceil))]
  ++ library.unaries.map (fun (name, f) => (name, guardedUnary name f))
  ++ [
    ("atan2", guardedBinary "atan2" library.atan2),
    ("hypot", guardedBinary "hypot" library.hypot),
    ("log", library.guardedLog),
    ("ln", guardedUnary "ln" library.log),
    ("min", Builtin.min),
    ("max", Builtin.max),
    ("rand", Builtin.rand draw)]

theorem quotient_of_pos (x : Float) (h : 0 < y) : quotient x y = .ok (x / y) := by
  simp [quotient, ne_zero_of_pos h]

-- The scale that is divided by is positive.
theorem roundedBy_returns (library : MathLibrary) (x scale : Float) :
    ∃ rounded, library.roundedBy x scale = .ok rounded := by
  unfold roundedBy
  split
  · next hguard =>
    rw [Bool.and_eq_true, decide_eq_true_eq] at hguard
    exact ⟨_, quotient_of_pos _ hguard.2⟩
  · exact ⟨x, rfl⟩

-- A NaN that comes from numbers lies outside the domain.
def refusingNaN (given : Bool) (result : Float) : Except MathFault Float :=
  if result.isNaN && !given then .error (.value "math domain error") else .ok result

-- So does, or is too large, an infinite result of a finite argument.
def refusing (tooLarge : MathFault) (f : Float → Float) (x : Float) : Except MathFault Float :=
  if (f x).isInf && x.isFinite then .error tooLarge else refusingNaN x.isNaN (f x)

def bounded : (Float → Float) → Float → Except MathFault Float :=
  refusing (.value "math domain error")

def overflowing : (Float → Float) → Float → Except MathFault Float :=
  refusing (.overflow "math range error")

-- Whole numbers have one zero.
def whole (f : Float → Float) (x : Float) : Except MathFault Float :=
  if x.isNaN then .error (.value "cannot convert float NaN to integer")
  else if x.isInf then .error (.overflow "cannot convert float infinity to integer")
  else .ok (f x + 0)

def standard : MathLibrary where
  sqrt x := refusingNaN x.isNaN x.sqrt
  sin := bounded Float.sin
  cos := bounded Float.cos
  tan := bounded Float.tan
  asin := bounded Float.asin
  acos := bounded Float.acos
  atan := bounded Float.atan
  sinh := overflowing Float.sinh
  cosh := overflowing Float.cosh
  tanh := bounded Float.tanh
  exp := overflowing Float.exp
  log := bounded Float.log
  log2 := bounded Float.log2
  log10 := bounded Float.log10
  floor := whole Float.floor
  ceil := whole Float.ceil
  powerOfTen y :=
    if Float.pow 10 y = infinity && y.isFinite then .error (.overflow "math range error")
    else .ok (Float.pow 10 y)
  fmod x y := refusingNaN (x.isNaN || y.isNaN) (remainder x y)
  atan2 x y := .ok (Float.atan2 x y)
  hypot x y := .ok (hypotenuse x y)

@[simp] theorem recover_refusingNaN (given : Bool) (result : Float) :
    recover (refusingNaN given result) = result := by
  unfold refusingNaN
  split
  · next hnan =>
    rw [Bool.and_eq_true] at hnan
    exact (eq_nan_of_isNaN hnan.1).symm
  · rfl

theorem recover_refusing (tooLarge : MathFault) (f : Float → Float) (x : Float) :
    recover (refusing tooLarge f x) =
      if (f x).isInf && x.isFinite then tooLarge.substitute else f x := by
  unfold refusing
  split
  · rfl
  · exact recover_refusingNaN ..

@[simp] theorem recover_bounded (f : Float → Float) (x : Float) :
    recover (bounded f x) = within f x := recover_refusing _ f x

@[simp] theorem recover_overflowing (f : Float → Float) (x : Float) :
    recover (overflowing f x) = unbounded f x := recover_refusing _ f x

theorem whole_of_isFinite (f : Float → Float) (h : x.isFinite = true) :
    whole f x = .ok (f x + 0) := by
  rw [isFinite_eq, Bool.and_eq_true, Bool.not_eq_true', Bool.not_eq_true'] at h
  simp only [whole, h.1, h.2, Bool.false_eq_true, if_false]

@[simp] theorem recover_ifFinite_whole (f : Float → Float) (x : Float) :
    recover (ifFinite (whole f) x) = if x.isFinite then f x + 0 else x := by
  unfold ifFinite
  split
  · next hfinite => rw [whole_of_isFinite f hfinite]; rfl
  · rfl

@[simp] theorem recover_powerOfTen (y : Float) :
    recover (standard.powerOfTen y) = Float.pow 10 y := by
  simp only [standard]
  split
  · next hinf =>
    rw [Bool.and_eq_true, decide_eq_true_eq] at hinf
    exact hinf.1.symm
  · rfl

-- The sign of an infinite magnitude does not count.
theorem withSignOf_recover_floor (x sign : Float) :
    withSignOf (recover (standard.floor x)) sign = withSignOf (Arithmetic.floor x) sign := by
  have habs : (recover (whole Float.floor x)).abs = (Arithmetic.floor x).abs := by
    cases hnan : x.isNaN with
    | true =>
      rw [eq_nan_of_isNaN hnan]
      decide
    | false =>
      cases hinf : x.isInf with
      | true =>
        have hfinite : x.isFinite = false := by
          rw [isFinite_eq, hinf, Bool.not_true, Bool.and_false]
        have hfloor : Arithmetic.floor x = x := by
          simp only [Arithmetic.floor, hfinite, Bool.false_eq_true, if_false]
        have hwhole : recover (whole Float.floor x) = infinity := by
          simp only [whole, hnan, hinf, Bool.false_eq_true, if_false, if_true, recover,
            MathFault.substitute]
        rw [hfloor, hwhole, abs_of_isInf hinf]
        decide
      | false =>
        have hfinite : x.isFinite = true := by rw [isFinite_eq, hnan, hinf]; rfl
        rw [whole_of_isFinite Float.floor hfinite, Arithmetic.floor, if_pos hfinite, recover]
  simp only [standard, withSignOf, habs]

theorem roundedBy_standard (x scale : Float) :
    standard.roundedBy x scale = .ok (roundTo x scale) := by
  unfold roundedBy roundTo
  split
  · next hguard =>
    rw [Bool.and_eq_true, decide_eq_true_eq] at hguard
    rw [quotient_of_pos _ hguard.2, withSignOf_recover_floor]
  · rfl

theorem strictDivide_nan (y : Float) : strictDivide nan y = nan := by
  simp [strictDivide, nan_div]

theorem strictDivide_by_nan (x : Float) : strictDivide x nan = nan := by
  simp [strictDivide, div_nan]

theorem recover_quotient (x y : Float) : recover (quotient x y) = strictDivide x y := by
  unfold quotient strictDivide
  split <;> rfl

theorem substitute_of_bounded {f : Float → Float} {fault : MathFault}
    (h : bounded f x = .error fault) : fault.substitute = nan := by
  simp only [bounded, refusing, refusingNaN] at h
  split at h
  · cases h
    rfl
  · split at h
    · cases h
      rfl
    · cases h

-- A logarithm that is refused counts as NaN, which the quotient keeps.
theorem recover_quotient_bounded (f : Float → Float) (base x : Float) :
    recover (do quotient (← bounded f x) (← bounded f base)) =
      strictDivide (within f x) (within f base) := by
  rw [← recover_bounded, ← recover_bounded]
  cases hx : bounded f x with
  | error fault =>
    have hnan : recover (.error fault) = nan := substitute_of_bounded hx
    rw [hnan, strictDivide_nan]
    exact hnan
  | ok a =>
    cases hbase : bounded f base with
    | error fault =>
      have hnan : recover (.error fault) = nan := substitute_of_bounded hbase
      rw [hnan, strictDivide_by_nan]
      exact hnan
    | ok b => exact recover_quotient a b

theorem logarithmOf_standard (base x : Float) :
    standard.logarithmOf base x = logarithm base x := by
  unfold logarithmOf logarithm
  simp only [standard, recover_bounded, recover_quotient_bounded, naturalLog]

theorem guardedUnary_eq {f : Float → Except MathFault Float} {g : Float → Float} (name : String)
    (h : ∀ x, recover (f x) = g x) :
    (guardedUnary name f : Closure σ) = Closure.unary name g := by
  rw [guardedUnary, funext h]

theorem guardedBinary_eq {f : Float → Float → Except MathFault Float} {g : Float → Float → Float}
    (name : String) (h : ∀ x y, recover (f x y) = g x y) :
    (guardedBinary name f : Closure σ) = Closure.binary name g := by
  rw [guardedBinary, funext fun x => funext (h x)]

theorem guardedRound_standard : (standard.guardedRound : Closure σ) = Builtin.round := by
  funext arguments
  match arguments with
  | [] => rfl
  | [x] => simp only [guardedRound, roundedBy_standard, escaping, Builtin.round]
  | [x, places] =>
    simp only [guardedRound, recover_powerOfTen, roundedBy_standard, escaping, Builtin.round]
  | _ :: _ :: _ :: _ => rfl

theorem guardedLog_standard : (standard.guardedLog : Closure σ) = Builtin.log := by
  funext arguments
  match arguments with
  | [] => rfl
  | [x] => simp only [guardedLog, standard, recover_bounded, Builtin.log, naturalLog]
  | [base, x] => simp only [guardedLog, logarithmOf_standard, Builtin.log]
  | _ :: _ :: _ :: _ => rfl

theorem guarded_unaries_standard :
    standard.unaries.map (fun (name, f) => (name, (guardedUnary name f : Closure σ))) =
      Builtin.unaries.map fun (name, f) => (name, Closure.unary name f) := by
  simp only [unaries, Builtin.unaries, standard, List.map_cons, List.map_nil,
    guardedUnary_eq _ (recover_bounded _), guardedUnary_eq _ (recover_overflowing _)]

-- The built-in functions are those over the library that checks what they compute.
theorem builtins_standard (draw : StateM σ Float) : standard.builtins draw = Builtin.all draw := by
  have hsqrt : (guardedUnary "sqrt" standard.sqrt : Closure σ) = Closure.unary "sqrt" Float.sqrt :=
    guardedUnary_eq _ fun x => recover_refusingNaN _ _
  have hmod : (guardedBinary "mod" standard.fmod : Closure σ) = Closure.binary "mod" remainder :=
    guardedBinary_eq _ fun x y => recover_refusingNaN _ _
  have hfloor : (guardedUnary "floor" (ifFinite standard.floor) : Closure σ) =
      Closure.unary "floor" Arithmetic.floor := guardedUnary_eq _ (recover_ifFinite_whole _)
  have hceil : (guardedUnary "ceil" (ifFinite standard.ceil) : Closure σ) =
      Closure.unary "ceil" Arithmetic.ceil := guardedUnary_eq _ (recover_ifFinite_whole _)
  have hln : (guardedUnary "ln" standard.log : Closure σ) = Closure.unary "ln" naturalLog :=
    guardedUnary_eq _ (recover_bounded _)
  rw [builtins, hsqrt, hmod, hfloor, hceil, hln, guardedRound_standard, guardedLog_standard,
    guarded_unaries_standard]
  rfl

end MathLibrary

end Abacus
