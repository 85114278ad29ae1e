import Abacus.Binary64

namespace Abacus.Arithmetic

open Binary64

def withSignOf (magnitude sign : Float) : Float :=
  if isNegative sign then -magnitude.abs else magnitude.abs

-- The remainder of the division that rounds toward zero, with the sign of the dividend.
def remainder (x y : Float) : Float :=
  match read x, read y with
  | .finite negative m e, .finite _ n f =>
      if n = 0 then nan else
        let low := min e f
        ofDyadic negative ((m <<< (e - low).toNat) % (n <<< (f - low).toNat)) low
  | .finite .., .infinite _ => x
  | _, _ => nan

-- The whole number on one side of a double. A zero result is positive.
def floor (x : Float) : Float := if x.isFinite then x.floor + 0 else x

def ceil (x : Float) : Float := if x.isFinite then x.ceil + 0 else x

-- The greatest number whose square is at most `n`, for `n` below `4 ^ steps`.
def floorSqrt : Nat → Nat → Nat
  | 0, _ => 0
  | steps + 1, n =>
      let root := 2 * floorSqrt steps (n / 4)
      if (root + 1) * (root + 1) ≤ n then root + 1 else root

theorem floorSqrt_sq_le (steps n : Nat) : floorSqrt steps n * floorSqrt steps n ≤ n := by
  induction steps generalizing n with
  | zero => exact Nat.zero_le _
  | succ steps ih =>
    have h := ih (n / 4)
    have hn := Nat.div_mul_le_self n 4
    simp only [floorSqrt]
    split
    · assumption
    · rw [Nat.mul_mul_mul_comm]
      omega

theorem lt_floorSqrt_succ_sq (steps n : Nat) (h : n < Nat.pow 4 steps) :
    n < (floorSqrt steps n + 1) * (floorSqrt steps n + 1) := by
  induction steps generalizing n with
  | zero => simp_all [floorSqrt]
  | succ steps ih =>
    have hpow : Nat.pow 4 (steps + 1) = Nat.pow 4 steps * 4 := rfl
    have hlow := ih (n / 4) (by omega)
    have hstep : n < (2 * floorSqrt steps (n / 4) + 2) * (2 * floorSqrt steps (n / 4) + 2) := by
      have hsq : (2 * floorSqrt steps (n / 4) + 2) * (2 * floorSqrt steps (n / 4) + 2) =
          4 * ((floorSqrt steps (n / 4) + 1) * (floorSqrt steps (n / 4) + 1)) := by
        rw [show 2 * floorSqrt steps (n / 4) + 2 = 2 * (floorSqrt steps (n / 4) + 1) by omega,
          Nat.mul_mul_mul_comm]
      omega
    simp only [floorSqrt]
    split
    · exact hstep
    · omega

-- The nearest double to the square root of `n * 4 ^ exponent`. The root of a number of 128 bits
-- or more has 64 bits, and one more bit tells whether something is left.
def nearestSqrt (n : Nat) (exponent : Int) : Float :=
  let shift := 64 - min 64 (n.log2 / 2)
  let scaled := n <<< (2 * shift)
  let root := floorSqrt (scaled.log2 / 2 + 1) scaled
  let sticky := if root * root = scaled then 0 else 1
  ofDyadic false (2 * root + sticky) (exponent - shift - 1)

-- The length of the hypotenuse. An infinite side outweighs a NaN.
def hypotenuse (x y : Float) : Float :=
  match read x, read y with
  | .infinite _, _ => infinity
  | _, .infinite _ => infinity
  | .finite _ m e, .finite _ n f =>
      let low := min e f
      let a := m <<< (e - low).toNat
      let b := n <<< (f - low).toNat
      nearestSqrt (a * a + b * b) low
  | _, _ => nan

end Abacus.Arithmetic
