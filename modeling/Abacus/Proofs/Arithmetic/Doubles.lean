import Abacus.Arithmetic.Total
import Mathlib

namespace Abacus.Binary64

open Float.Model

variable {x y : Float}

theorem nan_eq_pack : nan = ⟨Float.Model.pack .notANumber⟩ := by decide

theorem infinity_eq_pack : infinity = ⟨Float.Model.pack (.infinity .positive)⟩ := by decide

theorem unpack_nan : nan.toModel.unpack = .notANumber := by rfl

theorem eq_nan_of_isNaN (h : x.isNaN = true) : x = nan := by
  have hnan : nan = Float.nan := by decide
  rw [Float.isNaN_eq_decide_eq_nan, decide_eq_true_eq] at h
  rw [h, hnan]

-- A double is a NaN, or infinite, or finite.
theorem isFinite_eq (x : Float) : x.isFinite = (!x.isNaN && !x.isInf) := by
  change x.toModel.unpack.isFinite = (!x.toModel.unpack.isNaN && !x.toModel.unpack.isInf)
  cases x.toModel.unpack <;> rfl

theorem abs_of_isInf (h : x.isInf = true) : x.abs = infinity := by
  change x.toModel.unpack.isInf = true at h
  rw [infinity_eq_pack, Float.abs, Float.Model.abs]
  cases hunpack : x.toModel.unpack with
  | infinity sign => rfl
  | notANumber => simp [hunpack, UnpackedFloat.isInf] at h
  | zero sign => simp [hunpack, UnpackedFloat.isInf] at h
  | finite sign mantissa exponent hpos => simp [hunpack, UnpackedFloat.isInf] at h

theorem nan_div (y : Float) : nan / y = nan := by
  change (⟨Float.Model.pack (UnpackedFloat.div Format.binary64 nan.toModel.unpack
    y.toModel.unpack)⟩ : Float) = nan
  rw [unpack_nan, nan_eq_pack, UnpackedFloat.div]

theorem div_nan (x : Float) : x / nan = nan := by
  change (⟨Float.Model.pack (UnpackedFloat.div Format.binary64 x.toModel.unpack
    nan.toModel.unpack)⟩ : Float) = nan
  rw [unpack_nan, nan_eq_pack]
  cases x.toModel.unpack <;> rfl

-- What is greater than zero can be divided by.
theorem ne_zero_of_pos (h : 0 < x) : (x == 0) = false := by
  have hzero : (0 : Float).toModel.unpack = .zero .positive := by rfl
  have hlt : (0 : Float).toModel.unpack.lt x.toModel.unpack = true := of_decide_eq_true h
  change x.toModel.unpack.beq (0 : Float).toModel.unpack = false
  rw [hzero] at hlt ⊢
  cases hunpack : x.toModel.unpack with
  | zero sign => simp [hunpack, UnpackedFloat.lt, UnpackedFloat.compare] at hlt
  | notANumber => rfl
  | infinity sign => cases sign <;> rfl
  | finite sign mantissa exponent hpos => cases sign <;> rfl

end Abacus.Binary64
