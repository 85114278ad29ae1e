import Abacus.Decimal.Numeral
import Mathlib.Data.List.TakeWhile

namespace Abacus.Decimal

open Text

def PlainChar (c : Char) : Prop := c.isDigit = true ∨ c = '.'

theorem toNat_of_isDigit {c : Char} (h : c.isDigit = true) : 48 ≤ c.toNat ∧ c.toNat ≤ 57 := by
  simpa [Char.isDigit, UInt32.le_iff_toNat_le] using h

theorem PlainChar.toNat {c : Char} (h : PlainChar c) : 46 ≤ c.toNat ∧ c.toNat ≤ 57 := by
  rcases h with h | rfl
  · have := toNat_of_isDigit h
    omega
  · decide

theorem PlainChar.isBlank {c : Char} (h : PlainChar c) : isBlank c = false := by
  have := h.toNat
  simp [Text.isBlank]
  omega

theorem PlainChar.latinDigit {c : Char} (h : PlainChar c) : latinDigit c = c := by
  rcases h with h | rfl
  · have hc := toNat_of_isDigit h
    have hall : ∀ n < 58, 48 ≤ n → Nat.digitChar (n - 48) = Char.ofNat n := by decide
    have hdigit := hall c.toNat (by omega) hc.1
    rw [Char.ofNat_toNat] at hdigit
    simpa [Decimal.latinDigit, digitValue?, h] using hdigit
  · decide

theorem trim_of_plain {text : List Char} (h : ∀ c ∈ text, PlainChar c) : trim text = text := by
  have hdrop : ∀ l : List Char, (∀ c ∈ l, PlainChar c) → l.dropWhile Text.isBlank = l := by
    intro l hl
    cases l with
    | nil => rfl
    | cons c l => simp [(hl c List.mem_cons_self).isBlank]
  rw [trim, hdrop text h, hdrop text.reverse fun c hc => h c (List.mem_reverse.mp hc),
    List.reverse_reverse]

theorem joinDigits_of_plain {text : List Char} (h : ∀ c ∈ text, PlainChar c) (afterDigit : Bool) :
    joinDigits afterDigit text = some text := by
  induction text generalizing afterDigit with
  | nil => rfl
  | cons c text ih =>
    have hc : c ≠ '_' := by
      rintro rfl
      have := (h '_' List.mem_cons_self).toNat
      revert this
      decide
    simp [joinDigits, hc, ih fun d hd => h d (List.mem_cons_of_mem _ hd)]

theorem numeralChars_of_plain {text : List Char} (h : ∀ c ∈ text, PlainChar c) :
    numeralChars (String.ofList text) = some text := by
  have hmap : text.map latinDigit = text := by
    rw [List.map_congr_left fun c hc => (h c hc).latinDigit, List.map_id']
  rw [numeralChars, String.toList_ofList, trim_of_plain h, hmap, joinDigits_of_plain h]

theorem readFinite?_of_decimal {whole fraction : List Char} {point : Bool}
    (hwhole : ∀ c ∈ whole, c.isDigit = true) (hfraction : ∀ c ∈ fraction, c.isDigit = true)
    (hne : whole ++ fraction ≠ []) (hpoint : point = false → fraction = []) :
    ∃ n, readFinite? false (whole ++ if point then '.' :: fraction else []) = some n := by
  have hnat : ∃ n, readNat? (whole ++ fraction) = some n := by
    refine ⟨_, if_neg ?_⟩
    simp only [Bool.or_eq_true, Bool.not_eq_true', List.isEmpty_iff, not_or]
    refine ⟨hne, ?_⟩
    simpa [List.all_append] using ⟨hwhole, hfraction⟩
  obtain ⟨n, hn⟩ := hnat
  cases point with
  | false =>
    obtain rfl := hpoint rfl
    have htake : whole.takeWhile Char.isDigit = whole := List.takeWhile_eq_self_iff.mpr hwhole
    have hdrop : whole.dropWhile Char.isDigit = [] := List.dropWhile_eq_nil_iff.mpr hwhole
    simp only [Bool.false_eq_true, if_false, readFinite?, List.append_nil, htake, hdrop] at hn ⊢
    simp [hn, readExponent?]
  | true =>
    have htake : (whole ++ '.' :: fraction).takeWhile Char.isDigit = whole := by
      rw [List.takeWhile_append_of_pos hwhole]
      simp
    have hdrop : (whole ++ '.' :: fraction).dropWhile Char.isDigit = '.' :: fraction := by
      rw [List.dropWhile_append_of_pos hwhole]
      simp
    have htake' : fraction.takeWhile Char.isDigit = fraction :=
      List.takeWhile_eq_self_iff.mpr hfraction
    have hdrop' : fraction.dropWhile Char.isDigit = [] := List.dropWhile_eq_nil_iff.mpr hfraction
    simp [readFinite?, htake, hdrop, htake', hdrop', hn, readExponent?]

-- A plain decimal has no sign, and is none of the words for numbers that are not finite.
theorem readNumeral?_of_plain {c : Char} {text : List Char} (h : ∀ d ∈ c :: text, PlainChar d) :
    readNumeral? (String.ofList (c :: text)) = readFinite? false (c :: text) := by
  have hc := (h c List.mem_cons_self).toNat
  have hsign : splitSign (c :: text) = (false, c :: text) := by
    unfold splitSign
    split
    · next heq =>
      cases heq
      exact absurd hc (by decide)
    · next heq =>
      cases heq
      exact absurd hc (by decide)
    · rfl
  have hlower : c.toLower = c := by
    have hall : ∀ n < 58, (Char.ofNat n).toLower = Char.ofNat n := by decide
    have := hall c.toNat (by omega)
    rwa [Char.ofNat_toNat] at this
  have hword : ∀ (first : Char) (rest : List Char), 57 < first.toNat →
      String.ofList ((c :: text).map Char.toLower) ≠ String.ofList (first :: rest) := by
    intro first rest hfirst heq
    rw [String.ofList_inj, List.map_cons, hlower, List.cons.injEq] at heq
    rw [← heq.1] at hfirst
    omega
  unfold readNumeral?
  rw [numeralChars_of_plain h]
  simp only [Option.bind_some, hsign]
  split
  · next heq => exact absurd heq (hword 'n' _ (by decide))
  · next heq => exact absurd heq (hword 'i' _ (by decide))
  · next heq => exact absurd heq (hword 'i' _ (by decide))
  · rfl

theorem exists_readFloat?_of_decimal {whole fraction : List Char} {point : Bool}
    (hwhole : ∀ c ∈ whole, c.isDigit = true) (hfraction : ∀ c ∈ fraction, c.isDigit = true)
    (hne : whole ++ fraction ≠ []) (hpoint : point = false → fraction = []) :
    ∃ x, readFloat? (String.ofList (whole ++ if point then '.' :: fraction else [])) = some x := by
  obtain ⟨n, hn⟩ := readFinite?_of_decimal hwhole hfraction hne hpoint
  have hplain : ∀ c ∈ whole ++ if point then '.' :: fraction else [], PlainChar c := by
    intro c hc
    rcases List.mem_append.mp hc with hc | hc
    · exact .inl (hwhole c hc)
    · split at hc
      · rcases List.mem_cons.mp hc with rfl | hc
        · exact .inr rfl
        · exact .inl (hfraction c hc)
      · cases hc
  have hcons : ∃ c text, (whole ++ if point then '.' :: fraction else []) = c :: text := by
    cases whole with
    | cons c whole => exact ⟨c, _, rfl⟩
    | nil =>
      cases point with
      | true => exact ⟨'.', fraction, rfl⟩
      | false => exact absurd (by simp [hpoint rfl]) hne
  obtain ⟨c, text, heq⟩ := hcons
  rw [heq] at hn hplain ⊢
  exact ⟨n.toFloat, by rw [readFloat?, readNumeral?_of_plain hplain, hn, Option.map_some]⟩

end Abacus.Decimal
