import Abacus.Proofs.Parsing.Returns
import Mathlib.Tactic.Common

namespace Abacus.Parser

variable {p q : Parser} {view : View} {count count' : Nat} {value value' result : Value}
  {combine : Combiner}

-- The parser takes something, again and again, and then fails. The payloads are combined from the
-- right.
inductive Repeats (p : Parser) (combine : Combiner) : View → Nat → Nat → Value → Prop
  | last {view : View} {count : Nat} {value : Value} :
      p.Takes view count value → p.Fails (view.drop count) → Repeats p combine view 1 count value
  | more {view : View} {times count count' : Nat} {value value' result : Value} :
      p.Takes view count value → Repeats p combine (view.drop count) times count' value' →
        combine value value' = .ok result → result.isAbsent = false →
        Repeats p combine view (times + 1) (count + count') result

theorem repeatWithin_fails {rounds : Nat} (hp : p.Fails view) :
    (repeatWithin p combine (rounds + 1)).Fails view :=
  alt_fails (seq_fails_left hp) hp

-- The last round is the one that fails.
theorem repeatWithin_takes {times rounds : Nat} (h : Repeats p combine view times count value)
    (hrounds : times < rounds) : (repeatWithin p combine rounds).Takes view count value := by
  induction h generalizing rounds with
  | last hp hstop =>
    obtain ⟨rounds, rfl⟩ : ∃ n, rounds = n + 2 := ⟨rounds - 2, by omega⟩
    exact alt_takes_right (seq_fails_right hp (repeatWithin_fails hstop)) hp
  | more hp _ hcombine hresult ih =>
    obtain ⟨rounds, rfl⟩ : ∃ n, rounds = n + 1 := ⟨rounds - 1, by omega⟩
    exact alt_takes_left (seq_takes hp (ih (by omega)) hcombine hresult)

theorem many1_takes {times : Nat} (h : Repeats p combine view times count value)
    (htimes : times ≤ view.size) : (many1 p combine).Takes view count value :=
  repeatWithin_takes h (Nat.lt_succ_of_le htimes)

theorem many1_fails (hp : p.Fails view) : (many1 p combine).Fails view := repeatWithin_fails hp

-- A text in pieces, each of which the parser takes as it stands.
theorem repeats_pieces (pieces : List (List Char)) (hne : pieces ≠ []) {rest : List Char}
    (hchars : view.chars = pieces.flatten ++ rest)
    (htakes : ∀ piece ∈ pieces, ∀ (v : View) (after : List Char), v.chars = piece ++ after →
      p.Takes v piece.length (.str (String.ofList piece)))
    (hstop : ∀ v : View, v.chars = rest → p.Fails v) :
    Repeats p .joining view pieces.length pieces.flatten.length
      (.str (String.ofList pieces.flatten)) := by
  induction pieces generalizing view with
  | nil => exact absurd rfl hne
  | cons piece pieces ih =>
    rw [List.flatten_cons, List.append_assoc] at hchars
    have hdrop : (view.drop piece.length).chars = pieces.flatten ++ rest :=
      View.chars_drop_length hchars
    have hpiece := htakes piece List.mem_cons_self view _ hchars
    cases pieces with
    | nil =>
      simp only [List.flatten_cons, List.flatten_nil, List.append_nil, List.nil_append,
        List.length_cons, List.length_nil] at hdrop ⊢
      exact .last hpiece (hstop _ hdrop)
    | cons next pieces =>
      have hmore := ih (by simp) hdrop fun piece' h => htakes piece' (List.mem_cons_of_mem _ h)
      rw [List.flatten_cons, List.length_append]
      refine .more hpiece hmore ?_ rfl
      simp only [Combiner.joining, Value.add_str, ← String.ofList_append, List.flatten_cons]

theorem many1_takes_pieces (pieces : List (List Char)) (hne : pieces ≠ []) {rest : List Char}
    (hpieces : ∀ piece ∈ pieces, piece ≠ [])
    (hchars : view.chars = pieces.flatten ++ rest)
    (htakes : ∀ piece ∈ pieces, ∀ (v : View) (after : List Char), v.chars = piece ++ after →
      p.Takes v piece.length (.str (String.ofList piece)))
    (hstop : ∀ v : View, v.chars = rest → p.Fails v) :
    (many1 p .joining).Takes view pieces.flatten.length (.str (String.ofList pieces.flatten)) := by
  apply many1_takes (repeats_pieces pieces hne hchars htakes hstop)
  have hlength : pieces.length ≤ pieces.flatten.length := by
    clear hne hchars htakes hstop
    induction pieces with
    | nil => simp
    | cons piece pieces ih =>
      have hpiece := List.length_pos_iff.mpr (hpieces piece List.mem_cons_self)
      have hrest := ih fun piece' h => hpieces piece' (List.mem_cons_of_mem _ h)
      simp only [List.length_cons, List.flatten_cons, List.length_append]
      omega
  have hsize : view.size = pieces.flatten.length + rest.length := by
    rw [← View.length_chars, hchars, List.length_append]
  omega

theorem firstOf_takes (before after : List Parser) (hbefore : ∀ r ∈ before, r.Fails view)
    (hp : p.Takes view count value) :
    (firstOf (before ++ p :: after)).Takes view count value := by
  induction before with
  | nil =>
    cases after with
    | nil => exact hp
    | cons r after => exact alt_takes_left hp
  | cons r before ih =>
    have hrest := ih fun r' h => hbefore r' (List.mem_cons_of_mem _ h)
    have hr := hbefore r List.mem_cons_self
    cases before with
    | nil => exact alt_takes_right hr hrest
    | cons r' before => exact alt_takes_right hr hrest

theorem firstOf_fails {ps : List Parser} (h : ∀ r ∈ ps, r.Fails view) : (firstOf ps).Fails view := by
  induction ps with
  | nil => exact never_fails _
  | cons r ps ih =>
    cases ps with
    | nil => exact h r List.mem_cons_self
    | cons r' ps =>
      exact alt_fails (h r List.mem_cons_self) (ih fun s hs => h s (List.mem_cons_of_mem _ hs))

-- A cut that does not work: the second part fails, or the first part is not taken entirely.
def CutFails (p q : Parser) (view : View) (cut : Nat) : Prop :=
  q.Fails (view.drop cut) ∨
    ∃ count value, q.Takes (view.drop cut) count value ∧ (complete p).Fails (view.take cut)

def cutsFrom (view : View) (first length : Nat) : List (View × View) :=
  (List.range' first length).map fun cut => (view.take cut, view.drop cut)

-- A cut that does not work leaves the later ones.
theorem searchSplits_skip {cut : Nat} (h : CutFails p q view cut) (cuts : List (View × View))
    (lastFailure : Option Match) :
    ∃ lastFailure', searchSplits p q combine view ((view.take cut, view.drop cut) :: cuts)
      lastFailure = searchSplits p q combine view cuts lastFailure' := by
  rcases h with ⟨second, hs, hq⟩ | ⟨_, _, hq, first, hf, hp⟩
  · refine ⟨lastFailure, ?_⟩
    simp [searchSplits, hq, hs]
  · refine ⟨some first, ?_⟩
    simp [searchSplits, hq.2, hq.failed_eq, hp, hf]

theorem searchSplits_fails (first length : Nat) (lastFailure : Option Match)
    (hcuts : ∀ cut, first ≤ cut → cut < first + length → CutFails p q view cut) :
    Fails (fun view => searchSplits p q combine view (cutsFrom view first length) lastFailure)
      view := by
  induction length generalizing first lastFailure with
  | zero => cases lastFailure <;> exact ⟨_, Match.failed_failureAt _ _ _, rfl⟩
  | succ length ih =>
    have hcut : CutFails p q view first := hcuts first (Nat.le_refl _) (by omega)
    obtain ⟨lastFailure', hskip⟩ := searchSplits_skip hcut
      (cutsFrom view (first + 1) length) lastFailure
    obtain ⟨result, hresult, h⟩ := ih (first + 1) lastFailure' fun cut hfirst hlast =>
      hcuts cut (by omega) (by omega)
    exact ⟨result, hresult, hskip.trans h⟩

-- The first cut that works is chosen.
theorem searchSplits_takes (first length cut : Nat) (lastFailure : Option Match)
    (hfirst : first ≤ cut) (hlast : cut < first + length)
    (hcuts : ∀ earlier, first ≤ earlier → earlier < cut → CutFails p q view earlier)
    (hq : q.Takes (view.drop cut) count' value') (hp : (complete p).Takes (view.take cut) cut value)
    (h : combine value value' = .ok result) (hresult : result.isAbsent = false) :
    Takes (fun view => searchSplits p q combine view (cutsFrom view first length) lastFailure)
      view (cut + count') result := by
  induction length generalizing first lastFailure with
  | zero => omega
  | succ length ih =>
    refine ⟨hresult, ?_⟩
    change searchSplits p q combine view ((view.take first, view.drop first) ::
      cutsFrom view (first + 1) length) lastFailure = _
    rcases Nat.eq_or_lt_of_le hfirst with rfl | hlt
    · have hmerge := merge_taken (view.take first) (view.drop first) first count' h hresult
      simp only [searchSplits, hq.2, pure_bind, hq.failed_eq, Bool.false_eq_true, if_false, hp.2,
        hp.failed_eq, hmerge, View.drop_drop]
      rfl
    · obtain ⟨lastFailure', hskip⟩ := searchSplits_skip (hcuts first (Nat.le_refl _) hlt)
        (cutsFrom view (first + 1) length) lastFailure
      have hlater := ih (first + 1) lastFailure' hlt (by omega) fun earlier hearlier =>
        hcuts earlier (by omega)
      exact hskip.trans hlater.2

theorem splitShortest_fails (hcuts : ∀ cut, 1 ≤ cut → cut < view.size → CutFails p q view cut) :
    (splitShortest p q combine).Fails view :=
  searchSplits_fails 1 (view.size - 1) none fun cut h h' => hcuts cut h (by omega)

theorem splitShortest_takes {cut : Nat} (hfirst : 1 ≤ cut) (hlast : cut < view.size)
    (hcuts : ∀ earlier, 1 ≤ earlier → earlier < cut → CutFails p q view earlier)
    (hq : q.Takes (view.drop cut) count' value') (hp : (complete p).Takes (view.take cut) cut value)
    (h : combine value value' = .ok result) (hresult : result.isAbsent = false) :
    (splitShortest p q combine).Takes view (cut + count') result :=
  searchSplits_takes 1 (view.size - 1) cut none hfirst (by omega) hcuts hq hp h hresult

end Abacus.Parser
