import Abacus.Proofs.Parsing.Repetition
import Mathlib.Data.Nat.Find
import Mathlib.Tactic.ByContra

namespace Abacus.Parser

variable {p q : Parser} {view : View} {combine : Combiner}
  {described described' result : List Char → Value → Prop}

-- The parser reads what is described, or it fails.
def Reads (p : Parser) (view : View) (described : List Char → Value → Prop) : Prop :=
  p.Fails view ∨ ∃ count value, count ≤ view.size ∧ p.Takes view count value ∧
    described (view.chars.take count) value

theorem Reads.mono (h : p.Reads view described)
    (himp : ∀ text value, described text value → described' text value) :
    p.Reads view described' := by
  rcases h with h | ⟨count, value, hcount, h, htext⟩
  · exact .inl h
  · exact .inr ⟨count, value, hcount, h, himp _ _ htext⟩

-- What is taken is the beginning of the view.
theorem Reads.within (h : p.Reads view described) :
    p.Reads view fun text value => text <+: view.chars ∧ described text value := by
  rcases h with h | ⟨count, value, hcount, h, htext⟩
  · exact .inl h
  · exact .inr ⟨count, value, hcount, h, List.take_prefix _ _, htext⟩

-- Where nothing that is described stands, the parser fails.
theorem Reads.fails (h : p.Reads view described)
    (hnone : ∀ text value, text <+: view.chars → ¬described text value) : p.Fails view := by
  rcases h with h | ⟨count, value, -, -, htext⟩
  · exact h
  · exact absurd htext (hnone _ _ (List.take_prefix _ _))

theorem Reads.present (h : p.Reads view described) :
    p.Reads view fun text value => value.isAbsent = false ∧ described text value := by
  rcases h with h | ⟨count, value, hcount, h, htext⟩
  · exact .inl h
  · exact .inr ⟨count, value, hcount, h, h.1, htext⟩

-- The match that a parser comes to, whatever the state.
theorem Reads.exists_pure (h : p.Reads view described) : ∃ result, p view = pure result ∧
      (result.failed = false → ∃ text, view.chars = text ++ result.rest.chars ∧
        result.rest = view.drop text.length ∧ described text result.value) := by
  rcases h with ⟨result, hf, h⟩ | ⟨count, value, hcount, h, htext⟩
  · refine ⟨result, h, fun hok => ?_⟩
    rw [hf] at hok
    cases hok
  · refine ⟨_, h.2, fun _ => ⟨view.chars.take count, ?_, ?_, htext⟩⟩
    · rw [Match.taken, View.chars_drop, List.take_append_drop]
    · rw [Match.taken, List.length_take, View.length_chars, Nat.min_eq_left hcount]

theorem always_reads {value : Value} (h : value.isAbsent = false) :
    (always value).Reads view fun text read => text = [] ∧ read = value :=
  .inr ⟨0, value, Nat.zero_le _, always_takes h, by simp⟩

theorem satisfy_reads (suits : Char → Bool) (expected : String) :
    (satisfy suits expected).Reads view fun text value =>
      ∃ c, suits c = true ∧ text = [c] ∧ value = .str (String.ofList [c]) := by
  cases hchars : view.chars with
  | nil => exact .inl (satisfy_fails (by simp [hchars]))
  | cons c rest =>
    by_cases hc : suits c = true
    · refine .inr ⟨1, _, ?_, satisfy_takes hchars hc, c, hc, by simp [hchars], rfl⟩
      rw [← View.length_chars, hchars]
      simp
    · refine .inl (satisfy_fails fun c' h => ?_)
      simp only [hchars, List.head?_cons, Option.mem_def, Option.some.injEq] at h
      exact h ▸ Bool.eq_false_iff.mpr hc

theorem seq_reads (hp : p.Reads view described)
    (hq : ∀ count value, count ≤ view.size → described (view.chars.take count) value →
      q.Reads (view.drop count) described')
    (hcombine : ∀ text value text' value', described text value → described' text' value' →
      ∃ combined, combine value value' = .ok combined ∧ combined.isAbsent = false ∧
        result (text ++ text') combined) :
    (seq p q combine).Reads view result := by
  rcases hp with hp | ⟨count, value, hcount, hp, htext⟩
  · exact .inl (seq_fails_left hp)
  · rcases hq count value hcount htext with hq | ⟨count', value', hcount', hq, htext'⟩
    · exact .inl (seq_fails_right hp hq)
    · obtain ⟨combined, hok, hpresent, hresult⟩ := hcombine _ _ _ _ htext htext'
      refine .inr ⟨count + count', combined, ?_, seq_takes hp hq hok hpresent, ?_⟩
      · rw [View.size_drop] at hcount'
        omega
      · rwa [List.take_add, ← View.chars_drop]

theorem seq_first_reads (hp : p.Reads view described)
    (hq : ∀ count value, count ≤ view.size → described (view.chars.take count) value →
      q.Reads (view.drop count) described') :
    (seq p q .first).Reads view fun text value =>
      ∃ front back value', text = front ++ back ∧ described front value ∧ described' back value' :=
  seq_reads hp.present (fun count value hcount h => hq count value hcount h.2)
    fun text value text' value' h h' => ⟨value, rfl, h.1, text, text', value', rfl, h.2, h'⟩

theorem seq_second_reads (hp : p.Reads view described)
    (hq : ∀ count value, count ≤ view.size → described (view.chars.take count) value →
      q.Reads (view.drop count) described') :
    (seq p q .second).Reads view fun text value =>
      ∃ front back value', text = front ++ back ∧ described front value' ∧ described' back value :=
  seq_reads hp (fun count value hcount h => (hq count value hcount h).present)
    fun text value text' value' h h' => ⟨value', rfl, h'.1, text, text', value, rfl, h, h'.2⟩

theorem alt_reads (hp : p.Reads view described) (hq : q.Reads view described) :
    (alt p q).Reads view described := by
  rcases hp with hp | ⟨count, value, hcount, hp, htext⟩
  · rcases hq with hq | ⟨count, value, hcount, hq, htext⟩
    · exact .inl (alt_fails hp hq)
    · exact .inr ⟨count, value, hcount, alt_takes_right hp hq, htext⟩
  · exact .inr ⟨count, value, hcount, alt_takes_left hp, htext⟩

theorem optionally_reads (hp : p.Reads view described) :
    (optionally p).Reads view fun text value =>
      described text value ∨ (text = [] ∧ value = .str "") :=
  alt_reads (hp.mono fun _ _ => .inl) ((always_reads rfl).mono fun _ _ => .inr)

theorem firstOf_reads {ps : List Parser} (h : ∀ r ∈ ps, r.Reads view described) :
    (firstOf ps).Reads view described := by
  induction ps with
  | nil => exact .inl (never_fails _)
  | cons r ps ih =>
    cases ps with
    | nil => exact h r List.mem_cons_self
    | cons r' ps =>
      exact alt_reads (h r List.mem_cons_self) (ih fun s hs => h s (List.mem_cons_of_mem _ hs))

theorem complete_reads (hp : p.Reads view described) :
    (complete p).Reads view fun text value => text = view.chars ∧ described text value := by
  rcases hp with hp | ⟨count, value, hcount, hp, htext⟩
  · exact .inl (complete_fails_of_fails hp)
  · rcases Nat.eq_or_lt_of_le hcount with rfl | hlt
    · have htake : view.chars.take view.size = view.chars := by
        rw [← View.length_chars, List.take_length]
      exact .inr ⟨_, value, hcount, complete_takes hp, htake, htext⟩
    · exact .inl (complete_fails hp hlt)

-- In front of a cut all is read, or nothing.
theorem complete_take_reads {cut : Nat} (hcut : cut ≤ view.size)
    (hp : p.Reads (view.take cut) described) :
    (complete p).Fails (view.take cut) ∨ ∃ value, (complete p).Takes (view.take cut) cut value ∧
      described (view.chars.take cut) value := by
  have hsize : (view.take cut).size = cut := by
    rw [View.size_take]
    omega
  rcases complete_reads hp with hfails | ⟨count, value, hcount, htakes, hall, htext⟩
  · exact .inl hfails
  have hcount' : count = cut := by
    have hlength := congrArg List.length hall
    rw [List.length_take, View.length_chars] at hlength
    omega
  rw [hall, View.chars_take] at htext
  exact .inr ⟨value, hcount' ▸ htakes, htext⟩

theorem mapValue_reads {change : Value → Except Fault Value} (hp : p.Reads view described)
    (hchange : ∀ text value, described text value →
      ∃ changed, change value = .ok changed ∧ changed.isAbsent = false ∧ result text changed) :
    (mapValue p change).Reads view result := by
  rcases hp with hp | ⟨count, value, hcount, hp, htext⟩
  · exact .inl (mapValue_fails hp)
  · obtain ⟨changed, hok, hpresent, hresult⟩ := hchange _ _ htext
    exact .inr ⟨count, changed, hcount, mapValue_takes hp hok hpresent, hresult⟩

theorem reword_reads {change : Complaint → Complaint} (hp : p.Reads view described) :
    (reword p change).Reads view described := by
  rcases hp with hp | ⟨count, value, hcount, hp, htext⟩
  · exact .inl (reword_fails hp)
  · exact .inr ⟨count, value, hcount, reword_takes hp, htext⟩

-- There are enough rounds where each of them takes something.
theorem repeatWithin_reads (hp : ∀ view, p.Reads view described)
    (hprogress : ∀ text value, described text value → text ≠ [])
    (hone : ∀ text value, described text value → result text value)
    (hmore : ∀ text value text' value', described text value → result text' value' →
      ∃ combined, combine value value' = .ok combined ∧ combined.isAbsent = false ∧
        result (text ++ text') combined)
    {rounds : Nat} (hrounds : view.size < rounds) :
    (repeatWithin p combine rounds).Reads view result := by
  induction rounds generalizing view with
  | zero => omega
  | succ rounds ih =>
    refine alt_reads (seq_reads (hp view) (fun count value hcount htext => ih ?_) hmore)
      ((hp view).mono hone)
    have hne : 0 < count := by
      rcases Nat.eq_zero_or_pos count with rfl | hpos
      · exact absurd rfl (hprogress _ _ htext)
      · exact hpos
    rw [View.size_drop]
    omega

theorem many1_reads (hp : ∀ view, p.Reads view described)
    (hprogress : ∀ text value, described text value → text ≠ [])
    (hone : ∀ text value, described text value → result text value)
    (hmore : ∀ text value text' value', described text value → result text' value' →
      ∃ combined, combine value value' = .ok combined ∧ combined.isAbsent = false ∧
        result (text ++ text') combined) :
    (many1 p combine).Reads view result :=
  repeatWithin_reads hp hprogress hone hmore (Nat.lt_succ_self _)

-- A cut works if what is in front of it is read as a whole, and what is behind it is read too.
theorem cutFails_or_takes {cut : Nat} {behind : List Char → Value → Prop} (hcut : cut ≤ view.size)
    (hp : p.Reads (view.take cut) described) (hq : q.Reads (view.drop cut) behind) :
    CutFails p q view cut ∨ ∃ value count' value', cut + count' ≤ view.size ∧
      (complete p).Takes (view.take cut) cut value ∧ q.Takes (view.drop cut) count' value' ∧
      described (view.chars.take cut) value ∧ behind ((view.chars.drop cut).take count') value' := by
  rcases hq with hfails | ⟨count', value', hcount', hq, hbehind⟩
  · exact .inl (.inl hfails)
  rcases complete_take_reads hcut hp with hfails | ⟨value, hp, hfront⟩
  · exact .inl (.inr ⟨count', value', hq, hfails⟩)
  rw [View.size_drop] at hcount'
  rw [View.chars_drop] at hbehind
  exact .inr ⟨value, count', value', by omega, hp, hq, hfront, hbehind⟩

-- The first cut that works is the one that counts, and what is read behind a cut may hang on where
-- the cut is.
theorem splitShortest_reads {behind : Nat → List Char → Value → Prop}
    (hp : ∀ cut, 1 ≤ cut → cut < view.size → p.Reads (view.take cut) described)
    (hq : ∀ cut, 1 ≤ cut → cut < view.size → q.Reads (view.drop cut) (behind cut))
    (hcombine : ∀ cut value text' value', 1 ≤ cut → cut < view.size →
      described (view.chars.take cut) value → behind cut text' value' →
      ∃ combined, combine value value' = .ok combined ∧ combined.isAbsent = false ∧
        result (view.chars.take cut ++ text') combined) :
    (splitShortest p q combine).Reads view result := by
  classical
  by_cases hexists : ∃ cut, 1 ≤ cut ∧ cut < view.size ∧ ¬CutFails p q view cut
  · obtain ⟨hfirst, hlast, hworks⟩ := Nat.find_spec hexists
    have hcuts : ∀ earlier, 1 ≤ earlier → earlier < Nat.find hexists →
        CutFails p q view earlier := by
      intro earlier hearlier hlt
      by_contra hnot
      exact Nat.find_min hexists hlt ⟨hearlier, by omega, hnot⟩
    generalize Nat.find hexists = cut at *
    obtain ⟨value, count', value', hcount, hp, hq, hfront, hbehind⟩ :=
      (cutFails_or_takes (Nat.le_of_lt hlast) (hp cut hfirst hlast)
        (hq cut hfirst hlast)).resolve_left hworks
    obtain ⟨combined, hok, hpresent, hresult⟩ := hcombine _ _ _ _ hfirst hlast hfront hbehind
    refine .inr ⟨cut + count', combined, hcount,
      splitShortest_takes hfirst hlast hcuts hq hp hok hpresent, ?_⟩
    rwa [List.take_add]
  · left
    apply splitShortest_fails
    intro cut hfirst hlast
    by_contra hnot
    exact hexists ⟨cut, hfirst, hlast, hnot⟩

end Abacus.Parser
