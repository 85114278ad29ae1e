import Abacus.Match.Basic
import Abacus.Proofs.Faulting

namespace Abacus

namespace Source

variable {source : Source} {offset : Int}

-- Whatever newlines were found before, the line of an offset is found.
theorem exists_lineIndex (hfirst : 0 ≤ offset) (hlast : offset ≤ source.size) (table : LineTable) :
    ∃ index table', (source.lineIndex offset).run table = (.ok index, table') := by
  have hinside : ¬(offset < 0 ∨ (source.size : Int) < offset) := by omega
  have hbound : ¬(source.size : Int) < offset := by omega
  unfold lineIndex findNewlines
  rw [if_neg hinside, if_neg hbound]
  by_cases hend : offset = source.size ∧ source.endsWithNewline = true
  · simp only [if_pos hend]
    exact ⟨_, _, rfl⟩
  · simp only [if_neg hend]
    exact ⟨_, _, rfl⟩

theorem exists_excerpt (hfirst : 0 ≤ offset) (hlast : offset ≤ source.size)
    (label message : String) :
    ∃ excerpt, source.excerpt offset offset label message = .ok excerpt := by
  have hrange : ¬(offset < 0 ∨ offset < offset) := by omega
  obtain ⟨index, table', hindex⟩ := exists_lineIndex hfirst hlast {}
  unfold excerpt findExcerpt
  rw [if_neg hrange]
  dsimp only
  rw [Faulting.run_bind_of_ok hindex]
  exact ⟨_, rfl⟩

end Source

namespace Match

-- A failure that points into its text can be reported.
theorem exists_diagnostic {result : Match} (hf : result.failed = true)
    (hfirst : 0 ≤ result.errorAt) (hlast : result.errorAt ≤ result.rest.source.size)
    (label : String) : ∃ words, result.diagnostic label = .ok words := by
  obtain ⟨excerpt, hexcerpt⟩ :=
    Source.exists_excerpt hfirst hlast label result.complaint.text
  refine ⟨excerpt.text, ?_⟩
  simp only [diagnostic, ok, hf, hfirst, if_true, hexcerpt]
  rfl

end Match

end Abacus
