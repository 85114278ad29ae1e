import Abacus.Text.Quoted

namespace Abacus

-- Why a parse attempt failed.
inductive Complaint
  -- Words that a pattern gives itself.
  | note (words : String)
  | endOfInput
  | unsuitable (found : Char) (expected : String)
  | unexpected (text : String)
  | unconsumed (text : String)
  | noSplit
  | emptySequence
  | noAlternatives
  -- Another complaint with words put around it.
  | framed (before : String) (inner : Complaint) (after : String)
deriving DecidableEq, Repr

def Complaint.text : Complaint → String
  | note words => words
  | endOfInput => "reached end of input string"
  | unsuitable found expected =>
      Text.quoted (String.singleton found) ++ " does not match expected " ++ expected
  | unexpected text => "unexpected " ++ Text.quoted text
  | unconsumed text => "unconsumed input: " ++ Text.quoted text
  | noSplit => "no split point matches"
  | emptySequence => "empty chain"
  | noAlternatives => "no alternatives"
  | framed before inner after => before ++ inner.text ++ after

theorem Complaint.text_framed_behind (inner : Complaint) (after : String) :
    (framed "" inner after).text = inner.text ++ after := by
  change "" ++ inner.text ++ after = _
  rw [String.empty_append]

end Abacus
