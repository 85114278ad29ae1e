import Abacus.Parser.Basic

namespace Abacus.Parser

-- The last first part that failed is reported, if there was one.
def searchSplits (p q : Parser) (combine : Combiner) (input : View) :
    List (View × View) → Option Match → ParseM Match
  | [], none => pure (.failure input .noSplit)
  | [], some failure => pure (.rebase input failure)
  | (front, back) :: cuts, lastFailure => do
      let second ← q back
      if second.failed then searchSplits p q combine input cuts lastFailure
      else
        let first ← complete p front
        if first.failed then searchSplits p q combine input cuts (some first)
        else first.merge combine second

-- The shortest first part wins that `p` takes entirely and behind which `q` succeeds. As `q` is
-- tried first at every cut, `p` runs only where it can matter. This is how `left op right` is read
-- with a left side that is itself of that form, although nothing recurs on the same input.
def splitShortest (p q : Parser) (combine : Combiner) : Parser := fun input =>
  searchSplits p q combine input input.splits none

end Abacus.Parser
