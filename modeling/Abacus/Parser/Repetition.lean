import Abacus.Parser.Basic

namespace Abacus.Parser

-- Whatever has to be repeated more often than its input allows.
def stalled : Parser := fun _ => throw .noProgress

-- A view of `n` characters is left after at most `n` attempts that take something, so that `n + 1`
-- rounds are enough, unless the parser takes nothing.
def repeatWithin (p : Parser) (combine : Combiner) : Nat → Parser
  | 0 => stalled
  | rounds + 1 => alt (seq p (repeatWithin p combine rounds) combine) p

def many1 (p : Parser) (combine : Combiner) : Parser := fun input =>
  repeatWithin p combine (input.size + 1) input

def optionally (p : Parser) : Parser := alt p (always (.str ""))

def many (p : Parser) (combine : Combiner) : Parser := optionally (many1 p combine)

def repeatUntilWithin (body stop : Parser) (combine : Combiner) : Nat → Parser
  | 0 => stalled
  | rounds + 1 => alt stop (seq body (repeatUntilWithin body stop combine rounds) combine)

-- The match of `stop` is the last part of the result.
def manyTill (body stop : Parser) (combine : Combiner) : Parser := fun input =>
  repeatUntilWithin body stop combine (input.size + 1) input

def many1Till (body stop : Parser) (combine : Combiner) : Parser :=
  seq body (alt stop (manyTill body stop combine)) combine

def sequence (combine : Combiner) : List Parser → Parser
  | [] => never .emptySequence
  | [p] => p
  | p :: ps => seq p (sequence combine ps) combine

-- Keeps the payload of the parser at `index`, or of the last one.
def sequenceKeeping : List Parser → Int → Parser
  | [], _ => never .emptySequence
  | [p], _ => p
  | p :: ps, index =>
      seq p (sequenceKeeping ps (index - 1)) (if index = 0 then Combiner.first else Combiner.second)

-- The first success, or else the last failure.
def firstOf : List Parser → Parser
  | [] => never .noAlternatives
  | [p] => p
  | p :: ps => alt p (firstOf ps)

end Abacus.Parser
