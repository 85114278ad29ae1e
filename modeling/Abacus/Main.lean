import Abacus.Command.Run

open Abacus in
def main (arguments : List String) : IO UInt32 := do
  let now ← IO.monoNanosNow
  let outcome := Command.run arguments (Dice.ofSeed now)
  IO.print outcome.output
  IO.eprint outcome.errors
  return UInt32.ofNat outcome.status
