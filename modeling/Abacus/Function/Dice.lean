import Abacus.Binary64

namespace Abacus

-- The words of a Mersenne Twister, and how many of them are used.
structure Twister where
  words : Array UInt32
  used : Nat

namespace Twister

def size : Nat := 624

def word (words : Array UInt32) (index : Nat) : UInt32 := words.getD (index % size) 0

-- The mixture of the top bit of a word and the other bits of the next one.
def twist (high low : UInt32) : UInt32 :=
  let mixed := (high &&& 0x80000000) ||| (low &&& 0x7fffffff)
  (mixed >>> 1) ^^^ (if mixed &&& 1 = 0 then 0 else 0x9908b0df)

-- A fresh set of words, each made of words that precede it.
def regenerate (words : Array UInt32) : Array UInt32 :=
  (List.range size).foldl
    (fun words i =>
      words.setIfInBounds i
        (word words (i + 397) ^^^ twist (word words i) (word words (i + 1))))
    words

def temper (w : UInt32) : UInt32 :=
  let w := w ^^^ (w >>> 11)
  let w := w ^^^ ((w <<< 7) &&& 0x9d2c5680)
  let w := w ^^^ ((w <<< 15) &&& 0xefc60000)
  w ^^^ (w >>> 18)

def next (twister : Twister) : UInt32 × Twister :=
  let ready := if size ≤ twister.used then ⟨regenerate twister.words, 0⟩ else twister
  (temper (word ready.words ready.used), { ready with used := ready.used + 1 })

def ofWord (seed : UInt32) : Array UInt32 :=
  (List.range (size - 1)).foldl
    (fun words i =>
      let last := word words i
      words.push ((1812433253 : UInt32) * (last ^^^ (last >>> 30)) + UInt32.ofNat (i + 1)))
    #[seed]

-- A place in the words, from one up, and the words mixed so far.
structure Mixing where
  index : Nat
  words : Array UInt32

def Mixing.step (factor : UInt32) (addend : Nat → UInt32) (mixing : Mixing) : Mixing :=
  let last := word mixing.words (mixing.index - 1)
  let mixed := (word mixing.words mixing.index ^^^ ((last ^^^ (last >>> 30)) * factor))
    + addend mixing.index
  let words := mixing.words.setIfInBounds mixing.index mixed
  if mixing.index + 1 < size then ⟨mixing.index + 1, words⟩
  else ⟨1, words.setIfInBounds 0 mixed⟩

-- Mixes a key into the words, over and over if it is short.
def ofKey (key : Array UInt32) : Twister :=
  let rounds := max size key.size
  let keyed := (List.range rounds).foldl
    (fun mixing j =>
      let j := j % key.size
      mixing.step 1664525 (fun _ => key.getD j 0 + UInt32.ofNat j))
    (⟨1, ofWord 19650218⟩ : Mixing)
  let mixed := (List.range (size - 1)).foldl
    (fun (mixing : Mixing) _ => mixing.step 1566083941 fun i => 0 - UInt32.ofNat i) keyed
  ⟨mixed.words.setIfInBounds 0 0x80000000, size⟩

-- The 32-bit digits of a number, the least one first.
def digits (n : Nat) : Array UInt32 :=
  let count := n.log2 / 32 + 1
  ((List.range count).map fun i => UInt32.ofNat (n >>> (32 * i))).toArray

def ofSeed (seed : Int) : Twister := ofKey (digits seed.natAbs)

-- A number in [0, 1) with 53 random bits.
def draw (twister : Twister) : Float × Twister :=
  let (high, twister) := twister.next
  let (low, twister) := twister.next
  let bits := (high >>> 5).toNat * Nat.pow 2 26 + (low >>> 6).toNat
  (Binary64.ofDyadic false bits (-53), twister)

end Twister

inductive Dice
  | twister (generator : Twister)
  | cycle (numbers : List Float)

namespace Dice

def ofSeed (seed : Int) : Dice := twister (.ofSeed seed)

def draw : StateM Dice Float
  | twister generator => (generator.draw.1, twister generator.draw.2)
  | cycle [] => (0, cycle [])
  | cycle (number :: rest) => (number, cycle (rest ++ [number]))

end Dice

end Abacus
