/-!
The key stream behind random numbers: ChaCha with twelve rounds, a block counter of 64 bits that
starts at zero, and stream number zero. A generator is a key and the number of draws taken.
-/

namespace PlaneFigure.Random

/-- The sixteen words of a block. -/
abbrev Block := Vector UInt32 16

def rotateLeft (x : UInt32) (n : UInt32) : UInt32 := (x <<< n) ||| (x >>> (32 - n))

/-- Mix the words at four places. -/
def quarterRound (s : Block) (i j k l : Fin 16) : Block :=
  let a := s[i] + s[j]
  let d := rotateLeft (s[l] ^^^ a) 16
  let c := s[k] + d
  let b := rotateLeft (s[j] ^^^ c) 12
  let a := a + b
  let d := rotateLeft (d ^^^ a) 8
  let c := c + d
  let b := rotateLeft (b ^^^ c) 7
  (((s.set i a).set j b).set k c).set l d

/-- A round on the columns and a round on the diagonals. -/
def doubleRound (s : Block) : Block :=
  let s := quarterRound s 0 4 8 12
  let s := quarterRound s 1 5 9 13
  let s := quarterRound s 2 6 10 14
  let s := quarterRound s 3 7 11 15
  let s := quarterRound s 0 5 10 15
  let s := quarterRound s 1 6 11 12
  let s := quarterRound s 2 7 8 13
  quarterRound s 3 4 9 14

/-- The state from which the block with a given counter is computed. -/
def initialBlock (key : Vector UInt32 8) (counter : UInt64) : Block :=
  let constants : Vector UInt32 4 := #v[0x61707865, 0x3320646e, 0x79622d32, 0x6b206574]
  let position : Vector UInt32 4 := #v[counter.toUInt32, (counter >>> 32).toUInt32, 0, 0]
  constants ++ key ++ position

/-- The block with a given counter: six double rounds, added to the state they started from. -/
def block (key : Vector UInt32 8) (counter : UInt64) : Block :=
  let start := initialBlock key counter
  (Nat.repeat doubleRound 6 start).zipWith (· + ·) start

structure Generator where
  key : Vector UInt32 8
  /-- How many 64-bit numbers were drawn. -/
  taken : Nat
  deriving DecidableEq, Repr

/-- The next number: two successive words of the stream, the low one first. -/
def Generator.next (g : Generator) : UInt64 × Generator :=
  let words := block g.key (UInt64.ofNat (g.taken / 8))
  let place : Fin 8 := Fin.ofNat 8 g.taken
  let low := words[2 * place.val]
  let high := words[2 * place.val + 1]
  (low.toUInt64 ||| (high.toUInt64 <<< 32), { g with taken := g.taken + 1 })

end PlaneFigure.Random
