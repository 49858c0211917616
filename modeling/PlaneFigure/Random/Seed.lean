import PlaneFigure.Random.KeyStream

/-!
Generators from seeds. The key is filled by a small generator of its own: a linear congruential
sequence of 64-bit states, each of which is permuted to one word.
-/

namespace PlaneFigure.Random

/-- The state after `s`. -/
def seedStep (s : UInt64) : UInt64 := s * 6364136223846793005 + 11634580027462260723

/-- The word of a state: the middle bits, rotated by the top five. -/
def seedWord (s : UInt64) : UInt32 :=
  let x := (((s >>> 18) ^^^ s) >>> 27).toUInt32
  let n := (s >>> 59).toUInt32
  (x >>> n) ||| (x <<< ((32 - n) &&& 31))

/-- The words of `n` successive states, in order. -/
def seedWords : (n : Nat) → UInt64 → Vector UInt32 n
  | 0, _ => #v[]
  | n + 1, s =>
    let s := seedStep s
    (#v[seedWord s] ++ seedWords n s).cast (Nat.add_comm 1 n)

/-- The generator of a seed. -/
def Generator.ofSeed (seed : UInt64) : Generator := ⟨seedWords 8 seed, 0⟩

end PlaneFigure.Random
