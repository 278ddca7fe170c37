import Skirmish.Random.Source

/-!
# The generator of battles

The generator xoshiro256++ with its state of four words.  The state is filled
from a seed of one word by a second, simpler generator: a linear congruential
one whose output is permuted (PCG32), eight words of 32 bits in all.  All
arithmetic wraps.
-/

namespace Skirmish.Random

/-- The state of xoshiro256++. -/
structure Xoshiro where
  s0 : UInt64
  s1 : UInt64
  s2 : UInt64
  s3 : UInt64
deriving DecidableEq

/-- Rotate to the left. -/
def rotateLeft (x : UInt64) (k : UInt64) : UInt64 := (x <<< k) ||| (x >>> (64 - k))

/-- Rotate to the right. -/
def rotateRight (x : UInt32) (k : UInt32) : UInt32 := (x >>> k) ||| (x <<< (32 - k))

namespace Xoshiro

/-- The next word. -/
def next (g : Xoshiro) : UInt64 × Xoshiro :=
  let result := rotateLeft (g.s0 + g.s3) 23 + g.s0
  let t := g.s1 <<< 17
  let s2 := g.s2 ^^^ g.s0
  let s3 := g.s3 ^^^ g.s1
  let s1 := g.s1 ^^^ s2
  let s0 := g.s0 ^^^ s3
  (result, ⟨s0, s1, s2 ^^^ t, rotateLeft s3 45⟩)

/-- The next state of the seeding generator. -/
def seedStep (state : UInt64) : UInt64 := state * 6364136223846793005 + 11634580027462260723

/-- The output of a state of the seeding generator. -/
def seedOutput (state : UInt64) : UInt32 :=
  rotateRight (((state >>> 18) ^^^ state) >>> 27).toUInt32 (state >>> 59).toUInt32

/-- The next word of the seeding generator, the lower half first. -/
def seedWord (state : UInt64) : UInt64 × UInt64 :=
  let first := seedStep state
  let second := seedStep first
  ((seedOutput first).toUInt64 ||| ((seedOutput second).toUInt64 <<< 32), second)

/-- The generator that belongs to a seed. -/
def ofSeed (seed : UInt64) : Xoshiro :=
  let (s0, state) := seedWord seed
  let (s1, state) := seedWord state
  let (s2, state) := seedWord state
  let (s3, _) := seedWord state
  ⟨s0, s1, s2, s3⟩

end Xoshiro

instance : WordSource Xoshiro := ⟨Xoshiro.next⟩

end Skirmish.Random
