import Spoils.Single.Basic
import Spoils.Random.Sponge

/-! Deterministic dice: a seeded word generator and the draws made from it.
Every draw gives its result and the dice for the next one. -/
open Spoils.Random

namespace Spoils

/-- State of the word generator. -/
structure Dice where
  s0 : UInt64
  s1 : UInt64
  s2 : UInt64
  s3 : UInt64
deriving DecidableEq, Repr

/-- One step of the seed expander: the word for a counter value. -/
def expand (x : UInt64) : UInt64 :=
  let z := (x ^^^ (x >>> 30)) * 0xbf58476d1ce4e5b9
  let z := (z ^^^ (z >>> 27)) * 0x94d049bb133111eb
  z ^^^ (z >>> 31)

def Dice.ofSeed (seed : UInt64) : Dice :=
  let step : UInt64 := 0x9e3779b97f4a7c15
  { s0 := expand (seed + step)
    s1 := expand (seed + step + step)
    s2 := expand (seed + step + step + step)
    s3 := expand (seed + step + step + step + step) }

/-- The seed with an index under a base seed. -/
def deriveSeed (base index : UInt64) : UInt64 :=
  hashWords base index

namespace Dice

def word (s : Dice) : UInt64 × Dice :=
  let result := rotate (s.s0 + s.s3) 23 + s.s0
  let t := s.s1 <<< 17
  let s2 := s.s2 ^^^ s.s0
  let s3 := s.s3 ^^^ s.s1
  let s1 := s.s1 ^^^ s2
  let s0 := s.s0 ^^^ s3
  (result, ⟨s0, s1, s2 ^^^ t, rotate s3 45⟩)

/-- The next 32-bit word: the upper half of a 64-bit one. -/
def halfWord (s : Dice) : Nat × Dice :=
  let (w, s) := s.word
  (w.toNat / 0x100000000, s)

/-- The largest low half that is accepted for a span: it makes all results equally likely. -/
def zone (span : Nat) : Nat :=
  (span <<< (31 - Nat.log2 span)) - 1

/-- Multiplies half words by the span until the low half is accepted; the high half is the
result. More than half of all words are accepted, so the attempts never run out in practice. -/
def accept (span : Nat) : Nat → Dice → Nat × Dice
  | 0, s => (0, s)
  | attempts + 1, s =>
    let (v, s) := s.halfWord
    let m := v * span
    if m % 0x100000000 ≤ zone span then (m / 0x100000000, s) else accept span attempts s

/-- A uniform integer with `lo ≤ · < hi` from half words; an empty range gives `lo` and draws
nothing. -/
def int (lo hi : Int) (s : Dice) : Int × Dice :=
  if hi ≤ lo then (lo, s)
  else
    let drawn := accept (hi - lo).toNat 4096 s
    (lo + drawn.1, drawn.2)

/-- An integer with `lo ≤ · < hi` from one 64-bit word; an empty range gives `lo` and draws
nothing. -/
def wideInt (lo hi : Int) (s : Dice) : Int × Dice :=
  if hi ≤ lo then (lo, s)
  else
    let (w, s) := s.word
    (lo + (w.toNat % (hi - lo).toNat : Nat), s)

/-- How far two signed words are apart, which may be more than a signed word can hold. -/
def distance (a b : Int64) : UInt64 :=
  if a < b then b.toUInt64 - a.toUInt64 else a.toUInt64 - b.toUInt64

/-- The signed word that a word gives from `lo` on: its remainder by the distance to `hi` is read
as a signed word and added, both with wrapping. -/
def between (lo hi : Int64) (w : UInt64) : Int64 :=
  lo + (w % distance hi lo).toInt64

/-- A signed word with `lo ≤ · < hi` from one 64-bit word; an empty range gives `lo` and draws
nothing. -/
def signed (lo hi : Int64) (s : Dice) : Int64 × Dice :=
  if hi ≤ lo then (lo, s)
  else
    let (w, s) := s.word
    (between lo hi w, s)

def chance (percent : Int) (s : Dice) : Bool × Dice :=
  let (n, s) := s.int 0 100
  (decide (n < percent), s)

/-- A uniform multiple of `2⁻²⁴` in the unit interval, one excluded. -/
def unit (s : Dice) : Single × Dice :=
  let (v, s) := s.halfWord
  (Single.compose ⟨false, v / 0x100, -24⟩, s)

/-- A number from `lo` towards `hi`; an empty range gives `lo` and draws nothing. -/
def single (lo hi : Single) (s : Dice) : Single × Dice :=
  if hi ≤ lo then (lo, s)
  else
    let (u, s) := s.unit
    (lo + (hi - lo) * u, s)

/-- A positive seed for an item or an affix. -/
def seed (s : Dice) : Nat × Dice :=
  let drawn := s.int 1 Bounds.int32.hi
  (drawn.1.toNat, drawn.2)

end Dice

end Spoils
