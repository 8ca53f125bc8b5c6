/-! The 1600-bit sponge permutation and the hash of two words that it gives. -/
namespace Spoils.Random

/-- Twenty-five lanes; lane `x + 5 * y` is column `x` of row `y`. -/
abbrev Lanes := Vector UInt64 25

def rotate (w : UInt64) (n : Nat) : UInt64 :=
  let k := UInt64.ofNat (n % 64)
  if k = 0 then w else (w <<< k) ||| (w >>> (64 - k))

namespace Lanes

def theta (a : Lanes) : Lanes :=
  let parity : Vector UInt64 5 := Vector.ofFn fun x =>
    a[x.val] ^^^ a[x.val + 5] ^^^ a[x.val + 10] ^^^ a[x.val + 15] ^^^ a[x.val + 20]
  let d : Vector UInt64 5 := Vector.ofFn fun x =>
    parity[(x.val + 4) % 5] ^^^ rotate parity[(x.val + 1) % 5] 1
  Vector.ofFn fun i => a[i.val] ^^^ d[i.val % 5]

/-- How far each lane is rotated. -/
def offsets : Vector Nat 25 :=
  #v[0, 1, 62, 28, 27, 36, 44, 6, 55, 20, 3, 10, 43, 25, 39, 41, 45, 15, 21, 8, 18, 2, 61, 56, 14]

/-- Rotates the lanes and moves lane `(x, y)` to `(y, 2 x + 3 y)`. -/
def rhoPi (a : Lanes) : Lanes :=
  Vector.ofFn fun i =>
    let row := i.val / 5
    let column := i.val % 5
    let source := (column + 3 * row) % 5 + 5 * column
    have : source < 25 := by omega
    rotate a[source] offsets[source]

def chi (a : Lanes) : Lanes :=
  Vector.ofFn fun i =>
    let row := 5 * (i.val / 5)
    a[i.val] ^^^ (~~~ a[row + (i.val + 1) % 5] &&& a[row + (i.val + 2) % 5])

def iota (constant : UInt64) (a : Lanes) : Lanes :=
  a.set 0 (a[0] ^^^ constant)

def roundConstants : List UInt64 :=
  [0x0000000000000001, 0x0000000000008082, 0x800000000000808a, 0x8000000080008000,
   0x000000000000808b, 0x0000000080000001, 0x8000000080008081, 0x8000000000008009,
   0x000000000000008a, 0x0000000000000088, 0x0000000080008009, 0x000000008000000a,
   0x000000008000808b, 0x800000000000008b, 0x8000000000008089, 0x8000000000008003,
   0x8000000000008002, 0x8000000000000080, 0x000000000000800a, 0x800000008000000a,
   0x8000000080008081, 0x8000000000008080, 0x0000000080000001, 0x8000000080008008]

def permute (a : Lanes) : Lanes :=
  roundConstants.foldl (fun a constant => iota constant (chi (rhoPi (theta a)))) a

end Lanes

/-- One padded block of a 136-byte rate that holds two little-endian words. -/
def block (first second : UInt64) : Lanes :=
  ((((Vector.replicate 25 (0 : UInt64)).set 0 first).set 1 second).set 2 0x06).set 16
    0x8000000000000000

/-- The first word of the 256-bit hash of two words. -/
def hashWords (first second : UInt64) : UInt64 :=
  (block first second).permute[0]

end Spoils.Random
