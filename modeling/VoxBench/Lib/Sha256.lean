import Mathlib.Algebra.Group.Nat.Defs
import Mathlib.Data.List.Basic

/-!
# SHA-256

The digest of a list of bytes, on words as natural numbers below `2 ^ 32`.

## Main definitions

* `Sha256.digest`, `Sha256.hexdigest`.
-/

namespace VoxBench.Lib.Sha256

/-- Addition of words. -/
def add (x y : ℕ) : ℕ := (x + y) % 2 ^ 32

/-- Rotation of a word to the right. -/
def rotr (x n : ℕ) : ℕ := (x >>> n) ||| ((x <<< (32 - n)) % 2 ^ 32)

def bigSigma0 (x : ℕ) : ℕ := rotr x 2 ^^^ rotr x 13 ^^^ rotr x 22
def bigSigma1 (x : ℕ) : ℕ := rotr x 6 ^^^ rotr x 11 ^^^ rotr x 25
def smallSigma0 (x : ℕ) : ℕ := rotr x 7 ^^^ rotr x 18 ^^^ (x >>> 3)
def smallSigma1 (x : ℕ) : ℕ := rotr x 17 ^^^ rotr x 19 ^^^ (x >>> 10)

/-- `y` where `x` has a bit, `z` where it has none. -/
def choose (x y z : ℕ) : ℕ := (x &&& y) ^^^ ((2 ^ 32 - 1 - x) &&& z)

def majority (x y z : ℕ) : ℕ := (x &&& y) ^^^ (x &&& z) ^^^ (y &&& z)

def constants : List ℕ :=
  [0x428a2f98, 0x71374491, 0xb5c0fbcf, 0xe9b5dba5, 0x3956c25b, 0x59f111f1,
    0x923f82a4, 0xab1c5ed5, 0xd807aa98, 0x12835b01, 0x243185be, 0x550c7dc3,
    0x72be5d74, 0x80deb1fe, 0x9bdc06a7, 0xc19bf174, 0xe49b69c1, 0xefbe4786,
    0x0fc19dc6, 0x240ca1cc, 0x2de92c6f, 0x4a7484aa, 0x5cb0a9dc, 0x76f988da,
    0x983e5152, 0xa831c66d, 0xb00327c8, 0xbf597fc7, 0xc6e00bf3, 0xd5a79147,
    0x06ca6351, 0x14292967, 0x27b70a85, 0x2e1b2138, 0x4d2c6dfc, 0x53380d13,
    0x650a7354, 0x766a0abb, 0x81c2c92e, 0x92722c85, 0xa2bfe8a1, 0xa81a664b,
    0xc24b8b70, 0xc76c51a3, 0xd192e819, 0xd6990624, 0xf40e3585, 0x106aa070,
    0x19a4c116, 0x1e376c08, 0x2748774c, 0x34b0bcb5, 0x391c0cb3, 0x4ed8aa4a,
    0x5b9cca4f, 0x682e6ff3, 0x748f82ee, 0x78a5636f, 0x84c87814, 0x8cc70208,
    0x90befffa, 0xa4506ceb, 0xbef9a3f7, 0xc67178f2]

def initial : List ℕ :=
  [0x6a09e667, 0xbb67ae85, 0x3c6ef372, 0xa54ff53a, 0x510e527f, 0x9b05688c,
    0x1f83d9ab, 0x5be0cd19]

/-- The message with its padding: a one bit, zeros, and the length in bits. -/
def pad (message : List UInt8) : List ℕ :=
  let bytes := message.map UInt8.toNat
  let zeros := (119 - bytes.length % 64) % 64
  let bits := bytes.length * 8
  bytes ++ [0x80] ++ List.replicate zeros 0 ++
    (List.range 8).map fun i => (bits >>> (8 * (7 - i))) % 256

/-- Big-endian words of four bytes. -/
def words : List ℕ → List ℕ
  | a :: b :: c :: d :: rest => (((a * 256 + b) * 256 + c) * 256 + d) :: words rest
  | _ => []

/-- The next word of a message schedule, which is held in reverse. -/
def nextWord (schedule : List ℕ) : ℕ :=
  add (add (smallSigma1 (schedule.getD 1 0)) (schedule.getD 6 0))
    (add (smallSigma0 (schedule.getD 14 0)) (schedule.getD 15 0))

/-- The message schedule of a block of sixteen words. -/
def schedule (block : List ℕ) : List ℕ :=
  ((List.range 48).foldl (fun w _ => nextWord w :: w) block.reverse).reverse

/-- One round on the eight working words. -/
def round (state : List ℕ) (constant word : ℕ) : List ℕ :=
  match state with
  | [a, b, c, d, e, f, g, h] =>
      let t1 := add (add (add h (bigSigma1 e)) (choose e f g)) (add constant word)
      let t2 := add (bigSigma0 a) (majority a b c)
      [add t1 t2, a, b, c, add d t1, e, f, g]
  | state => state

/-- The state after a block. -/
def compress (state block : List ℕ) : List ℕ :=
  List.zipWith add state
    ((constants.zip (schedule block)).foldl (fun s kw => round s kw.1 kw.2) state)

/-- The state after all blocks. -/
def run (fuel : ℕ) (state message : List ℕ) : List ℕ :=
  match fuel, message with
  | 0, _ | _, [] => state
  | fuel + 1, message => run fuel (compress state (message.take 16)) (message.drop 16)

def digest (message : List UInt8) : List ℕ :=
  let padded := words (pad message)
  run padded.length initial padded

/-- Eight hexadecimal digits of a word. -/
def hexWord (word : ℕ) : List Char :=
  (List.range 8).map fun i => Nat.digitChar ((word >>> (4 * (7 - i))) % 16)

/-- The digest as hexadecimal text. -/
def hexdigest (message : List UInt8) : String :=
  String.ofList ((digest message).flatMap hexWord)

example : hexdigest "abc".toUTF8.toList =
    "ba7816bf8f01cfea414140de5dae2223b00361a396177a9cb410ff61f20015ad" := by
  decide +kernel

end VoxBench.Lib.Sha256
