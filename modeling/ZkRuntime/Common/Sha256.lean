import ZkRuntime.Common.Bytes
/-!
# SHA-256

`sha256.Sum256`, as the standard describes it: padding to whole blocks of
sixteen words, the message schedule, and sixty-four rounds a block.
-/

namespace ZkRuntime

namespace Sha256

/-- A rotation to the right. -/
def rotr (n x : UInt32) : UInt32 := (x >>> n) ||| (x <<< (32 - n))

def bigSigma0 (x : UInt32) : UInt32 := rotr 2 x ^^^ rotr 13 x ^^^ rotr 22 x

def bigSigma1 (x : UInt32) : UInt32 := rotr 6 x ^^^ rotr 11 x ^^^ rotr 25 x

def smallSigma0 (x : UInt32) : UInt32 := rotr 7 x ^^^ rotr 18 x ^^^ (x >>> 3)

def smallSigma1 (x : UInt32) : UInt32 := rotr 17 x ^^^ rotr 19 x ^^^ (x >>> 10)

def ch (x y z : UInt32) : UInt32 := (x &&& y) ^^^ (~~~x &&& z)

def maj (x y z : UInt32) : UInt32 := (x &&& y) ^^^ (x &&& z) ^^^ (y &&& z)

/-- The round constants. -/
def roundConstants : List UInt32 :=
  [0x428a2f98, 0x71374491, 0xb5c0fbcf, 0xe9b5dba5, 0x3956c25b, 0x59f111f1, 0x923f82a4, 0xab1c5ed5,
   0xd807aa98, 0x12835b01, 0x243185be, 0x550c7dc3, 0x72be5d74, 0x80deb1fe, 0x9bdc06a7, 0xc19bf174,
   0xe49b69c1, 0xefbe4786, 0x0fc19dc6, 0x240ca1cc, 0x2de92c6f, 0x4a7484aa, 0x5cb0a9dc, 0x76f988da,
   0x983e5152, 0xa831c66d, 0xb00327c8, 0xbf597fc7, 0xc6e00bf3, 0xd5a79147, 0x06ca6351, 0x14292967,
   0x27b70a85, 0x2e1b2138, 0x4d2c6dfc, 0x53380d13, 0x650a7354, 0x766a0abb, 0x81c2c92e, 0x92722c85,
   0xa2bfe8a1, 0xa81a664b, 0xc24b8b70, 0xc76c51a3, 0xd192e819, 0xd6990624, 0xf40e3585, 0x106aa070,
   0x19a4c116, 0x1e376c08, 0x2748774c, 0x34b0bcb5, 0x391c0cb3, 0x4ed8aa4a, 0x5b9cca4f, 0x682e6ff3,
   0x748f82ee, 0x78a5636f, 0x84c87814, 0x8cc70208, 0x90befffa, 0xa4506ceb, 0xbef9a3f7, 0xc67178f2]

/-- The chaining value, or the eight working variables. -/
structure Words where
  a : UInt32
  b : UInt32
  c : UInt32
  d : UInt32
  e : UInt32
  f : UInt32
  g : UInt32
  h : UInt32

def initialWords : Words :=
  ⟨0x6a09e667, 0xbb67ae85, 0x3c6ef372, 0xa54ff53a, 0x510e527f, 0x9b05688c, 0x1f83d9ab, 0x5be0cd19⟩

def Words.add (x y : Words) : Words :=
  ⟨x.a + y.a, x.b + y.b, x.c + y.c, x.d + y.d, x.e + y.e, x.f + y.f, x.g + y.g, x.h + y.h⟩

/-- One round, with the word `w` of the schedule and the constant `k`. -/
def round (x : Words) (k w : UInt32) : Words :=
  let t₁ := x.h + bigSigma1 x.e + ch x.e x.f x.g + k + w
  let t₂ := bigSigma0 x.a + maj x.a x.b x.c
  ⟨t₁ + t₂, x.a, x.b, x.c, x.d + t₁, x.e, x.f, x.g⟩

/-- The rounds over the remaining constants. `window` holds the next
sixteen words of the schedule and is moved on by one a round. -/
def rounds : List UInt32 → List UInt32 → Words → Words
  | [], _, x => x
  | k :: ks, window, x =>
    let w := window.headD 0
    let next := smallSigma1 (window.getD 14 0) + window.getD 9 0 + smallSigma0 (window.getD 1 0) + w
    rounds ks (window.tail ++ [next]) (round x k w)

def compress (x : Words) (block : List UInt32) : Words := x.add (rounds roundConstants block x)

/-- The message with its padding: a one bit, zeros, and its length in bits. -/
def pad (bs : Bytes) : Bytes :=
  bs ++ (0x80 : UInt8) :: List.replicate ((119 - bs.length % 64) % 64) 0 ++
    (List.range 8).map (fun i => ((8 * bs.length) >>> (8 * (7 - i))).toUInt8)

/-- Big-endian words. -/
def words : Bytes → List UInt32
  | a :: b :: c :: d :: bs =>
    ((a.toUInt32 <<< 24) ||| (b.toUInt32 <<< 16) ||| (c.toUInt32 <<< 8) ||| d.toUInt32) :: words bs
  | _ => []

/-- The blocks in turn; `n` bounds their number. -/
def absorb : ℕ → Words → List UInt32 → Words
  | 0, x, _ => x
  | n + 1, x, ws => if ws.isEmpty then x else absorb n (compress x (ws.take 16)) (ws.drop 16)

def wordBytes (w : UInt32) : Bytes :=
  [(w >>> 24).toUInt8, (w >>> 16).toUInt8, (w >>> 8).toUInt8, w.toUInt8]

/-- `Sum256`. -/
def sum256 (bs : Bytes) : Bytes :=
  let ws := words (pad bs)
  let x := absorb ws.length initialWords ws
  [x.a, x.b, x.c, x.d, x.e, x.f, x.g, x.h].flatMap wordBytes

example : (sum256 (ascii "abc")).take 4 = [0xba, 0x78, 0x16, 0xbf] := by decide +kernel

-- The length takes two bytes, and the padding a second block.
example : (sum256 (List.replicate 56 0x61)).take 4 = [0xb3, 0x54, 0x39, 0xa4] := by decide +kernel

end Sha256

end ZkRuntime
