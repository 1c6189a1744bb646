/-
Digests: short numbers that tell whether texts are the same.
-/
import CheckScript.Outside.Shell.Program.Text

namespace CheckScript
namespace Shell
namespace Digest

/-! ## Words -/

def rotateLeft (x : UInt32) (n : Nat) : UInt32 :=
  (x <<< UInt32.ofNat n) ||| (x >>> UInt32.ofNat (32 - n))

def rotateRight (x : UInt32) (n : Nat) : UInt32 := rotateLeft x (32 - n)

/-- A number in bytes, the smallest part last. -/
def bytesOf (size n : Nat) : List Nat :=
  ((List.range size).map fun i => n / Nat.pow 256 i % 256).reverse

def ofBytes (bs : List Nat) : Nat := bs.foldl (fun n b => 256 * n + b) 0

def chunksOf {α : Type} (size : Nat) : Nat → List α → List (List α)
  | 0, _ | _, [] => []
  | fuel + 1, l => l.take size :: chunksOf size fuel (l.drop size)

/-- The text in blocks of sixteen words: behind it stands a mark, then zeros, then its
length in bits.  With `smallFirst` the smallest part of a number comes first. -/
def blocks (smallFirst : Bool) (b : Bytes) : List (List UInt32) :=
  let order (bs : List Nat) : List Nat := if smallFirst then bs.reverse else bs
  let size := b.length
  let zeros := (119 - size % 64) % 64
  let padded := b.map Char.toNat ++ 128 :: List.replicate zeros 0 ++
    order (bytesOf 8 (8 * size % Nat.pow 2 64))
  let words := (chunksOf 4 padded.length padded).map fun bs => UInt32.ofNat (ofBytes (order bs))
  chunksOf 16 words.length words

def hexDigits (bs : List Nat) : Bytes :=
  bs.flatMap fun b => [Nat.digitChar (b / 16), Nat.digitChar (b % 16)]

def wordText (smallFirst : Bool) (w : UInt32) : Bytes :=
  let bs := bytesOf 4 w.toNat
  hexDigits (if smallFirst then bs.reverse else bs)

def word (ws : Array UInt32) (i : Nat) : UInt32 := ws[i]?.getD 0

/-- Add the words of a block's outcome to those before it. -/
def addAll (a b : List UInt32) : List UInt32 := List.zipWith (· + ·) a b

/-! ## The digest of four words -/

def sines : Array UInt32 :=
  #[0xd76aa478, 0xe8c7b756, 0x242070db, 0xc1bdceee, 0xf57c0faf, 0x4787c62a,
    0xa8304613, 0xfd469501, 0x698098d8, 0x8b44f7af, 0xffff5bb1, 0x895cd7be,
    0x6b901122, 0xfd987193, 0xa679438e, 0x49b40821, 0xf61e2562, 0xc040b340,
    0x265e5a51, 0xe9b6c7aa, 0xd62f105d, 0x02441453, 0xd8a1e681, 0xe7d3fbc8,
    0x21e1cde6, 0xc33707d6, 0xf4d50d87, 0x455a14ed, 0xa9e3e905, 0xfcefa3f8,
    0x676f02d9, 0x8d2a4c8a, 0xfffa3942, 0x8771f681, 0x6d9d6122, 0xfde5380c,
    0xa4beea44, 0x4bdecfa9, 0xf6bb4b60, 0xbebfbc70, 0x289b7ec6, 0xeaa127fa,
    0xd4ef3085, 0x04881d05, 0xd9d4d039, 0xe6db99e5, 0x1fa27cf8, 0xc4ac5665,
    0xf4292244, 0x432aff97, 0xab9423a7, 0xfc93a039, 0x655b59c3, 0x8f0ccc92,
    0xffeff47d, 0x85845dd1, 0x6fa87e4f, 0xfe2ce6e0, 0xa3014314, 0x4e0811a1,
    0xf7537e82, 0xbd3af235, 0x2ad7d2bb, 0xeb86d391]

/-- By how much words are turned, in each of the four rounds. -/
def turns : List (List Nat) := [[7, 12, 17, 22], [5, 9, 14, 20], [4, 11, 16, 23], [6, 10, 15, 21]]

def fourStep (block : Array UInt32) (s : List UInt32) (i : Nat) : List UInt32 :=
  match s with
  | [a, b, c, d] =>
    let (f, place) := match i / 16 with
      | 0 => ((b &&& c) ||| (~~~b &&& d), i)
      | 1 => ((d &&& b) ||| (~~~d &&& c), 5 * i + 1)
      | 2 => (b ^^^ c ^^^ d, 3 * i + 5)
      | _ => (c ^^^ (b ||| ~~~d), 7 * i)
    let turn := ((turns[i / 16]?.getD [])[i % 4]?).getD 0
    let sum := a + f + word sines i + word block (place % 16)
    [d, b + rotateLeft sum turn, b, c]
  | s => s

def fourWords (b : Bytes) : Bytes :=
  let start : List UInt32 := [0x67452301, 0xefcdab89, 0x98badcfe, 0x10325476]
  let last := (blocks true b).foldl (fun s block =>
    addAll s ((List.range 64).foldl (fourStep block.toArray) s)) start
  last.flatMap (wordText true)

/-! ## The digest of five words -/

def fiveSchedule (block : List UInt32) : Array UInt32 :=
  (List.range 64).foldl (fun (ws : Array UInt32) i =>
    ws.push (rotateLeft
      (word ws (i + 13) ^^^ word ws (i + 8) ^^^ word ws (i + 2) ^^^ word ws i) 1)) block.toArray

def fiveStep (ws : Array UInt32) (s : List UInt32) (i : Nat) : List UInt32 :=
  match s with
  | [a, b, c, d, e] =>
    let (f, k) : UInt32 × UInt32 := match i / 20 with
      | 0 => ((b &&& c) ||| (~~~b &&& d), 0x5a827999)
      | 1 => (b ^^^ c ^^^ d, 0x6ed9eba1)
      | 2 => ((b &&& c) ||| (b &&& d) ||| (c &&& d), 0x8f1bbcdc)
      | _ => (b ^^^ c ^^^ d, 0xca62c1d6)
    [rotateLeft a 5 + f + e + k + word ws i, a, rotateLeft b 30, c, d]
  | s => s

def fiveWords (b : Bytes) : Bytes :=
  let start : List UInt32 := [0x67452301, 0xefcdab89, 0x98badcfe, 0x10325476, 0xc3d2e1f0]
  let last := (blocks false b).foldl (fun s block =>
    addAll s ((List.range 80).foldl (fiveStep (fiveSchedule block)) s)) start
  last.flatMap (wordText false)

/-! ## The digest of eight words -/

def cubeRoots : Array UInt32 :=
  #[0x428a2f98, 0x71374491, 0xb5c0fbcf, 0xe9b5dba5, 0x3956c25b, 0x59f111f1,
    0x923f82a4, 0xab1c5ed5, 0xd807aa98, 0x12835b01, 0x243185be, 0x550c7dc3,
    0x72be5d74, 0x80deb1fe, 0x9bdc06a7, 0xc19bf174, 0xe49b69c1, 0xefbe4786,
    0x0fc19dc6, 0x240ca1cc, 0x2de92c6f, 0x4a7484aa, 0x5cb0a9dc, 0x76f988da,
    0x983e5152, 0xa831c66d, 0xb00327c8, 0xbf597fc7, 0xc6e00bf3, 0xd5a79147,
    0x06ca6351, 0x14292967, 0x27b70a85, 0x2e1b2138, 0x4d2c6dfc, 0x53380d13,
    0x650a7354, 0x766a0abb, 0x81c2c92e, 0x92722c85, 0xa2bfe8a1, 0xa81a664b,
    0xc24b8b70, 0xc76c51a3, 0xd192e819, 0xd6990624, 0xf40e3585, 0x106aa070,
    0x19a4c116, 0x1e376c08, 0x2748774c, 0x34b0bcb5, 0x391c0cb3, 0x4ed8aa4a,
    0x5b9cca4f, 0x682e6ff3, 0x748f82ee, 0x78a5636f, 0x84c87814, 0x8cc70208,
    0x90befffa, 0xa4506ceb, 0xbef9a3f7, 0xc67178f2]

def eightSchedule (block : List UInt32) : Array UInt32 :=
  (List.range 48).foldl (fun (ws : Array UInt32) i =>
    let x := word ws (i + 1)
    let y := word ws (i + 14)
    let small := rotateRight x 7 ^^^ rotateRight x 18 ^^^ (x >>> 3)
    let large := rotateRight y 17 ^^^ rotateRight y 19 ^^^ (y >>> 10)
    ws.push (word ws i + small + word ws (i + 9) + large)) block.toArray

def eightStep (ws : Array UInt32) (s : List UInt32) (i : Nat) : List UInt32 :=
  match s with
  | [a, b, c, d, e, f, g, h] =>
    let one := rotateRight e 6 ^^^ rotateRight e 11 ^^^ rotateRight e 25
    let choice := (e &&& f) ^^^ (~~~e &&& g)
    let sum := h + one + choice + word cubeRoots i + word ws i
    let two := rotateRight a 2 ^^^ rotateRight a 13 ^^^ rotateRight a 22
    let most := (a &&& b) ^^^ (a &&& c) ^^^ (b &&& c)
    [sum + two + most, a, b, c, d + sum, e, f, g]
  | s => s

def eightWords (b : Bytes) : Bytes :=
  let start : List UInt32 :=
    [0x6a09e667, 0xbb67ae85, 0x3c6ef372, 0xa54ff53a, 0x510e527f, 0x9b05688c,
      0x1f83d9ab, 0x5be0cd19]
  let last := (blocks false b).foldl (fun s block =>
    addAll s ((List.range 64).foldl (eightStep (eightSchedule block)) s)) start
  last.flatMap (wordText false)

/-! ## The check sum -/

/-- Divide by a polynomial, bit by bit. -/
def divideByte (rest : UInt32) (b : Nat) : UInt32 :=
  (List.range 8).foldl (fun (r : UInt32) _ =>
    if r >>> 31 = 1 then (r <<< 1) ^^^ 0x04c11db7 else r <<< 1) (rest ^^^ (UInt32.ofNat b <<< 24))

/-- The bytes of a number, the smallest part first, without zeros behind. -/
def shortBytes : Nat → Nat → List Nat
  | 0, _ => []
  | fuel + 1, n => if n = 0 then [] else n % 256 :: shortBytes fuel (n / 256)

def checkSum (b : Bytes) : Nat :=
  (~~~((b.map Char.toNat ++ shortBytes 8 b.length).foldl divideByte 0)).toNat

end Digest

namespace Job

/-- Print a digest for each file. -/
def digests (digest : Bytes → Bytes) : Job Unit := do
  let g ← given 1 "btz" "" [("binary", 'b'), ("text", 't'), ("zero", 'z')]
  sources g |> eachOf fun name => do
    match ← readOperand name with
    | .ok b =>
      let mark := if g.has 'b' then [' ', '*'] else [' ', ' ']
      print (digest b ++ mark ++ name ++ (if g.has 'z' then ['\x00'] else ['\n']))
    | .error reason => warn 1 (Quoting.ifNeeded name ++ ": ".toList ++ reason.toList)

def cksum : Job Unit := do
  let g ← given 1 "" "" []
  sources g |> eachOf fun name => do
    match ← readOperand name with
    | .ok b =>
      printLine (Bytes.ofNat (Digest.checkSum b) ++ ' ' :: Bytes.ofNat b.length ++
        (if g.operands.isEmpty then [] else ' ' :: name))
    | .error reason => warn 1 (Quoting.ifNeeded name ++ ": ".toList ++ reason.toList)

end Job
end Shell
end CheckScript
