import ComputeNet.Bytes

/-!
# SHA-256

The hash function of the Secure Hash Standard with 32-bit words: the padded message is cut into
blocks of sixteen words, and each block updates a state of eight words in 64 rounds. `hash`
gives the 32 bytes of the final state. Every step is plain recursion on lists, so the kernel can
evaluate a hash as well as the compiled program.
-/

namespace ComputeNet.Sha256

/-- The eight words that the blocks update. -/
structure State where
  a : UInt32
  b : UInt32
  c : UInt32
  d : UInt32
  e : UInt32
  f : UInt32
  g : UInt32
  h : UInt32
deriving DecidableEq

/-- The state before the first block: the fractional parts of the square roots of the first
eight primes. -/
def initial : State where
  a := 0x6a09e667
  b := 0xbb67ae85
  c := 0x3c6ef372
  d := 0xa54ff53a
  e := 0x510e527f
  f := 0x9b05688c
  g := 0x1f83d9ab
  h := 0x5be0cd19

/-- One word a round: the fractional parts of the cube roots of the first 64 primes. -/
def roundConstants : List UInt32 := [
  0x428a2f98, 0x71374491, 0xb5c0fbcf, 0xe9b5dba5, 0x3956c25b, 0x59f111f1, 0x923f82a4, 0xab1c5ed5,
  0xd807aa98, 0x12835b01, 0x243185be, 0x550c7dc3, 0x72be5d74, 0x80deb1fe, 0x9bdc06a7, 0xc19bf174,
  0xe49b69c1, 0xefbe4786, 0x0fc19dc6, 0x240ca1cc, 0x2de92c6f, 0x4a7484aa, 0x5cb0a9dc, 0x76f988da,
  0x983e5152, 0xa831c66d, 0xb00327c8, 0xbf597fc7, 0xc6e00bf3, 0xd5a79147, 0x06ca6351, 0x14292967,
  0x27b70a85, 0x2e1b2138, 0x4d2c6dfc, 0x53380d13, 0x650a7354, 0x766a0abb, 0x81c2c92e, 0x92722c85,
  0xa2bfe8a1, 0xa81a664b, 0xc24b8b70, 0xc76c51a3, 0xd192e819, 0xd6990624, 0xf40e3585, 0x106aa070,
  0x19a4c116, 0x1e376c08, 0x2748774c, 0x34b0bcb5, 0x391c0cb3, 0x4ed8aa4a, 0x5b9cca4f, 0x682e6ff3,
  0x748f82ee, 0x78a5636f, 0x84c87814, 0x8cc70208, 0x90befffa, 0xa4506ceb, 0xbef9a3f7, 0xc67178f2]

/-- The word turned right by `n` bits. -/
def rotateRight (x n : UInt32) : UInt32 := x >>> n ||| x <<< (32 - n)

/-- One round with its constant `k` and message word `w`. -/
def round (s : State) (k w : UInt32) : State :=
  let mixed := rotateRight s.e 6 ^^^ rotateRight s.e 11 ^^^ rotateRight s.e 25
  let chosen := (s.e &&& s.f) ^^^ (~~~s.e &&& s.g)
  let t := s.h + mixed + chosen + k + w
  let turned := rotateRight s.a 2 ^^^ rotateRight s.a 13 ^^^ rotateRight s.a 22
  let majority := (s.a &&& s.b) ^^^ (s.a &&& s.c) ^^^ (s.b &&& s.c)
  ⟨t + turned + majority, s.a, s.b, s.c, s.d + t, s.e, s.f, s.g⟩

/-- The word that follows a window of sixteen message words. -/
def nextWord (window : List UInt32) : UInt32 :=
  let x := window.getD 14 0
  let y := window.getD 1 0
  (rotateRight x 17 ^^^ rotateRight x 19 ^^^ x >>> 10) + window.getD 9 0 +
    (rotateRight y 7 ^^^ rotateRight y 18 ^^^ y >>> 3) + window.getD 0 0

/-- The rounds for a list of constants. The window holds the words of the next sixteen rounds
and moves on by one word a round. -/
def rounds : List UInt32 → List UInt32 → State → State
  | [], _, s => s
  | k :: ks, window, s =>
    rounds ks (window.tail ++ [nextWord window]) (round s k (window.getD 0 0))

/-- The state after one block of sixteen words. -/
def compress (s : State) (block : List UInt32) : State :=
  let t := rounds roundConstants block s
  ⟨s.a + t.a, s.b + t.b, s.c + t.c, s.d + t.d, s.e + t.e, s.f + t.f, s.g + t.g, s.h + t.h⟩

/-- The message with a one bit, zero bits up to the end of a block, and its length in bits. -/
def pad (message : Bytes) : Bytes :=
  message ++ 0x80 :: List.replicate ((119 - message.length % 64) % 64) 0 ++
    bigEndian 8 (8 * message.length)

/-- The words of a byte string whose length is a multiple of 4. -/
def wordsOf : Bytes → List UInt32
  | a :: b :: c :: d :: rest =>
    UInt32.ofNat (ofBigEndian [a, b, c, d]) :: wordsOf rest
  | _ => []

/-- The state after `n` blocks. -/
def absorb : Nat → List UInt32 → State → State
  | 0, _, s => s
  | n + 1, words, s => absorb n (words.drop 16) (compress s (words.take 16))

def State.words (s : State) : List UInt32 := [s.a, s.b, s.c, s.d, s.e, s.f, s.g, s.h]

def hash (message : Bytes) : FixedBytes 32 :=
  let words := wordsOf (pad message)
  let final := absorb (words.length / 16) words initial
  ⟨final.words.flatMap fun w => bigEndian 4 w.toNat, by simp [State.words]⟩

end ComputeNet.Sha256
