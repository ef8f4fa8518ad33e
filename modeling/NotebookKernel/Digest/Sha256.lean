namespace NotebookKernel.Sha256

abbrev Digest := Vector UInt8 32

/-- The first 32 bits of the fractional parts of the cube roots of the first 64 primes. -/
def roundConstants : List UInt32 := [
  0x428a2f98, 0x71374491, 0xb5c0fbcf, 0xe9b5dba5, 0x3956c25b, 0x59f111f1, 0x923f82a4, 0xab1c5ed5,
  0xd807aa98, 0x12835b01, 0x243185be, 0x550c7dc3, 0x72be5d74, 0x80deb1fe, 0x9bdc06a7, 0xc19bf174,
  0xe49b69c1, 0xefbe4786, 0x0fc19dc6, 0x240ca1cc, 0x2de92c6f, 0x4a7484aa, 0x5cb0a9dc, 0x76f988da,
  0x983e5152, 0xa831c66d, 0xb00327c8, 0xbf597fc7, 0xc6e00bf3, 0xd5a79147, 0x06ca6351, 0x14292967,
  0x27b70a85, 0x2e1b2138, 0x4d2c6dfc, 0x53380d13, 0x650a7354, 0x766a0abb, 0x81c2c92e, 0x92722c85,
  0xa2bfe8a1, 0xa81a664b, 0xc24b8b70, 0xc76c51a3, 0xd192e819, 0xd6990624, 0xf40e3585, 0x106aa070,
  0x19a4c116, 0x1e376c08, 0x2748774c, 0x34b0bcb5, 0x391c0cb3, 0x4ed8aa4a, 0x5b9cca4f, 0x682e6ff3,
  0x748f82ee, 0x78a5636f, 0x84c87814, 0x8cc70208, 0x90befffa, 0xa4506ceb, 0xbef9a3f7, 0xc67178f2]

structure State where
  a : UInt32
  b : UInt32
  c : UInt32
  d : UInt32
  e : UInt32
  f : UInt32
  g : UInt32
  h : UInt32

namespace State

/-- The first 32 bits of the fractional parts of the square roots of the first 8 primes. -/
def start : State :=
  ⟨0x6a09e667, 0xbb67ae85, 0x3c6ef372, 0xa54ff53a, 0x510e527f, 0x9b05688c, 0x1f83d9ab, 0x5be0cd19⟩

def add (s t : State) : State :=
  ⟨s.a + t.a, s.b + t.b, s.c + t.c, s.d + t.d, s.e + t.e, s.f + t.f, s.g + t.g, s.h + t.h⟩

def words (s : State) : Vector UInt32 8 := #v[s.a, s.b, s.c, s.d, s.e, s.f, s.g, s.h]

end State

def rotateRight (x : UInt32) (n : UInt32) : UInt32 := (x >>> n) ||| (x <<< (32 - n))

def round (s : State) (constant word : UInt32) : State :=
  let sum1 := rotateRight s.e 6 ^^^ rotateRight s.e 11 ^^^ rotateRight s.e 25
  let choice := (s.e &&& s.f) ^^^ (~~~s.e &&& s.g)
  let t1 := s.h + sum1 + choice + constant + word
  let sum0 := rotateRight s.a 2 ^^^ rotateRight s.a 13 ^^^ rotateRight s.a 22
  let majority := (s.a &&& s.b) ^^^ (s.a &&& s.c) ^^^ (s.b &&& s.c)
  ⟨t1 + (sum0 + majority), s.a, s.b, s.c, s.d + t1, s.e, s.f, s.g⟩

/-- The message schedule keeps the last sixteen words; word `t` stands at `t % 16`. -/
abbrev Window := Vector UInt32 16

namespace Window

def word (w : Window) (t : Nat) : UInt32 := w.get ⟨t % 16, Nat.mod_lt t (by decide)⟩

/-- Word `t` gives way to word `t + 16`. -/
def extend (w : Window) (t : Nat) : Window :=
  let early := w.word (t + 1)
  let late := w.word (t + 14)
  let small0 := rotateRight early 7 ^^^ rotateRight early 18 ^^^ (early >>> 3)
  let small1 := rotateRight late 17 ^^^ rotateRight late 19 ^^^ (late >>> 10)
  w.set (t % 16) (small1 + w.word (t + 9) + small0 + w.word t) (Nat.mod_lt t (by decide))

end Window

def compress (s : State) (w : Window) : State :=
  let step (acc : State × Window × Nat) (constant : UInt32) : State × Window × Nat :=
    let (s, w, t) := acc
    (round s constant (w.word t), w.extend t, t + 1)
  s.add (roundConstants.foldl step (s, w, 0)).1

/-- The bytes of `n`, the most significant first. -/
def bigEndian (length n : Nat) : List UInt8 :=
  (List.range length).reverse.map fun i => .ofNat (n >>> (8 * i))

/-- What follows a message of `n` bytes: a one bit, zeros up to a multiple of the block size, and the length
in bits. -/
def padding (n : Nat) : List UInt8 :=
  let zeros := (119 - n % 64) % 64
  0x80 :: (List.replicate zeros 0 ++ bigEndian 8 (8 * n))

def padded (message : List UInt8) : List UInt8 := message ++ padding message.length

def wordAt (bytes : Array UInt8) (i : Nat) : UInt32 :=
  let byte (j : Nat) : UInt32 := (bytes.getD (i + j) 0).toUInt32
  (byte 0 <<< 24) ||| (byte 1 <<< 16) ||| (byte 2 <<< 8) ||| byte 3

def window (bytes : Array UInt8) (block : Nat) : Window :=
  Vector.ofFn fun i => wordAt bytes (64 * block + 4 * i.val)

def digestOfWords (words : Vector UInt32 8) : Digest :=
  Vector.ofFn fun i =>
    let word := words.get ⟨i.val / 4, by omega⟩
    (word >>> (8 * (3 - .ofNat (i.val % 4)))).toUInt8

/-- The whole blocks of `bytes`. -/
def blocks (bytes : List UInt8) : List Window :=
  let bytes := bytes.toArray
  (List.range (bytes.size / 64)).map (window bytes)

def absorb (s : State) (bytes : List UInt8) : State := (blocks bytes).foldl compress s

def hash (message : List UInt8) : Digest :=
  digestOfWords (absorb .start (padded message)).words

end NotebookKernel.Sha256
