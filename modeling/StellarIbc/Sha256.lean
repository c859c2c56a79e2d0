import StellarIbc.Bytes

/-!
# SHA-256

The hash function of FIPS 180-4 on byte strings, executable.  The rest of the
development takes the hash as a parameter; this is the function the hosts put there,
and concrete runs are evaluated with it.  Words are natural numbers below `2 ^ 32`.
-/

namespace StellarIbc.Sha256

def word (n : Nat) : Nat := n % 2 ^ 32

def rotr (x n : Nat) : Nat := (x >>> n) ||| word (x <<< (32 - n))

def smallSigma0 (x : Nat) : Nat := rotr x 7 ^^^ rotr x 18 ^^^ (x >>> 3)
def smallSigma1 (x : Nat) : Nat := rotr x 17 ^^^ rotr x 19 ^^^ (x >>> 10)
def bigSigma0 (x : Nat) : Nat := rotr x 2 ^^^ rotr x 13 ^^^ rotr x 22
def bigSigma1 (x : Nat) : Nat := rotr x 6 ^^^ rotr x 11 ^^^ rotr x 25

def ch (x y z : Nat) : Nat := (x &&& y) ^^^ ((2 ^ 32 - 1 - x) &&& z)
def maj (x y z : Nat) : Nat := (x &&& y) ^^^ (x &&& z) ^^^ (y &&& z)

def roundConstants : List Nat :=
  [0x428a2f98, 0x71374491, 0xb5c0fbcf, 0xe9b5dba5, 0x3956c25b, 0x59f111f1,
    0x923f82a4, 0xab1c5ed5, 0xd807aa98, 0x12835b01, 0x243185be, 0x550c7dc3,
    0x72be5d74, 0x80deb1fe, 0x9bdc06a7, 0xc19bf174, 0xe49b69c1, 0xefbe4786,
    0x0fc19dc6, 0x240ca1cc, 0x2de92c6f, 0x4a7484aa, 0x5cb0a9dc, 0x76f988da,
    0x983e5152, 0xa831c66d, 0xb00327c8, 0xbf597fc7, 0xc6e00bf3, 0xd5a79147,
    0x06ca6351, 0x14292967, 0x27b70a85, 0x2e1b2138, 0x4d2c6dfc, 0x53380d13,
    0x650a7354, 0x766a0abb, 0x81c2c92e, 0x92722c85, 0xa2bfe8a1, 0xa81a664b,
    0xc24b8b70, 0xc76c51a3, 0xd192e819, 0xd6990624, 0xf40e3585, 0x106aa070,
    0x19a4c116, 0x1e376c08, 0x2748774c, 0x34b0bcb5, 0x391c0cb3, 0x4ed8aa4a,
    0x5b9cca4f, 0x682e6ff3, 0x748f82ee, 0x78a5636f, 0x84c87814, 0x8cc70208,
    0x90befffa, 0xa4506ceb, 0xbef9a3f7, 0xc67178f2]

structure Registers where
  a : Nat
  b : Nat
  c : Nat
  d : Nat
  e : Nat
  f : Nat
  g : Nat
  h : Nat

def initial : Registers :=
  ⟨0x6a09e667, 0xbb67ae85, 0x3c6ef372, 0xa54ff53a,
    0x510e527f, 0x9b05688c, 0x1f83d9ab, 0x5be0cd19⟩

/-- The message schedule, newest word first: `count` more words. -/
def schedule : Nat → List Nat → List Nat
  | 0, words => words
  | count + 1, words =>
      schedule count
        (word (smallSigma1 (words.getD 1 0) + words.getD 6 0 +
          smallSigma0 (words.getD 14 0) + words.getD 15 0) :: words)

def round (s : Registers) (k w : Nat) : Registers :=
  let t1 := s.h + bigSigma1 s.e + ch s.e s.f s.g + k + w
  let t2 := bigSigma0 s.a + maj s.a s.b s.c
  ⟨word (t1 + t2), s.a, s.b, s.c, word (s.d + t1), s.e, s.f, s.g⟩

def rounds (s : Registers) : List Nat → List Nat → Registers
  | k :: ks, w :: ws => rounds (round s k w) ks ws
  | _, _ => s

def compress (s : Registers) (block : List Nat) : Registers :=
  let t := rounds s roundConstants (schedule 48 block.reverse).reverse
  ⟨word (s.a + t.a), word (s.b + t.b), word (s.c + t.c), word (s.d + t.d),
    word (s.e + t.e), word (s.f + t.f), word (s.g + t.g), word (s.h + t.h)⟩

/-- A one bit, zeros and the length in bits, up to a multiple of 64 bytes. -/
def pad (message : Bytes) : Bytes :=
  message ++ 0x80 :: List.replicate ((119 - message.length % 64) % 64) 0 ++
    beBytes 8 (8 * message.length)

def words : Nat → Bytes → List Nat
  | 0, _ => []
  | count + 1, bytes => ofBeBytes (bytes.take 4) :: words count (bytes.drop 4)

def blocks (s : Registers) : Nat → Bytes → Registers
  | 0, _ => s
  | count + 1, bytes => blocks (compress s (words 16 bytes)) count (bytes.drop 64)

def digest (message : Bytes) : Registers :=
  let padded := pad message
  blocks initial (padded.length / 64) padded

def sha256 (message : Bytes) : Hash :=
  let s := digest message
  ⟨beBytes 4 s.a ++ beBytes 4 s.b ++ beBytes 4 s.c ++ beBytes 4 s.d ++
    beBytes 4 s.e ++ beBytes 4 s.f ++ beBytes 4 s.g ++ beBytes 4 s.h, by simp⟩

example : ofBeBytes (sha256 (ascii "abc")).val =
    0xba7816bf8f01cfea414140de5dae2223b00361a396177a9cb410ff61f20015ad := by
  decide +kernel

/-! ### Evaluation

The same function for the kernel: with the operations on `Nat` that it computes by itself,
and the last sixteen words of the schedule at hand instead of in a list. -/

namespace Eval

def word (n : Nat) : Nat := Nat.mod n 4294967296

def rotr (x n : Nat) : Nat :=
  Nat.lor (Nat.shiftRight x n) (word (Nat.shiftLeft x (Nat.sub 32 n)))

def smallSigma0 (x : Nat) : Nat :=
  Nat.xor (Nat.xor (rotr x 7) (rotr x 18)) (Nat.shiftRight x 3)

def smallSigma1 (x : Nat) : Nat :=
  Nat.xor (Nat.xor (rotr x 17) (rotr x 19)) (Nat.shiftRight x 10)

def bigSigma0 (x : Nat) : Nat := Nat.xor (Nat.xor (rotr x 2) (rotr x 13)) (rotr x 22)

def bigSigma1 (x : Nat) : Nat := Nat.xor (Nat.xor (rotr x 6) (rotr x 11)) (rotr x 25)

def ch (x y z : Nat) : Nat := Nat.xor (Nat.land x y) (Nat.land (Nat.sub 4294967295 x) z)

def maj (x y z : Nat) : Nat :=
  Nat.xor (Nat.xor (Nat.land x y) (Nat.land x z)) (Nat.land y z)

/-- The word sixteen after `w0`. -/
def nextWord (w0 w1 w9 w14 : Nat) : Nat :=
  word (Nat.add (Nat.add (Nat.add (smallSigma1 w14) w9) (smallSigma0 w1)) w0)

/-- The schedule from sixteen words on, oldest word first: `count` words. -/
def expand : Nat → (w0 w1 w2 w3 w4 w5 w6 w7 w8 w9 w10 w11 w12 w13 w14 w15 : Nat) → List Nat
  | 0, _, _, _, _, _, _, _, _, _, _, _, _, _, _, _, _ => []
  | count + 1, w0, w1, w2, w3, w4, w5, w6, w7, w8, w9, w10, w11, w12, w13, w14, w15 =>
      w0 :: expand count w1 w2 w3 w4 w5 w6 w7 w8 w9 w10 w11 w12 w13 w14 w15
        (nextWord w0 w1 w9 w14)

def rounds : List Nat →
    (w0 w1 w2 w3 w4 w5 w6 w7 w8 w9 w10 w11 w12 w13 w14 w15 a b c d e f g h : Nat) → Registers
  | [], _, _, _, _, _, _, _, _, _, _, _, _, _, _, _, _, a, b, c, d, e, f, g, h =>
      ⟨a, b, c, d, e, f, g, h⟩
  | k :: ks, w0, w1, w2, w3, w4, w5, w6, w7, w8, w9, w10, w11, w12, w13, w14, w15,
      a, b, c, d, e, f, g, h =>
      let t1 := Nat.add (Nat.add (Nat.add (Nat.add h (bigSigma1 e)) (ch e f g)) k) w0
      let t2 := Nat.add (bigSigma0 a) (maj a b c)
      rounds ks w1 w2 w3 w4 w5 w6 w7 w8 w9 w10 w11 w12 w13 w14 w15 (nextWord w0 w1 w9 w14)
        (word (Nat.add t1 t2)) a b c (word (Nat.add d t1)) e f g

def compress (s : Registers) : List Nat → Registers
  | [w0, w1, w2, w3, w4, w5, w6, w7, w8, w9, w10, w11, w12, w13, w14, w15] =>
      let t := rounds roundConstants w0 w1 w2 w3 w4 w5 w6 w7 w8 w9 w10 w11 w12 w13 w14 w15
        s.a s.b s.c s.d s.e s.f s.g s.h
      ⟨word (Nat.add s.a t.a), word (Nat.add s.b t.b), word (Nat.add s.c t.c),
        word (Nat.add s.d t.d), word (Nat.add s.e t.e), word (Nat.add s.f t.f),
        word (Nat.add s.g t.g), word (Nat.add s.h t.h)⟩
  | block => Sha256.compress s block

def words : Nat → Bytes → List Nat
  | count + 1, a :: b :: c :: d :: rest =>
      Nat.add (Nat.mul (Nat.add (Nat.mul (Nat.add (Nat.mul a.toNat 256) b.toNat) 256) c.toNat)
        256) d.toNat :: words count rest
  | count, bytes => Sha256.words count bytes

def blocks (s : Registers) : Nat → Bytes → Registers
  | 0, _ => s
  | count + 1, bytes => blocks (compress s (words 16 bytes)) count (bytes.drop 64)

/-- The four bytes of a word before the rest of the output. -/
def output (w : Nat) (rest : Bytes) : Bytes :=
  .ofNat (Nat.div (Nat.div (Nat.div w 256) 256) 256) :: .ofNat (Nat.div (Nat.div w 256) 256) ::
    .ofNat (Nat.div w 256) :: .ofNat w :: rest

def sha256 (message : Bytes) : Hash :=
  let s := blocks initial ((pad message).length / 64) (pad message)
  ⟨output s.a (output s.b (output s.c (output s.d
    (output s.e (output s.f (output s.g (output s.h []))))))), rfl⟩

theorem nextWord_eq (w0 w1 w9 w14 : Nat) :
    nextWord w0 w1 w9 w14 =
      Sha256.word (Sha256.smallSigma1 w14 + w9 + Sha256.smallSigma0 w1 + w0) :=
  rfl

/-- The schedule is a list of the newest words first, and keeps the older ones. -/
theorem schedule_eq (count : Nat)
    (w0 w1 w2 w3 w4 w5 w6 w7 w8 w9 w10 w11 w12 w13 w14 w15 : Nat) (older : List Nat) :
    (Sha256.schedule count (w15 :: w14 :: w13 :: w12 :: w11 :: w10 :: w9 :: w8 :: w7 :: w6 ::
        w5 :: w4 :: w3 :: w2 :: w1 :: w0 :: older)).reverse =
      older.reverse ++
        expand (count + 16) w0 w1 w2 w3 w4 w5 w6 w7 w8 w9 w10 w11 w12 w13 w14 w15 := by
  induction count generalizing w0 w1 w2 w3 w4 w5 w6 w7 w8 w9 w10 w11 w12 w13 w14 w15 older with
  | zero => simp [Sha256.schedule, expand]
  | succ count ih =>
      simp only [Sha256.schedule, List.getD_cons_succ, List.getD_cons_zero]
      rw [ih, ← nextWord_eq, Nat.add_right_comm count 1, List.reverse_cons, List.append_assoc]
      conv_rhs => rw [expand]
      rfl

theorem rounds_eq (ks : List Nat)
    (w0 w1 w2 w3 w4 w5 w6 w7 w8 w9 w10 w11 w12 w13 w14 w15 a b c d e f g h : Nat) :
    rounds ks w0 w1 w2 w3 w4 w5 w6 w7 w8 w9 w10 w11 w12 w13 w14 w15 a b c d e f g h =
      Sha256.rounds ⟨a, b, c, d, e, f, g, h⟩ ks
        (expand ks.length w0 w1 w2 w3 w4 w5 w6 w7 w8 w9 w10 w11 w12 w13 w14 w15) := by
  induction ks generalizing w0 w1 w2 w3 w4 w5 w6 w7 w8 w9 w10 w11 w12 w13 w14 w15
      a b c d e f g h with
  | nil => rfl
  | cons k ks ih =>
      rw [rounds, List.length_cons, expand, Sha256.rounds]
      exact ih ..

theorem compress_eq (s : Registers) (block : List Nat) :
    compress s block = Sha256.compress s block := by
  unfold compress
  split
  · rw [rounds_eq, Sha256.compress]
    simp only [List.reverse_cons, List.reverse_nil, List.nil_append, List.cons_append]
    rw [schedule_eq]
    rfl
  · rfl

theorem words_eq (count : Nat) (bytes : Bytes) : words count bytes = Sha256.words count bytes := by
  fun_induction words count bytes with
  | case1 count a b c d rest ih =>
      rw [ih, Sha256.words]
      simp only [List.take_succ_cons, List.take_zero, List.drop_succ_cons, List.drop_zero,
        ofBeBytes, List.foldl_cons, List.foldl_nil, Nat.zero_mul, Nat.zero_add]
      rfl
  | case2 count bytes => rfl

theorem blocks_eq (s : Registers) (count : Nat) (bytes : Bytes) :
    blocks s count bytes = Sha256.blocks s count bytes := by
  induction count generalizing s bytes with
  | zero => rfl
  | succ count ih => rw [blocks, ih, compress_eq, words_eq, Sha256.blocks]

theorem output_eq (w : Nat) (rest : Bytes) : output w rest = beBytes 4 w ++ rest := rfl

end Eval

/-- What concrete runs are evaluated with. -/
theorem sha256_eq_eval : sha256 = Eval.sha256 := by
  funext message
  apply BytesN.ext
  simp only [sha256, digest, Eval.sha256, Eval.blocks_eq, Eval.output_eq, List.append_assoc,
    List.append_nil]

end StellarIbc.Sha256
