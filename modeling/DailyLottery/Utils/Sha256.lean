import DailyLottery.Lib.Checked

namespace DailyLottery.Sha256

/-- Continue with a number once it is computed. -/
def eval {α : Type} (n : ℕ) (k : ℕ → α) : α :=
  match n with
  | 0 => k 0
  | m + 1 => k (Nat.succ m)

def word (s i : ℕ) : ℕ := s >>> (32 * i) % 2 ^ 32
def rotr (x k : ℕ) : ℕ := (x >>> k ||| x <<< (32 - k)) % 2 ^ 32

def choose (e f g : ℕ) : ℕ := (e &&& f) ^^^ ((2 ^ 32 - 1 - e) &&& g)
def majority (a b c : ℕ) : ℕ := (a &&& b) ^^^ (a &&& c) ^^^ (b &&& c)

/-- The next word of the message schedule; `w` holds the last sixteen. -/
def schedule (w : ℕ) : ℕ :=
  eval (word w 1) fun x ↦ eval (word w 14) fun y ↦
    ((rotr x 17 ^^^ rotr x 19 ^^^ x >>> 10) + word w 6 + (rotr y 7 ^^^ rotr y 18 ^^^ y >>> 3) +
      word w 15) % 2 ^ 32

def round (k w s : ℕ) : ℕ :=
  eval (word s 7) fun a ↦ eval (word s 3) fun e ↦ eval (word s 4) fun d ↦
    eval (word s 0 + (rotr e 6 ^^^ rotr e 11 ^^^ rotr e 25) + choose e (word s 2) (word s 1) + k +
      word w 15) fun t ↦
      (t + (rotr a 2 ^^^ rotr a 13 ^^^ rotr a 22) + majority a (word s 6) (word s 5)) % 2 ^ 32 *
        2 ^ 224 + (s >>> 128 % 2 ^ 128 - d) / 2 ^ 32 * 2 ^ 128 + (d + t) % 2 ^ 32 * 2 ^ 96 +
          s % 2 ^ 128 / 2 ^ 32

def rounds : List ℕ → ℕ → ℕ → ℕ
  | [], _, s => s
  | k :: ks, w, s => eval (round k w s) fun s' ↦ eval (w % 2 ^ 480 * 2 ^ 32 + schedule w) fun w' ↦
    rounds ks w' s'

def constants : List ℕ := [
  0x428a2f98, 0x71374491, 0xb5c0fbcf, 0xe9b5dba5, 0x3956c25b, 0x59f111f1, 0x923f82a4,
  0xab1c5ed5, 0xd807aa98, 0x12835b01, 0x243185be, 0x550c7dc3, 0x72be5d74, 0x80deb1fe,
  0x9bdc06a7, 0xc19bf174, 0xe49b69c1, 0xefbe4786, 0x0fc19dc6, 0x240ca1cc, 0x2de92c6f,
  0x4a7484aa, 0x5cb0a9dc, 0x76f988da, 0x983e5152, 0xa831c66d, 0xb00327c8, 0xbf597fc7,
  0xc6e00bf3, 0xd5a79147, 0x06ca6351, 0x14292967, 0x27b70a85, 0x2e1b2138, 0x4d2c6dfc,
  0x53380d13, 0x650a7354, 0x766a0abb, 0x81c2c92e, 0x92722c85, 0xa2bfe8a1, 0xa81a664b,
  0xc24b8b70, 0xc76c51a3, 0xd192e819, 0xd6990624, 0xf40e3585, 0x106aa070, 0x19a4c116,
  0x1e376c08, 0x2748774c, 0x34b0bcb5, 0x391c0cb3, 0x4ed8aa4a, 0x5b9cca4f, 0x682e6ff3,
  0x748f82ee, 0x78a5636f, 0x84c87814, 0x8cc70208, 0x90befffa, 0xa4506ceb, 0xbef9a3f7,
  0xc67178f2]

def addWords (s t : ℕ) : ℕ → ℕ
  | 0 => 0
  | n + 1 => (word s n + word t n) % 2 ^ 32 * 2 ^ (32 * n) + addWords s t n

def blocks (m : ℕ) : ℕ → ℕ → ℕ
  | 0, s => s
  | n + 1, s => eval (m >>> (512 * n) % 2 ^ 512) fun w ↦ eval (rounds constants w s) fun t ↦
    eval (addWords s t 8) fun s' ↦ blocks m n s'

def number : List UInt8 → ℕ → ℕ
  | [], n => n
  | b :: bs, n => eval (n * 256 + b.toNat) (number bs)

/-- The eight words of the state, the first one highest. -/
def initial : ℕ := 0x6a09e667bb67ae853c6ef372a54ff53a510e527f9b05688c1f83d9ab5be0cd19

/-- SHA-256 of a message as a number, and as bytes. -/
def digest (b : List UInt8) : ℕ :=
  let n := (b.length + 9 + 63) / 64
  eval ((number b 0 * 256 + 0x80) * 256 ^ (64 * n - b.length - 1) + 8 * b.length) fun m ↦
    blocks m n initial

def hash (b : List UInt8) : Vector UInt8 32 :=
  eval (digest b) fun n ↦ Vector.ofFn fun i ↦ UInt8.ofNat (n >>> (8 * (31 - i.val)))

example : digest [0x61, 0x62, 0x63] =
    0xba7816bf8f01cfea414140de5dae2223b00361a396177a9cb410ff61f20015ad := by decide +kernel

end DailyLottery.Sha256
