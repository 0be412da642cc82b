import Mathlib.Data.List.Basic

/-!
# SHA-256

The digest that executor job names carry, on words as natural numbers below `2 ^ 32`.
-/

namespace TPUSwarm.Sha256

/-- Reduction to one word. -/
def word (x : ℕ) : ℕ := x % 4294967296

/-- Rotation of a word to the right. -/
def rotate (n x : ℕ) : ℕ := word ((x >>> n) ||| (x <<< (32 - n)))

/-- The round constants. -/
def constants : List ℕ := [
  0x428a2f98, 0x71374491, 0xb5c0fbcf, 0xe9b5dba5, 0x3956c25b, 0x59f111f1, 0x923f82a4, 0xab1c5ed5,
  0xd807aa98, 0x12835b01, 0x243185be, 0x550c7dc3, 0x72be5d74, 0x80deb1fe, 0x9bdc06a7, 0xc19bf174,
  0xe49b69c1, 0xefbe4786, 0x0fc19dc6, 0x240ca1cc, 0x2de92c6f, 0x4a7484aa, 0x5cb0a9dc, 0x76f988da,
  0x983e5152, 0xa831c66d, 0xb00327c8, 0xbf597fc7, 0xc6e00bf3, 0xd5a79147, 0x06ca6351, 0x14292967,
  0x27b70a85, 0x2e1b2138, 0x4d2c6dfc, 0x53380d13, 0x650a7354, 0x766a0abb, 0x81c2c92e, 0x92722c85,
  0xa2bfe8a1, 0xa81a664b, 0xc24b8b70, 0xc76c51a3, 0xd192e819, 0xd6990624, 0xf40e3585, 0x106aa070,
  0x19a4c116, 0x1e376c08, 0x2748774c, 0x34b0bcb5, 0x391c0cb3, 0x4ed8aa4a, 0x5b9cca4f, 0x682e6ff3,
  0x748f82ee, 0x78a5636f, 0x84c87814, 0x8cc70208, 0x90befffa, 0xa4506ceb, 0xbef9a3f7, 0xc67178f2]

/-- The eight words of the chaining value. -/
structure State where
  a : ℕ
  b : ℕ
  c : ℕ
  d : ℕ
  e : ℕ
  f : ℕ
  g : ℕ
  h : ℕ

/-- The initial chaining value. -/
def State.initial : State :=
  ⟨0x6a09e667, 0xbb67ae85, 0x3c6ef372, 0xa54ff53a, 0x510e527f, 0x9b05688c, 0x1f83d9ab, 0x5be0cd19⟩

/-- One round with the sum of its constant and its schedule word. -/
def round (s : State) (input : ℕ) : State :=
  let choice := (s.e &&& s.f) ^^^ ((4294967295 - s.e) &&& s.g)
  let majority := (s.a &&& s.b) ^^^ (s.a &&& s.c) ^^^ (s.b &&& s.c)
  let first := s.h + (rotate 6 s.e ^^^ rotate 11 s.e ^^^ rotate 25 s.e) + choice + input
  let second := (rotate 2 s.a ^^^ rotate 13 s.a ^^^ rotate 22 s.a) + majority
  ⟨word (first + second), s.a, s.b, s.c, word (s.d + first), s.e, s.f, s.g⟩

/-- Extend a message schedule, which is kept with the newest word first. -/
def extend : ℕ → List ℕ → List ℕ
  | 0, w => w
  | n + 1, w =>
    let x := w.getD 14 0
    let y := w.getD 1 0
    let s₀ := rotate 7 x ^^^ rotate 18 x ^^^ (x >>> 3)
    let s₁ := rotate 17 y ^^^ rotate 19 y ^^^ (y >>> 10)
    extend n (word (s₁ + w.getD 6 0 + s₀ + w.getD 15 0) :: w)

/-- The words of a block of bytes, in big-endian order. -/
def words : List ℕ → List ℕ
  | a :: b :: c :: d :: rest => (((a * 256 + b) * 256 + c) * 256 + d) :: words rest
  | _ => []

/-- The chaining value after one block. -/
def compress (s : State) (block : List ℕ) : State :=
  let schedule := (extend 48 (words block).reverse).reverse
  let t := (constants.zip schedule).foldl (fun t p => round t (p.1 + p.2)) s
  ⟨word (s.a + t.a), word (s.b + t.b), word (s.c + t.c), word (s.d + t.d), word (s.e + t.e),
    word (s.f + t.f), word (s.g + t.g), word (s.h + t.h)⟩

/-- The chaining value after a number of blocks of 64 bytes. -/
def compressAll : ℕ → State → List ℕ → State
  | 0, s, _ => s
  | n + 1, s, bytes => compressAll n (compress s (bytes.take 64)) (bytes.drop 64)

/-- The digits of a number in a base, most significant first, at a fixed length. -/
def digits (base : ℕ) : ℕ → ℕ → List ℕ
  | 0, _ => []
  | n + 1, x => digits base n (x / base) ++ [x % base]

/-- The message with its padding and its length in bits. -/
def pad (bytes : List ℕ) : List ℕ :=
  bytes ++ 0x80 :: List.replicate ((119 - bytes.length % 64) % 64) 0 ++
    digits 256 8 (8 * bytes.length)

/-- `hashlib.sha256(text.encode()).hexdigest()`. -/
def hexdigest (text : String) : String :=
  let message := pad ((text.toList.flatMap String.utf8EncodeChar).map UInt8.toNat)
  let s := compressAll (message.length / 64) .initial message
  String.ofList ([s.a, s.b, s.c, s.d, s.e, s.f, s.g, s.h].flatMap fun x =>
    (digits 16 8 x).map fun n => "0123456789abcdef".toList.getD n '0')

/-- A number is written with exactly the digits asked for. -/
theorem digits_length (base n x : ℕ) : (digits base n x).length = n := by
  induction n generalizing x with
  | zero => rfl
  | succ n ih => simp [digits, ih]

/-- Every digit is below the base. -/
theorem digits_lt {base : ℕ} (hbase : 0 < base) {n x d : ℕ} (hd : d ∈ digits base n x) : d < base := by
  induction n generalizing x with
  | zero => simp [digits] at hd
  | succ n ih =>
    rcases List.mem_append.mp hd with hfront | hlast
    · exact ih hfront
    · rw [List.mem_singleton.mp hlast]
      exact Nat.mod_lt x hbase

/-- A digest is spelled with 64 characters. -/
theorem hexdigest_length (text : String) : (hexdigest text).toList.length = 64 := by
  simp [hexdigest, digits_length]

/-- The characters of a digest are lower-case hexadecimal digits. -/
theorem hexdigest_hex {text : String} {c : Char} (hc : c ∈ (hexdigest text).toList) :
    c ∈ "0123456789abcdef".toList := by
  simp only [hexdigest, String.toList_ofList, List.mem_flatMap, List.mem_map] at hc
  obtain ⟨x, _, n, hn, rfl⟩ := hc
  have hlt : n < "0123456789abcdef".toList.length := digits_lt (by decide) hn
  rw [List.getD_eq_getElem?_getD, List.getElem?_eq_getElem hlt]
  exact List.getElem_mem hlt

example : hexdigest "abc" = "ba7816bf8f01cfea414140de5dae2223b00361a396177a9cb410ff61f20015ad" := by
  decide +kernel

end TPUSwarm.Sha256
