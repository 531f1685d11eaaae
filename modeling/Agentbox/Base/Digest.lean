import Agentbox.Base.Text

/-! # Digests

SHA-256 and the hexadecimal spellings of a digest, as in `digest.rs`. -/

namespace Agentbox.Base.Digest

open Agentbox.Base.Text

/-! ### SHA-256 -/

def roundConstants : List UInt32 :=
  [0x428a2f98, 0x71374491, 0xb5c0fbcf, 0xe9b5dba5, 0x3956c25b, 0x59f111f1, 0x923f82a4, 0xab1c5ed5,
   0xd807aa98, 0x12835b01, 0x243185be, 0x550c7dc3, 0x72be5d74, 0x80deb1fe, 0x9bdc06a7, 0xc19bf174,
   0xe49b69c1, 0xefbe4786, 0x0fc19dc6, 0x240ca1cc, 0x2de92c6f, 0x4a7484aa, 0x5cb0a9dc, 0x76f988da,
   0x983e5152, 0xa831c66d, 0xb00327c8, 0xbf597fc7, 0xc6e00bf3, 0xd5a79147, 0x06ca6351, 0x14292967,
   0x27b70a85, 0x2e1b2138, 0x4d2c6dfc, 0x53380d13, 0x650a7354, 0x766a0abb, 0x81c2c92e, 0x92722c85,
   0xa2bfe8a1, 0xa81a664b, 0xc24b8b70, 0xc76c51a3, 0xd192e819, 0xd6990624, 0xf40e3585, 0x106aa070,
   0x19a4c116, 0x1e376c08, 0x2748774c, 0x34b0bcb5, 0x391c0cb3, 0x4ed8aa4a, 0x5b9cca4f, 0x682e6ff3,
   0x748f82ee, 0x78a5636f, 0x84c87814, 0x8cc70208, 0x90befffa, 0xa4506ceb, 0xbef9a3f7, 0xc67178f2]

/-- The eight words that a message is compressed into. -/
structure HashState where
  a : UInt32
  b : UInt32
  c : UInt32
  d : UInt32
  e : UInt32
  f : UInt32
  g : UInt32
  h : UInt32

def initialState : HashState :=
  ⟨0x6a09e667, 0xbb67ae85, 0x3c6ef372, 0xa54ff53a, 0x510e527f, 0x9b05688c, 0x1f83d9ab, 0x5be0cd19⟩

def rotr (x : UInt32) (n : UInt32) : UInt32 := (x >>> n) ||| (x <<< (32 - n))

/-- The next schedule word, from the sixteen before it, the latest one first. -/
def scheduleWord (w : List UInt32) : UInt32 :=
  let w15 := w.getD 14 0
  let w2 := w.getD 1 0
  let s0 := rotr w15 7 ^^^ rotr w15 18 ^^^ (w15 >>> 3)
  let s1 := rotr w2 17 ^^^ rotr w2 19 ^^^ (w2 >>> 10)
  w.getD 15 0 + s0 + w.getD 6 0 + s1

def schedule : Nat → List UInt32 → List UInt32
  | 0, w => w.reverse
  | n + 1, w => schedule n (scheduleWord w :: w)

def round (s : HashState) (k w : UInt32) : HashState :=
  let s1 := rotr s.e 6 ^^^ rotr s.e 11 ^^^ rotr s.e 25
  let ch := (s.e &&& s.f) ^^^ (~~~s.e &&& s.g)
  let t1 := s.h + s1 + ch + k + w
  let s0 := rotr s.a 2 ^^^ rotr s.a 13 ^^^ rotr s.a 22
  let maj := (s.a &&& s.b) ^^^ (s.a &&& s.c) ^^^ (s.b &&& s.c)
  ⟨t1 + (s0 + maj), s.a, s.b, s.c, s.d + t1, s.e, s.f, s.g⟩

def wordOfBytes (b : List UInt8) : UInt32 :=
  b.foldl (fun w x => (w <<< 8) ||| x.toUInt32) 0

def bytesOfWord (w : UInt32) : List UInt8 :=
  [(w >>> 24).toUInt8, (w >>> 16).toUInt8, (w >>> 8).toUInt8, w.toUInt8]

/-- `n` pieces of `k` elements. -/
def pieces {α : Type} (k : Nat) : Nat → List α → List (List α)
  | 0, _ => []
  | n + 1, l => l.take k :: pieces k n (l.drop k)

def compress (s : HashState) (block : List UInt8) : HashState :=
  let words := schedule 48 ((pieces 4 16 block).map wordOfBytes).reverse
  let t := (roundConstants.zip words).foldl (fun s kw => round s kw.1 kw.2) s
  ⟨s.a + t.a, s.b + t.b, s.c + t.c, s.d + t.d, s.e + t.e, s.f + t.f, s.g + t.g, s.h + t.h⟩

/-- The message with its padding and its length in bits. -/
def pad (bytes : List UInt8) : List UInt8 :=
  bytes ++ 0x80 :: List.replicate ((119 - bytes.length % 64) % 64) 0 ++
    (List.range 8).map fun i => UInt8.ofNat (8 * bytes.length / 256 ^ (7 - i))

/-- `sha256_bytes`. -/
def sha256Bytes (bytes : List UInt8) : List UInt8 :=
  let padded := pad bytes
  let s := (pieces 64 (padded.length / 64) padded).foldl compress initialState
  bytesOfWord s.a ++ bytesOfWord s.b ++ bytesOfWord s.c ++ bytesOfWord s.d ++ bytesOfWord s.e ++
    bytesOfWord s.f ++ bytesOfWord s.g ++ bytesOfWord s.h

theorem length_sha256Bytes (bytes : List UInt8) : (sha256Bytes bytes).length = 32 := rfl

attribute [irreducible] sha256Bytes

/-! ### Hexadecimal -/

def hexDigit (n : Nat) : Char := "0123456789abcdef".toList.getD n '0'

/-- `hex_lower`. -/
def hexLower (bytes : List UInt8) : String :=
  String.ofList (bytes.flatMap fun b => [hexDigit (b.toNat / 16), hexDigit (b.toNat % 16)])

/-- `hex_prefix`. -/
def hexPrefix (bytes : List UInt8) (len : Nat) : String :=
  String.ofList ((hexLower bytes).toList.take len)

/-- `sha256_hex`. -/
def sha256Hex (bytes : List UInt8) : String := hexLower (sha256Bytes bytes)

theorem isWhitespace_hexDigit (n : Nat) : isWhitespace (hexDigit n) = false := by
  have hall : ∀ c ∈ "0123456789abcdef".toList, isWhitespace c = false := by
    simp [isWhitespace]
  unfold hexDigit
  rw [List.getD_eq_getElem?_getD]
  rcases h : "0123456789abcdef".toList[n]? with _ | c
  · decide
  · exact hall c (List.mem_of_getElem? h)

theorem length_hexLower (bytes : List UInt8) : (hexLower bytes).toList.length = 2 * bytes.length := by
  rw [hexLower, String.toList_ofList, List.length_flatMap]
  simp only [List.length_cons, List.length_nil, List.map_const', List.sum_replicate, smul_eq_mul]
  omega

theorem hexDigit_inj {m n : Nat} (hm : m < 16) (hn : n < 16) (h : hexDigit m = hexDigit n) : m = n := by
  have hall : ∀ m n : Fin 16, hexDigit m.1 = hexDigit n.1 → m = n := by decide
  exact congrArg Fin.val (hall ⟨m, hm⟩ ⟨n, hn⟩ h)

/-- The hexadecimal spelling determines the bytes. -/
theorem hexLower_inj : ∀ {a b : List UInt8}, hexLower a = hexLower b → a = b
  | [], [], _ => rfl
  | [], y :: b, h => by
    have hlen := congrArg (fun s => s.toList.length) h
    simp only [length_hexLower, List.length_nil, List.length_cons] at hlen
    omega
  | x :: a, [], h => by
    have hlen := congrArg (fun s => s.toList.length) h
    simp only [length_hexLower, List.length_nil, List.length_cons] at hlen
    omega
  | x :: a, y :: b, h => by
    have hlists := congrArg String.toList h
    simp only [hexLower, String.toList_ofList, List.flatMap_cons, List.cons_append,
      List.nil_append, List.cons.injEq] at hlists
    obtain ⟨hhigh, hlow, hrest⟩ := hlists
    have hx := x.toNat_lt
    have hy := y.toNat_lt
    have hquot := hexDigit_inj (by omega) (by omega) hhigh
    have hrem := hexDigit_inj (by omega) (by omega) hlow
    have hbyte : x = y := UInt8.toNat_inj.1 (by omega)
    have hbytes : a = b := hexLower_inj (congrArg String.ofList hrest)
    rw [hbyte, hbytes]

theorem length_hexPrefix {bytes : List UInt8} {len : Nat} (h : len ≤ 2 * bytes.length) :
    (hexPrefix bytes len).toList.length = len := by
  rw [hexPrefix, String.toList_ofList, List.length_take, length_hexLower]
  omega

theorem isBlank_hexPrefix {bytes : List UInt8} {len : Nat} (hpos : 0 < len)
    (h : len ≤ 2 * bytes.length) : isBlank (hexPrefix bytes len) = false := by
  have hlen := length_hexPrefix h
  obtain ⟨c, hc⟩ := List.exists_mem_of_length_pos (by omega : 0 < (hexPrefix bytes len).toList.length)
  refine isBlank_of_mem hc ?_
  rw [hexPrefix, String.toList_ofList] at hc
  have hin := List.mem_of_mem_take hc
  rw [hexLower, String.toList_ofList, List.mem_flatMap] at hin
  obtain ⟨b, -, hb⟩ := hin
  rcases List.mem_cons.1 hb with rfl | hb
  · exact isWhitespace_hexDigit _
  · rw [List.mem_singleton.1 hb]
    exact isWhitespace_hexDigit _

example : sha256Hex "abc".toUTF8.toList =
    "ba7816bf8f01cfea414140de5dae2223b00361a396177a9cb410ff61f20015ad" := by decide +kernel

end Agentbox.Base.Digest
