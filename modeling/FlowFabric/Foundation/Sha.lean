import Mathlib.Data.BitVec

/-! SHA-1 and SHA-256 over byte lists, their keyed form and their hexadecimal digests. -/
namespace FlowFabric.Foundation

abbrev Byte := BitVec 8
abbrev Word := BitVec 32

def utf8Bytes (s : String) : List Byte := s.toList.flatMap fun c => (String.utf8EncodeChar c).map UInt8.toBitVec

/-- Four bytes are a big-endian word. -/
def toWords : List Byte → List Word
  | a :: b :: c :: d :: rest => (a ++ b ++ c ++ d : Word) :: toWords rest
  | _ => []

/-- A one bit, zeros up to eight bytes before a block boundary, and the length in bits. -/
def pad (m : List Byte) : List Byte :=
  m ++ [0x80#8] ++ List.replicate ((119 - m.length % 64) % 64) 0#8 ++
    (List.range 8).map fun i => BitVec.ofNat 8 ((8 * m.length) >>> (8 * (7 - i)))

def blocks {α : Type} (block : α → List Word → α) : Nat → List Word → α → α
  | 0, _, h => h
  | n + 1, words, h => blocks block n (words.drop 16) (block h (words.take 16))

/-- The chain after all blocks of the padded message. -/
def chained {α : Type} (block : α → List Word → α) (seed : α) (m : List Byte) : α :=
  blocks block ((pad m).length / 64) (toWords (pad m)) seed

def wordBytes (w : Word) : List Byte := [w.extractLsb' 24 8,w.extractLsb' 16 8,w.extractLsb' 8 8,w.extractLsb' 0 8]

namespace Sha1

structure Chain where
  (a b c d e : Word)

def seed : Chain := ⟨0x67452301,0xEFCDAB89,0x98BADCFE,0x10325476,0xC3D2E1F0⟩

def mix (t : Nat) (b c d : Word) : Word :=
  if t < 20 then (b &&& c) ||| (~~~b &&& d)
  else if t < 40 then b ^^^ c ^^^ d
  else if t < 60 then (b &&& c) ||| (b &&& d) ||| (c &&& d)
  else b ^^^ c ^^^ d

def constant (t : Nat) : Word :=
  if t < 20 then 0x5A827999
  else if t < 40 then 0x6ED9EBA1
  else if t < 60 then 0x8F1BBCDC
  else 0xCA62C1D6

def round (h : Chain) (t : Nat) (w : Word) : Chain :=
  ⟨h.a.rotateLeft 5 + mix t h.b h.c h.d + h.e + constant t + w,h.a,h.b.rotateLeft 30,h.c,h.d⟩

/-- The rounds from t on, over a window of the sixteen next schedule words. -/
def rounds : Nat → Nat → List Word → Chain → Chain
  | 0, _, _, h => h
  | _ + 1, _, [], h => h
  | n + 1, t, w :: rest, h =>
    let window := w :: rest
    let next := (window.getD 13 0 ^^^ window.getD 8 0 ^^^ window.getD 2 0 ^^^ w).rotateLeft 1
    rounds n (t + 1) (rest ++ [next]) (round h t w)

def block (h : Chain) (words : List Word) : Chain :=
  let r := rounds 80 0 words h
  ⟨h.a + r.a,h.b + r.b,h.c + r.c,h.d + r.d,h.e + r.e⟩

end Sha1

namespace Sha256

structure Chain where
  (a b c d e f g h : Word)

def seed : Chain := ⟨0x6A09E667,0xBB67AE85,0x3C6EF372,0xA54FF53A,0x510E527F,0x9B05688C,0x1F83D9AB,0x5BE0CD19⟩

def constants : List Word :=
  [0x428A2F98,0x71374491,0xB5C0FBCF,0xE9B5DBA5,0x3956C25B,0x59F111F1,0x923F82A4,0xAB1C5ED5,
    0xD807AA98,0x12835B01,0x243185BE,0x550C7DC3,0x72BE5D74,0x80DEB1FE,0x9BDC06A7,0xC19BF174,
    0xE49B69C1,0xEFBE4786,0x0FC19DC6,0x240CA1CC,0x2DE92C6F,0x4A7484AA,0x5CB0A9DC,0x76F988DA,
    0x983E5152,0xA831C66D,0xB00327C8,0xBF597FC7,0xC6E00BF3,0xD5A79147,0x06CA6351,0x14292967,
    0x27B70A85,0x2E1B2138,0x4D2C6DFC,0x53380D13,0x650A7354,0x766A0ABB,0x81C2C92E,0x92722C85,
    0xA2BFE8A1,0xA81A664B,0xC24B8B70,0xC76C51A3,0xD192E819,0xD6990624,0xF40E3585,0x106AA070,
    0x19A4C116,0x1E376C08,0x2748774C,0x34B0BCB5,0x391C0CB3,0x4ED8AA4A,0x5B9CCA4F,0x682E6FF3,
    0x748F82EE,0x78A5636F,0x84C87814,0x8CC70208,0x90BEFFFA,0xA4506CEB,0xBEF9A3F7,0xC67178F2]

def turned (i j k : Nat) (w : Word) : Word := w.rotateRight i ^^^ w.rotateRight j ^^^ w.rotateRight k

def round (s : Chain) (k w : Word) : Chain :=
  let t := s.h + turned 6 11 25 s.e + ((s.e &&& s.f) ^^^ (~~~s.e &&& s.g)) + k + w
  ⟨t + turned 2 13 22 s.a + ((s.a &&& s.b) ^^^ (s.a &&& s.c) ^^^ (s.b &&& s.c)),s.a,s.b,s.c,s.d + t,s.e,s.f,s.g⟩

/-- One round for each constant, over a window of the sixteen next schedule words. -/
def rounds : List Word → List Word → Chain → Chain
  | k :: ks, w :: rest, s =>
    let x := rest.getD 0 0
    let y := rest.getD 13 0
    let next := w + (x.rotateRight 7 ^^^ x.rotateRight 18 ^^^ x >>> 3) + rest.getD 8 0 +
      (y.rotateRight 17 ^^^ y.rotateRight 19 ^^^ y >>> 10)
    rounds ks (rest ++ [next]) (round s k w)
  | _, _, s => s

def block (s : Chain) (words : List Word) : Chain :=
  let r := rounds constants words s
  ⟨s.a + r.a,s.b + r.b,s.c + r.c,s.d + r.d,s.e + r.e,s.f + r.f,s.g + r.g,s.h + r.h⟩

end Sha256

def sha1 (m : List Byte) : List Byte :=
  let h := chained Sha1.block Sha1.seed m
  [h.a,h.b,h.c,h.d,h.e].flatMap wordBytes

def sha256 (m : List Byte) : List Byte :=
  let s := chained Sha256.block Sha256.seed m
  [s.a,s.b,s.c,s.d,s.e,s.f,s.g,s.h].flatMap wordBytes

/-- The keyed digest with a block of sixty-four bytes. A longer key is hashed first. -/
def hmac (hash : List Byte → List Byte) (key message : List Byte) : List Byte :=
  let key := if 64 < key.length then hash key else key
  let key := key ++ List.replicate (64 - key.length) 0
  hash (key.map (· ^^^ 0x5C) ++ hash (key.map (· ^^^ 0x36) ++ message))

def hmacSha1 (key message : List Byte) : List Byte := hmac sha1 key message

def hmacSha256 (key message : List Byte) : List Byte := hmac sha256 key message

def hexDigit (n : Nat) : Char := "0123456789abcdef".toList.getD n '0'

/-- Two lower-case digits for each byte. -/
def toHex (bytes : List Byte) : String :=
  String.ofList (bytes.flatMap fun b => [hexDigit (b.toNat / 16),hexDigit (b.toNat % 16)])

theorem sha1_length (m : List Byte) : (sha1 m).length = 20 := by simp [sha1,wordBytes]

theorem hexDigit_utf8Size {n : Nat} (h : n < 16) : (hexDigit n).utf8Size = 1 := by
  have digits : ∀ i : Fin 16, (hexDigit i).utf8Size = 1 := by decide
  exact digits ⟨n,h⟩

theorem utf8Bytes_toHex_length (bytes : List Byte) : (utf8Bytes (toHex bytes)).length = 2 * bytes.length := by
  have halves (b : Byte) : b.toNat / 16 < 16 ∧ b.toNat % 16 < 16 := by
    have := b.isLt
    omega
  induction bytes with
  | nil => rfl
  | cons b bytes ih =>
    simp only [utf8Bytes,toHex,String.toList_ofList] at ih ⊢
    simp [List.flatMap_cons,ih,hexDigit_utf8Size (halves b).1,hexDigit_utf8Size (halves b).2]
    omega

set_option maxRecDepth 10000 in
example : let fox := utf8Bytes "The quick brown fox jumps over the lazy dog"
    toHex (hmacSha1 (utf8Bytes "key") fox) = "de7c9b85b8b78aa6bc8a7a36f70a90701c9db4d9" ∧
      toHex (hmacSha256 (utf8Bytes "key") fox) =
        "f7bc83f430538424b13298e6aa6fb143ef4d59a14946175997479dbc2d1a3cd8" := by decide +kernel

end FlowFabric.Foundation
