import TableModels.Text.CharacterDisplay

/-! # Fingerprints of texts

The fingerprint of a text is the SHA-256 digest of its UTF-8 bytes, in hexadecimal. The message is
padded to whole blocks of sixteen 32-bit words; each block is expanded to sixty-four words, which
are mixed one by one into a state of eight words. -/

namespace TableModels.Text.Fingerprint

/-- The eight words that are mixed. -/
structure MixState where
  a : UInt32
  b : UInt32
  c : UInt32
  d : UInt32
  e : UInt32
  f : UInt32
  g : UInt32
  h : UInt32

/-- The words before the first block. -/
def initialState : MixState :=
  ⟨0x6a09e667, 0xbb67ae85, 0x3c6ef372, 0xa54ff53a, 0x510e527f, 0x9b05688c, 0x1f83d9ab, 0x5be0cd19⟩

/-- The constant of each of the sixty-four steps. -/
def stepConstants : List UInt32 := [
  0x428a2f98, 0x71374491, 0xb5c0fbcf, 0xe9b5dba5, 0x3956c25b, 0x59f111f1, 0x923f82a4, 0xab1c5ed5,
  0xd807aa98, 0x12835b01, 0x243185be, 0x550c7dc3, 0x72be5d74, 0x80deb1fe, 0x9bdc06a7, 0xc19bf174,
  0xe49b69c1, 0xefbe4786, 0x0fc19dc6, 0x240ca1cc, 0x2de92c6f, 0x4a7484aa, 0x5cb0a9dc, 0x76f988da,
  0x983e5152, 0xa831c66d, 0xb00327c8, 0xbf597fc7, 0xc6e00bf3, 0xd5a79147, 0x06ca6351, 0x14292967,
  0x27b70a85, 0x2e1b2138, 0x4d2c6dfc, 0x53380d13, 0x650a7354, 0x766a0abb, 0x81c2c92e, 0x92722c85,
  0xa2bfe8a1, 0xa81a664b, 0xc24b8b70, 0xc76c51a3, 0xd192e819, 0xd6990624, 0xf40e3585, 0x106aa070,
  0x19a4c116, 0x1e376c08, 0x2748774c, 0x34b0bcb5, 0x391c0cb3, 0x4ed8aa4a, 0x5b9cca4f, 0x682e6ff3,
  0x748f82ee, 0x78a5636f, 0x84c87814, 0x8cc70208, 0x90befffa, 0xa4506ceb, 0xbef9a3f7, 0xc67178f2]

/-- A word rotated to the right. -/
def rotateRight (word amount : UInt32) : UInt32 :=
  (word >>> amount) ||| (word <<< (32 - amount))

/-- One step: mix a message word and a constant into the state. -/
def mixStep (s : MixState) (input : UInt32 × UInt32) : MixState :=
  let spreadE := rotateRight s.e 6 ^^^ rotateRight s.e 11 ^^^ rotateRight s.e 25
  let chosen := (s.e &&& s.f) ^^^ (~~~s.e &&& s.g)
  let first := s.h + spreadE + chosen + input.2 + input.1
  let spreadA := rotateRight s.a 2 ^^^ rotateRight s.a 13 ^^^ rotateRight s.a 22
  let majority := (s.a &&& s.b) ^^^ (s.a &&& s.c) ^^^ (s.b &&& s.c)
  ⟨first + (spreadA + majority), s.a, s.b, s.c, s.d + first, s.e, s.f, s.g⟩

/-- The next expanded word from the expanded words so far. -/
def nextWord (words : Array UInt32) : UInt32 :=
  let word (back : Nat) : UInt32 := words.getD (words.size - back) 0
  let early := rotateRight (word 15) 7 ^^^ rotateRight (word 15) 18 ^^^ (word 15 >>> 3)
  let late := rotateRight (word 2) 17 ^^^ rotateRight (word 2) 19 ^^^ (word 2 >>> 10)
  word 16 + early + word 7 + late

/-- The sixty-four words that a block of sixteen words is expanded to. -/
def expand (block : List UInt32) : List UInt32 :=
  ((List.range 48).foldl (fun words _ => words.push (nextWord words)) block.toArray).toList

/-- The state after a block. -/
def mixBlock (s : MixState) (block : List UInt32) : MixState :=
  let t := ((expand block).zip stepConstants).foldl mixStep s
  ⟨s.a + t.a, s.b + t.b, s.c + t.c, s.d + t.d, s.e + t.e, s.f + t.f, s.g + t.g, s.h + t.h⟩

/-- The word of four bytes, the first byte being the most significant. -/
def wordOfBytes (a b c d : UInt8) : UInt32 :=
  (a.toUInt32 <<< 24) ||| (b.toUInt32 <<< 16) ||| (c.toUInt32 <<< 8) ||| d.toUInt32

/-- The words of a list of bytes, four bytes each. -/
def wordsOfBytes : List UInt8 → List UInt32
  | a :: b :: c :: d :: rest => wordOfBytes a b c d :: wordsOfBytes rest
  | _ => []

/-- The words in blocks of sixteen. -/
def blocksOfWords (words : List UInt32) : List (List UInt32) :=
  match _h : words with
  | [] => []
  | _ :: _ => words.take 16 :: blocksOfWords (words.drop 16)
termination_by words.length
decreasing_by
  simp only [_h, List.length_drop, List.length_cons]
  omega

/-- The length of a message in bits, as eight bytes. -/
def lengthBytes (byteCount : Nat) : List UInt8 :=
  (List.range 8).map fun i => UInt8.ofNat ((8 * byteCount) >>> (8 * (7 - i)))

/-- The message with a one bit, zeros, and its length behind it, filling whole blocks. -/
def padMessage (bytes : List UInt8) : List UInt8 :=
  let zeros := (119 - bytes.length % 64) % 64
  bytes ++ 0x80 :: (List.replicate zeros 0 ++ lengthBytes bytes.length)

theorem length_padMessage (bytes : List UInt8) : (padMessage bytes).length % 64 = 0 := by
  simp only [padMessage, lengthBytes, List.length_append, List.length_cons, List.length_replicate,
    List.length_map, List.length_range]
  omega

/-- The eight hexadecimal digits of a word. -/
def wordDigits (word : UInt32) : String :=
  let digits := hexDigits word.toNat
  String.ofList (List.replicate (8 - digits.length) '0') ++ digits

/-- The digest of a message, in lower-case hexadecimal. -/
def digest (bytes : List UInt8) : String :=
  let s := (blocksOfWords (wordsOfBytes (padMessage bytes))).foldl mixBlock initialState
  String.join ([s.a, s.b, s.c, s.d, s.e, s.f, s.g, s.h].map wordDigits)

end Fingerprint

/-- The fingerprint of a text. -/
def fingerprint (text : String) : String :=
  Fingerprint.digest text.toUTF8.toList

end TableModels.Text
