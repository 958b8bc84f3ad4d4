import AddonExchange.Bytes.Basic

namespace AddonExchange.Md5

/-- The four words that every block transforms. -/
structure Words where
  a : UInt32
  b : UInt32
  c : UInt32
  d : UInt32

def initial : Words := ⟨0x67452301, 0xEFCDAB89, 0x98BADCFE, 0x10325476⟩

/-- The constant added in each step, its rotation and the word of the block it takes. -/
def steps : List (UInt32 × UInt32 × Nat) :=
  [(0xD76AA478, 7, 0), (0xE8C7B756, 12, 1), (0x242070DB, 17, 2), (0xC1BDCEEE, 22, 3),
   (0xF57C0FAF, 7, 4), (0x4787C62A, 12, 5), (0xA8304613, 17, 6), (0xFD469501, 22, 7),
   (0x698098D8, 7, 8), (0x8B44F7AF, 12, 9), (0xFFFF5BB1, 17, 10), (0x895CD7BE, 22, 11),
   (0x6B901122, 7, 12), (0xFD987193, 12, 13), (0xA679438E, 17, 14), (0x49B40821, 22, 15),
   (0xF61E2562, 5, 1), (0xC040B340, 9, 6), (0x265E5A51, 14, 11), (0xE9B6C7AA, 20, 0),
   (0xD62F105D, 5, 5), (0x02441453, 9, 10), (0xD8A1E681, 14, 15), (0xE7D3FBC8, 20, 4),
   (0x21E1CDE6, 5, 9), (0xC33707D6, 9, 14), (0xF4D50D87, 14, 3), (0x455A14ED, 20, 8),
   (0xA9E3E905, 5, 13), (0xFCEFA3F8, 9, 2), (0x676F02D9, 14, 7), (0x8D2A4C8A, 20, 12),
   (0xFFFA3942, 4, 5), (0x8771F681, 11, 8), (0x6D9D6122, 16, 11), (0xFDE5380C, 23, 14),
   (0xA4BEEA44, 4, 1), (0x4BDECFA9, 11, 4), (0xF6BB4B60, 16, 7), (0xBEBFBC70, 23, 10),
   (0x289B7EC6, 4, 13), (0xEAA127FA, 11, 0), (0xD4EF3085, 16, 3), (0x04881D05, 23, 6),
   (0xD9D4D039, 4, 9), (0xE6DB99E5, 11, 12), (0x1FA27CF8, 16, 15), (0xC4AC5665, 23, 2),
   (0xF4292244, 6, 0), (0x432AFF97, 10, 7), (0xAB9423A7, 15, 14), (0xFC93A039, 21, 5),
   (0x655B59C3, 6, 12), (0x8F0CCC92, 10, 3), (0xFFEFF47D, 15, 10), (0x85845DD1, 21, 1),
   (0x6FA87E4F, 6, 8), (0xFE2CE6E0, 10, 15), (0xA3014314, 15, 6), (0x4E0811A1, 21, 13),
   (0xF7537E82, 6, 4), (0xBD3AF235, 10, 11), (0x2AD7D2BB, 15, 2), (0xEB86D391, 21, 9)]

def rotate (word amount : UInt32) : UInt32 := (word <<< amount) ||| (word >>> (32 - amount))

/-- The mixing function of a step, which changes every sixteen steps. -/
def mix (index : Nat) (w : Words) : UInt32 :=
  if index < 16 then (w.b &&& w.c) ||| ((w.b ^^^ 0xFFFFFFFF) &&& w.d)
  else if index < 32 then (w.d &&& w.b) ||| ((w.d ^^^ 0xFFFFFFFF) &&& w.c)
  else if index < 48 then w.b ^^^ w.c ^^^ w.d
  else w.c ^^^ (w.b ||| (w.d ^^^ 0xFFFFFFFF))

def step (block : Array UInt32) (w : Words) (entry : (UInt32 × UInt32 × Nat) × Nat) : Words :=
  let ((constant, amount, source), index) := entry
  let mixed := w.a + mix index w + constant + (block[source]?).getD 0
  ⟨w.d, w.b + rotate mixed amount, w.b, w.c⟩

/-- One block goes through all steps and is added to the words before it. -/
def compress (w : Words) (block : Array UInt32) : Words :=
  let mixed := steps.zipIdx.foldl (step block) w
  ⟨w.a + mixed.a, w.b + mixed.b, w.c + mixed.c, w.d + mixed.d⟩

/-- The lowest bytes of a number, least significant first. -/
def littleEndian : Nat → Nat → Bytes
  | 0, _ => []
  | count + 1, n => n.toUInt8 :: littleEndian count (n / 256)

/-- The message, one bit, zeros up to a whole block less eight bytes, and the length in bits. -/
def pad (message : Bytes) : Bytes :=
  message ++ [0x80] ++ List.replicate ((119 - message.length % 64) % 64) 0 ++
    littleEndian 8 (8 * message.length)

/-- Little-endian words of a byte string. -/
def words : Bytes → List UInt32
  | a :: b :: c :: d :: rest =>
    (a.toUInt32 ||| b.toUInt32 <<< 8 ||| c.toUInt32 <<< 16 ||| d.toUInt32 <<< 24) :: words rest
  | _ => []

/-- Cuts words into blocks of sixteen. -/
def blocks (ws : List UInt32) : List (Array UInt32) :=
  (List.range (ws.length / 16)).map fun i => ((ws.drop (16 * i)).take 16).toArray

def digest (message : Bytes) : Bytes :=
  let w := (blocks (words (pad message))).foldl compress initial
  [w.a, w.b, w.c, w.d].flatMap fun word => littleEndian 4 word.toNat

end AddonExchange.Md5
