import FailureResolver.PyNumber

/-!
The SHA-256 digest of a byte string, with its lower-case hexadecimal text. The
message is padded to whole blocks of 64 bytes; every block is expanded to 64
words and mixed into the eight words of the state.
-/

namespace FailureResolver.Sha256

open PyText PyNumber

def initialState : List UInt32 :=
  [0x6a09e667, 0xbb67ae85, 0x3c6ef372, 0xa54ff53a, 0x510e527f, 0x9b05688c, 0x1f83d9ab, 0x5be0cd19]

def roundConstants : List UInt32 :=
  [0x428a2f98, 0x71374491, 0xb5c0fbcf, 0xe9b5dba5, 0x3956c25b, 0x59f111f1, 0x923f82a4,
    0xab1c5ed5, 0xd807aa98, 0x12835b01, 0x243185be, 0x550c7dc3, 0x72be5d74, 0x80deb1fe,
    0x9bdc06a7, 0xc19bf174, 0xe49b69c1, 0xefbe4786, 0x0fc19dc6, 0x240ca1cc, 0x2de92c6f,
    0x4a7484aa, 0x5cb0a9dc, 0x76f988da, 0x983e5152, 0xa831c66d, 0xb00327c8, 0xbf597fc7,
    0xc6e00bf3, 0xd5a79147, 0x06ca6351, 0x14292967, 0x27b70a85, 0x2e1b2138, 0x4d2c6dfc,
    0x53380d13, 0x650a7354, 0x766a0abb, 0x81c2c92e, 0x92722c85, 0xa2bfe8a1, 0xa81a664b,
    0xc24b8b70, 0xc76c51a3, 0xd192e819, 0xd6990624, 0xf40e3585, 0x106aa070, 0x19a4c116,
    0x1e376c08, 0x2748774c, 0x34b0bcb5, 0x391c0cb3, 0x4ed8aa4a, 0x5b9cca4f, 0x682e6ff3,
    0x748f82ee, 0x78a5636f, 0x84c87814, 0x8cc70208, 0x90befffa, 0xa4506ceb, 0xbef9a3f7,
    0xc67178f2]

def rotateRight (x n : UInt32) : UInt32 := (x >>> n) ||| (x <<< (32 - n))

/-- The message, a marker bit, zeros and the length in bits. -/
def padded (bytes : List UInt8) : List UInt8 :=
  let zeros := (119 - bytes.length % 64) % 64
  let bits := 8 * bytes.length
  bytes ++ 0x80 :: (List.replicate zeros 0 ++
    (List.range 8).map (fun i => UInt8.ofNat (bits / 256 ^ (7 - i))))

def words : List UInt8 → List UInt32
  | a :: b :: c :: d :: rest =>
      ((a.toUInt32 <<< 24) ||| (b.toUInt32 <<< 16) ||| (c.toUInt32 <<< 8) ||| d.toUInt32) ::
        words rest
  | _ => []

/-- The next words of the schedule; `recent` holds the last sixteen, newest first. -/
def extend : ℕ → List UInt32 → List UInt32
  | 0, _ => []
  | n + 1, recent =>
      let x := recent.getD 14 0
      let y := recent.getD 1 0
      let s0 := rotateRight x 7 ^^^ rotateRight x 18 ^^^ (x >>> 3)
      let s1 := rotateRight y 17 ^^^ rotateRight y 19 ^^^ (y >>> 10)
      let word := recent.getD 15 0 + s0 + recent.getD 6 0 + s1
      word :: extend n (word :: recent.take 15)

structure State where
  a : UInt32
  b : UInt32
  c : UInt32
  d : UInt32
  e : UInt32
  f : UInt32
  g : UInt32
  h : UInt32

def round (s : State) (k w : UInt32) : State :=
  let s1 := rotateRight s.e 6 ^^^ rotateRight s.e 11 ^^^ rotateRight s.e 25
  let choice := (s.e &&& s.f) ^^^ (~~~s.e &&& s.g)
  let t1 := s.h + s1 + choice + k + w
  let s0 := rotateRight s.a 2 ^^^ rotateRight s.a 13 ^^^ rotateRight s.a 22
  let majority := (s.a &&& s.b) ^^^ (s.a &&& s.c) ^^^ (s.b &&& s.c)
  ⟨t1 + (s0 + majority), s.a, s.b, s.c, s.d + t1, s.e, s.f, s.g⟩

def State.toList (s : State) : List UInt32 := [s.a, s.b, s.c, s.d, s.e, s.f, s.g, s.h]

def stateOf (ws : List UInt32) : State :=
  ⟨ws.getD 0 0, ws.getD 1 0, ws.getD 2 0, ws.getD 3 0, ws.getD 4 0, ws.getD 5 0, ws.getD 6 0,
    ws.getD 7 0⟩

def compress (state block : List UInt32) : List UInt32 :=
  let schedule := block ++ extend 48 block.reverse
  let mixed := (List.zip roundConstants schedule).foldl (fun s x => round s x.1 x.2) (stateOf state)
  List.zipWith (· + ·) state mixed.toList

/-- All blocks of sixteen words; the fuel is their number. -/
def compressAll : ℕ → List UInt32 → List UInt32 → List UInt32
  | 0, state, _ => state
  | n + 1, state, ws => compressAll n (compress state (ws.take 16)) (ws.drop 16)

def digest (bytes : List UInt8) : List UInt32 :=
  let ws := words (padded bytes)
  compressAll (ws.length / 16) initialState ws

/-- `hashlib.sha256(text.encode("utf-8")).hexdigest()`. -/
def hexDigest (text : List Char) : String :=
  String.ofList ((digest (text.flatMap String.utf8EncodeChar)).flatMap
    (fun word => hexFixed 8 word.toNat))

theorem length_compress {state block : List UInt32} (h : state.length = 8) :
    (compress state block).length = 8 := by
  simp [compress, State.toList, h]

theorem length_compressAll (n : ℕ) {state : List UInt32} (ws : List UInt32)
    (h : state.length = 8) : (compressAll n state ws).length = 8 := by
  induction n generalizing state ws with
  | zero => exact h
  | succ n ih => exact ih _ (length_compress h)

theorem length_digest (bytes : List UInt8) : (digest bytes).length = 8 :=
  length_compressAll _ _ rfl

/-- A digest is written as 64 hexadecimal digits. -/
theorem length_hexDigest (text : List Char) : (hexDigest text).toList.length = 64 := by
  have hwords : ∀ ws : List UInt32,
      (ws.flatMap fun word => hexFixed 8 word.toNat).length = 8 * ws.length := by
    intro ws
    induction ws with
    | nil => rfl
    | cons word rest ih =>
      rw [List.flatMap_cons, List.length_append, length_hexFixed, ih, List.length_cons]
      omega
  unfold hexDigest
  rw [String.toList_ofList, hwords, length_digest]

theorem mem_hexDigest {text : List Char} {c : Char} (h : c ∈ (hexDigest text).toList) :
    ∃ d < 16, c = hexDigit d := by
  unfold hexDigest at h
  rw [String.toList_ofList] at h
  obtain ⟨word, -, hc⟩ := List.mem_flatMap.mp h
  exact mem_hexFixed hc

example : hexDigest "abc".toList =
    "ba7816bf8f01cfea414140de5dae2223b00361a396177a9cb410ff61f20015ad" := by
  decide +kernel

end FailureResolver.Sha256
