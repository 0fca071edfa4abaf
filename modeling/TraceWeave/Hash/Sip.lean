/-! # Keyed hash of a byte stream

SipHash with one compression round and three finalization rounds, under the zero key.

`sip` is the hash of a list of bytes: `SipState.start`, then `absorbWords` with one
`SipState.absorb` for each word of eight bytes, then `SipState.finish`.
-/

namespace TraceWeave.Hash

/-- The four words of the hash state. -/
structure SipState where
  v0 : UInt64
  v1 : UInt64
  v2 : UInt64
  v3 : UInt64
  deriving DecidableEq, Repr

namespace SipState

/-- The state before any input, for the zero key. -/
def start : SipState :=
  ⟨0x736f6d6570736575, 0x646f72616e646f6d, 0x6c7967656e657261, 0x7465646279746573⟩

def rotateLeft (x : UInt64) (n : UInt64) : UInt64 := (x <<< n) ||| (x >>> (64 - n))

def round (s : SipState) : SipState :=
  let v0 := s.v0 + s.v1
  let v1 := rotateLeft s.v1 13 ^^^ v0
  let v0 := rotateLeft v0 32
  let v2 := s.v2 + s.v3
  let v3 := rotateLeft s.v3 16 ^^^ v2
  let v0 := v0 + v3
  let v3 := rotateLeft v3 21 ^^^ v0
  let v2 := v2 + v1
  let v1 := rotateLeft v1 17 ^^^ v2
  let v2 := rotateLeft v2 32
  ⟨v0, v1, v2, v3⟩

/-- Takes in one word of input. -/
def absorb (s : SipState) (word : UInt64) : SipState :=
  let s := round { s with v3 := s.v3 ^^^ word }
  { s with v0 := s.v0 ^^^ word }

/-- The hash, after the last word was taken in. -/
def finish (s : SipState) : UInt64 :=
  let s := round (round (round { s with v2 := s.v2 ^^^ 0xff }))
  s.v0 ^^^ s.v1 ^^^ s.v2 ^^^ s.v3

end SipState

/-- The word whose bytes, lowest first, are `bytes`. -/
def wordOfBytes (bytes : List UInt8) : UInt64 :=
  bytes.foldr (fun b word => (word <<< 8) ||| b.toUInt64) 0

/-- Takes in the full words of a stream, and gives back the bytes left over. -/
def absorbWords (s : SipState) : List UInt8 → SipState × List UInt8
  | a :: b :: c :: d :: e :: f :: g :: h :: rest =>
    absorbWords (s.absorb (wordOfBytes [a, b, c, d, e, f, g, h])) rest
  | tail => (s, tail)

/-- The hash of a byte stream. The last word holds the bytes left over and the length. -/
def sip (bytes : List UInt8) : UInt64 :=
  let (s, tail) := absorbWords .start bytes
  (s.absorb (wordOfBytes tail ||| (UInt64.ofNat bytes.length <<< 56))).finish

end TraceWeave.Hash
