import TensorGraph.Binary64

/-!
# Digests

A digest is a 64-bit word that identifies a piece of data across runs. Single
words and texts are absorbed by a multiplicative round; digests of parts are
folded into one by `Digest.combine`, which depends on the order of its arguments.

The parameters of an operation enter its identity as data: integers of a fixed
width, flags, floating point numbers by their bits, texts, lists and optional
values. A list keeps its length in its digest, so nested lists keep their boundaries.
-/

namespace TensorGraph

/-- A 64-bit identity word; all arithmetic on it wraps. -/
abbrev Digest := UInt64

namespace Digest

/-- The start value of every digest over a list of operation parameters. -/
def seed : Digest := 0x5a2d296e9

/-- Stands in for an absent value, so that it differs from an empty list. -/
def absent : Digest := 0x8655d738f3678dda

/-- Folds `next` into `state`. The result is a bijection of `next` for a fixed `state`. -/
def combine (state next : Digest) : Digest :=
  state ^^^ (next + (0x9e3779b97f4a7c15 : UInt64) + state <<< 6 + state >>> 2)

/-- One absorbing round: rotate by five bits, mix in the word, multiply by an odd constant. -/
def absorb (state word : UInt64) : UInt64 :=
  ((state <<< 5 ||| state >>> 59) ^^^ word) * 0x517cc1b727220a95

/-- The digest of a single word. -/
def ofWord (word : UInt64) : Digest := absorb 0 word

/-- The word whose bytes, least significant first, are the given ones. -/
def littleEndian (bytes : List UInt8) : UInt64 :=
  bytes.foldr (fun byte word => word <<< 8 ||| byte.toUInt64) 0

/-- Cuts words of the given sizes off the front of `bytes`, skipping a size that no longer fits. -/
def cutWords : List Nat → List UInt8 → List UInt64
  | [], _ => []
  | size :: sizes, bytes =>
    if size ≤ bytes.length then
      littleEndian (bytes.take size) :: cutWords sizes (bytes.drop size)
    else
      cutWords sizes bytes

/-- Eight-byte words as long as they fit, then at most one word each of four, two and one bytes. -/
def wordsOfBytes : List UInt8 → List UInt64
  | a :: b :: c :: d :: e :: f :: g :: h :: rest =>
    littleEndian [a, b, c, d, e, f, g, h] :: wordsOfBytes rest
  | bytes => cutWords [4, 2, 1] bytes

/-- The digest of a text: the words of its UTF-8 bytes, closed by a byte that no text contains. -/
def ofText (text : String) : Digest :=
  absorb ((wordsOfBytes text.toUTF8.data.toList).foldl absorb 0) 0xff

/-- The digest of a position, such as the index of an output. -/
def ofIndex (index : Nat) : Digest := ofWord (UInt64.ofNat index)

/-- Folds every digest of the list into `start`, from left to right. -/
def combineAll (start : Digest) (digests : List Digest) : Digest :=
  digests.foldl combine start

end Digest

/-- A parameter value, as far as its digest is concerned. -/
inductive Datum where
  | integer {width : Nat} (value : BitVec width)
  | flag (value : Bool)
  | single (bits : UInt32)
  | double (value : Binary64)
  | text (value : String)
  | list (items : List Datum)
  | absent
  | present (value : Datum)

namespace Datum

/-- A signed 64-bit integer. -/
def signed64 (value : Int) : Datum := .integer (BitVec.ofInt 64 value)

/-- An unsigned 32-bit integer. -/
def unsigned32 (value : Nat) : Datum := .integer (BitVec.ofNat 32 value)

mutual

/-- Integers count by their bits, extended with zeros to a word. An optional value that is
present counts as the value itself. -/
def digest : Datum → Digest
  | .integer value => .ofWord (UInt64.ofNat value.toNat)
  | .flag value => .ofWord (if value then 1 else 0)
  | .single bits => .ofWord bits.toUInt64
  | .double value => .ofWord value.bits
  | .text value => .ofText value
  | .list items => digestItems (.ofIndex items.length) items
  | .absent => .absent
  | .present value => value.digest

/-- Folds the digests of the items into `state`, in order. -/
def digestItems (state : Digest) : List Datum → Digest
  | [] => state
  | item :: items => digestItems (state.combine item.digest) items

end

end Datum

/-- The digest of a list of operation parameters, in order. -/
def Digest.ofData (data : List Datum) : Digest := Datum.digestItems .seed data

end TensorGraph
