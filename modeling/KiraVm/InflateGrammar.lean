import KiraVm.CanonicalCodes

/-!
# Deflate streams

What RFC 1951 calls a stream, and the bytes that a stream denotes.  The most
distance codes that a dynamic block may declare are a parameter.
-/

namespace KiraVm

namespace Compression

open BitStrings CanonicalCodes

/-! ## Lengths and distances -/

/-- The least length that a length symbol names, counted from symbol 257, and how many bits
are added. -/
def lengthRange (index : Nat) : Nat × Nat :=
  if index < 8 then (index + 3, 0)
  else if index = 28 then (258, 0)
  else (3 + (4 + index % 4) <<< (index / 4 - 1), index / 4 - 1)

/-- The least distance that a distance symbol names, and how many bits are added. -/
def distanceRange (symbol : Nat) : Nat × Nat :=
  if symbol < 2 then (symbol + 1, 0)
  else (1 + (2 + symbol % 2) <<< (symbol / 2 - 1), symbol / 2 - 1)

/-- Bytes over and over again. -/
def echo (tail : List UInt8) (length : Nat) : List UInt8 :=
  (List.range length).map fun index => tail.getD (index % tail.length) 0

/-- What is behind an output after a copy of what it had at a distance. -/
def copied (out : List UInt8) (distance length : Nat) : List UInt8 :=
  out ++ echo (out.drop (out.length - distance)) length

/-! ## Compressed data -/

/-- The symbols of a block up to the one that ends it, from the output before the block to the
one behind it. -/
inductive Symbols (literals distances : List Nat) :
    List UInt8 → List Bool → List UInt8 → Prop
  | stop {out : List UInt8} {code : List Bool} (isCode : IsCode literals 256 code) :
      Symbols literals distances out code out
  | literal {out after : List UInt8} {code bits : List Bool} (byte : UInt8)
      (isCode : IsCode literals byte.toNat code)
      (more : Symbols literals distances (out ++ [byte]) bits after) :
      Symbols literals distances out (code ++ bits) after
  | copy {out after : List UInt8} {lengthCode distanceCode bits : List Bool}
      (lengthIndex lengthBits distanceSymbol distanceBits : Nat)
      (isLength : lengthIndex < 29) (isCode : IsCode literals (257 + lengthIndex) lengthCode)
      (lengthFits : lengthBits < 2 ^ (lengthRange lengthIndex).2)
      (isDistance : distanceSymbol < 30) (isCode' : IsCode distances distanceSymbol distanceCode)
      (distanceFits : distanceBits < 2 ^ (distanceRange distanceSymbol).2)
      (reaches : (distanceRange distanceSymbol).1 + distanceBits ≤ out.length)
      (more : Symbols literals distances
        (copied out ((distanceRange distanceSymbol).1 + distanceBits)
          ((lengthRange lengthIndex).1 + lengthBits)) bits after) :
      Symbols literals distances out
        (lengthCode ++ (lowFirst (lengthRange lengthIndex).2 lengthBits ++
          (distanceCode ++ (lowFirst (distanceRange distanceSymbol).2 distanceBits ++ bits)))) after

/-! ## Code lengths -/

/-- The order in which the lengths of the code length codes stand. -/
def alphabetOrder : List Nat :=
  [16, 17, 18, 0, 8, 7, 9, 6, 10, 5, 11, 4, 12, 3, 13, 2, 14, 1, 15]

def codeLengthsOf (given : List Nat) : List Nat :=
  (List.range 19).map fun symbol => given.getD (alphabetOrder.idxOf symbol) 0

/-- Code lengths, run by run, from those that stand already to all of them. -/
inductive Runs (codeLengths : List Nat) : List Nat → List Bool → List Nat → Prop
  | done {lengths : List Nat} : Runs codeLengths lengths [] lengths
  | one {lengths all : List Nat} {code bits : List Bool} (length : Nat) (small : length < 16)
      (isCode : IsCode codeLengths length code)
      (more : Runs codeLengths (lengths ++ [length]) bits all) :
      Runs codeLengths lengths (code ++ bits) all
  | again {lengths all : List Nat} {code bits : List Bool} (value count : Nat)
      (last : lengths.getLast? = some value) (fits : count < 2 ^ 2)
      (isCode : IsCode codeLengths 16 code)
      (more : Runs codeLengths (lengths ++ List.replicate (3 + count) value) bits all) :
      Runs codeLengths lengths (code ++ (lowFirst 2 count ++ bits)) all
  | zeros {lengths all : List Nat} {code bits : List Bool} (count : Nat) (fits : count < 2 ^ 3)
      (isCode : IsCode codeLengths 17 code)
      (more : Runs codeLengths (lengths ++ List.replicate (3 + count) 0) bits all) :
      Runs codeLengths lengths (code ++ (lowFirst 3 count ++ bits)) all
  | manyZeros {lengths all : List Nat} {code bits : List Bool} (count : Nat)
      (fits : count < 2 ^ 7) (isCode : IsCode codeLengths 18 code)
      (more : Runs codeLengths (lengths ++ List.replicate (11 + count) 0) bits all) :
      Runs codeLengths lengths (code ++ (lowFirst 7 count ++ bits)) all

/-- The head of a dynamic block: the lengths of its literal and distance codes.  The lengths
may be any: a symbol that an over-subscribed table leaves no room for is never spelled. -/
inductive Tables (most : Nat) (literals distances : List Nat) : List Bool → Prop
  | spelled {bits : List Bool} (given : List Nat) (least : 4 ≤ given.length)
      (greatest : given.length ≤ 19) (small : ∀ length ∈ given, length < 2 ^ 3)
      (leastLiterals : 257 ≤ literals.length) (mostLiterals : literals.length ≤ 286)
      (leastDistances : 1 ≤ distances.length) (mostDistances : distances.length ≤ most)
      (runs : Runs (codeLengthsOf given) [] bits (literals ++ distances)) :
      Tables most literals distances
        (lowFirst 5 (literals.length - 257) ++ (lowFirst 5 (distances.length - 1) ++
          (lowFirst 4 (given.length - 4) ++ (given.flatMap (lowFirst 3) ++ bits))))

/-! ## Blocks -/

def fixedLiterals : List Nat :=
  List.replicate 144 8 ++ List.replicate 112 9 ++ List.replicate 24 7 ++ List.replicate 8 8

def fixedDistances : List Nat :=
  List.replicate 32 5

/-- What stands behind the head of a block of a kind, at an offset in the stream. -/
inductive Block (most offset : Nat) (out : List UInt8) :
    Nat → List Bool → List UInt8 → Prop
  | stored (padding : List Bool) (bytes : List UInt8)
      (aligned : padding.length = (8 - offset % 8) % 8) (short : bytes.length < 2 ^ 16) :
      Block most offset out 0
        (padding ++ (lowFirst 16 bytes.length ++ ((lowFirst 16 bytes.length).map not ++
          bitsOf bytes))) (out ++ bytes)
  | fixed {bits : List Bool} {after : List UInt8}
      (symbols : Symbols fixedLiterals fixedDistances out bits after) :
      Block most offset out 1 bits after
  | dynamic {head bits : List Bool} {after : List UInt8} (literals distances : List Nat)
      (tables : Tables most literals distances head)
      (symbols : Symbols literals distances out bits after) :
      Block most offset out 2 (head ++ bits) after

/-- Blocks up to one that is the last. -/
inductive Stream (most : Nat) : Nat → List UInt8 → List Bool → List UInt8 → Prop
  | last {offset kind : Nat} {out after : List UInt8} {bits : List Bool}
      (block : Block most (offset + 3) out kind bits after) :
      Stream most offset out (lowFirst 1 1 ++ (lowFirst 2 kind ++ bits)) after
  | more {offset kind : Nat} {out middle after : List UInt8} {bits rest : List Bool}
      (block : Block most (offset + 3) out kind bits middle)
      (others : Stream most (offset + 3 + bits.length) middle rest after) :
      Stream most offset out (lowFirst 1 0 ++ (lowFirst 2 kind ++ (bits ++ rest))) after

/-- These bytes are those that a stream occupies, and it denotes the others. -/
def Denotes (most : Nat) (occupied out : List UInt8) : Prop :=
  ∃ bits padding, bitsOf occupied = bits ++ padding ∧ padding.length < 8 ∧
    Stream most 0 [] bits out

end Compression

end KiraVm
