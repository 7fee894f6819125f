import KiraVm.FoundationText

/-!
# Inflate

The DEFLATE decoder of `Inflate.kira`, and the tables of `HuffmanCode.kira`.  A
reader that fails notes why and goes on; what stops the program is a trap.  Bits and
bytes are counted with natural numbers; a sum or a shift of bits that an `Int` does
not hold stops the model.
-/

namespace KiraVm

namespace Compression

open Foundation StateLogic

inductive InflateFailure
  | truncated
  | malformed
  deriving DecidableEq, Repr

/-! ## Numbers and arrays -/

/-- A number that an `Int` holds. -/
def heldInt (value : Nat) : Except KiraTrap Nat :=
  if value < 2 ^ 63 then .ok value else .error .integerOverflow

def u8Of (value : Nat) : Except KiraTrap UInt8 :=
  if value < 256 then .ok (UInt8.ofNat value) else .error .integerRange

def elementAt {α : Type} (elements : List α) (index : Int) : Except KiraTrap α :=
  if index < 0 then .error .indexOutOfBounds
  else
    match elements[index.toNat]? with
    | some element => .ok element
    | none => .error .indexOutOfBounds

def putAt {α : Type} (elements : List α) (index : Nat) (element : α) : Except KiraTrap (List α) :=
  if index < elements.length then .ok (elements.set index element) else .error .indexOutOfBounds

def filledInts (count value : Nat) : List Nat :=
  List.replicate count value

/-! ## Tables -/

structure HuffmanCode where
  counts : List Nat
  symbols : List Nat
  deriving DecidableEq, Repr

/-- The first loop of `huffmanCodeFromLengths`. -/
def countLengths (maxLength : Nat) : List Nat → List Nat → Except KiraTrap (List Nat)
  | [], counts => .ok counts
  | length :: lengths, counts =>
    if 0 < length ∧ length ≤ maxLength then do
      let count ← elementAt counts (length - 1 : Nat)
      let counts ← putAt counts (length - 1) (count + 1)
      countLengths maxLength lengths counts
    else countLengths maxLength lengths counts

/-- The second one. -/
def offsetsFrom (counts : List Nat) (maxLength : Nat) (offsets : List Nat) (running length : Nat) :
    Except KiraTrap (List Nat × Nat) :=
  if length < maxLength then do
    let offsets ← putAt offsets length running
    let count ← elementAt counts length
    offsetsFrom counts maxLength offsets (running + count) (length + 1)
  else .ok (offsets, running)
termination_by maxLength - length

/-- The third one. -/
def placeSymbols (lengths : List Nat) (maxLength : Nat) (offsets symbols : List Nat)
    (symbol : Nat) : Except KiraTrap (List Nat) :=
  if symbol < lengths.length then do
    let codeLength ← elementAt lengths symbol
    if 0 < codeLength ∧ codeLength ≤ maxLength then do
      let offset ← elementAt offsets (codeLength - 1 : Nat)
      let symbols ← putAt symbols offset symbol
      let offsets ← putAt offsets (codeLength - 1) (offset + 1)
      placeSymbols lengths maxLength offsets symbols (symbol + 1)
    else placeSymbols lengths maxLength offsets symbols (symbol + 1)
  else .ok symbols
termination_by lengths.length - symbol

def huffmanCodeFromLengths (lengths : List Nat) (maxLength : Nat) : Except KiraTrap HuffmanCode := do
  let counts ← countLengths maxLength lengths (filledInts maxLength 0)
  let (offsets, running) ← offsetsFrom counts maxLength (filledInts maxLength 0) 0 0
  let symbols ← placeSymbols lengths maxLength offsets (filledInts running 0) 0
  pure { counts := counts, symbols := symbols }

def deflateLengthBase : List Nat :=
  [3, 4, 5, 6, 7, 8, 9, 10, 11, 13, 15, 17, 19, 23, 27, 31, 35, 43, 51, 59,
    67, 83, 99, 115, 131, 163, 195, 227, 258]

def deflateLengthExtra : List Nat :=
  [0, 0, 0, 0, 0, 0, 0, 0, 1, 1, 1, 1, 2, 2, 2, 2, 3, 3, 3, 3,
    4, 4, 4, 4, 5, 5, 5, 5, 0]

def deflateDistanceBase : List Nat :=
  [1, 2, 3, 4, 5, 7, 9, 13, 17, 25, 33, 49, 65, 97, 129, 193, 257, 385, 513, 769,
    1025, 1537, 2049, 3073, 4097, 6145, 8193, 12289, 16385, 24577]

def deflateDistanceExtra : List Nat :=
  [0, 0, 0, 0, 1, 1, 2, 2, 3, 3, 4, 4, 5, 5, 6, 6, 7, 7, 8, 8,
    9, 9, 10, 10, 11, 11, 12, 12, 13, 13]

def fixedLiteralLengthsFrom (lengths : List Nat) (symbol : Nat) : List Nat :=
  if symbol < 288 then
    if symbol < 144 then fixedLiteralLengthsFrom (lengths ++ [8]) (symbol + 1)
    else if symbol < 256 then fixedLiteralLengthsFrom (lengths ++ [9]) (symbol + 1)
    else if symbol < 280 then fixedLiteralLengthsFrom (lengths ++ [7]) (symbol + 1)
    else fixedLiteralLengthsFrom (lengths ++ [8]) (symbol + 1)
  else lengths
termination_by 288 - symbol

def fixedLiteralCode : Except KiraTrap HuffmanCode :=
  huffmanCodeFromLengths (fixedLiteralLengthsFrom [] 0) 15

def fixedDistanceCode : Except KiraTrap HuffmanCode :=
  huffmanCodeFromLengths (filledInts 32 5) 15

/-! ## Bits -/

structure Inflater where
  input : List UInt8
  pos : Nat
  bitBuffer : Nat
  bitCount : Nat
  output : List UInt8
  stopped : Bool
  failure : InflateFailure
  deriving DecidableEq, Repr

abbrev OnInflater (α : Type) : Type :=
  EStateM KiraTrap Inflater α

def Inflater.failed (self : Inflater) (reason : InflateFailure) : Inflater :=
  { self with stopped := true, failure := reason }

/-- The next byte of the input behind the bits that are in the buffer. -/
def Inflater.filled (self : Inflater) (lifted : Nat) : Inflater :=
  { self with
    bitBuffer := self.bitBuffer ||| lifted
    pos := self.pos + 1
    bitCount := self.bitCount + 8 }

def Inflater.taken (self : Inflater) (count : Nat) : Inflater :=
  { self with bitBuffer := self.bitBuffer >>> count, bitCount := self.bitCount - count }

def Inflater.appended (self : Inflater) (byte : UInt8) : Inflater :=
  { self with output := self.output ++ [byte] }

/-- The bits that are not consumed.  Every turn of the loops over symbols and blocks takes one
of them at least. -/
def Inflater.bitsLeft (self : Inflater) : Nat :=
  self.bitCount + 8 * (self.input.length - self.pos)

def fail (reason : InflateFailure) : OnInflater Unit :=
  modify fun self => self.failed reason

def fillTurns (count : Nat) : Nat → OnInflater Bool
  | 0 => throw .endless
  | turns + 1 => do
    let self ← get
    if self.bitCount < count then
      if self.input.length ≤ self.pos then do
        fail .truncated
        pure false
      else do
        let byte ← orTrap (byteAt self.input self.pos)
        let lifted ← orTrap (heldInt (byte.toNat <<< self.bitCount))
        modify fun self => self.filled lifted
        fillTurns count turns
    else pure true

def fill (count : Nat) : OnInflater Bool :=
  fillTurns count (count + 1)

def takeBits (count : Nat) : OnInflater Nat := do
  let self ← get
  if self.stopped then pure 0
  else do
    let enough ← fill count
    if enough then do
      let self ← get
      let value := self.bitBuffer &&& (1 <<< count - 1)
      modify fun self => self.taken count
      pure value
    else pure 0

/-- The loop of `decodeSymbol`. -/
def decodeSymbolFrom (table : HuffmanCode) (code first index length : Nat) : OnInflater Nat :=
  if length ≤ table.counts.length then do
    let bit ← takeBits 1
    let code := code ||| bit
    let self ← get
    if self.stopped then pure 0
    else do
      let count ← orTrap (elementAt table.counts (length - 1 : Nat))
      let ahead : Int := (code : Int) - (first : Int)
      if ahead < count then do
        let place : Int := (index : Int) + ahead
        if (table.symbols.length : Int) ≤ place then do
          fail .malformed
          pure 0
        else orTrap (elementAt table.symbols place)
      else do
        let index ← orTrap (heldInt (index + count))
        let past ← orTrap (heldInt (first + count))
        let first ← orTrap (heldInt (past <<< 1))
        let code ← orTrap (heldInt (code <<< 1))
        decodeSymbolFrom table code first index (length + 1)
  else do
    fail .malformed
    pure 0
termination_by table.counts.length + 1 - length

def decodeSymbol (table : HuffmanCode) : OnInflater Nat :=
  decodeSymbolFrom table 0 0 0 1

/-! ## Stored blocks -/

/-- Two bytes of the input, the low one first. -/
def shortAt (input : List UInt8) (pos : Nat) : Except KiraTrap Nat := do
  let low ← byteAt input pos
  let high ← byteAt input (pos + 1)
  pure (low.toNat ||| high.toNat <<< 8)

/-- The loop of `copyStored`, by the turns that are left. -/
def copyInput : Nat → OnInflater Unit
  | 0 => pure ()
  | turns + 1 => do
    let self ← get
    let byte ← orTrap (byteAt self.input self.pos)
    modify fun self => { self.appended byte with pos := self.pos + 1 }
    copyInput turns

def copyStored : OnInflater Unit := do
  modify fun self => { self with bitBuffer := 0, bitCount := 0 }
  let self ← get
  if self.input.length < self.pos + 4 then fail .truncated
  else do
    let length ← orTrap (shortAt self.input self.pos)
    let complement ← orTrap (shortAt self.input (self.pos + 2))
    modify fun self => { self with pos := self.pos + 4 }
    if length ^^^ 65535 ≠ complement then fail .malformed
    else do
      let self ← get
      if self.input.length < self.pos + length then fail .truncated
      else copyInput length

/-! ## Dynamic tables -/

def codeLengthOrder : List Nat :=
  [16, 17, 18, 0, 8, 7, 9, 6, 10, 5, 11, 4, 12, 3, 13, 2, 14, 1, 15]

def readCodeLengths (codeLengths : List Nat) (index : Nat) : Nat → OnInflater (List Nat)
  | 0 => pure codeLengths
  | turns + 1 => do
    let place ← orTrap (elementAt codeLengthOrder index)
    let length ← takeBits 3
    let codeLengths ← orTrap (putAt codeLengths place length)
    readCodeLengths codeLengths (index + 1) turns

/-- The inner loop of `readDynamicTables`, by the turns that are left. -/
def repeatLength (value : Nat) (lengths : List Nat) (written : Nat) :
    Nat → Except KiraTrap (List Nat)
  | 0 => .ok lengths
  | turns + 1 => do
    let lengths ← putAt lengths written value
    repeatLength value lengths (written + 1) turns

/-- What a symbol from 16 on repeats, and how often.  After a failure there is nothing. -/
def readRepeat (symbol : Nat) (lengths : List Nat) (written : Nat) :
    OnInflater (Option (Nat × Nat)) :=
  if symbol = 16 then
    if written = 0 then do
      fail .malformed
      pure none
    else do
      let value ← orTrap (elementAt lengths ((written : Int) - 1))
      let more ← takeBits 2
      pure (some (value, 3 + more))
  else if symbol = 17 then do
    let more ← takeBits 3
    pure (some (0, 3 + more))
  else do
    let more ← takeBits 7
    pure (some (0, 11 + more))

/-- The loop over the lengths of both alphabets.  It answers nothing when it stops early. -/
def readLengthsFrom (lengthTable : HuffmanCode) :
    Nat → List Nat → Nat → OnInflater (Option (List Nat))
  | 0, _, _ => throw .endless
  | turns + 1, lengths, written =>
    if written < lengths.length then do
      let symbol ← decodeSymbol lengthTable
      let self ← get
      if self.stopped then pure none
      else if symbol < 16 then do
        let lengths ← orTrap (putAt lengths written symbol)
        readLengthsFrom lengthTable turns lengths (written + 1)
      else do
        let repeated ← readRepeat symbol lengths written
        match repeated with
        | none => pure none
        | some (value, count) => do
          let self ← get
          if self.stopped then pure none
          else if lengths.length < written + count then do
            fail .malformed
            pure none
          else do
            let lengths ← orTrap (repeatLength value lengths written count)
            readLengthsFrom lengthTable turns lengths (written + count)
    else pure (some lengths)

def lengthsBetween (lengths : List Nat) (index stop : Nat) : Except KiraTrap (List Nat) :=
  if index < stop then do
    let length ← elementAt lengths index
    let rest ← lengthsBetween lengths (index + 1) stop
    pure (length :: rest)
  else .ok []
termination_by stop - index

def readDynamicTables : OnInflater (List HuffmanCode) := do
  let literalBits ← takeBits 5
  let literalCount := literalBits + 257
  let distanceBits ← takeBits 5
  let distanceCount := distanceBits + 1
  let lengthBits ← takeBits 4
  let lengthCount := lengthBits + 4
  let self ← get
  if self.stopped then pure []
  else if 286 < literalCount ∨ 30 < distanceCount then do
    fail .malformed
    pure []
  else do
    let codeLengths ← readCodeLengths (filledInts 19 0) 0 lengthCount
    let self ← get
    if self.stopped then pure []
    else do
      let lengthTable ← orTrap (huffmanCodeFromLengths codeLengths 7)
      let total := literalCount + distanceCount
      let read ← readLengthsFrom lengthTable (total + 1) (filledInts total 0) 0
      match read with
      | none => pure []
      | some lengths => do
        let literalLengths ← orTrap (lengthsBetween lengths 0 literalCount)
        let distanceLengths ← orTrap (lengthsBetween lengths literalCount lengths.length)
        let literals ← orTrap (huffmanCodeFromLengths literalLengths 15)
        let distances ← orTrap (huffmanCodeFromLengths distanceLengths 15)
        pure [literals, distances]

/-! ## Compressed blocks -/

def copyOutput (start : Nat) : Nat → OnInflater Unit
  | 0 => pure ()
  | turns + 1 => do
    let self ← get
    let byte ← orTrap (byteAt self.output start)
    modify fun self => self.appended byte
    copyOutput (start + 1) turns

/-- A back reference.  Where the source returns from `inflateBlock` the inflater has stopped,
which ends the loop. -/
def copyMatch (distances : HuffmanCode) (symbol : Nat) : OnInflater Unit := do
  let lengthIndex := symbol - 257
  if deflateLengthBase.length ≤ lengthIndex then fail .malformed
  else do
    let lengthBase ← orTrap (elementAt deflateLengthBase lengthIndex)
    let lengthExtra ← orTrap (elementAt deflateLengthExtra lengthIndex)
    let lengthBits ← takeBits lengthExtra
    let length := lengthBase + lengthBits
    let distanceSymbol ← decodeSymbol distances
    let self ← get
    if self.stopped then pure ()
    else if deflateDistanceBase.length ≤ distanceSymbol then fail .malformed
    else do
      let distanceBase ← orTrap (elementAt deflateDistanceBase distanceSymbol)
      let distanceExtra ← orTrap (elementAt deflateDistanceExtra distanceSymbol)
      let distanceBits ← takeBits distanceExtra
      let distance := distanceBase + distanceBits
      let self ← get
      if self.stopped then pure ()
      else
        let start : Int := (self.output.length : Int) - (distance : Int)
        if start < 0 then fail .malformed
        else copyOutput start.toNat length

def inflateBlockTurns (literals distances : HuffmanCode) : Nat → OnInflater Unit
  | 0 => throw .endless
  | turns + 1 => do
    let self ← get
    if self.stopped then pure ()
    else do
      let symbol ← decodeSymbol literals
      let self ← get
      if self.stopped then pure ()
      else if symbol < 256 then do
        let byte ← orTrap (u8Of symbol)
        modify fun self => self.appended byte
        inflateBlockTurns literals distances turns
      else if symbol = 256 then pure ()
      else do
        copyMatch distances symbol
        inflateBlockTurns literals distances turns

def inflateBlock (literals distances : HuffmanCode) : OnInflater Unit := do
  let self ← get
  inflateBlockTurns literals distances (self.bitsLeft + 2)

/-! ## Streams -/

/-- The block of a kind.  It answers whether the source goes on with the loop. -/
def inflateKind (kind : Nat) : OnInflater Bool :=
  if kind = 0 then do
    copyStored
    pure true
  else if kind = 1 then do
    let literals ← orTrap fixedLiteralCode
    let distances ← orTrap fixedDistanceCode
    inflateBlock literals distances
    pure true
  else if kind = 2 then do
    let tables ← readDynamicTables
    let self ← get
    if self.stopped then pure false
    else do
      let literals ← orTrap (elementAt tables 0)
      let distances ← orTrap (elementAt tables 1)
      inflateBlock literals distances
      pure true
  else do
    fail .malformed
    pure false

def runTurns : Nat → Bool → OnInflater Unit
  | 0, _ => throw .endless
  | turns + 1, last => do
    let self ← get
    if last = false ∧ self.stopped = false then do
      let lastBit ← takeBits 1
      let kind ← takeBits 2
      let self ← get
      if self.stopped then pure ()
      else do
        let onward ← inflateKind kind
        if onward then runTurns turns (lastBit == 1) else pure ()
    else pure ()

def run : OnInflater Unit := do
  let self ← get
  runTurns (self.bitsLeft + 2) false

def inflaterOf (data : List UInt8) : Inflater :=
  { input := data, pos := 0, bitBuffer := 0, bitCount := 0, output := [], stopped := false,
    failure := .truncated }

/-- The answer of `inflateRaw`, unless the program stops. -/
def inflateRaw (data : List UInt8) : Except KiraTrap (Except InflateFailure (List UInt8)) :=
  match run (inflaterOf data) with
  | .ok _ inflater => if inflater.stopped then .ok (.error inflater.failure) else .ok (.ok inflater.output)
  | .error trap _ => .error trap

end Compression

end KiraVm
