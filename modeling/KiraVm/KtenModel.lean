import KiraVm.JsonNumber

/-!
# Kten

The binary form of Kten values: the writer and the reader of `Kten.kira`.  The
writer's functions answer the bytes that they append.  The reader is a cursor that
notes that it failed and goes on; what stops the program is a trap.  A function of
the reader is given the frames that are left on the stack when it is called, and runs
while there is one.  The functions of a tag, of a text and of a `Float` nest no deeper
than those that took the bytes before them, so they are not given any.  The counter
`work` is not the program's: it counts the bytes taken and the turns of the loops whose
counts come from the bytes.
-/

namespace KiraVm

namespace Foundation

open StateLogic

/-! ## Values -/

mutual

inductive Kten
  | null
  | bool (flag : Bool)
  | int (number : Int64)
  | float (number : Float)
  | text (text : String)
  | bytes (raw : List UInt8)
  | list (items : List Kten)
  | object (tag : String) (fields : List KtenField)
  | case (name : String) (payload : List Kten)

inductive KtenField
  | mk (name : String) (value : Kten)

end

def KtenField.name : KtenField → String
  | .mk name _ => name

/-! ## Writing -/

def ktenTagNull : UInt8 := 0
def ktenTagBool : UInt8 := 1
def ktenTagInt : UInt8 := 2
def ktenTagFloat : UInt8 := 3
def ktenTagText : UInt8 := 4
def ktenTagBytes : UInt8 := 5
def ktenTagList : UInt8 := 6
def ktenTagObject : UInt8 := 7
def ktenTagCase : UInt8 := 8

def putVarUInt (value : UInt64) : List UInt8 :=
  if 128 ≤ value then ((value &&& 127) ||| 128).toUInt8 :: putVarUInt (value >>> 7)
  else [value.toUInt8]
termination_by value.toNat
decreasing_by
  rename_i large
  have big : 128 ≤ value.toNat := UInt64.le_iff_toNat_le.mp large
  rw [UInt64.toNat_shiftRight]
  simp only [UInt64.reduceToNat, Nat.reduceMod, Nat.shiftRight_eq_div_pow]
  omega

/-- An `Int` with its sign in the last bit. -/
def putVarInt (value : Int64) : List UInt8 :=
  if 0 ≤ value then putVarUInt (value.toUInt64 * 2)
  else putVarUInt ((0 - (value + 1)).toUInt64 * 2 + 1)

def putString (text : String) : List UInt8 :=
  putVarUInt (UInt64.ofNat (textBytes text).length) ++ textBytes text

mutual

def putValue (floatText : Float → String) : Kten → List UInt8
  | .null => [ktenTagNull]
  | .bool flag => [ktenTagBool, if flag then 1 else 0]
  | .int number => ktenTagInt :: putVarInt number
  | .float number => ktenTagFloat :: putString (floatText number)
  | .text text => ktenTagText :: putString text
  | .bytes raw => ktenTagBytes :: (putVarUInt (UInt64.ofNat raw.length) ++ raw)
  | .list items =>
    ktenTagList :: (putVarUInt (UInt64.ofNat items.length) ++ putValues floatText items)
  | .object tag fields =>
    ktenTagObject :: (putString tag ++ (putVarUInt (UInt64.ofNat fields.length) ++
      putFields floatText fields))
  | .case name payload =>
    ktenTagCase :: (putString name ++ (putVarUInt (UInt64.ofNat payload.length) ++
      putValues floatText payload))

def putValues (floatText : Float → String) : List Kten → List UInt8
  | [] => []
  | value :: values => putValue floatText value ++ putValues floatText values

def putFields (floatText : Float → String) : List KtenField → List UInt8
  | [] => []
  | .mk name value :: fields =>
    putString name ++ (putValue floatText value ++ putFields floatText fields)

end

def ktenEncode (floatText : Float → String) (value : Kten) : List UInt8 :=
  putValue floatText value

/-! ## Texts -/

/-- Rebuild a text from bytes; one that is cut ends the read. -/
def ktenBytesToStringFrom (bytes : List UInt8) (out : String) (index : Nat) :
    Except KiraTrap String :=
  if index < bytes.length then do
    let b0 ← byteAt bytes index
    if b0 < 128 then ktenBytesToStringFrom bytes (out ++ scalarText b0.toNat) (index + 1)
    else if 240 ≤ b0 then
      if bytes.length ≤ index + 3 then .ok out
      else do
        let b1 ← byteAt bytes (index + 1)
        let b2 ← byteAt bytes (index + 2)
        let b3 ← byteAt bytes (index + 3)
        let scalar := (b0.toNat &&& 7) <<< 18 ||| (b1.toNat &&& 63) <<< 12 |||
          (b2.toNat &&& 63) <<< 6 ||| (b3.toNat &&& 63)
        ktenBytesToStringFrom bytes (out ++ scalarText scalar) (index + 4)
    else if 224 ≤ b0 then
      if bytes.length ≤ index + 2 then .ok out
      else do
        let b1 ← byteAt bytes (index + 1)
        let b2 ← byteAt bytes (index + 2)
        let scalar := (b0.toNat &&& 15) <<< 12 ||| (b1.toNat &&& 63) <<< 6 ||| (b2.toNat &&& 63)
        ktenBytesToStringFrom bytes (out ++ scalarText scalar) (index + 3)
    else
      if bytes.length ≤ index + 1 then .ok out
      else do
        let b1 ← byteAt bytes (index + 1)
        let scalar := (b0.toNat &&& 31) <<< 6 ||| (b1.toNat &&& 63)
        ktenBytesToStringFrom bytes (out ++ scalarText scalar) (index + 2)
  else .ok out
termination_by bytes.length - index

def ktenBytesToString (bytes : List UInt8) : Except KiraTrap String :=
  ktenBytesToStringFrom bytes "" 0

/-- The digits after the point of a decimal text, up to an exponent. -/
def fractionDigitsFrom (bytes : List UInt8) (seenDot : Bool) (digits : Nat) (index : Nat) :
    Except KiraTrap Nat :=
  if index < bytes.length then do
    let byte ← byteAt bytes index
    if byte = 101 ∨ byte = 69 then .ok digits
    else
      let dotted := seenDot || byte == 46
      let counted := if dotted && decide (48 ≤ byte) && decide (byte ≤ 57) then digits + 1 else digits
      fractionDigitsFrom bytes dotted counted (index + 1)
  else .ok digits
termination_by bytes.length - index

def ktenParseFloat (text : String) : Except KiraTrap Float := do
  let bytes := textBytes text
  let negative := bytes.head? = some 45
  let digits ← fractionDigitsFrom bytes false 0 0
  jsonDecimalToFloat bytes negative digits 0

/-! ## Reading -/

/-- A cursor over bytes that never moves back. -/
structure KtenReader where
  bytes : List UInt8
  cursor : Nat
  failed : Bool
  work : Nat
  deriving Repr

def KtenReader.failedNow (reader : KtenReader) : KtenReader :=
  { reader with failed := true, cursor := reader.bytes.length }

def KtenReader.moved (reader : KtenReader) : KtenReader :=
  { reader with cursor := reader.cursor + 1 }

def KtenReader.worked (reader : KtenReader) : KtenReader :=
  { reader with work := reader.work + 1 }

abbrev OnReader (α : Type) : Type :=
  EStateM KiraTrap KtenReader α

def fail : Nat → OnReader Unit
  | 0 => throw .callDepth
  | _ + 1 => modify KtenReader.failedNow

def countWork : OnReader Unit :=
  modify KtenReader.worked

def takeByte : Nat → OnReader UInt8
  | 0 => throw .callDepth
  | frames + 1 => do
    countWork
    let reader ← get
    if reader.bytes.length ≤ reader.cursor then do
      fail frames
      pure 0
    else do
      let value ← orTrap (byteAt reader.bytes reader.cursor)
      modify KtenReader.moved
      pure value

/-- The loop of `takeVarUInt`. -/
def takeVarUIntFrom (frames : Nat) (result : UInt64) (shift : Nat) : OnReader UInt64 :=
  if 63 < shift then do
    fail frames
    pure 0
  else do
    let byte ← takeByte frames
    let reader ← get
    if reader.failed then pure 0
    else
      let next := result ||| (byte &&& 127).toUInt64 <<< UInt64.ofNat shift
      if byte &&& 128 ≠ 0 then takeVarUIntFrom frames next (shift + 7) else pure next
termination_by 70 - shift

def takeVarUInt : Nat → OnReader UInt64
  | 0 => throw .callDepth
  | frames + 1 => takeVarUIntFrom frames 0 0

def takeVarInt : Nat → OnReader Int64
  | 0 => throw .callDepth
  | frames + 1 => do
    let raw ← takeVarUInt frames
    let half ← orTrap (intOfU64 (raw >>> 1))
    if raw &&& 1 = 0 then pure (Int64.ofInt half)
    else do
      let negative ← orTrap (checkedInt (0 - half))
      let number ← orTrap (checkedInt (negative - 1))
      pure (Int64.ofInt number)

/-- The turns of the loop of `takeRaw` that are left. -/
def takeRawFrom (frames : Nat) : Nat → OnReader (List UInt8)
  | 0 => pure []
  | turns + 1 => do
    countWork
    let reader ← get
    if reader.bytes.length ≤ reader.cursor then do
      fail frames
      pure []
    else do
      let byte ← orTrap (byteAt reader.bytes reader.cursor)
      modify KtenReader.moved
      let rest ← takeRawFrom frames turns
      pure (byte :: rest)

def takeRaw : Nat → Int → OnReader (List UInt8)
  | 0, _ => throw .callDepth
  | frames + 1, length =>
    if length < 0 then do
      fail frames
      pure []
    else takeRawFrom frames length.toNat

def takeString : Nat → OnReader String
  | 0 => throw .callDepth
  | frames + 1 => do
    let declared ← takeVarUInt frames
    let length ← orTrap (intOfU64 declared)
    let reader ← get
    if reader.failed then pure ""
    else do
      let raw ← takeRaw frames length
      orTrap (ktenBytesToString raw)

def takeEach {α : Type} (take : OnReader α) : Nat → OnReader (List α)
  | 0 => pure []
  | turns + 1 => do
    let reader ← get
    if reader.failed then pure []
    else do
      countWork
      let item ← take
      let rest ← takeEach take turns
      pure (item :: rest)

/-- How many turns a loop with a declared count may take. -/
def takeCount (frames : Nat) : OnReader Nat := do
  let declared ← takeVarUInt frames
  let count ← orTrap (intOfU64 declared)
  pure count.toNat

def takeField (frames : Nat) (takeValue : OnReader Kten) : OnReader KtenField := do
  let name ← takeString frames
  let value ← takeValue
  pure (.mk name value)

def takeValue : Nat → OnReader Kten
  | 0 => throw .callDepth
  | frames + 1 => do
    let tag ← takeByte frames
    let reader ← get
    if reader.failed then pure .null
    else if tag = ktenTagNull then pure .null
    else if tag = ktenTagBool then do
      let flag ← takeByte frames
      pure (.bool (flag != 0))
    else if tag = ktenTagInt then do
      let number ← takeVarInt frames
      pure (.int number)
    else if tag = ktenTagFloat then do
      let text ← takeString frames
      let number ← orTrap (ktenParseFloat text)
      pure (.float number)
    else if tag = ktenTagText then do
      let text ← takeString frames
      pure (.text text)
    else if tag = ktenTagBytes then do
      let declared ← takeVarUInt frames
      let length ← orTrap (intOfU64 declared)
      let raw ← takeRaw frames length
      pure (.bytes raw)
    else if tag = ktenTagList then do
      let count ← takeCount frames
      let items ← takeEach (takeValue frames) count
      pure (.list items)
    else if tag = ktenTagObject then do
      let objectTag ← takeString frames
      let count ← takeCount frames
      let fields ← takeEach (takeField frames (takeValue frames)) count
      pure (.object objectTag fields)
    else if tag = ktenTagCase then do
      let name ← takeString frames
      let count ← takeCount frames
      let payload ← takeEach (takeValue frames) count
      pure (.case name payload)
    else do
      fail frames
      pure .null

inductive KtenError
  | malformed (reason : String)
  deriving DecidableEq, Repr

def readerOf (bytes : List UInt8) : KtenReader :=
  ⟨bytes, 0, false, 0⟩

/-- Decode while there are as many frames left on the stack. -/
def ktenDecodeWithin (frames : Nat) (bytes : List UInt8) : Except KiraTrap (Except KtenError Kten) :=
  match takeValue frames (readerOf bytes) with
  | .error trap _ => .error trap
  | .ok value reader =>
    if reader.failed then .ok (.error (.malformed "the bytes are not a Kten document"))
    else .ok (.ok value)

/-- Decode with a stack for every nesting: a value takes a byte, and no call of the reader nests
four deep inside a value. -/
def ktenDecode (bytes : List UInt8) : Except KiraTrap (Except KtenError Kten) :=
  ktenDecodeWithin (bytes.length + 5) bytes

end Foundation

end KiraVm
