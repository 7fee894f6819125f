import KiraVm.JsonNumber
import KiraVm.TextSlices

/-!
# JSON

The values, the writer and the reader of Foundation's JSON.  The reader is a cursor
over a text and the first refusal that it met; what stops the program is a trap.
Its recursion is bounded by the nesting limit, its loops by the turns that the
length of the text allows.
-/

namespace KiraVm

namespace Foundation

open StateLogic

/-! ## Values -/

mutual

inductive JsonValue
  | null
  | boolean (flag : Bool)
  | integer (number : Int64)
  | number (number : Float)
  | text (text : String)
  | array (items : List JsonValue)
  | object (members : List JsonMember)

inductive JsonMember
  | mk (name : String) (value : JsonValue)

end

/-! ## Writing -/

/-- The line break and indent before an element, or nothing when compact. -/
def jsonIndent (spacing : Int) (level : Nat) : String :=
  if spacing < 0 then ""
  else "\n" ++ String.ofList (List.replicate (spacing * level).toNat ' ')

def hexDigits : String := "0123456789abcdef"

def jsonControlEscape (byte : Nat) : Except KiraTrap String :=
  if byte = 8 then .ok "\\b"
  else if byte = 9 then .ok "\\t"
  else if byte = 10 then .ok "\\n"
  else if byte = 12 then .ok "\\f"
  else if byte = 13 then .ok "\\r"
  else do
    let high ← substring hexDigits (byte / 16) (byte / 16 + 1)
    let low ← substring hexDigits (byte % 16) (byte % 16 + 1)
    .ok ("\\u00" ++ high ++ low)

/-- What a byte is written as, when it is not copied. -/
def jsonEscapeOf (byte : UInt8) : Except KiraTrap String :=
  if byte = 34 then .ok "\\\""
  else if byte = 92 then .ok "\\\\"
  else if byte < 32 then jsonControlEscape byte.toNat
  else .ok ""

/-- The bytes from an index on, copied in runs between those that are escaped. -/
def jsonWriteTextFrom (text : String) (out : String) (runStart index : Nat) :
    Except KiraTrap String :=
  if index < (textBytes text).length then do
    let byte ← byteAt (textBytes text) index
    let escape ← jsonEscapeOf byte
    if escape ≠ "" then do
      let run ← substring text runStart index
      jsonWriteTextFrom text (out ++ run ++ escape) (index + 1) (index + 1)
    else jsonWriteTextFrom text out runStart (index + 1)
  else do
    let run ← substring text runStart (textBytes text).length
    .ok (out ++ run ++ "\"")
termination_by (textBytes text).length - index

def jsonWriteText (text : String) : Except KiraTrap String :=
  jsonWriteTextFrom text "\"" 0 0

def jsonLooksWhole (text : String) : Bool :=
  !text.toList.contains '.' && !text.toList.contains 'e' && !text.toList.contains 'E'

def jsonIsFinite (value : Float) : Bool :=
  if value != value then false
  else if value == 0.0 then true
  else value * 0.5 != value

def jsonWriteNumber (floatText : Float → String) (value : Float) : String :=
  if !jsonIsFinite value then "null"
  else if jsonLooksWhole (floatText value) then floatText value ++ ".0"
  else floatText value

mutual

/-- A value; `spacing` is `-1` when nothing goes between the tokens. -/
def jsonWrite (floatText : Float → String) (spacing : Int) (level : Nat) :
    JsonValue → Except KiraTrap String
  | .null => .ok "null"
  | .boolean flag => .ok (if flag then "true" else "false")
  | .integer number => .ok (toString number.toInt)
  | .number number => .ok (jsonWriteNumber floatText number)
  | .text text => jsonWriteText text
  | .array [] => .ok "[]"
  | .array (item :: items) => do
    let first ← jsonWrite floatText spacing (level + 1) item
    let rest ← jsonWriteItems floatText spacing (level + 1) items
    .ok ("[" ++ jsonIndent spacing (level + 1) ++ first ++ rest ++ jsonIndent spacing level ++ "]")
  | .object [] => .ok "\x7b\x7d"
  | .object (member :: members) => do
    let first ← jsonWriteMember floatText spacing (level + 1) member
    let rest ← jsonWriteMembers floatText spacing (level + 1) members
    .ok ("\x7b" ++ jsonIndent spacing (level + 1) ++ first ++ rest ++ jsonIndent spacing level ++
      "\x7d")

def jsonWriteItems (floatText : Float → String) (spacing : Int) (level : Nat) :
    List JsonValue → Except KiraTrap String
  | [] => .ok ""
  | item :: items => do
    let first ← jsonWrite floatText spacing level item
    let rest ← jsonWriteItems floatText spacing level items
    .ok ("," ++ jsonIndent spacing level ++ first ++ rest)

def jsonWriteMember (floatText : Float → String) (spacing : Int) (level : Nat) :
    JsonMember → Except KiraTrap String
  | .mk name value => do
    let nameText ← jsonWriteText name
    let valueText ← jsonWrite floatText spacing level value
    .ok (nameText ++ (if 0 ≤ spacing then ": " else ":") ++ valueText)

def jsonWriteMembers (floatText : Float → String) (spacing : Int) (level : Nat) :
    List JsonMember → Except KiraTrap String
  | [] => .ok ""
  | member :: members => do
    let first ← jsonWriteMember floatText spacing level member
    let rest ← jsonWriteMembers floatText spacing level members
    .ok ("," ++ jsonIndent spacing level ++ first ++ rest)

end

def writeJson (floatText : Float → String) (value : JsonValue) : Except KiraTrap String :=
  jsonWrite floatText (-1) 0 value

def writeJsonPretty (floatText : Float → String) (value : JsonValue) : Except KiraTrap String :=
  jsonWrite floatText 2 0 value

/-! ## The reader -/

inductive JsonFailure
  | unexpectedEnd
  | unexpectedCharacter
  | invalidNumber
  | invalidEscape
  | invalidText
  | unterminatedText
  | depthExceeded
  | trailingText
  deriving DecidableEq, Repr

structure JsonError where
  reason : JsonFailure
  offset : Nat
  deriving DecidableEq, Repr

def jsonMaxDepth : Nat := 128

/-- A cursor over the text, and the first refusal it met. -/
structure JsonReader where
  data : String
  size : Nat
  position : Nat
  depth : Nat
  stopped : Bool
  reason : JsonFailure
  errorAt : Nat
  deriving Repr

abbrev OnJson (α : Type) : Type :=
  EStateM KiraTrap JsonReader α

namespace JsonReader

/-- Record the first refusal. -/
def failed (reader : JsonReader) (reason : JsonFailure) (offset : Nat) : JsonReader :=
  if reader.stopped then reader
  else { reader with stopped := true, reason := reason, errorAt := offset }

def advance (reader : JsonReader) (count : Nat) : JsonReader :=
  { reader with position := reader.position + count }

def deeper (reader : JsonReader) : JsonReader :=
  { reader with depth := reader.depth + 1 }

def shallower (reader : JsonReader) : JsonReader :=
  { reader with depth := reader.depth - 1 }

def fail (reason : JsonFailure) (offset : Nat) : OnJson Unit :=
  modify fun reader => reader.failed reason offset

/-- Record a refusal and answer a default. -/
def refuse {α : Type} (reason : JsonFailure) (offset : Nat) (answer : α) : OnJson α := do
  fail reason offset
  pure answer

def moveBy (count : Nat) : OnJson Unit :=
  modify fun reader => reader.advance count

/-- The byte at an index of the text. -/
def charAt (index : Nat) : OnJson UInt8 := do
  let reader ← get
  orTrap (byteAt (textBytes reader.data) index)

/-- The byte at the cursor, or nothing at the end of the text. -/
def peek : OnJson (Option UInt8) := do
  let reader ← get
  if reader.size ≤ reader.position then pure none
  else do
    let byte ← charAt reader.position
    pure (some byte)

/-- The refusal at a byte that the grammar does not allow. -/
def refuseHere {α : Type} (byte : Option UInt8) (answer : α) : OnJson α := do
  let reader ← get
  refuse (if byte = none then .unexpectedEnd else .unexpectedCharacter) reader.position answer

def isBlank (byte : UInt8) : Bool :=
  byte == 32 || byte == 9 || byte == 10 || byte == 13

def isDigit (byte : UInt8) : Bool :=
  decide (48 ≤ byte) && decide (byte ≤ 57)

/-- The turns that are left of a loop over the bytes that a test accepts. -/
def skipFrom (accepts : UInt8 → Bool) : Nat → OnJson Unit
  | 0 => throw .endless
  | turns + 1 => do
    let reader ← get
    if reader.position < reader.size then do
      let byte ← charAt reader.position
      if accepts byte then do
        moveBy 1
        skipFrom accepts turns
      else pure ()
    else pure ()

/-- A loop over the text has a turn for each byte, and one to see the end. -/
def turnsOf (reader : JsonReader) : Nat :=
  reader.size + 1

def skipWhitespace : OnJson Unit := do
  let reader ← get
  skipFrom isBlank reader.turnsOf

/-- One or more digits, answering whether there was at least one. -/
def readDigits : OnJson Bool := do
  let first ← get
  skipFrom isDigit first.turnsOf
  let reader ← get
  pure (decide (first.position < reader.position))

/-- The turns that are left of the loop that compares a word. -/
def readKeywordFrom (word : List UInt8) (index : Nat) : List UInt8 → OnJson Bool
  | [] => do
    let reader ← get
    set { reader with position := reader.position + word.length }
    pure true
  | expected :: rest => do
    let reader ← get
    let byte ← charAt (reader.position + index)
    if byte ≠ expected then refuse .unexpectedCharacter (reader.position + index) false
    else readKeywordFrom word (index + 1) rest

/-- Consume a word whole, or refuse at the byte that broke it. -/
def readKeyword (word : String) : OnJson Bool := do
  let reader ← get
  if reader.size < reader.position + (textBytes word).length then
    refuse .unexpectedEnd reader.size false
  else readKeywordFrom (textBytes word) 0 (textBytes word)

/-! ### Texts -/

def readHexFrom (value index : Nat) : Nat → OnJson Nat
  | 0 => do
    moveBy 4
    pure value
  | turns + 1 => do
    let reader ← get
    let byte ← charAt (reader.position + index)
    match jsonHexValue byte with
    | none => refuse .invalidEscape (reader.position + index) 0
    | some digit => readHexFrom (value * 16 + digit) (index + 1) turns

def readHexQuad (escapeAt : Nat) : OnJson Nat := do
  let reader ← get
  if reader.size < reader.position + 4 then refuse .invalidEscape escapeAt 0
  else readHexFrom 0 0 4

/-- The second half of a surrogate pair. -/
def readLowHalf (escapeAt first : Nat) : OnJson String := do
  let reader ← get
  if reader.size ≤ reader.position + 1 then refuse .invalidText escapeAt ""
  else do
    let slash ← charAt reader.position
    let mark ← if slash = 92 then charAt (reader.position + 1) else pure 0
    if slash ≠ 92 ∨ mark ≠ 117 then refuse .invalidText escapeAt ""
    else do
      moveBy 2
      let second ← readHexQuad escapeAt
      let after ← get
      if after.stopped then pure ""
      else if second < 56320 ∨ 57343 < second then refuse .invalidText escapeAt ""
      else pure (scalarText (65536 + (first - 55296) * 1024 + (second - 56320)))

def readUnicodeEscape (escapeAt : Nat) : OnJson String := do
  let first ← readHexQuad escapeAt
  let reader ← get
  if reader.stopped then pure ""
  else if 55296 ≤ first ∧ first ≤ 56319 then readLowHalf escapeAt first
  else if 56320 ≤ first ∧ first ≤ 57343 then refuse .invalidText escapeAt ""
  else pure (scalarText first)

/-- What follows a backslash. -/
def readEscape : OnJson String := do
  let reader ← get
  if reader.size ≤ reader.position then refuse .invalidEscape reader.size ""
  else do
    let byte ← charAt reader.position
    moveBy 1
    if byte = 34 then pure "\""
    else if byte = 92 then pure "\\"
    else if byte = 47 then pure "/"
    else if byte = 98 then pure (scalarText 8)
    else if byte = 102 then pure (scalarText 12)
    else if byte = 110 then pure "\n"
    else if byte = 114 then pure "\r"
    else if byte = 116 then pure "\t"
    else if byte = 117 then readUnicodeEscape reader.position
    else refuse .invalidEscape reader.position ""

/-- The turns that are left of the loop over a quoted text. -/
def readTextFrom (out : String) (runStart : Nat) : Nat → OnJson String
  | 0 => throw .endless
  | turns + 1 => do
    let reader ← get
    if reader.position < reader.size then do
      let byte ← charAt reader.position
      if byte = 34 then do
        let run ← orTrap (substring reader.data runStart reader.position)
        moveBy 1
        pure (out ++ run)
      else if byte = 92 then do
        let run ← orTrap (substring reader.data runStart reader.position)
        moveBy 1
        let escape ← readEscape
        let after ← get
        if after.stopped then pure ""
        else readTextFrom (out ++ run ++ escape) after.position turns
      else if byte < 32 then refuse .invalidText reader.position ""
      else do
        moveBy 1
        readTextFrom out runStart turns
    else refuse .unterminatedText reader.size ""

/-- A quoted text, from its opening quote on. -/
def readText : OnJson String := do
  moveBy 1
  let reader ← get
  readTextFrom "" reader.position reader.turnsOf

/-! ### Numbers -/

/-- Go past a byte when it is the one. -/
def skipByte (expected : UInt8) : OnJson Bool := do
  let byte ← peek
  if byte = some expected then do
    moveBy 1
    pure true
  else pure false

/-- The digits of a fraction, when there is one: how many, or a refusal. -/
def readFraction (start : Nat) : OnJson (Option Nat) := do
  let pointed ← skipByte 46
  if pointed then do
    let fractionStart ← get
    let any ← readDigits
    if any then do
      let reader ← get
      pure (some (reader.position - fractionStart.position))
    else refuse .invalidNumber start none
  else pure none

def readExponent (start : Nat) : OnJson (Option Int) := do
  let byte ← peek
  if byte = some 101 ∨ byte = some 69 then do
    moveBy 1
    let negative ← skipByte 45
    let _ ← if negative then pure false else skipByte 43
    let exponentStart ← get
    let any ← readDigits
    if any then do
      let reader ← get
      let exponent ← orTrap
        (jsonDigitsToInt (textBytes reader.data) exponentStart.position reader.position)
      pure (some (if negative then 0 - exponent else exponent))
    else refuse .invalidNumber start none
  else pure none

/-- The value of a literal that has been read to its end. -/
def numberValue (start : Nat) (negative : Bool) (fraction : Option Nat) (exponent : Option Int) :
    OnJson JsonValue := do
  let reader ← get
  let text ← orTrap (substring reader.data start reader.position)
  let whole ← if fraction = none ∧ exponent = none then orTrap (jsonWholeNumber (textBytes text))
    else pure none
  match whole with
  | some value => pure (.integer (Int64.ofInt value))
  | none => do
    let value ← orTrap
      (jsonDecimalToFloat (textBytes text) negative (fraction.getD 0) (exponent.getD 0))
    pure (.number value)

/-- A number literal, from its first byte on. -/
def readNumber : OnJson JsonValue := do
  let reader ← get
  let start := reader.position
  let negative ← skipByte 45
  let integerStart ← get
  let any ← readDigits
  if !any then refuse .invalidNumber start .null
  else do
    let whole ← get
    let first ← charAt integerStart.position
    if 1 < whole.position - integerStart.position ∧ first = 48 then
      refuse .invalidNumber integerStart.position .null
    else do
      let fraction ← readFraction start
      let afterFraction ← get
      if afterFraction.stopped then pure .null
      else do
        let exponent ← readExponent start
        let afterExponent ← get
        if afterExponent.stopped then pure .null
        else numberValue start negative fraction exponent

/-! ### Values -/

/-- The turns that are left of the loop over the elements between brackets, each behind blanks. -/
def readElementsFrom {α : Type} (close : UInt8) (answer : List α → JsonValue)
    (readElement : OnJson α) (elements : List α) : Nat → OnJson JsonValue
  | 0 => throw .endless
  | turns + 1 => do
    skipWhitespace
    let element ← readElement
    let reader ← get
    if reader.stopped then pure .null
    else do
      skipWhitespace
      let byte ← peek
      if byte = some 44 then do
        moveBy 1
        readElementsFrom close answer readElement (elements ++ [element]) turns
      else if byte = some close then do
        moveBy 1
        modify shallower
        pure (answer (elements ++ [element]))
      else refuseHere byte .null

/-- What stands between brackets, from the opening one on. -/
def readBracketed {α : Type} (close : UInt8) (answer : List α → JsonValue)
    (readElement : OnJson α) : OnJson JsonValue := do
  modify deeper
  let reader ← get
  if jsonMaxDepth < reader.depth then refuse .depthExceeded reader.position .null
  else do
    moveBy 1
    skipWhitespace
    let byte ← peek
    if byte = some close then do
      moveBy 1
      modify shallower
      pure (answer [])
    else readElementsFrom close answer readElement [] reader.turnsOf

def readArray (readValue : OnJson JsonValue) : OnJson JsonValue :=
  readBracketed 93 .array readValue

/-- A member of an object; what is answered when the reader stopped is not used. -/
def readMember (readValue : OnJson JsonValue) : OnJson JsonMember := do
  let byte ← peek
  if byte ≠ some 34 then refuseHere byte (.mk "" .null)
  else do
    let name ← readText
    let named ← get
    if named.stopped then pure (.mk "" .null)
    else do
      skipWhitespace
      let colon ← peek
      if colon ≠ some 58 then refuseHere colon (.mk "" .null)
      else do
        moveBy 1
        skipWhitespace
        let value ← readValue
        pure (.mk name value)

def readObject (readValue : OnJson JsonValue) : OnJson JsonValue :=
  readBracketed 125 .object (readMember readValue)

def readTextValue : OnJson JsonValue := do
  let text ← readText
  let reader ← get
  if reader.stopped then pure .null else pure (.text text)

def readWord (word : String) (value : JsonValue) : OnJson JsonValue := do
  let found ← readKeyword word
  if found then pure value else pure .null

def readValue : Nat → OnJson JsonValue
  | 0 => throw .callDepth
  | frames + 1 => do
    let byte ← peek
    match byte with
    | none => refuseHere none .null
    | some byte =>
      if byte = 123 then readObject (readValue frames)
      else if byte = 91 then readArray (readValue frames)
      else if byte = 34 then readTextValue
      else if byte = 116 then readWord "true" (.boolean true)
      else if byte = 102 then readWord "false" (.boolean false)
      else if byte = 110 then readWord "null" .null
      else if byte = 45 ∨ isDigit byte then readNumber
      else refuseHere (some byte) .null

def readDocument (frames : Nat) : OnJson JsonValue := do
  skipWhitespace
  let value ← readValue frames
  let reader ← get
  if reader.stopped then pure .null
  else do
    skipWhitespace
    let behind ← get
    if behind.position < behind.size then refuse .trailingText behind.position .null
    else pure value

end JsonReader

def jsonReaderOf (text : String) : JsonReader :=
  ⟨text, (textBytes text).length, 0, 0, false, .unexpectedEnd, 0⟩

/-- The nesting limit bounds the calls, so this many frames are never used up. -/
def jsonFrames : Nat := jsonMaxDepth + 2

/-- Read one document, or name where it stopped being one. -/
def parseJson (text : String) : Except KiraTrap (Except JsonError JsonValue) :=
  match JsonReader.readDocument jsonFrames (jsonReaderOf text) with
  | .error trap _ => .error trap
  | .ok value reader =>
    if reader.stopped then .ok (.error ⟨reader.reason, reader.errorAt⟩) else .ok (.ok value)

end Foundation

end KiraVm
