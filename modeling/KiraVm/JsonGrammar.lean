import KiraVm.JsonModel

/-!
# The grammar of JSON

RFC 8259 over the bytes of a text in UTF-8, without the numbers that are no `Int`, and
with the value that each phrase denotes.  The number in front of a phrase is how deep
its arrays and objects may nest.
-/

namespace KiraVm

namespace Foundation

namespace Json

/-! ## Texts -/

def IsBlank (byte : UInt8) : Prop :=
  byte = 32 ∨ byte = 9 ∨ byte = 10 ∨ byte = 13

instance (byte : UInt8) : Decidable (IsBlank byte) :=
  inferInstanceAs (Decidable (byte = 32 ∨ byte = 9 ∨ byte = 10 ∨ byte = 13))

def Blanks (bytes : List UInt8) : Prop :=
  ∀ byte ∈ bytes, IsBlank byte

def HexDigit (byte : UInt8) (value : Nat) : Prop :=
  48 ≤ byte ∧ byte ≤ 57 ∧ value = byte.toNat - 48 ∨
    97 ≤ byte ∧ byte ≤ 102 ∧ value = byte.toNat - 87 ∨
    65 ≤ byte ∧ byte ≤ 70 ∧ value = byte.toNat - 55

def HexQuad (quad : List UInt8) (code : Nat) : Prop :=
  ∃ values, List.Forall₂ HexDigit quad values ∧ quad.length = 4 ∧
    code = values.foldl (fun code value => code * 16 + value) 0

/-- The escapes of one letter: the letter and the byte that it stands for. -/
def shortEscapes : List (UInt8 × UInt8) :=
  [(34, 34), (92, 92), (47, 47), (98, 8), (102, 12), (110, 10), (114, 13), (116, 9)]

def IsHighHalf (code : Nat) : Prop :=
  0xd800 ≤ code ∧ code ≤ 0xdbff

def IsLowHalf (code : Nat) : Prop :=
  0xdc00 ≤ code ∧ code ≤ 0xdfff

def pairScalar (high low : Nat) : Nat :=
  0x10000 + (high - 0xd800) * 0x400 + (low - 0xdc00)

def scalarBytes (code : Nat) : List UInt8 :=
  String.utf8EncodeChar (Char.ofNat code)

/-- What stands behind a backslash, and the bytes that it denotes. -/
inductive Escape : List UInt8 → List UInt8 → Prop
  | short {letter byte : UInt8} (escape : (letter, byte) ∈ shortEscapes) : Escape [letter] [byte]
  | scalar {quad : List UInt8} {code : Nat} (spelled : HexQuad quad code)
      (notHigh : ¬ IsHighHalf code) (notLow : ¬ IsLowHalf code) :
      Escape (117 :: quad) (scalarBytes code)
  | pair {quad lowQuad : List UInt8} {high low : Nat} (spelled : HexQuad quad high)
      (isHigh : IsHighHalf high) (spelledLow : HexQuad lowQuad low) (isLow : IsLowHalf low) :
      Escape (117 :: (quad ++ 92 :: 117 :: lowQuad)) (scalarBytes (pairScalar high low))

/-- What stands between quotes, and the bytes of the text that it denotes. -/
inductive Content : List UInt8 → List UInt8 → Prop
  | done : Content [] []
  | plain {byte : UInt8} {source bytes : List UInt8} (printed : 32 ≤ byte) (notQuote : byte ≠ 34)
      (notSlash : byte ≠ 92) (rest : Content source bytes) :
      Content (byte :: source) (byte :: bytes)
  | escaped {escape escapeBytes source bytes : List UInt8} (spelled : Escape escape escapeBytes)
      (rest : Content source bytes) :
      Content (92 :: (escape ++ source)) (escapeBytes ++ bytes)

def Quoted (bytes : List UInt8) (text : String) : Prop :=
  ∃ content, bytes = 34 :: (content ++ [34]) ∧ Content content (textBytes text)

/-! ## Integers -/

def Digits (bytes : List UInt8) : Prop :=
  bytes ≠ [] ∧ ∀ byte ∈ bytes, 48 ≤ byte ∧ byte ≤ 57

def decimalOf (digits : List UInt8) : Int :=
  digits.foldl (fun number digit => number * 10 + digitOf digit) 0

/-- A number without fraction and exponent. -/
structure Literal where
  negative : Bool
  whole : List UInt8

def Literal.bytes (literal : Literal) : List UInt8 :=
  (if literal.negative then [45] else []) ++ literal.whole

structure Literal.IsWell (literal : Literal) : Prop where
  whole : Digits literal.whole
  noLeadingZero : literal.whole.head? = some 48 → literal.whole = [48]

def Literal.integer (literal : Literal) : Int :=
  if literal.negative then -decimalOf literal.whole else decimalOf literal.whole

def Literal.IsInt (literal : Literal) : Prop :=
  intMin ≤ literal.integer ∧ literal.integer ≤ intMax

/-! ## Values -/

inductive Phrase
  | value (value : JsonValue)
  | member (member : JsonMember)
  | elements (items : List JsonValue)
  | members (members : List JsonMember)

/-- The bytes are the phrase, with at most so many levels of brackets. -/
inductive Denotes : Nat → List UInt8 → Phrase → Prop
  | null {depth : Nat} : Denotes depth (textBytes "null") (.value .null)
  | true {depth : Nat} : Denotes depth (textBytes "true") (.value (.boolean true))
  | false {depth : Nat} : Denotes depth (textBytes "false") (.value (.boolean false))
  | integer {depth : Nat} {literal : Literal} (well : literal.IsWell) (isInt : literal.IsInt) :
      Denotes depth literal.bytes (.value (.integer (Int64.ofInt literal.integer)))
  | text {depth : Nat} {bytes : List UInt8} {text : String} (quoted : Quoted bytes text) :
      Denotes depth bytes (.value (.text text))
  | emptyArray {depth : Nat} {blanks : List UInt8} (blank : Blanks blanks) :
      Denotes (depth + 1) (91 :: (blanks ++ [93])) (.value (.array []))
  | array {depth : Nat} {bytes : List UInt8} {items : List JsonValue}
      (inside : Denotes depth bytes (.elements items)) :
      Denotes (depth + 1) (91 :: (bytes ++ [93])) (.value (.array items))
  | emptyObject {depth : Nat} {blanks : List UInt8} (blank : Blanks blanks) :
      Denotes (depth + 1) (123 :: (blanks ++ [125])) (.value (.object []))
  | object {depth : Nat} {bytes : List UInt8} {members : List JsonMember}
      (inside : Denotes depth bytes (.members members)) :
      Denotes (depth + 1) (123 :: (bytes ++ [125])) (.value (.object members))
  | member {depth : Nat} {nameBytes before after bytes : List UInt8} {name : String}
      {value : JsonValue} (named : Quoted nameBytes name) (blankBefore : Blanks before)
      (blankAfter : Blanks after) (denotes : Denotes depth bytes (.value value)) :
      Denotes depth (nameBytes ++ (before ++ 58 :: (after ++ bytes))) (.member (.mk name value))
  | lastElement {depth : Nat} {before bytes after : List UInt8} {item : JsonValue}
      (blankBefore : Blanks before) (denotes : Denotes depth bytes (.value item))
      (blankAfter : Blanks after) : Denotes depth (before ++ (bytes ++ after)) (.elements [item])
  | moreElements {depth : Nat} {before bytes after rest : List UInt8} {item : JsonValue}
      {items : List JsonValue} (blankBefore : Blanks before)
      (denotes : Denotes depth bytes (.value item)) (blankAfter : Blanks after)
      (more : Denotes depth rest (.elements items)) :
      Denotes depth (before ++ (bytes ++ (after ++ 44 :: rest))) (.elements (item :: items))
  | lastMember {depth : Nat} {before bytes after : List UInt8} {member : JsonMember}
      (blankBefore : Blanks before) (denotes : Denotes depth bytes (.member member))
      (blankAfter : Blanks after) : Denotes depth (before ++ (bytes ++ after)) (.members [member])
  | moreMembers {depth : Nat} {before bytes after rest : List UInt8} {member : JsonMember}
      {members : List JsonMember} (blankBefore : Blanks before)
      (denotes : Denotes depth bytes (.member member)) (blankAfter : Blanks after)
      (more : Denotes depth rest (.members members)) :
      Denotes depth (before ++ (bytes ++ (after ++ 44 :: rest))) (.members (member :: members))

def Document (text : String) (value : JsonValue) : Prop :=
  ∃ before bytes after, textBytes text = before ++ (bytes ++ after) ∧ Blanks before ∧
    Blanks after ∧ Denotes jsonMaxDepth bytes (.value value)

end Json

end Foundation

end KiraVm
