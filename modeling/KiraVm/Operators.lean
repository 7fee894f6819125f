import KiraVm.PlaceModel

/-!
# Operators

Arithmetic, comparison, conversion, decimal and string instructions.  The
compiler picks the typed instruction, so nothing here inspects a value to decide
what an operator means: an operand of another type is a mismatch.
-/

namespace KiraVm

/-! ## Integer spellings -/

namespace IntWidth

def bits : IntWidth → Nat
  | .i8 | .u8 => 8
  | .i16 | .u16 => 16
  | .i32 | .u32 => 32
  | .plain | .u64 => 64

def isSigned : IntWidth → Bool
  | .plain | .i8 | .i16 | .i32 => true
  | _ => false

/-- The smallest and the largest value. -/
def range (width : IntWidth) : Int × Int :=
  if width.isSigned then (-2 ^ (width.bits - 1), 2 ^ (width.bits - 1) - 1)
  else (0, 2 ^ width.bits - 1)

def holds (width : IntWidth) (value : Int) : Bool :=
  decide (width.range.1 ≤ value ∧ value ≤ width.range.2)

def valueOf : IntWidth → Int64 → Int
  | .u64, word => word.toUInt64.toNat
  | _, word => word.toInt

def wordOf (_ : IntWidth) (value : Int) : Int64 :=
  Int64.ofInt value

def wrap (width : IntWidth) (word : Int64) : Int64 :=
  if width.bits = 64 then word
  else if width.isSigned then Int64.ofInt (Int.bmod word.toInt (2 ^ width.bits))
  else Int64.ofInt (word.toInt % 2 ^ width.bits)

def fromCode (code : UInt8) : Option IntWidth :=
  [plain, i8, i16, i32, u8, u16, u32, u64][code.toNat]?

end IntWidth

/-- A signed result, when it is in range. -/
def checkedInt (value : Int) : Option Int64 :=
  if IntWidth.plain.holds value then some (Int64.ofInt value) else none

/-- An unsigned result, when it is in range. -/
def checkedUInt (value : Int) : Option Int64 :=
  if IntWidth.u64.holds value then some (Int64.ofInt value) else none

def StringOp.argumentCount : StringOp → Nat
  | .trim | .lowercase | .uppercase | .dropLastScalar | .isInt | .toInt | .bytes => 0
  | .contains | .startsWith | .endsWith | .split => 1
  | .replace => 2

def NumberOp.operandCount : NumberOp → Nat
  | .fromInt | .fromString | .fromFloat | .toString | .toInt | .toFloat | .negate => 1
  | _ => 2

def MathOp.argumentCount : MathOp → Nat
  | .pow | .atan2 | .min | .max | .hypot | .copySign | .fmod => 2
  | _ => 1

namespace Vm

variable {world : World}

/-! ## Integers -/

def intBinary (combine : Int64 → Int64 → Int64) : Vm world Unit := do
  let rhs ← popInt
  let lhs ← popInt
  push (.int (combine lhs rhs))

/-- Division and remainder refuse a zero divisor. -/
def intDivide (combine : Int64 → Int64 → Int64) : Vm world Unit := do
  let rhs ← popInt
  let lhs ← popInt
  if rhs = 0 then trap .divideByZero
  push (.int (combine lhs rhs))

/-- The unsigned reading of both words. -/
def unsigned (combine : UInt64 → UInt64 → UInt64) (lhs rhs : Int64) : Int64 :=
  (combine lhs.toUInt64 rhs.toUInt64).toInt64

def intCompare (compare : Int64 → Int64 → Bool) : Vm world Unit := do
  let rhs ← popInt
  let lhs ← popInt
  push (.bool (compare lhs rhs))

def uintCompare (compare : UInt64 → UInt64 → Bool) : Vm world Unit :=
  intCompare fun lhs rhs => compare lhs.toUInt64 rhs.toUInt64

/-- Arithmetic that refuses a result out of range. -/
def checkedIntArith (combine : Int64 → Int64 → Option Int64) (spelling : IntWidth) :
    Vm world Unit := do
  let rhs ← popInt
  let lhs ← popInt
  let value ← orTrap (.integerOverflow spelling) (combine lhs rhs)
  push (.int value)

def divIntChecked : Vm world Unit := do
  let rhs ← popInt
  let lhs ← popInt
  if rhs = 0 then trap .divideByZero
  let value ← orTrap (.integerOverflow .plain) (checkedInt (lhs.toInt.tdiv rhs.toInt))
  push (.int value)

def negIntChecked : Vm world Unit := do
  let value ← popInt
  let negated ← orTrap (.integerOverflow .plain) (checkedInt (-value.toInt))
  push (.int negated)

def spelling (code : UInt8) : Vm world IntWidth :=
  orTrap .badDispatch (IntWidth.fromCode code)

def checkInt (code : UInt8) : Vm world Unit := do
  let width ← spelling code
  let value ← popInt
  if !width.holds value.toInt then trap (.integerOverflow width)
  push (.int value)

def wrapInt (code : UInt8) : Vm world Unit := do
  let width ← spelling code
  let value ← popInt
  push (.int (width.wrap value))

/-- The count stays for the shift that follows. -/
def checkShift (bits : UInt8) : Vm world Unit := do
  let count ← popInt
  if count < 0 ∨ bits.toNat ≤ count.toNatClampNeg then trap (.shiftOutOfRange count bits.toNat)
  push (.int count)

def convertInt (source target : UInt8) : Vm world Unit := do
  let source ← spelling source
  let target ← spelling target
  let word ← popInt
  let value := source.valueOf word
  if !target.holds value then trap (.narrowingOutOfRange value target)
  push (.int (target.wordOf value))

/-! ## Floats and booleans -/

def floatArith (op : FloatArith) : Vm world Unit := do
  let rhs ← popFloat
  let lhs ← popFloat
  push (.float (world.floats.arith op lhs rhs))

def floatCompare (compare : UInt64 → UInt64 → Bool) : Vm world Unit := do
  let rhs ← popFloat
  let lhs ← popFloat
  push (.bool (compare lhs rhs))

def convertFloat (convert : UInt64 → Option Int64) : Vm world Unit := do
  let bits ← popFloat
  let value ← orTrap (.floatToIntOutOfRange bits) (convert bits)
  push (.int value)

def convertFloatToInt : Vm world Unit :=
  convertFloat world.floats.toInt

def convertFloatToUInt : Vm world Unit :=
  convertFloat fun bits => (world.floats.toUInt bits).map UInt64.toInt64

def boolCompare (compare : Bool → Bool → Bool) : Vm world Unit := do
  let rhs ← popBool
  let lhs ← popBool
  push (.bool (compare lhs rhs))

def popFloats : Nat → List UInt64 → Vm world (List UInt64)
  | 0, operands => pure operands
  | count + 1, operands => do
    match ← pop with
    | .float bits => popFloats count (bits :: operands)
    | other => mismatch other "a float to take a maths operation of"

def mathOp (op : MathOp) : Vm world Unit := do
  let operands ← popFloats op.argumentCount []
  push (.float (world.floats.math op operands))

/-! ## Values and types -/

/-- Two operands, the right one first; each is indexed without a check. -/
def popPair : Vm world (Value × Value) := do
  match ← popOperands 2 with
  | [rhs, lhs] => pure (lhs, rhs)
  | _ => panic

/-- Descriptors own nothing, and a mismatched operand is not dropped. -/
def typeCompare (compare : UInt64 → UInt64 → Bool) : Vm world Unit := do
  match ← popPair with
  | (.type lhs, .type rhs) => push (.bool (compare lhs rhs))
  | _ => trap (.typeMismatch "two runtime type descriptors")

def anyCompare (answer : Bool → Bool) : Vm world Unit := do
  let (lhs, rhs) ← popPair
  let equal ← readHeap fun heap => heap.valuesEqual world lhs rhs
  discard [rhs, lhs]
  push (.bool (answer equal))

def valueCompare : Vm world Unit := do
  let (lhs, rhs) ← popPair
  let order ← readHeap fun heap => heap.compareValues world lhs rhs
  discard [rhs, lhs]
  push (.int (match order with | .lt => -1 | .eq => 0 | .gt => 1))

/-! ## Strings -/

def concat : Vm world Unit := do
  let (lhs, rhs) ← popTwoStr
  let joined ← readHeap fun heap => heap.get lhs ++ heap.get rhs
  discard [.str lhs, .str rhs]
  pushStr joined

def strCompare (answer : Bool → Bool) : Vm world Unit := do
  let (lhs, rhs) ← popTwoStr
  let equal ← readHeap fun heap => heap.get lhs == heap.get rhs
  discard [.str lhs, .str rhs]
  push (.bool (answer equal))

/-- The byte at an index; the operands stay the caller's. -/
def byteAt (heap : Heap) (base index : Value) : Except (VmError world.Error) Int64 :=
  match base with
  | .str id =>
    match index with
    | .int index =>
      if index < 0 then .error .stringIndexOutOfBounds
      else
        match (heap.get id).toUTF8.toList[index.toNatClampNeg]? with
        | some byte => .ok byte.toUInt64.toInt64
        | none => .error .stringIndexOutOfBounds
    | _ => .error (.typeMismatch "Int")
  | _ => .error .notAString

def stringCharAt : Vm world Unit := do
  let index ← pop
  let base ← pop
  let read ← readHeap fun heap => byteAt heap base index
  discard [base, index]
  let byte ← ofExcept read
  push (.int byte)

def sliceOf (heap : Heap) (base start stop : Value) : Except (VmError world.Error) String :=
  match base with
  | .str id =>
    match start, stop with
    | .int start, .int stop =>
      if start < 0 ∨ stop < 0 then .error .stringIndexOutOfBounds
      else if stop < start then .error .invertedSubstring
      else
        match world.texts.slice (heap.get id) start.toNatClampNeg stop.toNatClampNeg with
        | some text => .ok text
        | none => .error .stringIndexOutOfBounds
    | _, _ => .error (.typeMismatch "Int")
  | _ => .error .notAString

def stringSubstring : Vm world Unit := do
  let stop ← pop
  let start ← pop
  let base ← pop
  let carved ← readHeap fun heap => sliceOf heap base start stop
  discard [base, start, stop]
  let text ← ofExcept carved
  pushStr text

def indexOf (heap : Heap) : Value → Value → Except (VmError world.Error) Int64
  | .str haystack, .str needle =>
    match world.texts.find (heap.get haystack) (heap.get needle) with
    | some position => .ok (Int64.ofNat position)
    | none => .ok (-1)
  | _, _ => .error .notAString

def stringIndexOf : Vm world Unit := do
  let needle ← pop
  let base ← pop
  let found ← readHeap fun heap => indexOf heap base needle
  discard [base, needle]
  let position ← ofExcept found
  push (.int position)

def stringLen : Vm world Unit := do
  let base ← pop
  match base with
  | .str id => do
    let length ← readHeap fun heap => (heap.get id).utf8ByteSize
    dropValue base
    if Heap.i64Max < length then trap .arrayTooLong
    push (.int (Int64.ofNat length))
  | _ => do
    dropValue base
    trap .notAString

/-- The value of a string operation; the operands stay the caller's. -/
def stringOpResult (op : StringOp) (base : Value) (arguments : List Value) : Vm world Value := do
  let heap ← readHeap id
  match base with
  | .str id => do
    let text := heap.get id
    match op, arguments with
    | .contains, [.str needle] => pure (.bool (world.texts.contains text (heap.get needle)))
    | .startsWith, [.str start] => pure (.bool (world.texts.startsWith text (heap.get start)))
    | .endsWith, [.str tail] => pure (.bool (world.texts.endsWith text (heap.get tail)))
    | .replace, [.str source, .str target] =>
      onHeap fun heap =>
        heap.allocStr (world.texts.replace text (heap.get source) (heap.get target))
    | .isInt, [] => pure (.bool (world.texts.parseInt (world.texts.trim text)).isSome)
    | .toInt, [] => do
      let value ← orTrap .notAWholeNumber (world.texts.parseInt (world.texts.trim text))
      pure (.int value)
    | .dropLastScalar, [] => onHeap fun heap => heap.allocStr (world.texts.dropLastScalar text)
    | .trim, [] => onHeap fun heap => heap.allocStr (world.texts.trim text)
    | .lowercase, [] => onHeap fun heap => heap.allocStr (world.texts.lowercase text)
    | .uppercase, [] => onHeap fun heap => heap.allocStr (world.texts.uppercase text)
    | .split, [.str separator] => do
      let separator := heap.get separator
      let pieces := if separator.isEmpty then [text] else world.texts.split text separator
      let elements ← onHeap fun heap => heap.allocStrs pieces
      onHeap fun heap => heap.allocArray elements
    | .bytes, [] =>
      onHeap fun heap =>
        heap.allocArray (text.toUTF8.toList.map fun byte => .int byte.toUInt64.toInt64)
    | _, arguments =>
      if arguments.all fun argument => argument matches .str _ then
        trap (.typeMismatch "String")
      else
        trap .notAString
  | _ => trap .notAString

def stringOp (op : StringOp) : Vm world Unit := do
  let popped ← popOperands op.argumentCount
  let base ← onTrap pop (discard popped.reverse)
  let arguments := popped.reverse
  let operands := base :: arguments
  let produced ← onTrap (stringOpResult op base arguments) (discard operands)
  discard operands
  push produced

/-! ## Decimals -/

def asNumber : Value → Vm world Decimal
  | .number value => pure value
  | _ => trap (.typeMismatch "Number")

def ofDecimal {α : Type} : Except DecimalError α → Vm world α
  | .ok value => pure value
  | .error error => trap (.numberTrap error)

/-- The operands are indexed without a check. -/
def numberUnary {α : Type} (operands : List Value) (answer : Decimal → Vm world α) :
    Vm world α := do
  let operand ← orPanic operands[0]?
  let value ← asNumber operand
  answer value

def numberBinary {α : Type} (operands : List Value)
    (combine : Decimal → Decimal → Except DecimalError α) : Vm world α := do
  let left ← orPanic operands[0]?
  let left ← asNumber left
  let right ← orPanic operands[1]?
  let right ← asNumber right
  ofDecimal (combine left right)

def numberOrder (operands : List Value) (holds : Ordering → Bool) : Vm world Value := do
  let order ← numberBinary operands world.decimals.compare
  pure (.bool (holds order))

def numberArith (operands : List Value)
    (combine : Decimal → Decimal → Except DecimalError Decimal) : Vm world Value := do
  let value ← numberBinary operands combine
  pure (.number value)

/-- The value of a decimal operation; the operands stay the caller's. -/
def numberOpResult (op : NumberOp) (operands : List Value) : Vm world Value := do
  match op with
  | .fromInt =>
    match operands with
    | [.int value] => pure (.number (world.decimals.fromInt value))
    | _ => trap (.typeMismatch "Int")
  | .fromString =>
    match operands with
    | [.str id] => do
      let text ← readHeap fun heap => heap.get id
      let value ← ofDecimal (world.decimals.parse text)
      pure (.number value)
    | _ => trap .notAString
  | .fromFloat =>
    match operands with
    | [.float bits] => do
      let value ← ofDecimal (world.decimals.fromFloat bits)
      pure (.number value)
    | _ => trap (.typeMismatch "Float")
  | .toString =>
    numberUnary operands fun value =>
      onHeap fun heap => heap.allocStr (world.decimals.text value)
  | .toInt =>
    numberUnary operands fun value => do
      let whole ← ofDecimal (world.decimals.toInt value)
      pure (.int whole)
  | .toFloat => numberUnary operands fun value => pure (.float (world.decimals.toFloat value))
  | .negate =>
    numberUnary operands fun value => do
      let negated ← ofDecimal (world.decimals.negate value)
      pure (.number negated)
  | .add => numberArith operands world.decimals.add
  | .subtract => numberArith operands world.decimals.subtract
  | .multiply => numberArith operands world.decimals.multiply
  | .divide => numberArith operands world.decimals.divide
  | .equal => do
    let equal ← numberBinary operands world.decimals.equals
    pure (.bool equal)
  | .less => numberOrder operands Ordering.isLT
  | .lessOrEqual => numberOrder operands Ordering.isLE
  | .greater => numberOrder operands Ordering.isGT
  | .greaterOrEqual => numberOrder operands Ordering.isGE

def numberOp (op : NumberOp) : Vm world Unit := do
  let popped ← popOperands op.operandCount
  let operands := popped.reverse
  let produced ← onTrap (numberOpResult op operands) (discard operands)
  discard operands
  push produced

end Vm

end KiraVm
