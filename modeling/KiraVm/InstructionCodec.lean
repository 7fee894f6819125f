import KiraVm.InstructionSet

/-!
# The instruction byte code

Instructions to bytes and back.  The wide encoding is canonical: the decoder
succeeds exactly on the encoder's bytes, so an instruction stream and its
encoding determine each other.  The narrow widths of the previous format are
read only; what they decode to grows by at most a factor of four when it is
written wide.
-/

namespace KiraVm

open ByteReader ByteReader.Reader

/-- Why a byte stream is no instruction sequence. -/
inductive DecodeError
  | unexpectedEnd (offset : Nat)
  | unknownOpcode (opcode : UInt8) (offset : Nat)
  | invalidBoolean (value : UInt8) (offset : Nat)
  deriving DecidableEq, Repr

/-! ## Encoding -/

def boolByte (value : Bool) : UInt8 :=
  if value then 1 else 0

namespace StepTag

@[match_pattern] def field : UInt8 := 0x00
@[match_pattern] def index : UInt8 := 0x01

end StepTag

def encodeStep : PathStep → List UInt8
  | .field index => StepTag.field :: u64Bytes index
  -- An index carries no immediate: its value is on the stack.
  | .index => [StepTag.index]

def encodePlace (slot : UInt64) (path : List PathStep) : List UInt8 :=
  u64Bytes slot ++ (countBytes path.length ++ path.flatMap encodeStep)

def encodeTarget (target : WritebackTarget) : List UInt8 :=
  u64Bytes target.param ++ encodePlace target.slot target.path

def encodeTargets (targets : List WritebackTarget) : List UInt8 :=
  countBytes targets.length ++ targets.flatMap encodeTarget

def encodeWords (words : List UInt64) : List UInt8 :=
  countBytes words.length ++ words.flatMap u64Bytes

def encodeGlue : Option UInt32 → List UInt8
  | some glue => 1 :: u32Bytes glue
  | none => [0]

def encodeOne : Instruction → List UInt8
  | .constInt value => Opcode.constInt.toByte :: u64Bytes value.toUInt64
  | .constFloat bits => Opcode.constFloat.toByte :: u64Bytes bits
  | .constBool value => [Opcode.constBool.toByte, boolByte value]
  | .constStr index => Opcode.constStr.toByte :: u64Bytes index
  | .constVoid => [Opcode.constVoid.toByte]
  | .loadLocal slot => Opcode.loadLocal.toByte :: u64Bytes slot
  | .takeLocal slot => Opcode.takeLocal.toByte :: u64Bytes slot
  | .storeLocal slot => Opcode.storeLocal.toByte :: u64Bytes slot
  | .loadConstant slot => Opcode.loadConstant.toByte :: u64Bytes slot
  | .pop => [Opcode.pop.toByte]
  | .negInt => [Opcode.negInt.toByte]
  | .negFloat => [Opcode.negFloat.toByte]
  | .not => [Opcode.not.toByte]
  | .addInt => [Opcode.addInt.toByte]
  | .subInt => [Opcode.subInt.toByte]
  | .mulInt => [Opcode.mulInt.toByte]
  | .divInt => [Opcode.divInt.toByte]
  | .remInt => [Opcode.remInt.toByte]
  | .divUInt => [Opcode.divUint.toByte]
  | .remUInt => [Opcode.remUint.toByte]
  | .addFloat => [Opcode.addFloat.toByte]
  | .subFloat => [Opcode.subFloat.toByte]
  | .mulFloat => [Opcode.mulFloat.toByte]
  | .divFloat => [Opcode.divFloat.toByte]
  | .remFloat => [Opcode.remFloat.toByte]
  | .concatStr => [Opcode.concatStr.toByte]
  | .eqInt => [Opcode.eqInt.toByte]
  | .neInt => [Opcode.neInt.toByte]
  | .ltInt => [Opcode.ltInt.toByte]
  | .leInt => [Opcode.leInt.toByte]
  | .gtInt => [Opcode.gtInt.toByte]
  | .geInt => [Opcode.geInt.toByte]
  | .ltUInt => [Opcode.ltUint.toByte]
  | .leUInt => [Opcode.leUint.toByte]
  | .gtUInt => [Opcode.gtUint.toByte]
  | .geUInt => [Opcode.geUint.toByte]
  | .bitAnd => [Opcode.bitAnd.toByte]
  | .bitOr => [Opcode.bitOr.toByte]
  | .bitXor => [Opcode.bitXor.toByte]
  | .shl => [Opcode.shl.toByte]
  | .shrInt => [Opcode.shrInt.toByte]
  | .shrUInt => [Opcode.shrUint.toByte]
  | .bitNot => [Opcode.bitNot.toByte]
  | .eqFloat => [Opcode.eqFloat.toByte]
  | .neFloat => [Opcode.neFloat.toByte]
  | .ltFloat => [Opcode.ltFloat.toByte]
  | .leFloat => [Opcode.leFloat.toByte]
  | .gtFloat => [Opcode.gtFloat.toByte]
  | .geFloat => [Opcode.geFloat.toByte]
  | .eqBool => [Opcode.eqBool.toByte]
  | .neBool => [Opcode.neBool.toByte]
  | .eqStr => [Opcode.eqStr.toByte]
  | .neStr => [Opcode.neStr.toByte]
  | .erase typeId => Opcode.erase.toByte :: u64Bytes typeId
  | .eqAny => [Opcode.eqAny.toByte]
  | .neAny => [Opcode.neAny.toByte]
  | .eqValue => [Opcode.eqValue.toByte]
  | .neValue => [Opcode.neValue.toByte]
  | .cmpValue => [Opcode.cmpValue.toByte]
  | .eqType => [Opcode.eqType.toByte]
  | .neType => [Opcode.neType.toByte]
  | .jump target => Opcode.jump.toByte :: u64Bytes target
  | .jumpIfFalse target => Opcode.jumpIfFalse.toByte :: u64Bytes target
  | .call func => Opcode.call.toByte :: u64Bytes func
  | .callNative id => Opcode.callNative.toByte :: u32Bytes id
  | .callForeign id => Opcode.callForeign.toByte :: u32Bytes id
  | .callMut func slot path => Opcode.callMut.toByte :: (u64Bytes func ++ encodePlace slot path)
  | .callWriteback func targets =>
    Opcode.callWriteback.toByte :: (u64Bytes func ++ encodeTargets targets)
  | .callNativeWriteback func targets =>
    Opcode.callNativeWriteback.toByte :: (u32Bytes func ++ encodeTargets targets)
  | .nativeState typeId => Opcode.nativeState.toByte :: u64Bytes typeId
  | .nativeUserData shared => [Opcode.nativeUserData.toByte, boolByte shared]
  | .nativeRecover typeId => Opcode.nativeRecover.toByte :: u64Bytes typeId
  | .nativeStateRetain => [Opcode.nativeStateRetain.toByte]
  | .nativeStateRelease => [Opcode.nativeStateRelease.toByte]
  | .constRawPtrNull => [Opcode.rawPtrNull.toByte]
  | .foreignCallback id => Opcode.foreignCallback.toByte :: u32Bytes id
  | .print => [Opcode.print.toByte]
  | .abort => [Opcode.abort.toByte]
  | .return_ => [Opcode.return_.toByte]
  | .returnVoid => [Opcode.returnVoid.toByte]
  | .newStruct fields => Opcode.newStruct.toByte :: u64Bytes fields
  | .newStructDropping fields glue =>
    Opcode.newStructDropping.toByte :: (u64Bytes fields ++ u32Bytes glue)
  | .newStructOrdered order glue =>
    Opcode.newStructOrdered.toByte :: (encodeWords order ++ encodeGlue glue)
  | .addIntChecked => [Opcode.addIntChecked.toByte]
  | .subIntChecked => [Opcode.subIntChecked.toByte]
  | .mulIntChecked => [Opcode.mulIntChecked.toByte]
  | .negIntChecked => [Opcode.negIntChecked.toByte]
  | .divIntChecked => [Opcode.divIntChecked.toByte]
  | .addUIntChecked => [Opcode.addUintChecked.toByte]
  | .subUIntChecked => [Opcode.subUintChecked.toByte]
  | .mulUIntChecked => [Opcode.mulUintChecked.toByte]
  | .checkInt code => [Opcode.checkInt.toByte, code]
  | .wrapInt code => [Opcode.wrapInt.toByte, code]
  | .checkShift bits => [Opcode.checkShift.toByte, bits]
  | .convertInt source target => [Opcode.convertInt.toByte, source, target]
  | .convertUIntToFloat => [Opcode.convertUintToFloat.toByte]
  | .printUnsigned => [Opcode.printUnsigned.toByte]
  | .stringOfUnsigned => [Opcode.stringOfUnsigned.toByte]
  | .typeTest id => Opcode.typeTest.toByte :: u64Bytes id
  | .downcast id => Opcode.downcast.toByte :: u64Bytes id
  | .constType id => Opcode.constType.toByte :: u64Bytes id
  | .typeOf => [Opcode.typeOf.toByte]
  | .typeField field => [Opcode.typeField.toByte, field]
  | .typeCastResult id => Opcode.typeCastResult.toByte :: u64Bytes id
  | .getField index => Opcode.getField.toByte :: u64Bytes index
  | .foreignOffset offset => Opcode.foreignOffset.toByte :: u32Bytes offset
  | .foreignIndex stride => Opcode.foreignIndex.toByte :: u32Bytes stride
  | .foreignLoad offset ty => Opcode.foreignLoad.toByte :: (u32Bytes offset ++ [ty.tag])
  | .storeField slot path => Opcode.storeField.toByte :: (u64Bytes slot ++ encodeWords path)
  | .newArray count => Opcode.newArray.toByte :: u64Bytes count
  | .arrayGet => [Opcode.arrayGet.toByte]
  | .arrayLen => [Opcode.arrayLen.toByte]
  | .convertFloatToBits => [Opcode.convertFloatToBits.toByte]
  | .convertBitsToFloat => [Opcode.convertBitsToFloat.toByte]
  | .convertBits32ToFloat => [Opcode.convertBits32ToFloat.toByte]
  | .convertFloatToBits32 => [Opcode.convertFloatToBits32.toByte]
  | .arrayGetLocal slot => Opcode.arrayGetLocal.toByte :: u64Bytes slot
  | .taskOp prim => [Opcode.taskOp.toByte, prim.asByte]
  | .channelOp prim => [Opcode.channelOp.toByte, prim.asByte]
  | .mainThreadCall operation function args =>
    Opcode.mainThreadCall.toByte :: ([operation.asByte] ++ u64Bytes function ++ u64Bytes args)
  | .mainThreadJoin => [Opcode.mainThreadJoin.toByte]
  | .mainThreadLifecycle => [Opcode.mainThreadLifecycle.toByte]
  | .stringLen => [Opcode.stringLen.toByte]
  | .stringCharAt => [Opcode.stringCharAt.toByte]
  | .stringSubstring => [Opcode.stringSubstring.toByte]
  | .stringIndexOf => [Opcode.stringIndexOf.toByte]
  | .stringOf => [Opcode.stringOf.toByte]
  | .cstringNew => [Opcode.cstringNew.toByte]
  | .clayoutAddress aggregate => Opcode.clayoutAddress.toByte :: u32Bytes aggregate
  | .fileSystem op => [Opcode.fileSystem.toByte, op.asByte]
  | .stringOp op => [Opcode.stringOp.toByte, op.asByte]
  | .numberOp op => [Opcode.numberOp.toByte, op.asByte]
  | .arrayElements ty => [Opcode.arrayElements.toByte, ty.tag]
  | .scalarText => [Opcode.scalarText.toByte]
  | .mathOp op => [Opcode.mathOp.toByte, op.tag]
  | .compiler op => [Opcode.compiler.toByte, op.asByte]
  | .env op => [Opcode.envOp.toByte, op.asByte]
  | .storePlace slot path => Opcode.storePlace.toByte :: encodePlace slot path
  | .arrayAppend slot path => Opcode.arrayAppend.toByte :: encodePlace slot path
  | .newEnum tag hasPayload => Opcode.newEnum.toByte :: (u64Bytes tag ++ [boolByte hasPayload])
  | .enumTag => [Opcode.enumTag.toByte]
  | .enumFromCode => [Opcode.enumFromCode.toByte]
  | .hashValue => [Opcode.hashValue.toByte]
  | .enumPayload => [Opcode.enumPayload.toByte]
  | .newCell => [Opcode.newCell.toByte]
  | .cellGet slot => Opcode.cellGet.toByte :: u64Bytes slot
  | .cellSet slot => Opcode.cellSet.toByte :: u64Bytes slot
  | .convertIntToFloat => [Opcode.convertIntToFloat.toByte]
  | .convertFloatToInt => [Opcode.convertFloatToInt.toByte]
  | .convertFloatToUInt => [Opcode.convertFloatToUint.toByte]
  | .nativeStateTake typeWord => Opcode.nativeStateTake.toByte :: u64Bytes typeWord
  | .convertIntToRawPtr => [Opcode.convertIntToRawPtr.toByte]
  | .convertRawPtrToInt => [Opcode.convertRawPtrToInt.toByte]

/-- The byte encoding of an instruction sequence. -/
def encode (code : List Instruction) : List UInt8 :=
  code.flatMap encodeOne

/-! ## Decoding -/

def readByte : Reader DecodeError UInt8 :=
  byte .unexpectedEnd

/-- Two bytes, both or neither. -/
def readPair : Reader DecodeError (UInt8 × UInt8) := do
  let bytes ← take .unexpectedEnd 2
  pure (bytes.getD 0 0, bytes.getD 1 0)

def readU32 : Reader DecodeError UInt32 :=
  u32 .unexpectedEnd

def readU64 : Reader DecodeError UInt64 :=
  u64 .unexpectedEnd

def readWord (legacy : Bool) : Reader DecodeError UInt64 :=
  if legacy then UInt32.toUInt64 <$> readU32 else readU64

def readSlot (legacy : Bool) : Reader DecodeError UInt64 :=
  if legacy then UInt16.toUInt64 <$> u16 .unexpectedEnd else readU64

def readBool : Reader DecodeError Bool := do
  let offset ← position
  let value ← readByte
  match value with
  | 0 => pure false
  | 1 => pure true
  | value => fail (.invalidBoolean value offset)

/-- One operand byte that names an entry of a closed enumeration. -/
def readTag {α : Type} (fromByte : UInt8 → Option α) : Reader DecodeError α := do
  let offset ← position
  let tag ← readByte
  okOr (fromByte tag) (.unknownOpcode tag offset)

def readStep (legacy : Bool) : Reader DecodeError PathStep := do
  let offset ← position
  let tag ← readByte
  match tag with
  | StepTag.field => .field <$> readSlot legacy
  | StepTag.index => pure .index
  | other => fail (.unknownOpcode other offset)

/-- A slot-wide count, then that many items. -/
def readCounted {α : Type} (legacy : Bool) (read : Reader DecodeError α) :
    Reader DecodeError (List α) := do
  let count ← readSlot legacy
  many (fun _ => read) 0 count.toNat

def nextPlace (legacy : Bool) : Reader DecodeError (UInt64 × List PathStep) := do
  let slot ← readSlot legacy
  let steps ← readCounted legacy (readStep legacy)
  pure (slot, steps)

def readTarget (legacy : Bool) : Reader DecodeError WritebackTarget := do
  let param ← readSlot legacy
  let (slot, path) ← nextPlace legacy
  pure ⟨param, slot, path⟩

def readTargets (legacy : Bool) : Reader DecodeError (List WritebackTarget) :=
  readCounted legacy (readTarget legacy)

def readWords (legacy : Bool) : Reader DecodeError (List UInt64) :=
  readCounted legacy (readSlot legacy)

def readGlue : Reader DecodeError (Option UInt32) := do
  if ← readBool then some <$> readU32 else pure none

def nullaryFromOpcode : Opcode → Option Instruction
  | .constVoid => some .constVoid
  | .pop => some .pop
  | .negInt => some .negInt
  | .negFloat => some .negFloat
  | .not => some .not
  | .addInt => some .addInt
  | .subInt => some .subInt
  | .mulInt => some .mulInt
  | .divInt => some .divInt
  | .remInt => some .remInt
  | .divUint => some .divUInt
  | .remUint => some .remUInt
  | .addFloat => some .addFloat
  | .subFloat => some .subFloat
  | .mulFloat => some .mulFloat
  | .divFloat => some .divFloat
  | .remFloat => some .remFloat
  | .newCell => some .newCell
  | .concatStr => some .concatStr
  | .eqInt => some .eqInt
  | .neInt => some .neInt
  | .ltInt => some .ltInt
  | .leInt => some .leInt
  | .gtInt => some .gtInt
  | .geInt => some .geInt
  | .ltUint => some .ltUInt
  | .leUint => some .leUInt
  | .gtUint => some .gtUInt
  | .geUint => some .geUInt
  | .bitAnd => some .bitAnd
  | .bitOr => some .bitOr
  | .bitXor => some .bitXor
  | .shl => some .shl
  | .shrInt => some .shrInt
  | .shrUint => some .shrUInt
  | .bitNot => some .bitNot
  | .eqFloat => some .eqFloat
  | .neFloat => some .neFloat
  | .ltFloat => some .ltFloat
  | .leFloat => some .leFloat
  | .gtFloat => some .gtFloat
  | .geFloat => some .geFloat
  | .eqBool => some .eqBool
  | .neBool => some .neBool
  | .eqAny => some .eqAny
  | .eqValue => some .eqValue
  | .neValue => some .neValue
  | .cmpValue => some .cmpValue
  | .eqType => some .eqType
  | .neType => some .neType
  | .neAny => some .neAny
  | .eqStr => some .eqStr
  | .neStr => some .neStr
  | .arrayGet => some .arrayGet
  | .arrayLen => some .arrayLen
  | .stringLen => some .stringLen
  | .stringCharAt => some .stringCharAt
  | .stringSubstring => some .stringSubstring
  | .stringIndexOf => some .stringIndexOf
  | .stringOf => some .stringOf
  | .convertFloatToBits => some .convertFloatToBits
  | .convertBitsToFloat => some .convertBitsToFloat
  | .convertBits32ToFloat => some .convertBits32ToFloat
  | .convertFloatToBits32 => some .convertFloatToBits32
  | .cstringNew => some .cstringNew
  | .enumTag => some .enumTag
  | .enumFromCode => some .enumFromCode
  | .hashValue => some .hashValue
  | .enumPayload => some .enumPayload
  | .convertIntToFloat => some .convertIntToFloat
  | .convertFloatToInt => some .convertFloatToInt
  | .convertFloatToUint => some .convertFloatToUInt
  | .convertIntToRawPtr => some .convertIntToRawPtr
  | .convertRawPtrToInt => some .convertRawPtrToInt
  | .nativeStateRetain => some .nativeStateRetain
  | .nativeStateRelease => some .nativeStateRelease
  | .rawPtrNull => some .constRawPtrNull
  | .print => some .print
  | .abort => some .abort
  | .return_ => some .return_
  | .returnVoid => some .returnVoid
  | .mainThreadLifecycle => some .mainThreadLifecycle
  | _ => none

def operands (legacy : Bool) (opcodeOffset : Nat) : Opcode → Reader DecodeError Instruction
  | .constInt => (fun word => .constInt word.toInt64) <$> readU64
  | .constFloat => .constFloat <$> readU64
  | .constBool => .constBool <$> readBool
  | .constStr => .constStr <$> readWord legacy
  | .erase => .erase <$> readU64
  | .constVoid => pure .constVoid
  | .loadLocal => .loadLocal <$> readSlot legacy
  | .arrayGetLocal => .arrayGetLocal <$> readSlot legacy
  | .cellGet => .cellGet <$> readSlot legacy
  | .cellSet => .cellSet <$> readSlot legacy
  | .storeLocal => .storeLocal <$> readSlot legacy
  | .loadConstant => .loadConstant <$> readSlot legacy
  | .jump => .jump <$> readWord legacy
  | .jumpIfFalse => .jumpIfFalse <$> readWord legacy
  | .call => .call <$> readWord legacy
  | .callNative => .callNative <$> readU32
  | .callForeign => .callForeign <$> readU32
  | .foreignCallback => .foreignCallback <$> readU32
  | .nativeState => .nativeState <$> readU64
  | .nativeRecover => .nativeRecover <$> readU64
  | .nativeStateTake => .nativeStateTake <$> readU64
  | .nativeUserData => .nativeUserData <$> readBool
  | .newStruct => .newStruct <$> readSlot legacy
  | .takeLocal => .takeLocal <$> readSlot legacy
  | .newStructDropping => do
    let fields ← readSlot legacy
    .newStructDropping fields <$> readU32
  | .addIntChecked => pure .addIntChecked
  | .subIntChecked => pure .subIntChecked
  | .mulIntChecked => pure .mulIntChecked
  | .negIntChecked => pure .negIntChecked
  | .divIntChecked => pure .divIntChecked
  | .addUintChecked => pure .addUIntChecked
  | .subUintChecked => pure .subUIntChecked
  | .mulUintChecked => pure .mulUIntChecked
  | .checkInt => .checkInt <$> readByte
  | .wrapInt => .wrapInt <$> readByte
  | .checkShift => .checkShift <$> readByte
  | .convertInt => (fun widths => .convertInt widths.1 widths.2) <$> readPair
  | .convertUintToFloat => pure .convertUIntToFloat
  | .printUnsigned => pure .printUnsigned
  | .stringOfUnsigned => pure .stringOfUnsigned
  | .typeTest => .typeTest <$> readU64
  | .downcast => .downcast <$> readU64
  | .constType => .constType <$> readU64
  | .typeCastResult => .typeCastResult <$> readU64
  | .typeOf => pure .typeOf
  | .typeField => .typeField <$> readByte
  | .newStructOrdered => do
    let order ← readWords legacy
    .newStructOrdered order <$> readGlue
  | .getField => .getField <$> readSlot legacy
  | .foreignOffset => .foreignOffset <$> readU32
  | .foreignIndex => .foreignIndex <$> readU32
  | .foreignLoad => do
    let offset ← readU32
    .foreignLoad offset <$> readTag ForeignType.fromTag
  | .storeField => do
    let slot ← readSlot legacy
    .storeField slot <$> readWords legacy
  | .newArray => .newArray <$> readWord legacy
  | .storePlace => do
    let (slot, path) ← nextPlace legacy
    pure (.storePlace slot path)
  | .arrayAppend => do
    let (slot, path) ← nextPlace legacy
    pure (.arrayAppend slot path)
  | .callMut => do
    let func ← readWord legacy
    let (slot, path) ← nextPlace legacy
    pure (.callMut func slot path)
  | .callWriteback => do
    let func ← readWord legacy
    .callWriteback func <$> readTargets legacy
  | .callNativeWriteback => do
    let func ← readU32
    .callNativeWriteback func <$> readTargets legacy
  | .newEnum => do
    let tag ← readSlot legacy
    .newEnum tag <$> readBool
  | .clayoutAddress => .clayoutAddress <$> readU32
  | .fileSystem => .fileSystem <$> readTag FileSystemOp.fromByte
  | .stringOp => .stringOp <$> readTag StringOp.fromByte
  | .numberOp => .numberOp <$> readTag NumberOp.fromByte
  | .scalarText => pure .scalarText
  | .arrayElements => .arrayElements <$> readTag ForeignType.fromTag
  | .mathOp => .mathOp <$> readTag MathOp.fromTag
  | .compiler => .compiler <$> readTag CompilerOp.fromByte
  | .envOp => .env <$> readTag EnvOp.fromByte
  | .taskOp => .taskOp <$> readTag TaskPrim.fromByte
  | .channelOp => .channelOp <$> readTag ChannelPrim.fromByte
  | .mainThreadCall => do
    let operation ← readTag MainThreadOp.fromByte
    let function ← readWord legacy
    .mainThreadCall operation function <$> readWord legacy
  | .mainThreadJoin => pure .mainThreadJoin
  | other => okOr (nullaryFromOpcode other) (.unknownOpcode other.toByte opcodeOffset)

def nextInstruction (legacy : Bool) : Reader DecodeError Instruction := do
  let opcodeOffset ← position
  let byte ← readByte
  let op ← okOr (Opcode.ofByte byte) (.unknownOpcode byte opcodeOffset)
  operands legacy opcodeOffset op

/-- Decode instruction after instruction until the input is used up. -/
def decodeWithWidth (bytes : List UInt8) (legacy : Bool) :
    Except DecodeError (List Instruction) :=
  match untilEnd (nextInstruction legacy) bytes.length ⟨0, bytes⟩ with
  | .error error => .error error
  | .ok (code, _) => .ok code

def decode (bytes : List UInt8) : Except DecodeError (List Instruction) :=
  decodeWithWidth bytes false

/-! ## Operands -/

variable {cursor after : Cursor} {result : UInt64} {α : Type} {read : Reader DecodeError α}
  {op : Opcode} {instruction : Instruction} {offset : Nat} {bytes : List UInt8} {legacy : Bool}
  {code : List Instruction}

@[simp]
theorem readByte_ok_iff {result : UInt8} :
    readByte cursor = .ok (result, after) ↔ Spans cursor [result] after :=
  byte_ok_iff

theorem readPair_ok_iff {result : UInt8 × UInt8} :
    readPair cursor = .ok (result, after) ↔ Spans cursor [result.1, result.2] after := by
  simp only [readPair, bind_ok_iff, take_ok_iff, pure_ok_iff]
  constructor
  · rintro ⟨bytes, _, ⟨two, spans⟩, rfl, rfl⟩
    obtain ⟨first, second, rfl⟩ := List.length_eq_two.mp two
    exact spans
  · intro spans
    exact ⟨[result.1, result.2], _, ⟨rfl, spans⟩, rfl, rfl⟩

@[simp]
theorem readU32_ok_iff {result : UInt32} :
    readU32 cursor = .ok (result, after) ↔ Spans cursor (u32Bytes result) after :=
  u32_ok_iff

@[simp]
theorem readU64_ok_iff :
    readU64 cursor = .ok (result, after) ↔ Spans cursor (u64Bytes result) after :=
  u64_ok_iff

@[simp]
theorem readWord_wide : readWord false = readU64 := rfl

@[simp]
theorem readSlot_wide : readSlot false = readU64 := rfl

@[simp]
theorem readBool_ok_iff {result : Bool} :
    readBool cursor = .ok (result, after) ↔ Spans cursor [boolByte result] after := by
  simp only [readBool, bind_ok_iff, position_ok_iff, readByte_ok_iff]
  constructor
  · rintro ⟨_, _, ⟨rfl, rfl⟩, value, middle, spans, matched⟩
    split at matched <;> simp only [pure_ok_iff, fail_ok_iff] at matched
    · obtain ⟨rfl, rfl⟩ := matched
      exact spans
    · obtain ⟨rfl, rfl⟩ := matched
      exact spans
  · intro spans
    refine ⟨_, _, ⟨rfl, rfl⟩, boolByte result, after, spans, ?_⟩
    cases result <;> exact pure_ok_iff.mpr ⟨rfl, rfl⟩

theorem readTag_ok_iff {fromByte : UInt8 → Option α} {asByte : α → UInt8}
    (pinned : ∀ {byte op}, fromByte byte = some op ↔ asByte op = byte) {result : α} :
    readTag fromByte cursor = .ok (result, after) ↔ Spans cursor [asByte result] after := by
  simp only [readTag, bind_ok_iff, position_ok_iff, readByte_ok_iff, okOr_ok_iff, pinned]
  constructor
  · rintro ⟨_, _, ⟨rfl, rfl⟩, value, middle, spans, rfl, rfl⟩
    exact spans
  · intro spans
    exact ⟨_, _, ⟨rfl, rfl⟩, _, _, spans, rfl, rfl⟩

theorem readStep_codes : Codes (readStep false) (fun _ => True) encodeStep := by
  intro cursor step after
  simp only [readStep, bind_ok_iff, position_ok_iff, readByte_ok_iff, true_and]
  constructor
  · rintro ⟨_, _, ⟨rfl, rfl⟩, tag, middle, spans, matched⟩
    split at matched
    · obtain ⟨index, indexSpans, rfl⟩ := map_ok_iff.mp matched
      exact spans_cons.mpr ⟨middle, spans, readU64_ok_iff.mp indexSpans⟩
    · obtain ⟨rfl, rfl⟩ := pure_ok_iff.mp matched
      exact spans
    · exact absurd matched (by simp)
  · intro spans
    cases step with
    | field index =>
      obtain ⟨middle, tagSpans, indexSpans⟩ := spans_cons.mp spans
      exact ⟨_, _, ⟨rfl, rfl⟩, StepTag.field, middle, tagSpans,
        map_ok_iff.mpr ⟨index, readU64_ok_iff.mpr indexSpans, rfl⟩⟩
    | index =>
      exact ⟨_, _, ⟨rfl, rfl⟩, StepTag.index, after, spans, pure_ok_iff.mpr ⟨rfl, rfl⟩⟩

theorem readCounted_codes {fits : α → Prop} {write : α → List UInt8}
    (codes : Codes read fits write) :
    Codes (readCounted false read)
      (fun values => values.length < 2 ^ 64 ∧ ∀ value ∈ values, fits value)
      (fun values => countBytes values.length ++ values.flatMap write) :=
  counted_codes fun _ => codes

theorem readWords_codes :
    Codes (readWords false) (fun words => words.length < 2 ^ 64) encodeWords := by
  intro cursor words after
  have wordCodes : Codes (readSlot false) (fun _ => True) u64Bytes := by
    intro cursor word after
    simp
  simpa [readWords, encodeWords] using readCounted_codes wordCodes cursor words after

theorem nextPlace_codes :
    Codes (nextPlace false) (fun place => place.2.length < 2 ^ 64)
      (fun place => encodePlace place.1 place.2) := by
  rintro cursor ⟨slot, path⟩ after
  simp only [nextPlace, bind_ok_iff, readSlot_wide, readU64_ok_iff, pure_ok_iff,
    readCounted_codes readStep_codes _ _ _, Prod.mk.injEq, encodePlace]
  rw [spans_append]
  constructor
  · rintro ⟨_, middle, slotSpans, _, _, ⟨⟨short, -⟩, pathSpans⟩, ⟨rfl, rfl⟩, rfl⟩
    exact ⟨short, middle, slotSpans, pathSpans⟩
  · rintro ⟨short, middle, slotSpans, pathSpans⟩
    exact ⟨slot, middle, slotSpans, path, after, ⟨⟨short, fun _ _ => trivial⟩, pathSpans⟩,
      ⟨rfl, rfl⟩, rfl⟩

theorem readTarget_codes :
    Codes (readTarget false) (fun target => target.path.length < 2 ^ 64) encodeTarget := by
  rintro cursor ⟨param, slot, path⟩ after
  simp only [readTarget, bind_ok_iff, readSlot_wide, readU64_ok_iff, pure_ok_iff,
    nextPlace_codes _ _ _, WritebackTarget.mk.injEq, encodeTarget]
  rw [spans_append]
  constructor
  · rintro ⟨_, middle, paramSpans, ⟨_, _⟩, _, ⟨short, placeSpans⟩, ⟨rfl, rfl, rfl⟩, rfl⟩
    exact ⟨short, middle, paramSpans, placeSpans⟩
  · rintro ⟨short, middle, paramSpans, placeSpans⟩
    exact ⟨param, middle, paramSpans, (slot, path), after, ⟨short, placeSpans⟩,
      ⟨rfl, rfl, rfl⟩, rfl⟩

theorem readTargets_codes :
    Codes (readTargets false)
      (fun targets => targets.length < 2 ^ 64 ∧ ∀ target ∈ targets, target.path.length < 2 ^ 64)
      encodeTargets :=
  readCounted_codes readTarget_codes

theorem readGlue_codes : Codes readGlue (fun _ => True) encodeGlue := by
  intro cursor glue after
  simp only [readGlue, bind_ok_iff, readBool_ok_iff, true_and]
  constructor
  · rintro ⟨present, middle, spans, matched⟩
    cases present with
    | false =>
      obtain ⟨rfl, rfl⟩ := pure_ok_iff.mp matched
      exact spans
    | true =>
      obtain ⟨value, valueSpans, rfl⟩ := map_ok_iff.mp matched
      exact spans_cons.mpr ⟨middle, spans, readU32_ok_iff.mp valueSpans⟩
  · intro spans
    cases glue with
    | none => exact ⟨false, after, spans, pure_ok_iff.mpr ⟨rfl, rfl⟩⟩
    | some value =>
      obtain ⟨middle, flagSpans, valueSpans⟩ := spans_cons.mp spans
      exact ⟨true, middle, flagSpans,
        map_ok_iff.mpr ⟨value, readU32_ok_iff.mpr valueSpans, rfl⟩⟩

/-! ## The canonical wide code -/

/-- The nested lists of an instruction are counted in 64 bits; every other
operand has the width of its own type. -/
def Instruction.Fits : Instruction → Prop
  | .callMut _ _ path => path.length < 2 ^ 64
  | .callWriteback _ targets | .callNativeWriteback _ targets =>
    targets.length < 2 ^ 64 ∧ ∀ target ∈ targets, target.path.length < 2 ^ 64
  | .newStructOrdered order _ => order.length < 2 ^ 64
  | .storeField _ path => path.length < 2 ^ 64
  | .storePlace _ path | .arrayAppend _ path => path.length < 2 ^ 64
  | _ => True

instance : DecidablePred Instruction.Fits := fun instruction => by
  cases instruction <;> unfold Instruction.Fits <;> infer_instance

theorem nullaryFromOpcode_encode (found : nullaryFromOpcode op = some instruction) :
    instruction.Fits ∧ encodeOne instruction = [op.toByte] := by
  cases op <;> cases found <;> exact ⟨trivial, rfl⟩

theorem operands_encode (succeeds : operands false offset op cursor = .ok (instruction, after)) :
    instruction.Fits ∧
      ∃ bytes, encodeOne instruction = op.toByte :: bytes ∧ Spans cursor bytes after := by
  cases op <;>
    simp only [operands, pure_ok_iff, map_ok_iff, bind_ok_iff, okOr_ok_iff, readWord_wide,
      readSlot_wide, readByte_ok_iff, readPair_ok_iff, readU32_ok_iff, readU64_ok_iff,
      readBool_ok_iff,
      readTag_ok_iff StringOp.fromByte_eq_some_iff, readTag_ok_iff NumberOp.fromByte_eq_some_iff,
      readTag_ok_iff FileSystemOp.fromByte_eq_some_iff,
      readTag_ok_iff CompilerOp.fromByte_eq_some_iff, readTag_ok_iff EnvOp.fromByte_eq_some_iff,
      readTag_ok_iff TaskPrim.fromByte_eq_some_iff,
      readTag_ok_iff ChannelPrim.fromByte_eq_some_iff,
      readTag_ok_iff MainThreadOp.fromByte_eq_some_iff,
      readTag_ok_iff MathOp.fromTag_eq_some_iff, readTag_ok_iff ForeignType.fromTag_eq_some_iff,
      nextPlace_codes _ _ _, readTargets_codes _ _ _, readWords_codes _ _ _,
      readGlue_codes _ _ _] at succeeds
  case constInt =>
    obtain ⟨word, spans, rfl⟩ := succeeds
    exact ⟨trivial, _, rfl, by simpa using spans⟩
  case newStructDropping | foreignLoad | newEnum =>
    obtain ⟨first, middle, firstSpans, second, secondSpans, rfl⟩ := succeeds
    exact ⟨trivial, _, rfl, spans_append.mpr ⟨middle, firstSpans, secondSpans⟩⟩
  case mainThreadCall =>
    obtain ⟨operation, first, operationSpans, function, second, functionSpans, args, argsSpans,
      rfl⟩ := succeeds
    exact ⟨trivial, _, rfl, spans_append.mpr
      ⟨second, spans_append.mpr ⟨first, operationSpans, functionSpans⟩, argsSpans⟩⟩
  case newStructOrdered =>
    obtain ⟨order, middle, ⟨short, orderSpans⟩, glue, ⟨-, glueSpans⟩, rfl⟩ := succeeds
    exact ⟨short, _, rfl, spans_append.mpr ⟨middle, orderSpans, glueSpans⟩⟩
  case storeField =>
    obtain ⟨slot, middle, slotSpans, path, ⟨short, pathSpans⟩, rfl⟩ := succeeds
    exact ⟨short, _, rfl, spans_append.mpr ⟨middle, slotSpans, pathSpans⟩⟩
  case storePlace | arrayAppend =>
    obtain ⟨⟨slot, path⟩, _, ⟨short, placeSpans⟩, rfl, rfl⟩ := succeeds
    exact ⟨short, _, rfl, placeSpans⟩
  case callMut =>
    obtain ⟨func, middle, funcSpans, ⟨slot, path⟩, _, ⟨short, placeSpans⟩, rfl, rfl⟩ := succeeds
    exact ⟨short, _, rfl, spans_append.mpr ⟨middle, funcSpans, placeSpans⟩⟩
  case callWriteback | callNativeWriteback =>
    obtain ⟨func, middle, funcSpans, targets, ⟨short, targetsSpans⟩, rfl⟩ := succeeds
    exact ⟨short, _, rfl, spans_append.mpr ⟨middle, funcSpans, targetsSpans⟩⟩
  all_goals
    first
    | -- no operand
      obtain ⟨rfl, rfl⟩ := succeeds
      exact ⟨trivial, [], rfl, spans_nil.mpr rfl⟩
    | -- one operand
      obtain ⟨operand, spans, rfl⟩ := succeeds
      exact ⟨trivial, _, rfl, spans⟩
    | -- the nullary table
      obtain ⟨found, rfl⟩ := succeeds
      obtain ⟨fits, encoded⟩ := nullaryFromOpcode_encode found
      exact ⟨fits, [], encoded, spans_nil.mpr rfl⟩

theorem operands_decode (fits : instruction.Fits)
    (encoded : encodeOne instruction = op.toByte :: bytes) (spans : Spans cursor bytes after) :
    operands false offset op cursor = .ok (instruction, after) := by
  cases instruction <;>
    simp only [encodeOne, List.cons.injEq, Opcode.toByte_inj] at encoded <;>
    obtain ⟨rfl, rfl⟩ := encoded <;>
    simp only [operands, pure_ok_iff, map_ok_iff, bind_ok_iff, okOr_ok_iff, readWord_wide,
      readSlot_wide, readByte_ok_iff, readPair_ok_iff, readU32_ok_iff, readU64_ok_iff,
      readBool_ok_iff,
      readTag_ok_iff StringOp.fromByte_eq_some_iff, readTag_ok_iff NumberOp.fromByte_eq_some_iff,
      readTag_ok_iff FileSystemOp.fromByte_eq_some_iff,
      readTag_ok_iff CompilerOp.fromByte_eq_some_iff, readTag_ok_iff EnvOp.fromByte_eq_some_iff,
      readTag_ok_iff TaskPrim.fromByte_eq_some_iff,
      readTag_ok_iff ChannelPrim.fromByte_eq_some_iff,
      readTag_ok_iff MainThreadOp.fromByte_eq_some_iff,
      readTag_ok_iff MathOp.fromTag_eq_some_iff, readTag_ok_iff ForeignType.fromTag_eq_some_iff,
      nextPlace_codes _ _ _, readTargets_codes _ _ _, readWords_codes _ _ _,
      readGlue_codes _ _ _]
  case constInt value =>
    exact ⟨_, spans, by simp⟩
  case convertInt source target =>
    exact ⟨(source, target), spans, rfl⟩
  case newStructDropping | foreignLoad | newEnum =>
    obtain ⟨middle, firstSpans, secondSpans⟩ := spans_append.mp spans
    exact ⟨_, middle, firstSpans, _, secondSpans, rfl⟩
  case mainThreadCall =>
    obtain ⟨second, spans, argsSpans⟩ := spans_append.mp spans
    obtain ⟨first, operationSpans, functionSpans⟩ := spans_append.mp spans
    exact ⟨_, first, operationSpans, _, second, functionSpans, _, argsSpans, rfl⟩
  case newStructOrdered =>
    obtain ⟨middle, orderSpans, glueSpans⟩ := spans_append.mp spans
    exact ⟨_, middle, ⟨fits, orderSpans⟩, _, ⟨trivial, glueSpans⟩, rfl⟩
  case storeField | callWriteback | callNativeWriteback =>
    obtain ⟨middle, firstSpans, listSpans⟩ := spans_append.mp spans
    exact ⟨_, middle, firstSpans, _, ⟨fits, listSpans⟩, rfl⟩
  case storePlace slot path | arrayAppend slot path =>
    exact ⟨(slot, path), after, ⟨fits, spans⟩, rfl, rfl⟩
  case callMut func slot path =>
    obtain ⟨middle, funcSpans, placeSpans⟩ := spans_append.mp spans
    exact ⟨func, middle, funcSpans, (slot, path), after, ⟨fits, placeSpans⟩, rfl, rfl⟩
  all_goals
    first
    | exact ⟨_, spans, rfl⟩
    | exact ⟨rfl, spans_nil.mp spans⟩
    | exact ⟨trivial, spans_nil.mp spans⟩

theorem nextInstruction_codes : Codes (nextInstruction false) Instruction.Fits encodeOne := by
  intro cursor instruction after
  simp only [nextInstruction, bind_ok_iff, position_ok_iff, readByte_ok_iff, okOr_ok_iff,
    Opcode.ofByte_eq_some_iff]
  constructor
  · rintro ⟨_, _, ⟨rfl, rfl⟩, _, middle, opSpans, op, _, ⟨rfl, rfl⟩, succeeds⟩
    obtain ⟨fits, bytes, encoded, spans⟩ := operands_encode succeeds
    exact ⟨fits, by rw [encoded, spans_cons]; exact ⟨middle, opSpans, spans⟩⟩
  · rintro ⟨fits, spans⟩
    obtain ⟨op, bytes, encoded⟩ : ∃ op : Opcode, ∃ bytes, encodeOne instruction = op.toByte :: bytes := by
      cases instruction <;> exact ⟨_, _, rfl⟩
    rw [encoded, spans_cons] at spans
    obtain ⟨middle, opSpans, spans⟩ := spans
    exact ⟨_, _, ⟨rfl, rfl⟩, op.toByte, middle, opSpans, op, middle, ⟨rfl, rfl⟩,
      operands_decode fits encoded spans⟩

theorem encodeOne_ne_nil (instruction : Instruction) : encodeOne instruction ≠ [] := by
  cases instruction <;> exact List.cons_ne_nil _ _

theorem decodeWithWidth_ok_iff :
    decodeWithWidth bytes legacy = .ok code ↔
      ∃ after, untilEnd (nextInstruction legacy) bytes.length ⟨0, bytes⟩ = .ok (code, after) := by
  unfold decodeWithWidth
  cases untilEnd (nextInstruction legacy) bytes.length ⟨0, bytes⟩ with
  | error error => simp
  | ok answer =>
    obtain ⟨answered, after⟩ := answer
    simp

/-- Wide decoding succeeds exactly on the encoding of a sequence that fits. -/
theorem decode_ok_iff :
    decode bytes = .ok code ↔
      (∀ instruction ∈ code, instruction.Fits) ∧ encode code = bytes := by
  have reads (after : Cursor) :
      untilEnd (nextInstruction false) bytes.length ⟨0, bytes⟩ = .ok (code, after) ↔
        (∀ instruction ∈ code, instruction.Fits) ∧ Spans ⟨0, bytes⟩ (encode code) after ∧
          after.rest = [] :=
    untilEnd_codes nextInstruction_codes encodeOne_ne_nil (Nat.le_refl _)
  rw [decode, decodeWithWidth_ok_iff]
  constructor
  · rintro ⟨after, succeeds⟩
    obtain ⟨fits, ⟨restEq, -⟩, ended⟩ := (reads after).mp succeeds
    rw [ended, List.append_nil] at restEq
    exact ⟨fits, restEq.symm⟩
  · rintro ⟨fits, rfl⟩
    exact ⟨⟨0 + (encode code).length, []⟩,
      (reads _).mpr ⟨fits, ⟨(List.append_nil _).symm, rfl⟩, rfl⟩⟩

/-- The instruction-stream code round-trips in both directions: what fits is
recovered, and a byte string that decodes is the encoding of its code. -/
theorem instruction_stream_canonical :
    (∀ code : List Instruction, (∀ instruction ∈ code, instruction.Fits) →
        decode (encode code) = .ok code) ∧
      (∀ (bytes : List UInt8) (code : List Instruction),
        decode bytes = .ok code → encode code = bytes) ∧
      ∀ (first second : List UInt8) (code : List Instruction),
        decode first = .ok code → decode second = .ok code → first = second := by
  refine ⟨fun code fits => decode_ok_iff.mpr ⟨fits, rfl⟩,
    fun bytes code decoded => (decode_ok_iff.mp decoded).2, ?_⟩
  intro first second code firstDecoded secondDecoded
  rw [← (decode_ok_iff.mp firstDecoded).2, (decode_ok_iff.mp secondDecoded).2]

theorem instruction_stream_canonical_example :
    decode (encode [.storePlace 1 [.field 2, .index], .newEnum 3 true, .return_]) =
      .ok [.storePlace 1 [.field 2, .index], .newEnum 3 true, .return_] :=
  instruction_stream_canonical.1 _ (by
    intro instruction member
    simp only [List.mem_cons, List.not_mem_nil, or_false] at member
    obtain rfl | rfl | rfl := member <;> simp [Instruction.Fits])

example : decode [0x2a, 0x35, 3, 0, 0, 0, 0, 0, 0, 0, 2] = .error (.invalidBoolean 2 10) := by
  decide

/-! ## The previous, narrow format -/

theorem readWord_length (succeeds : readWord legacy cursor = .ok (result, after)) :
    4 + after.rest.length ≤ cursor.rest.length := by
  cases legacy with
  | false =>
    have := (readU64_ok_iff.mp succeeds).length_eq
    simp only [u64Bytes_length] at this
    omega
  | true =>
    obtain ⟨value, spans, rfl⟩ := map_ok_iff.mp succeeds
    have := (readU32_ok_iff.mp spans).length_eq
    simp only [u32Bytes_length] at this
    omega

theorem readSlot_length (succeeds : readSlot legacy cursor = .ok (result, after)) :
    2 + after.rest.length ≤ cursor.rest.length := by
  cases legacy with
  | false =>
    have := (readU64_ok_iff.mp succeeds).length_eq
    simp only [u64Bytes_length] at this
    omega
  | true =>
    obtain ⟨value, spans, rfl⟩ := map_ok_iff.mp succeeds
    simp only [u16, bind_ok_iff, word_ok_iff] at spans
    obtain ⟨number, middle, ⟨-, spans⟩, last⟩ := spans
    obtain ⟨-, rfl⟩ := pure_ok_iff.mp last
    have := spans.length_eq
    simp only [leBytes_length] at this
    omega

theorem readSlot_grows (legacy : Bool) : Grows 4 (readSlot legacy) u64Bytes := by
  intro cursor slot after succeeds
  have := readSlot_length succeeds
  simp only [u64Bytes_length]
  omega

theorem readStep_grows (legacy : Bool) : Grows 4 (readStep legacy) encodeStep := by
  intro cursor step after succeeds
  simp only [readStep, bind_ok_iff, position_ok_iff, readByte_ok_iff] at succeeds
  obtain ⟨_, _, ⟨rfl, rfl⟩, tag, middle, tagSpans, matched⟩ := succeeds
  have tagLength := tagSpans.length_eq
  simp only [List.length_singleton] at tagLength
  split at matched
  · obtain ⟨index, read, rfl⟩ := map_ok_iff.mp matched
    have := readSlot_length read
    simp only [encodeStep, List.length_cons, u64Bytes_length]
    omega
  · obtain ⟨rfl, rfl⟩ := pure_ok_iff.mp matched
    simp only [encodeStep, List.length_singleton]
    omega
  · exact absurd matched (by simp)

theorem readCounted_grows {write : α → List UInt8} (grows : Grows 4 read write) :
    Grows 4 (readCounted legacy read)
      (fun values => countBytes values.length ++ values.flatMap write) := by
  intro cursor values after succeeds
  obtain ⟨count, middle, counted, items⟩ := bind_ok_iff.mp succeeds
  have countLength := readSlot_length counted
  have itemsGrow := many_grows (fun _ => grows) 0 count.toNat _ _ _ items
  simp only [List.length_append, countBytes_length] at itemsGrow ⊢
  omega

theorem readCounted_answers {property : α → Prop} (answers : Answers read property) :
    Answers (readCounted legacy read)
      (fun values => values.length < 2 ^ 64 ∧ ∀ value ∈ values, property value) := by
  intro cursor values after succeeds
  obtain ⟨count, middle, -, items⟩ := bind_ok_iff.mp succeeds
  obtain ⟨lengthEq, allHold⟩ := many_answers (fun _ => answers) 0 count.toNat _ _ _ items
  exact ⟨lengthEq ▸ count.toNat_lt, allHold⟩

theorem readCounted_short {values : List α}
    (succeeds : readCounted legacy read cursor = .ok (values, after)) : values.length < 2 ^ 64 := by
  have all : Answers read fun _ => True := fun _ _ _ _ => trivial
  exact (readCounted_answers all _ _ _ succeeds).1

theorem nextPlace_grows (legacy : Bool) :
    Grows 4 (nextPlace legacy) (fun place => encodePlace place.1 place.2) := by
  intro cursor place after succeeds
  simp only [nextPlace, bind_ok_iff, pure_ok_iff] at succeeds
  obtain ⟨slot, middle, slotRead, steps, _, stepsRead, rfl, rfl⟩ := succeeds
  have slotLength := readSlot_length slotRead
  have stepsGrow := readCounted_grows (readStep_grows legacy) _ _ _ stepsRead
  simp only [encodePlace, List.length_append, u64Bytes_length] at stepsGrow ⊢
  omega

theorem nextPlace_answers (legacy : Bool) :
    Answers (nextPlace legacy) (fun place => place.2.length < 2 ^ 64) := by
  intro cursor place after succeeds
  simp only [nextPlace, bind_ok_iff, pure_ok_iff] at succeeds
  obtain ⟨slot, middle, -, steps, _, stepsRead, rfl, rfl⟩ := succeeds
  exact readCounted_short stepsRead

theorem readTarget_grows (legacy : Bool) : Grows 4 (readTarget legacy) encodeTarget := by
  intro cursor target after succeeds
  simp only [readTarget, bind_ok_iff, pure_ok_iff] at succeeds
  obtain ⟨param, middle, paramRead, ⟨slot, path⟩, _, placeRead, rfl, rfl⟩ := succeeds
  have paramLength := readSlot_length paramRead
  have placeGrows := nextPlace_grows legacy _ _ _ placeRead
  simp only [encodeTarget, List.length_append, u64Bytes_length] at placeGrows ⊢
  omega

theorem readTarget_answers (legacy : Bool) :
    Answers (readTarget legacy) (fun target => target.path.length < 2 ^ 64) := by
  intro cursor target after succeeds
  simp only [readTarget, bind_ok_iff, pure_ok_iff] at succeeds
  obtain ⟨param, middle, -, ⟨slot, path⟩, _, placeRead, rfl, rfl⟩ := succeeds
  exact nextPlace_answers legacy _ _ _ placeRead

theorem readTag_length {fromByte : UInt8 → Option α} {result : α}
    (succeeds : readTag fromByte cursor = .ok (result, after)) :
    1 + after.rest.length = cursor.rest.length := by
  simp only [readTag, bind_ok_iff, position_ok_iff, readByte_ok_iff, okOr_ok_iff] at succeeds
  obtain ⟨_, _, ⟨rfl, rfl⟩, tag, middle, spans, -, rfl⟩ := succeeds
  exact spans.length_eq.symm

theorem operands_grows (succeeds : operands legacy offset op cursor = .ok (instruction, after)) :
    instruction.Fits ∧
      (encodeOne instruction).length + 4 * after.rest.length ≤ 4 * cursor.rest.length + 1 := by
  cases op <;>
    simp only [operands, pure_ok_iff, map_ok_iff, bind_ok_iff, okOr_ok_iff, readByte_ok_iff,
      readPair_ok_iff, readU32_ok_iff, readU64_ok_iff, readBool_ok_iff, readGlue_codes _ _ _] at succeeds
  case newStructDropping | newEnum =>
    obtain ⟨slot, middle, slotRead, second, spans, rfl⟩ := succeeds
    have := readSlot_length slotRead
    have := spans.length_eq
    simp only [u32Bytes_length, List.length_singleton] at this
    exact ⟨trivial, by simp [encodeOne]; omega⟩
  case convertInt =>
    obtain ⟨widths, spans, rfl⟩ := succeeds
    have := spans.length_eq
    simp only [List.length_cons, List.length_nil] at this
    exact ⟨trivial, by simp [encodeOne]; omega⟩
  case foreignLoad =>
    obtain ⟨offset, middle, spans, ty, tagRead, rfl⟩ := succeeds
    have := spans.length_eq
    have := readTag_length tagRead
    simp only [u32Bytes_length] at *
    exact ⟨trivial, by simp [encodeOne]; omega⟩
  case mainThreadCall =>
    obtain ⟨operation, first, operationRead, function, second, functionRead, args, argsRead,
      rfl⟩ := succeeds
    have := readTag_length operationRead
    have := readWord_length functionRead
    have := readWord_length argsRead
    exact ⟨trivial, by simp [encodeOne]; omega⟩
  case newStructOrdered =>
    obtain ⟨order, middle, orderRead, glue, ⟨-, glueSpans⟩, rfl⟩ := succeeds
    have orderGrows := readCounted_grows (readSlot_grows legacy) _ _ _ orderRead
    have := glueSpans.length_eq
    refine ⟨readCounted_short orderRead, ?_⟩
    simp only [encodeOne, encodeWords, List.length_cons, List.length_append] at orderGrows ⊢
    omega
  case storeField =>
    obtain ⟨slot, middle, slotRead, path, pathRead, rfl⟩ := succeeds
    have pathGrows := readCounted_grows (readSlot_grows legacy) _ _ _ pathRead
    have := readSlot_length slotRead
    refine ⟨readCounted_short pathRead, ?_⟩
    simp only [encodeOne, encodeWords, List.length_cons, List.length_append,
      u64Bytes_length] at pathGrows ⊢
    omega
  case storePlace | arrayAppend =>
    obtain ⟨⟨slot, path⟩, _, placeRead, rfl, rfl⟩ := succeeds
    have placeGrows := nextPlace_grows legacy _ _ _ placeRead
    refine ⟨nextPlace_answers legacy _ _ _ placeRead, ?_⟩
    simp only [encodeOne, List.length_cons] at placeGrows ⊢
    omega
  case callMut =>
    obtain ⟨func, middle, funcRead, ⟨slot, path⟩, _, placeRead, rfl, rfl⟩ := succeeds
    have := readWord_length funcRead
    have placeGrows := nextPlace_grows legacy _ _ _ placeRead
    refine ⟨nextPlace_answers legacy _ _ _ placeRead, ?_⟩
    simp only [encodeOne, List.length_cons, List.length_append, u64Bytes_length] at placeGrows ⊢
    omega
  case callWriteback =>
    obtain ⟨func, middle, funcRead, targets, targetsRead, rfl⟩ := succeeds
    have := readWord_length funcRead
    have targetsGrow := readCounted_grows (readTarget_grows legacy) _ _ _ targetsRead
    refine ⟨readCounted_answers (readTarget_answers legacy) _ _ _ targetsRead, ?_⟩
    simp only [encodeOne, encodeTargets, List.length_cons, List.length_append,
      u64Bytes_length] at targetsGrow ⊢
    omega
  case callNativeWriteback =>
    obtain ⟨func, middle, funcSpans, targets, targetsRead, rfl⟩ := succeeds
    have := funcSpans.length_eq
    have targetsGrow := readCounted_grows (readTarget_grows legacy) _ _ _ targetsRead
    refine ⟨readCounted_answers (readTarget_answers legacy) _ _ _ targetsRead, ?_⟩
    simp only [encodeOne, encodeTargets, List.length_cons, List.length_append,
      u32Bytes_length] at this targetsGrow ⊢
    omega
  all_goals
    first
    | -- no operand
      obtain ⟨rfl, rfl⟩ := succeeds
      exact ⟨trivial, by simp [encodeOne]; omega⟩
    | -- the nullary table
      obtain ⟨found, rfl⟩ := succeeds
      obtain ⟨fits, encoded⟩ := nullaryFromOpcode_encode found
      exact ⟨fits, by rw [encoded, List.length_singleton]; omega⟩
    | -- one operand of a fixed width
      obtain ⟨operand, spans, rfl⟩ := succeeds
      have := spans.length_eq
      simp only [u32Bytes_length, u64Bytes_length, List.length_singleton] at this
      exact ⟨trivial, by simp [encodeOne]; omega⟩
    | -- one word, slot or tag
      obtain ⟨operand, operandRead, rfl⟩ := succeeds
      first
      | have := readSlot_length operandRead
        exact ⟨trivial, by simp [encodeOne]; omega⟩
      | have := readWord_length operandRead
        exact ⟨trivial, by simp [encodeOne]; omega⟩
      | have := readTag_length operandRead
        exact ⟨trivial, by simp [encodeOne]; omega⟩

theorem nextInstruction_grows (legacy : Bool) : Grows 4 (nextInstruction legacy) encodeOne := by
  intro cursor instruction after succeeds
  simp only [nextInstruction, bind_ok_iff, position_ok_iff, readByte_ok_iff, okOr_ok_iff]
    at succeeds
  obtain ⟨_, _, ⟨rfl, rfl⟩, byte, middle, spans, op, _, ⟨-, rfl⟩, operandsRead⟩ := succeeds
  have := spans.length_eq
  have := (operands_grows operandsRead).2
  simp only [List.length_singleton] at *
  omega

theorem nextInstruction_answers (legacy : Bool) :
    Answers (nextInstruction legacy) Instruction.Fits := by
  intro cursor instruction after succeeds
  simp only [nextInstruction, bind_ok_iff, okOr_ok_iff] at succeeds
  obtain ⟨_, _, -, byte, middle, -, op, _, -, operandsRead⟩ := succeeds
  exact (operands_grows operandsRead).1

theorem decodeWithWidth_grows (decoded : decodeWithWidth bytes legacy = .ok code) :
    (∀ instruction ∈ code, instruction.Fits) ∧ (encode code).length ≤ 4 * bytes.length := by
  obtain ⟨after, succeeds⟩ := decodeWithWidth_ok_iff.mp decoded
  have grows := untilEnd_grows (nextInstruction_grows legacy) _ _ _ _ succeeds
  refine ⟨untilEnd_answers (nextInstruction_answers legacy) _ _ _ _ succeeds, ?_⟩
  simp only [encode] at grows ⊢
  omega

end KiraVm
