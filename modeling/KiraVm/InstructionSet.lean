import KiraVm.RuntimeAbi

/-!
# The instruction set

One decoded instruction of the virtual machine, its place paths, and the
opcode byte of each instruction.  Floating-point immediates are kept as their
64-bit patterns.
-/

namespace KiraVm

open ByteReader

/-- One step of a place path: a constant field, or an array element whose
index is on the operand stack. -/
inductive PathStep
  | field (index : UInt64)
  | index
  deriving DecidableEq, Repr

/-- Which callee parameter is written back, and where in the caller it lands. -/
structure WritebackTarget where
  param : UInt64
  slot : UInt64
  path : List PathStep
  deriving DecidableEq, Repr

inductive Instruction
  | constInt (value : Int64)
  | constFloat (bits : UInt64)
  | constBool (value : Bool)
  | constStr (index : UInt64)
  | constVoid
  | loadLocal (slot : UInt64)
  | takeLocal (slot : UInt64)
  | storeLocal (slot : UInt64)
  | loadConstant (slot : UInt64)
  | pop | negInt | negFloat | not | addInt | subInt | mulInt | divInt | remInt | divUInt
  | remUInt | addFloat | subFloat | mulFloat | divFloat | remFloat | concatStr | eqInt
  | neInt | ltInt | leInt | gtInt | geInt | ltUInt | leUInt | gtUInt | geUInt | bitAnd
  | bitOr | bitXor | shl | shrInt | shrUInt | bitNot | eqFloat | neFloat | ltFloat
  | leFloat | gtFloat | geFloat | eqBool | neBool | eqStr | neStr
  | erase (typeId : UInt64)
  | eqAny | neAny | eqValue | neValue | cmpValue | eqType | neType
  | jump (target : UInt64)
  | jumpIfFalse (target : UInt64)
  | call (func : UInt64)
  | callNative (id : UInt32)
  | callForeign (id : UInt32)
  | callMut (func : UInt64) (slot : UInt64) (path : List PathStep)
  | callWriteback (func : UInt64) (targets : List WritebackTarget)
  | callNativeWriteback (func : UInt32) (targets : List WritebackTarget)
  | nativeState (typeId : UInt64)
  | nativeUserData (shared : Bool)
  | nativeRecover (typeId : UInt64)
  | nativeStateRetain | nativeStateRelease | constRawPtrNull
  | foreignCallback (id : UInt32)
  | print | abort | return_ | returnVoid
  | newStruct (fields : UInt64)
  | newStructDropping (fields : UInt64) (glue : UInt32)
  | newStructOrdered (order : List UInt64) (glue : Option UInt32)
  | addIntChecked | subIntChecked | mulIntChecked | negIntChecked | divIntChecked
  | addUIntChecked | subUIntChecked | mulUIntChecked
  | checkInt (code : UInt8)
  | wrapInt (code : UInt8)
  | checkShift (bits : UInt8)
  | convertInt (source : UInt8) (target : UInt8)
  | convertUIntToFloat | printUnsigned | stringOfUnsigned
  | typeTest (id : UInt64)
  | downcast (id : UInt64)
  | constType (id : UInt64)
  | typeOf
  | typeField (field : UInt8)
  | typeCastResult (id : UInt64)
  | getField (index : UInt64)
  | foreignOffset (offset : UInt32)
  | foreignIndex (stride : UInt32)
  | foreignLoad (offset : UInt32) (ty : ForeignType)
  | storeField (slot : UInt64) (path : List UInt64)
  | newArray (count : UInt64)
  | arrayGet | arrayLen | convertFloatToBits | convertBitsToFloat | convertBits32ToFloat
  | convertFloatToBits32
  | arrayGetLocal (slot : UInt64)
  | taskOp (prim : TaskPrim)
  | channelOp (prim : ChannelPrim)
  | mainThreadCall (operation : MainThreadOp) (function : UInt64) (args : UInt64)
  | mainThreadJoin | mainThreadLifecycle | stringLen | stringCharAt | stringSubstring
  | stringIndexOf | stringOf | cstringNew
  | clayoutAddress (aggregate : UInt32)
  | fileSystem (op : FileSystemOp)
  | stringOp (op : StringOp)
  | numberOp (op : NumberOp)
  | arrayElements (ty : ForeignType)
  | scalarText
  | mathOp (op : MathOp)
  | compiler (op : CompilerOp)
  | env (op : EnvOp)
  | storePlace (slot : UInt64) (path : List PathStep)
  | arrayAppend (slot : UInt64) (path : List PathStep)
  | newEnum (tag : UInt64) (hasPayload : Bool)
  | enumTag | enumFromCode | hashValue | enumPayload | newCell
  | cellGet (slot : UInt64)
  | cellSet (slot : UInt64)
  | convertIntToFloat | convertFloatToInt | convertFloatToUInt
  | nativeStateTake (typeWord : UInt64)
  | convertIntToRawPtr | convertRawPtrToInt
  deriving DecidableEq, Repr

/-! ## Opcodes -/

/-- The opcode of each instruction. -/
inductive Opcode
  | constInt | constFloat | constBool | constStr | constVoid | loadLocal | storeLocal | pop
  | negInt | negFloat | not | addInt | subInt | mulInt | divInt | remInt | addFloat
  | subFloat | mulFloat | divFloat | concatStr | eqInt | neInt | ltInt | leInt | gtInt
  | geInt | eqFloat | neFloat | ltFloat | leFloat | gtFloat | geFloat | eqBool | neBool
  | eqStr | neStr | jump | jumpIfFalse | call | print | return_ | returnVoid | callNative
  | newStruct | getField | storeField | newArray | arrayGet | arrayLen | storePlace
  | arrayAppend | newEnum | enumTag | enumPayload | divUint | remUint | ltUint | leUint
  | gtUint | geUint | bitAnd | bitOr | bitXor | shl | shrInt | shrUint | bitNot
  | callForeign | convertIntToFloat | convertFloatToInt | callMut | nativeState
  | nativeUserData | nativeRecover | nativeStateRelease | rawPtrNull | foreignCallback
  | callWriteback | stringLen | convertFloatToBits | convertBitsToFloat | fileSystem
  | cstringNew | clayoutAddress | stringCharAt | stringSubstring | stringIndexOf | stringOf
  | convertBits32ToFloat | arrayGetLocal | convertFloatToBits32 | taskOp | remFloat
  | newCell | cellGet | cellSet | compiler | eqAny | neAny | erase | stringOp | envOp
  | callNativeWriteback | foreignLoad | foreignOffset | foreignIndex | mathOp | scalarText
  | arrayElements | convertIntToRawPtr | convertRawPtrToInt | newStructDropping | takeLocal
  | loadConstant | mainThreadCall | mainThreadJoin | mainThreadLifecycle | newStructOrdered
  | addIntChecked | subIntChecked | mulIntChecked | negIntChecked | divIntChecked
  | addUintChecked | subUintChecked | mulUintChecked | checkInt | wrapInt | checkShift
  | convertInt | convertUintToFloat | printUnsigned | stringOfUnsigned | typeTest
  | downcast | nativeStateRetain | constType | typeOf | eqType | neType | typeField
  | typeCastResult | channelOp | convertFloatToUint | nativeStateTake | numberOp | eqValue
  | neValue | abort | cmpValue | enumFromCode | hashValue
  deriving DecidableEq, Repr

namespace Opcode

/-- The opcodes, in the order they were added. -/
def all : List Opcode :=
  [.constInt, .constFloat, .constBool, .constStr, .constVoid, .loadLocal, .storeLocal, .pop,
    .negInt, .negFloat, .not, .addInt, .subInt, .mulInt, .divInt, .remInt, .addFloat, .subFloat,
    .mulFloat, .divFloat, .concatStr, .eqInt, .neInt, .ltInt, .leInt, .gtInt, .geInt, .eqFloat,
    .neFloat, .ltFloat, .leFloat, .gtFloat, .geFloat, .eqBool, .neBool, .eqStr, .neStr, .jump,
    .jumpIfFalse, .call, .print, .return_, .returnVoid, .callNative, .newStruct, .getField,
    .storeField, .newArray, .arrayGet, .arrayLen, .storePlace, .arrayAppend, .newEnum, .enumTag,
    .enumPayload, .divUint, .remUint, .ltUint, .leUint, .gtUint, .geUint, .bitAnd, .bitOr,
    .bitXor, .shl, .shrInt, .shrUint, .bitNot, .callForeign, .convertIntToFloat,
    .convertFloatToInt, .callMut, .nativeState, .nativeUserData, .nativeRecover,
    .nativeStateRelease, .rawPtrNull, .foreignCallback, .callWriteback, .stringLen,
    .convertFloatToBits, .convertBitsToFloat, .fileSystem, .cstringNew, .clayoutAddress,
    .stringCharAt, .stringSubstring, .stringIndexOf, .stringOf, .convertBits32ToFloat,
    .arrayGetLocal, .convertFloatToBits32, .taskOp, .remFloat, .newCell, .cellGet, .cellSet,
    .compiler, .eqAny, .neAny, .erase, .stringOp, .envOp, .callNativeWriteback, .foreignLoad,
    .foreignOffset, .foreignIndex, .mathOp, .scalarText, .arrayElements, .convertIntToRawPtr,
    .convertRawPtrToInt, .newStructDropping, .takeLocal, .loadConstant, .mainThreadCall,
    .mainThreadJoin, .mainThreadLifecycle, .newStructOrdered, .addIntChecked, .subIntChecked,
    .mulIntChecked, .negIntChecked, .divIntChecked, .addUintChecked, .subUintChecked,
    .mulUintChecked, .checkInt, .wrapInt, .checkShift, .convertInt, .convertUintToFloat,
    .printUnsigned, .stringOfUnsigned, .typeTest, .downcast, .nativeStateRetain, .constType,
    .typeOf, .eqType, .neType, .typeField, .typeCastResult, .channelOp, .convertFloatToUint,
    .nativeStateTake, .numberOp, .eqValue, .neValue, .abort, .cmpValue, .enumFromCode, .hashValue]

def toByte : Opcode → UInt8
  | .constInt => 0x01
  | .constFloat => 0x02
  | .constBool => 0x03
  | .constStr => 0x04
  | .constVoid => 0x05
  | .loadLocal => 0x06
  | .storeLocal => 0x07
  | .pop => 0x08
  | .negInt => 0x09
  | .negFloat => 0x0a
  | .not => 0x0b
  | .addInt => 0x0c
  | .subInt => 0x0d
  | .mulInt => 0x0e
  | .divInt => 0x0f
  | .remInt => 0x10
  | .addFloat => 0x11
  | .subFloat => 0x12
  | .mulFloat => 0x13
  | .divFloat => 0x14
  | .concatStr => 0x15
  | .eqInt => 0x16
  | .neInt => 0x17
  | .ltInt => 0x18
  | .leInt => 0x19
  | .gtInt => 0x1a
  | .geInt => 0x1b
  | .eqFloat => 0x1c
  | .neFloat => 0x1d
  | .ltFloat => 0x1e
  | .leFloat => 0x1f
  | .gtFloat => 0x20
  | .geFloat => 0x21
  | .eqBool => 0x22
  | .neBool => 0x23
  | .eqStr => 0x24
  | .neStr => 0x25
  | .jump => 0x26
  | .jumpIfFalse => 0x27
  | .call => 0x28
  | .print => 0x29
  | .return_ => 0x2a
  | .returnVoid => 0x2b
  | .callNative => 0x2c
  | .newStruct => 0x2d
  | .getField => 0x2e
  | .storeField => 0x2f
  | .newArray => 0x30
  | .arrayGet => 0x31
  | .arrayLen => 0x32
  | .storePlace => 0x33
  | .arrayAppend => 0x34
  | .newEnum => 0x35
  | .enumTag => 0x36
  | .enumPayload => 0x37
  | .divUint => 0x38
  | .remUint => 0x39
  | .ltUint => 0x3a
  | .leUint => 0x3b
  | .gtUint => 0x3c
  | .geUint => 0x3d
  | .bitAnd => 0x3e
  | .bitOr => 0x3f
  | .bitXor => 0x40
  | .shl => 0x41
  | .shrInt => 0x42
  | .shrUint => 0x43
  | .bitNot => 0x44
  | .callForeign => 0x45
  | .convertIntToFloat => 0x46
  | .convertFloatToInt => 0x47
  | .callMut => 0x48
  | .nativeState => 0x49
  | .nativeUserData => 0x4a
  | .nativeRecover => 0x4b
  | .nativeStateRelease => 0x4c
  | .rawPtrNull => 0x4d
  | .foreignCallback => 0x4e
  | .callWriteback => 0x4f
  | .stringLen => 0x50
  | .convertFloatToBits => 0x51
  | .convertBitsToFloat => 0x52
  | .fileSystem => 0x53
  | .cstringNew => 0x54
  | .clayoutAddress => 0x55
  | .stringCharAt => 0x56
  | .stringSubstring => 0x57
  | .stringIndexOf => 0x58
  | .stringOf => 0x59
  | .convertBits32ToFloat => 0x5a
  | .arrayGetLocal => 0x5b
  | .convertFloatToBits32 => 0x5c
  | .taskOp => 0x5d
  | .remFloat => 0x5e
  | .newCell => 0x5f
  | .cellGet => 0x60
  | .cellSet => 0x61
  | .compiler => 0x62
  | .eqAny => 0x63
  | .neAny => 0x64
  | .erase => 0x65
  | .stringOp => 0x66
  | .envOp => 0x67
  | .callNativeWriteback => 0x68
  | .foreignLoad => 0x69
  | .foreignOffset => 0x6a
  | .foreignIndex => 0x6b
  | .mathOp => 0x6c
  | .scalarText => 0x6d
  | .arrayElements => 0x6e
  | .convertIntToRawPtr => 0x6f
  | .convertRawPtrToInt => 0x70
  | .newStructDropping => 0x71
  | .takeLocal => 0x72
  | .loadConstant => 0x73
  | .mainThreadCall => 0x74
  | .mainThreadJoin => 0x75
  | .mainThreadLifecycle => 0x76
  | .newStructOrdered => 0x77
  | .addIntChecked => 0x78
  | .subIntChecked => 0x79
  | .mulIntChecked => 0x7a
  | .negIntChecked => 0x7b
  | .divIntChecked => 0x7c
  | .addUintChecked => 0x7d
  | .subUintChecked => 0x7e
  | .mulUintChecked => 0x7f
  | .checkInt => 0x80
  | .wrapInt => 0x81
  | .checkShift => 0x82
  | .convertInt => 0x83
  | .convertUintToFloat => 0x84
  | .printUnsigned => 0x85
  | .stringOfUnsigned => 0x86
  | .typeTest => 0x87
  | .downcast => 0x88
  | .nativeStateRetain => 0x89
  | .constType => 0x8a
  | .typeOf => 0x8b
  | .eqType => 0x8c
  | .neType => 0x8d
  | .typeField => 0x8e
  | .typeCastResult => 0x8f
  | .channelOp => 0x90
  | .convertFloatToUint => 0x91
  | .nativeStateTake => 0x92
  | .numberOp => 0x93
  | .eqValue => 0x94
  | .neValue => 0x95
  | .abort => 0x96
  | .cmpValue => 0x97
  | .enumFromCode => 0x98
  | .hashValue => 0x99

def ofByte (byte : UInt8) : Option Opcode :=
  all.find? fun op => op.toByte == byte

set_option maxRecDepth 20000 in
/-- The table is append-only: opcode after opcode takes the next free byte. -/
theorem toByte_all : (all.map toByte).map UInt8.toNat = List.range' 1 all.length := by
  decide

theorem ofByte_eq_some_iff {byte : UInt8} {op : Opcode} :
    ofByte byte = some op ↔ op.toByte = byte := by
  have distinct : (all.map toByte).Nodup := by
    apply List.Nodup.of_map UInt8.toNat
    rw [toByte_all]
    exact List.nodup_range'
  exact findByte_iff distinct (by intro op; cases op <;> decide)

theorem toByte_inj {first second : Opcode} :
    first.toByte = second.toByte ↔ first = second := by
  constructor
  · intro sameByte
    have found := ofByte_eq_some_iff.mpr sameByte
    rw [ofByte_eq_some_iff.mpr rfl] at found
    exact (Option.some.inj found).symm
  · rintro rfl
    rfl

end Opcode

end KiraVm
