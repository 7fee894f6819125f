import KiraVm.WordReader

/-!
# Tags of the runtime ABI

The closed enumerations an instruction or a module row names by one byte.
Each byte is pinned, so a decoder answers an entry exactly for that entry's
own byte.
-/

namespace KiraVm

open ByteReader

/-- The string operations that share one opcode. -/
inductive StringOp
  | contains | startsWith | endsWith | split | replace | trim | lowercase | uppercase
  | isInt | toInt | dropLastScalar | bytes
  deriving DecidableEq, Repr

namespace StringOp

def all : List StringOp :=
  [.contains, .startsWith, .endsWith, .split, .replace, .trim, .lowercase, .uppercase,
    .dropLastScalar, .isInt, .toInt, .bytes]

def asByte : StringOp → UInt8
  | .contains => 0
  | .startsWith => 1
  | .endsWith => 2
  | .split => 3
  | .replace => 4
  | .trim => 5
  | .lowercase => 6
  | .uppercase => 7
  | .isInt => 9
  | .toInt => 10
  | .dropLastScalar => 8
  | .bytes => 11

def fromByte (byte : UInt8) : Option StringOp :=
  all[byte.toNat]?

theorem fromByte_eq_some_iff {byte : UInt8} {op : StringOp} :
    fromByte byte = some op ↔ op.asByte = byte :=
  tableByte_iff (by decide) (by decide) (by intro op; cases op <;> decide)

end StringOp

/-- The decimal `Number` operations that share one opcode. -/
inductive NumberOp
  | fromInt | fromString | fromFloat | toString | toInt | toFloat | add | subtract
  | multiply | divide | negate | equal | less | lessOrEqual | greater | greaterOrEqual
  deriving DecidableEq, Repr

namespace NumberOp

def all : List NumberOp :=
  [.fromInt, .fromString, .fromFloat, .toString, .toInt, .toFloat, .add, .subtract, .multiply,
    .divide, .negate, .equal, .less, .lessOrEqual, .greater, .greaterOrEqual]

def asByte : NumberOp → UInt8
  | .fromInt => 0
  | .fromString => 1
  | .fromFloat => 2
  | .toString => 3
  | .toInt => 4
  | .toFloat => 5
  | .add => 6
  | .subtract => 7
  | .multiply => 8
  | .divide => 9
  | .negate => 10
  | .equal => 11
  | .less => 12
  | .lessOrEqual => 13
  | .greater => 14
  | .greaterOrEqual => 15

def fromByte (byte : UInt8) : Option NumberOp :=
  all[byte.toNat]?

theorem fromByte_eq_some_iff {byte : UInt8} {op : NumberOp} :
    fromByte byte = some op ↔ op.asByte = byte :=
  tableByte_iff (by decide) (by decide) (by intro op; cases op <;> decide)

end NumberOp

/-- The file-system requests a host may answer. -/
inductive FileSystemOp
  | readRange | writeBytes | readText | writeText | listDirectory | isDirectory
  | makeDirectory | renamePath | removePath | fileExists | pathExists | fileSize
  deriving DecidableEq, Repr

namespace FileSystemOp

def all : List FileSystemOp :=
  [.readRange, .writeBytes, .readText, .writeText, .listDirectory, .isDirectory, .makeDirectory,
    .renamePath, .removePath, .fileExists, .pathExists, .fileSize]

def asByte : FileSystemOp → UInt8
  | .readRange => 0
  | .writeBytes => 1
  | .readText => 2
  | .writeText => 3
  | .listDirectory => 4
  | .isDirectory => 5
  | .makeDirectory => 6
  | .renamePath => 7
  | .removePath => 8
  | .fileExists => 9
  | .pathExists => 10
  | .fileSize => 11

def fromByte (byte : UInt8) : Option FileSystemOp :=
  all[byte.toNat]?

theorem fromByte_eq_some_iff {byte : UInt8} {op : FileSystemOp} :
    fromByte byte = some op ↔ op.asByte = byte :=
  tableByte_iff (by decide) (by decide) (by intro op; cases op <;> decide)

end FileSystemOp

/-- The compiler requests a host may answer. -/
inductive CompilerOp
  | checkPackages | checkPath | buildPath | runPath
  deriving DecidableEq, Repr

namespace CompilerOp

def all : List CompilerOp :=
  [.checkPackages, .checkPath, .buildPath, .runPath]

def asByte : CompilerOp → UInt8
  | .checkPackages => 0
  | .checkPath => 1
  | .buildPath => 2
  | .runPath => 3

def fromByte (byte : UInt8) : Option CompilerOp :=
  all[byte.toNat]?

theorem fromByte_eq_some_iff {byte : UInt8} {op : CompilerOp} :
    fromByte byte = some op ↔ op.asByte = byte :=
  tableByte_iff (by decide) (by decide) (by intro op; cases op <;> decide)

end CompilerOp

/-- The environment reads. -/
inductive EnvOp
  | text | isSet | argumentCount | argument | sleep
  deriving DecidableEq, Repr

namespace EnvOp

def all : List EnvOp :=
  [.text, .isSet, .argumentCount, .argument, .sleep]

def asByte : EnvOp → UInt8
  | .text => 0
  | .isSet => 1
  | .argumentCount => 2
  | .argument => 3
  | .sleep => 4

def fromByte (byte : UInt8) : Option EnvOp :=
  all[byte.toNat]?

theorem fromByte_eq_some_iff {byte : UInt8} {op : EnvOp} :
    fromByte byte = some op ↔ op.asByte = byte :=
  tableByte_iff (by decide) (by decide) (by intro op; cases op <;> decide)

end EnvOp

/-- The deferred-task primitives. -/
inductive TaskPrim
  | spawn | setArg | slotGet | targetOf | beginJoin | beginDetach | pickReady | complete
  | takeResult | markDetached | cancel | advanceClock
  deriving DecidableEq, Repr

namespace TaskPrim

def all : List TaskPrim :=
  [.spawn, .setArg, .slotGet, .targetOf, .beginJoin, .beginDetach, .pickReady, .complete,
    .takeResult, .markDetached, .cancel, .advanceClock]

def asByte : TaskPrim → UInt8
  | .spawn => 0
  | .setArg => 1
  | .slotGet => 2
  | .targetOf => 3
  | .beginJoin => 4
  | .beginDetach => 5
  | .pickReady => 6
  | .complete => 7
  | .takeResult => 8
  | .markDetached => 9
  | .cancel => 10
  | .advanceClock => 11

def fromByte (byte : UInt8) : Option TaskPrim :=
  all[byte.toNat]?

theorem fromByte_eq_some_iff {byte : UInt8} {op : TaskPrim} :
    fromByte byte = some op ↔ op.asByte = byte :=
  tableByte_iff (by decide) (by decide) (by intro op; cases op <;> decide)

end TaskPrim

/-- The channel primitives. -/
inductive ChannelPrim
  | create | send | poll | take | closeSender | closeReceiver | deadlock
  deriving DecidableEq, Repr

namespace ChannelPrim

def all : List ChannelPrim :=
  [.create, .send, .poll, .take, .closeSender, .closeReceiver, .deadlock]

def asByte : ChannelPrim → UInt8
  | .create => 0
  | .send => 1
  | .poll => 2
  | .take => 3
  | .closeSender => 4
  | .closeReceiver => 5
  | .deadlock => 6

def fromByte (byte : UInt8) : Option ChannelPrim :=
  all[byte.toNat]?

theorem fromByte_eq_some_iff {byte : UInt8} {op : ChannelPrim} :
    fromByte byte = some op ↔ op.asByte = byte :=
  tableByte_iff (by decide) (by decide) (by intro op; cases op <;> decide)

end ChannelPrim

/-- The operations of the host main-thread loop. -/
inductive MainThreadOp
  | invoke | spawn | post | lifecycleStart
  deriving DecidableEq, Repr

namespace MainThreadOp

def all : List MainThreadOp :=
  [.invoke, .spawn, .post, .lifecycleStart]

def asByte : MainThreadOp → UInt8
  | .invoke => 0
  | .spawn => 1
  | .post => 2
  | .lifecycleStart => 3

def fromByte (byte : UInt8) : Option MainThreadOp :=
  all[byte.toNat]?

theorem fromByte_eq_some_iff {byte : UInt8} {op : MainThreadOp} :
    fromByte byte = some op ↔ op.asByte = byte :=
  tableByte_iff (by decide) (by decide) (by intro op; cases op <;> decide)

end MainThreadOp

/-- The floating-point operations that share one opcode. -/
inductive MathOp
  | sqrt | sin | cos | tan | floor | ceil | abs | exp | log | log2 | log10 | exp2 | round
  | trunc | asin | acos | atan | sinh | cosh | tanh | pow | atan2 | min | max | hypot
  | copySign | fmod | cbrt
  deriving DecidableEq, Repr

namespace MathOp

def tag : MathOp → UInt8
  | .sqrt => 0
  | .sin => 1
  | .cos => 2
  | .tan => 3
  | .floor => 4
  | .ceil => 5
  | .abs => 6
  | .exp => 7
  | .log => 8
  | .log2 => 9
  | .log10 => 10
  | .exp2 => 11
  | .round => 12
  | .trunc => 13
  | .asin => 14
  | .acos => 15
  | .atan => 16
  | .sinh => 17
  | .cosh => 18
  | .tanh => 19
  | .pow => 20
  | .atan2 => 21
  | .min => 22
  | .max => 23
  | .hypot => 24
  | .copySign => 25
  | .fmod => 26
  | .cbrt => 27

def fromTag (tag : UInt8) : Option MathOp :=
  match tag with
  | 0 => some .sqrt
  | 1 => some .sin
  | 2 => some .cos
  | 3 => some .tan
  | 4 => some .floor
  | 5 => some .ceil
  | 6 => some .abs
  | 7 => some .exp
  | 8 => some .log
  | 9 => some .log2
  | 10 => some .log10
  | 11 => some .exp2
  | 12 => some .round
  | 13 => some .trunc
  | 14 => some .asin
  | 15 => some .acos
  | 16 => some .atan
  | 17 => some .sinh
  | 18 => some .cosh
  | 19 => some .tanh
  | 20 => some .pow
  | 21 => some .atan2
  | 22 => some .min
  | 23 => some .max
  | 24 => some .hypot
  | 25 => some .copySign
  | 26 => some .fmod
  | 27 => some .cbrt
  | _ => none

theorem fromTag_eq_some_iff {tag : UInt8} {ty : MathOp} :
    fromTag tag = some ty ↔ ty.tag = tag := by
  constructor
  · unfold fromTag
    split <;> rintro ⟨⟩ <;> rfl
  · rintro rfl
    cases ty <;> rfl

end MathOp

/-- Which engine owns a function's body. -/
inductive Execution
  | inherited | runtime | native
  deriving DecidableEq, Repr

namespace Execution

def asByte : Execution → UInt8
  | .inherited => 0
  | .runtime => 1
  | .native => 2

def fromByte (byte : UInt8) : Option Execution :=
  match byte with
  | 0 => some .inherited
  | 1 => some .runtime
  | 2 => some .native
  | _ => none

theorem fromByte_eq_some_iff {byte : UInt8} {execution : Execution} :
    fromByte byte = some execution ↔ execution.asByte = byte := by
  constructor
  · unfold fromByte
    split <;> rintro ⟨⟩ <;> rfl
  · rintro rfl
    cases execution <;> rfl

end Execution

/-- How a foreign symbol is reached. -/
inductive ForeignAbi
  | c | linuxSyscall | cAddress
  deriving DecidableEq, Repr

namespace ForeignAbi

def tag : ForeignAbi → UInt8
  | .c => 0
  | .linuxSyscall => 1
  | .cAddress => 2

def fromTag (tag : UInt8) : Option ForeignAbi :=
  match tag with
  | 0 => some .c
  | 1 => some .linuxSyscall
  | 2 => some .cAddress
  | _ => none

theorem fromTag_eq_some_iff {tag : UInt8} {ty : ForeignAbi} :
    fromTag tag = some ty ↔ ty.tag = tag := by
  constructor
  · unfold fromTag
    split <;> rintro ⟨⟩ <;> rfl
  · rintro rfl
    cases ty <;> rfl

end ForeignAbi

/-- The exact-width scalar types of the foreign seam. -/
inductive ForeignType
  | void | i8 | i16 | i32 | i64 | u8 | u16 | u32 | u64 | bool | f32 | f64 | rawPtr
  | cString
  deriving DecidableEq, Repr

namespace ForeignType

def tag : ForeignType → UInt8
  | .void => 0
  | .i8 => 1
  | .i16 => 2
  | .i32 => 3
  | .i64 => 4
  | .u8 => 5
  | .u16 => 6
  | .u32 => 7
  | .u64 => 8
  | .bool => 9
  | .f32 => 10
  | .f64 => 11
  | .rawPtr => 12
  | .cString => 13

def fromTag (tag : UInt8) : Option ForeignType :=
  match tag with
  | 0 => some .void
  | 1 => some .i8
  | 2 => some .i16
  | 3 => some .i32
  | 4 => some .i64
  | 5 => some .u8
  | 6 => some .u16
  | 7 => some .u32
  | 8 => some .u64
  | 9 => some .bool
  | 10 => some .f32
  | 11 => some .f64
  | 12 => some .rawPtr
  | 13 => some .cString
  | _ => none

theorem fromTag_eq_some_iff {tag : UInt8} {ty : ForeignType} :
    fromTag tag = some ty ↔ ty.tag = tag := by
  constructor
  · unfold fromTag
    split <;> rintro ⟨⟩ <;> rfl
  · rintro rfl
    cases ty <;> rfl

end ForeignType

end KiraVm
