import KiraVm.HeapModel

/-!
# The world around the interpreter

What the interpreter reads and reports at its seams, and everything it calls
that is not its own code: the host it runs on, the task and channel tables, and
the arithmetic and text libraries of the platform.  The interpreter is modelled
for every such world.
-/

namespace KiraVm

/-! ## Seam values -/

/-- A value lent across the native seam. -/
inductive NativeArg
  | void
  | int (value : Int64)
  | float (bits : UInt64)
  | bool (value : Bool)
  | str (text : String)
  | enum (tag : Int64)
  | aggregate (tree : NativeStateValue)
  | handle (word : UInt64)
  | rawPtr (word : UInt64)
  | nativeState (word : UInt64)

/-- A value owned by the side it crosses to; its shapes are an argument's. -/
abbrev NativeResult := NativeArg

structure NativeReturn where
  result : NativeResult
  writebacks : List (UInt32 × NativeResult)

/-- A value lent to a foreign function.  A scalar is its word, cut to the width
of its type. -/
inductive ForeignArg
  | scalar (ty : ForeignType) (word : UInt64)
  | cString (text : String)
  | cStringPtr (address : UInt64)
  | aggregate (id : UInt32) (bytes : List UInt8)

inductive ForeignResult
  | scalar (ty : ForeignType) (word : UInt64)
  | cString (text : String)
  | aggregate (id : UInt32) (bytes : List UInt8)

def ForeignResult.spec : ForeignResult → ForeignTypeSpec
  | .scalar ty _ => .scalar ty
  | .cString _ => .scalar .cString
  | .aggregate id _ => .aggregate id

inductive NativeStatePathStep
  | field (index : UInt32)
  | index (position : UInt64)
  deriving DecidableEq, Repr

inductive FileRequest
  | readRange (path : String) (offset count : Int64)
  | writeBytes (path : String) (bytes : List UInt8)
  | readText (path : String)
  | writeText (path text : String)
  | listDirectory (path : String)
  | isDirectory (path : String)
  | makeDirectory (path : String)
  | renamePath (source target : String)
  | removePath (path : String)
  | fileExists (path : String)
  | pathExists (path : String)
  | fileSize (path : String)
  deriving DecidableEq, Repr

inductive FileResponse
  | bytes (bytes : List UInt8)
  | text (text : String)
  | names (names : List String)
  | flag (value : Bool)
  | size (size : UInt64)
  deriving DecidableEq, Repr

inductive MainThreadResponse
  | value (tree : NativeStateValue)
  | spawned (handle : UInt64)
  | posted

structure MainThreadRequest where
  operation : MainThreadOp
  function : UInt32
  args : List NativeStateValue

/-! ## Errors -/

inductive NativeStateOperation
  | store | userData | recover | retain | release
  deriving DecidableEq, Repr

inductive DecimalError
  | overflow | divideByZero | parse
  deriving DecidableEq, Repr

/-- The integer spellings of the language. -/
inductive IntWidth
  | plain | i8 | i16 | i32 | u8 | u16 | u32 | u64
  deriving DecidableEq, Repr

/-- What a run reports instead of an answer.  The errors of the host and of the
task and channel tables are passed on as they are. -/
inductive VmError (ε : Type)
  | unexpectedSuspend
  | noEntrypoint
  | divideByZero
  | integerOverflow (spelling : IntWidth)
  | shiftOutOfRange (count : Int64) (bits : Nat)
  | narrowingOutOfRange (value : Int) (spelling : IntWidth)
  | typeCastFailed (actual expected : UInt64)
  | floatToIntOutOfRange (bits : UInt64)
  | stackUnderflow
  | typeMismatch (expected : String)
  | unknownFunction (index : UInt64)
  | arityMismatch (function expected : UInt64) (got : Nat)
  | nativeEntry (function : UInt32)
  | nativeCall (error : ε)
  | unknownForeign (id : UInt32)
  | unknownForeignCallback (id : UInt32)
  | foreignCall (error : ε)
  | fileSystem (error : ε)
  | compiler (error : ε)
  | toolchain (error : ε)
  | mainThread (error : ε)
  | mainThreadResponse (operation : MainThreadOp)
  | mainThreadValue (function : UInt64)
  | mainThreadHandleMismatch
  | foreignArrayTooLong (count : UInt32) (len : Nat)
  | nativeState (error : ε)
  | nativeStateValueMismatch (operation : NativeStateOperation) (kind : String)
  | foreignArgMismatch (foreign : UInt32) (expected : ForeignTypeSpec)
  | badJump (target : UInt64)
  | callDepthExceeded
  | frameUnderflow
  | badDispatch
  | structAtSeam (function : UInt32)
  | missingSeamWriteback (function : UInt32) (param : UInt64)
  | unprintableValue
  | notAStruct
  | noSuchField (index : UInt64)
  | localSlotOutOfRange (slot : UInt64)
  | stringConstantOutOfRange (index : UInt64)
  | constantUninitialized (slot : UInt64)
  | emptyFieldPath
  | notAnArray
  | notAString
  | notAWholeNumber
  | nullForeignRead
  | indexOutOfBounds
  | negativeIndex
  | stringIndexOutOfBounds
  | invertedSubstring
  | arrayTooLong
  | notAnEnum
  | notACell
  | missingEnumPayload
  | enumAtSeam (function : UInt32)
  | numberAtSeam (function : UInt32)
  | numberTrap (error : DecimalError)
  | aborted (message : String)
  | handleAtSeam (function : UInt32)
  | danglingRoot (root : UInt64)
  | rootSpaceExhausted
  | uncrossableExport (function : UInt32) (kind : String)
  | task (error : ε)
  | channel (error : ε)
  deriving DecidableEq, Repr

/-! ## The platform -/

inductive FloatArith
  | add | sub | mul | div | rem
  deriving DecidableEq, Repr

/-- Double arithmetic on bit patterns. -/
structure Floats where
  arith : FloatArith → UInt64 → UInt64 → UInt64
  neg : UInt64 → UInt64
  eq : UInt64 → UInt64 → Bool
  lt : UInt64 → UInt64 → Bool
  ofInt : Int64 → UInt64
  ofUInt : UInt64 → UInt64
  /-- The integer a float truncates to, when it is finite and in range. -/
  toInt : UInt64 → Option Int64
  toUInt : UInt64 → Option UInt64
  narrow : UInt64 → UInt32
  widen : UInt32 → UInt64
  text : UInt64 → String
  math : MathOp → List UInt64 → UInt64

structure Decimals where
  fromInt : Int64 → Decimal
  parse : String → Except DecimalError Decimal
  fromFloat : UInt64 → Except DecimalError Decimal
  text : Decimal → String
  toInt : Decimal → Except DecimalError Int64
  toFloat : Decimal → UInt64
  negate : Decimal → Except DecimalError Decimal
  add : Decimal → Decimal → Except DecimalError Decimal
  subtract : Decimal → Decimal → Except DecimalError Decimal
  multiply : Decimal → Decimal → Except DecimalError Decimal
  divide : Decimal → Decimal → Except DecimalError Decimal
  equals : Decimal → Decimal → Except DecimalError Bool
  compare : Decimal → Decimal → Except DecimalError Ordering

/-- Text as the platform's strings read it, in bytes of UTF-8. -/
structure Texts where
  contains : String → String → Bool
  startsWith : String → String → Bool
  endsWith : String → String → Bool
  replace : String → String → String → String
  find : String → String → Option Nat
  trim : String → String
  parseInt : String → Option Int64
  dropLastScalar : String → String
  lowercase : String → String
  uppercase : String → String
  split : String → String → List String
  slice : String → Nat → Nat → Option String

/-! ## The host -/

/-- What a host does during a call: it may enter the interpreter again, on the
caller's heap, any number of times before it answers. -/
inductive HostScript (σ ε α : Type)
  | done (answer : α) (host : σ)
  | enter (host : σ) (function : UInt32) (args : List NativeArg) (capture : List UInt32)
      (next : Except (VmError ε) NativeReturn → σ → HostScript σ ε α)

/-- Everything the interpreter calls and does not define.  `State` is the host's
own state, with the callback-state trees it holds; `Executors` are the task and
channel tables of one run. -/
structure World where
  State : Type
  Executors : Type
  Error : Type
  floats : Floats
  decimals : Decimals
  texts : Texts
  writeLine : String → State → State
  callNative : UInt32 → List NativeArg → State → HostScript State Error (Except Error NativeReturn)
  callForeign : UInt32 → List ForeignArg → State →
    HostScript State Error (Except Error ForeignResult)
  foreignCallback : UInt32 → State → Except Error UInt64 × State
  channelOp : ChannelPrim → Int64 → Int64 → Int64 → State → Option (Except Error Int64) × State
  mainThread : MainThreadRequest → State → Except Error MainThreadResponse × State
  mainThreadJoin : UInt64 → State → Except Error NativeStateValue × State
  nativeStateCreateDropping : UInt64 → NativeStateValue → Option UInt32 → State →
    Except Error UInt64 × State
  nativeStateCheck : UInt64 → UInt64 → State → Except Error Unit × State
  nativeStateRecover : UInt64 → UInt64 → State → Except Error NativeStateValue × State
  nativeStateReplace : UInt64 → UInt64 → NativeStateValue → State →
    Except Error NativeStateValue × State
  nativeStateRead : UInt64 → UInt64 → List NativeStatePathStep → State →
    Except Error NativeStateValue × State
  nativeStateWrite : UInt64 → UInt64 → List NativeStatePathStep → NativeStateValue → State →
    Except Error NativeStateValue × State
  nativeStateAppend : UInt64 → UInt64 → List NativeStatePathStep → NativeStateValue → State →
    Except Error Unit × State
  nativeStateRetain : UInt64 → State → Except Error Unit × State
  nativeStateRelease : UInt64 → State → Except Error Unit × State
  nativeStateReleaseDropping : UInt64 → State → Except Error (Option NativeStateValue) × State
  fileSystem : FileRequest → State → Except Error FileResponse × State
  /-- A compiler request and its answer, as the fields that cross. -/
  compiler : CompilerOp → List String → State → Except Error (List String) × State
  envText : String → State → String × State
  envIsSet : String → State → Bool × State
  envArgumentCount : State → Int64 × State
  envArgument : Int64 → State → String × State
  envSleep : Int64 → State → State
  /-- A scalar of C storage, read at an address that is not null. -/
  readBytes : UInt64 → UInt32 → Nat → State → UInt64 × State
  /-- The cells whose last share in a callback-state tree has gone since this
  was last asked, given the heap and the values held outside it. -/
  releasedCells : Heap → List Value → State → List Nat × State
  /-- The token references that callback-state trees took and gave up. -/
  ownerEvents : Heap → List Value → State → (List UInt64 × List UInt64) × State
  newExecutors : Executors
  taskPerform : TaskPrim → Int64 → Int64 → Int64 → Executors → Except Error Int64 × Executors
  channelPerform : ChannelPrim → Int64 → Int64 → Int64 → Executors →
    Except Error Int64 × Executors
  takeUndeliveredTokens : Executors → List UInt64 × Executors

/-! ## A host that offers nothing -/

def refuse {α : Type} (lines : List String) : Except String α × List String :=
  (.error "unsupported", lines)

/-- A host that only records the lines it is given. -/
def World.bare : World where
  State := List String
  Executors := Unit
  Error := String
  floats :=
    { arith := fun _ _ _ => 0
      neg := id
      eq := fun left right => left == right
      lt := fun _ _ => false
      ofInt := fun _ => 0
      ofUInt := fun _ => 0
      toInt := fun _ => none
      toUInt := fun _ => none
      narrow := fun _ => 0
      widen := fun _ => 0
      text := fun _ => ""
      math := fun _ _ => 0 }
  decimals :=
    { fromInt := fun value => ⟨value, 0⟩
      parse := fun _ => .error .parse
      fromFloat := fun _ => .error .parse
      text := fun _ => ""
      toInt := fun _ => .error .overflow
      toFloat := fun _ => 0
      negate := fun _ => .error .overflow
      add := fun _ _ => .error .overflow
      subtract := fun _ _ => .error .overflow
      multiply := fun _ _ => .error .overflow
      divide := fun _ _ => .error .overflow
      equals := fun _ _ => .error .overflow
      compare := fun _ _ => .error .overflow }
  texts :=
    { contains := fun _ _ => false
      startsWith := fun _ _ => false
      endsWith := fun _ _ => false
      replace := fun text _ _ => text
      find := fun _ _ => none
      trim := id
      parseInt := fun _ => none
      dropLastScalar := id
      lowercase := id
      uppercase := id
      split := fun text _ => [text]
      slice := fun _ _ _ => none }
  writeLine := fun line lines => lines ++ [line]
  callNative := fun _ _ lines => .done (.error "unsupported") lines
  callForeign := fun _ _ lines => .done (.error "unsupported") lines
  foreignCallback := fun _ => refuse
  channelOp := fun _ _ _ _ lines => (none, lines)
  mainThread := fun _ => refuse
  mainThreadJoin := fun _ => refuse
  nativeStateCreateDropping := fun _ _ _ => refuse
  nativeStateCheck := fun _ _ => refuse
  nativeStateRecover := fun _ _ => refuse
  nativeStateReplace := fun _ _ _ => refuse
  nativeStateRead := fun _ _ _ => refuse
  nativeStateWrite := fun _ _ _ _ => refuse
  nativeStateAppend := fun _ _ _ _ => refuse
  nativeStateRetain := fun _ => refuse
  nativeStateRelease := fun _ => refuse
  nativeStateReleaseDropping := fun _ => refuse
  fileSystem := fun _ => refuse
  compiler := fun _ _ => refuse
  envText := fun _ lines => ("", lines)
  envIsSet := fun _ lines => (false, lines)
  envArgumentCount := fun lines => (0, lines)
  envArgument := fun _ lines => ("", lines)
  envSleep := fun _ lines => lines
  readBytes := fun _ _ _ lines => (0, lines)
  releasedCells := fun _ _ lines => ([], lines)
  ownerEvents := fun _ _ lines => (([], []), lines)
  newExecutors := ()
  taskPerform := fun _ _ _ _ tables => (.error "unsupported", tables)
  channelPerform := fun _ _ _ _ tables => (.error "unsupported", tables)
  takeUndeliveredTokens := fun tables => ([], tables)

end KiraVm
