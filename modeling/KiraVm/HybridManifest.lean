import KiraVm.ForeignFields

/-!
# Hybrid manifests

The manifest that ties a program's bytecode half to its native half: two payload paths, an
entrypoint, the functions with their engines, and five trailing sections that are read by
position.  The functions are those of `manifest.rs` and its two submodules.
-/

namespace KiraVm

namespace KiraHybrid

open ByteReader ByteReader.Reader

/-- The bytes "KHM1". -/
def magic : List UInt8 := [0x4b, 0x48, 0x4d, 0x31]

/-- How a parameter takes its argument. -/
inductive Ownership
  | owned
  | borrow
  | borrowMut
  deriving DecidableEq, Repr

namespace Ownership

def asByte : Ownership → UInt8
  | owned => 0
  | borrow => 1
  | borrowMut => 2

def fromByte (byte : UInt8) : Option Ownership :=
  match byte with
  | 0 => some owned
  | 1 => some borrow
  | 2 => some borrowMut
  | _ => none

theorem fromByte_eq_some_iff {byte : UInt8} {ownership : Ownership} :
    fromByte byte = some ownership ↔ ownership.asByte = byte := by
  constructor
  · unfold fromByte
    split <;> rintro ⟨⟩ <;> rfl
  · rintro rfl
    cases ownership <;> rfl

end Ownership

/-- What the native half is instrumented with. -/
inductive HybridSanitizer
  | none
  | address
  deriving DecidableEq, Repr

namespace HybridSanitizer

def asByte : HybridSanitizer → Option UInt8
  | none => Option.none
  | address => some 1

def fromByte (byte : UInt8) : Option HybridSanitizer :=
  match byte with
  | 1 => some address
  | _ => Option.none

end HybridSanitizer

/-- A parameter: the tag of its type, and how it takes its argument. -/
structure HybridParam where
  ty : UInt8
  ownership : Ownership
  deriving DecidableEq, Repr

structure HybridFunction where
  id : UInt32
  name : String
  execution : Execution
  params : List HybridParam
  returns : UInt8
  exportedName : Option String
  deriving DecidableEq, Repr

structure HybridForeign where
  library : String
  symbol : String
  abi : ForeignAbi
  signature : ForeignSignature
  adapterSymbol : String
  deriving DecidableEq, Repr

structure HybridManifest where
  moduleName : String
  bytecodePath : String
  nativeLibraryPath : String
  entry : Option UInt32
  functions : List HybridFunction
  foreign : List HybridForeign
  foreignAggregates : ForeignAggregates
  internalFunctions : UInt32
  sanitizer : HybridSanitizer
  deriving DecidableEq

inductive ManifestDecodeError
  | badMagic
  | truncated
  | invalidString
  | countExceedsInput (count remaining : Nat)
  | unknownExecution (byte : UInt8)
  | unknownOwnership (byte : UInt8)
  | unknownSanitizer (byte : UInt8)
  | entryOutOfRange (entry count : UInt32)
  | nativeWithoutSymbol (name : String)
  | unknownForeignAbi (imported : String) (tag : UInt8)
  | unknownForeignType (imported : String) (tag : UInt8)
  | unknownForeignAggregateMember (index : Nat) (tag : UInt8)
  | malformedForeignAggregate (index : Nat) (source : ForeignAggregateError)
  | unknownForeignAggregate (imported : String) (index : UInt32)
  | retainedRowMismatch (rows imports : Nat)
  | retainedOutOfRange (imported : String) (position params : Nat)
  | duplicateRetainedPosition (imported : String) (position : Nat)
  | trailingBytes (count : Nat)
  deriving DecidableEq, Repr

/-! ## Writing -/

def writeString (text : String) : List UInt8 :=
  shortBytes (textBytes text)

def writeParam (param : HybridParam) : List UInt8 :=
  [param.ty] ++ [param.ownership.asByte]

/-- An absent symbol is written as an empty one. -/
def writeFunction (function : HybridFunction) : List UInt8 :=
  u32Bytes function.id ++ ([function.execution.asByte] ++ (writeString function.name ++
    (shortList writeParam function.params ++ ([function.returns] ++
      writeString (function.exportedName.getD "")))))

def writeForeign (imported : HybridForeign) : List UInt8 :=
  writeString imported.library ++ (writeString imported.symbol ++ ([imported.abi.tag] ++
    (shortList writeSpec imported.signature.parameters ++
      (writeSpec imported.signature.result ++ writeString imported.adapterSymbol))))

def writeAggregate (row : ForeignAggregate) : List UInt8 :=
  shortList writeMember row.members

def writeAggregates (aggregates : ForeignAggregates) : List UInt8 :=
  shortList writeAggregate aggregates.entries

def writePosition (position : Nat) : List UInt8 :=
  u32Bytes (UInt32.ofNat position)

def writeRetained (imported : HybridForeign) : List UInt8 :=
  shortList writePosition imported.signature.retainedPositions

namespace HybridManifest

variable (manifest : HybridManifest)

def headBytes : List UInt8 :=
  magic ++ (writeString manifest.moduleName ++ (writeString manifest.bytecodePath ++
    (writeString manifest.nativeLibraryPath ++ (u32Bytes (manifest.entry.getD noEntrypoint) ++
      shortList writeFunction manifest.functions))))

def hasRetained : Bool :=
  manifest.foreign.any fun imported => imported.signature.anyRetained

def hasSanitizer : Bool :=
  manifest.sanitizer != .none

/-- Whether anything is written behind the aggregates. -/
def tail : Bool :=
  manifest.internalFunctions != 0 || manifest.hasRetained || manifest.hasSanitizer

/-- The trailing sections, each empty unless it is written. -/
def sectionBytes : List (List UInt8) :=
  [if !manifest.foreign.isEmpty || manifest.tail then shortList writeForeign manifest.foreign
    else [],
    if !manifest.foreignAggregates.entries.isEmpty || manifest.tail then
      writeAggregates manifest.foreignAggregates else [],
    if manifest.tail then u32Bytes manifest.internalFunctions else [],
    if manifest.hasRetained || manifest.hasSanitizer then
      shortList writeRetained manifest.foreign else [],
    manifest.sanitizer.asByte.toList]

def toBytes : List UInt8 :=
  manifest.headBytes ++ manifest.sectionBytes.flatten

end HybridManifest

/-! ## Reading -/

abbrev ManifestReader := Reader ManifestDecodeError

def takeByte : ManifestReader UInt8 :=
  byte fun _ => .truncated

def takeU32 : ManifestReader UInt32 :=
  u32 fun _ => .truncated

/-- A count of elements that take a byte each or more. -/
def readCount : ManifestReader Nat := do
  let count ← takeU32
  let remaining ← remaining
  if remaining < count.toNat then fail (.countExceedsInput count.toNat remaining)
  else pure count.toNat

/-- A counted run of elements. -/
def readCounted {α : Type} (read : Nat → ManifestReader α) : ManifestReader (List α) := do
  let count ← readCount
  many read 0 count

def readString : ManifestReader String := do
  let bytes ← Reader.shortBytes fun _ => .truncated
  okOr (String.fromUTF8? ⟨bytes.toArray⟩) .invalidString

def readParam : ManifestReader HybridParam := do
  let ty ← takeByte
  let byte ← takeByte
  let ownership ← okOr (Ownership.fromByte byte) (.unknownOwnership byte)
  pure ⟨ty, ownership⟩

def readFunction : ManifestReader HybridFunction := do
  let id ← takeU32
  let byte ← takeByte
  let execution ← okOr (Execution.fromByte byte) (.unknownExecution byte)
  let name ← readString
  let params ← readCounted fun _ => readParam
  let returns ← takeByte
  let exported ← readString
  pure ⟨id, name, execution, params, returns, if exported = "" then none else some exported⟩

def readSpec (imported : String) : ManifestReader ForeignTypeSpec := do
  let tag ← takeByte
  if tag = ForeignTypeSpec.aggregateTag then .aggregate <$> takeU32
  else .scalar <$> okOr (ForeignType.fromTag tag) (.unknownForeignType imported tag)

def readImport : ManifestReader HybridForeign := do
  let library ← readString
  let symbol ← readString
  let abiByte ← takeByte
  let abi ← okOr (ForeignAbi.fromTag abiByte) (.unknownForeignAbi symbol abiByte)
  let parameters ← readCounted fun _ => readSpec symbol
  let result ← readSpec symbol
  let adapterSymbol ← readString
  pure ⟨library, symbol, abi, .new parameters result, adapterSymbol⟩

/-- The import section, or no imports at the end of the input. -/
def readForeign : ManifestReader (List HybridForeign) :=
  optional [] (readCounted fun _ => readImport)

def readArrayElement (index : Nat) : ManifestReader ForeignArrayElement := do
  let tag ← takeByte
  if tag = nestedMemberTag then .aggregate <$> takeU32
  else .scalar <$> okOr (ForeignType.fromTag tag) (.unknownForeignAggregateMember index tag)

def readMember (index : Nat) : ManifestReader ForeignMember := do
  let tag ← takeByte
  if tag = nestedMemberTag then .aggregate <$> takeU32
  else if tag = arrayMemberTag then do
    let element ← readArrayElement index
    .array element <$> takeU32
  else .scalar <$> okOr (ForeignType.fromTag tag) (.unknownForeignAggregateMember index tag)

def readAggregate (index : Nat) : ManifestReader ForeignAggregate :=
  ForeignAggregate.mk <$> readCounted fun _ => readMember index

/-- Read rows onto a table, each checked against the rows before it. -/
def readAggregateRows : (index count : Nat) → ForeignAggregates → ManifestReader ForeignAggregates
  | _, 0, aggregates => pure aggregates
  | index, count + 1, aggregates => do
    let row ← readAggregate index
    match aggregates.push row with
    | .error source => fail (.malformedForeignAggregate index source)
    | .ok pushed => readAggregateRows (index + 1) count pushed

def readAggregateTable : ManifestReader ForeignAggregates := do
  let count ← takeU32
  readAggregateRows 0 count.toNat .empty

def checkImports (aggregates : ForeignAggregates) : List HybridForeign → ManifestReader Unit
  | [] => pure ()
  | imported :: imports =>
    match unresolved aggregates imported.signature with
    | some id => fail (.unknownForeignAggregate imported.symbol id)
    | none => checkImports aggregates imports

/-- The aggregate section, or no aggregates at the end of the input. -/
def readForeignAggregates (imports : List HybridForeign) : ManifestReader ForeignAggregates := do
  let aggregates ← optional .empty readAggregateTable
  checkImports aggregates imports
  pure aggregates

def readPositions (symbol : String) : Nat → List Bool → ManifestReader (List Bool)
  | 0, retained => pure retained
  | count + 1, retained => do
    let position ← takeU32
    match retained[position.toNat]? with
    | none => fail (.retainedOutOfRange symbol position.toNat retained.length)
    | some true => fail (.duplicateRetainedPosition symbol position.toNat)
    | some false => readPositions symbol count (retained.set position.toNat true)

def readRetained (imported : HybridForeign) : ManifestReader HybridForeign := do
  let count ← readCount
  let retained ← readPositions imported.symbol count
    (List.replicate imported.signature.parameters.length false)
  pure { imported with signature := imported.signature.withRetained retained }

def readRetainedRows (imports : List HybridForeign) : ManifestReader (List HybridForeign) := do
  let rows ← takeU32
  if rows.toNat ≠ imports.length then fail (.retainedRowMismatch rows.toNat imports.length)
  else each readRetained imports

def readForeignRetained (imports : List HybridForeign) : ManifestReader (List HybridForeign) :=
  optional imports (readRetainedRows imports)

def readSanitizer : ManifestReader HybridSanitizer := do
  let byte ← takeByte
  okOr (HybridSanitizer.fromByte byte) (.unknownSanitizer byte)

/-- What opens a manifest: its names and paths, the word of its entrypoint, its functions. -/
structure Head where
  moduleName : String
  bytecodePath : String
  nativeLibraryPath : String
  entry : UInt32
  functions : List HybridFunction
  deriving DecidableEq, Repr

def readHead : ManifestReader Head := do
  let moduleName ← readString
  let bytecodePath ← readString
  let nativeLibraryPath ← readString
  let entry ← takeU32
  let functions ← readCounted fun _ => readFunction
  pure ⟨moduleName, bytecodePath, nativeLibraryPath, entry, functions⟩

/-- A function of a library that has nothing to bind. -/
def unbound (functions : List HybridFunction) : Option HybridFunction :=
  functions.find? fun function =>
    function.execution == .native && function.exportedName == none

/-- The entrypoint a word stands for, and what its absence asks of the functions. -/
def checkEntry (word : UInt32) (functions : List HybridFunction) : ManifestReader (Option UInt32) :=
  if word = noEntrypoint then
    match unbound functions with
    | some function => fail (.nativeWithoutSymbol function.name)
    | none => pure none
  else if functions.length ≤ word.toNat then
    fail (.entryOutOfRange word (UInt32.ofNat functions.length))
  else pure (some word)

def readTail (head : Head) : ManifestReader HybridManifest := do
  let foreign ← readForeign
  let foreignAggregates ← readForeignAggregates foreign
  let internalFunctions ← optional 0 takeU32
  let foreign ← readForeignRetained foreign
  let sanitizer ← optional .none readSanitizer
  let left ← remaining
  if left ≠ 0 then fail (.trailingBytes left)
  else
    let entry ← checkEntry head.entry head.functions
    pure ⟨head.moduleName, head.bytecodePath, head.nativeLibraryPath, entry, head.functions,
      foreign, foreignAggregates, internalFunctions, sanitizer⟩

def readManifest : ManifestReader HybridManifest := do
  let opening ← take (fun _ => .truncated) 4
  if opening ≠ magic then fail .badMagic
  else
    let head ← readHead
    readTail head

/-- A manifest from its byte format. -/
def HybridManifest.fromBytes (bytes : List UInt8) : Except ManifestDecodeError HybridManifest :=
  match readManifest ⟨0, bytes⟩ with
  | .error error => .error error
  | .ok (manifest, _) => .ok manifest

end KiraHybrid

end KiraVm
