import KiraVm.ModuleModel

/-!
# The module byte format

A module is written behind a four-byte magic: its entrypoint, strings and
functions, then eight positional sections.  A section is written when it or any
later section holds something, so a reader that meets the end of the input at a
section boundary takes that section and all behind it as empty.  The previous
format is read with its narrow counts and never written.
-/

namespace KiraVm

open ByteReader ByteReader.Reader

def magic : List UInt8 := [0x4b, 0x42, 0x43, 0x32]

def legacyMagic : List UInt8 := [0x4b, 0x42, 0x43, 0x31]

/-- The entrypoint word of a module without one. -/
def noEntrypoint : UInt32 := 0xffffffff

def noEntrypointWide : UInt64 := 0xffffffffffffffff

inductive Format
  | legacy
  | wide
  deriving DecidableEq, Repr

def Format.isLegacy (format : Format) : Bool :=
  format == .legacy

/-- Why a byte string is no module. -/
inductive ModuleDecodeError
  | badMagic
  | truncated
  | lengthTooLarge (value : Nat)
  | entrypointTooLarge (index : Nat)
  | indexTableTooLarge (table : String) (count : Nat)
  | invalidString
  | code (error : DecodeError)
  | unknownExecution (byte : UInt8)
  | uncrossableExportType (exported : String) (tag : UInt8)
  | unknownForeignAbi (imported : String) (tag : UInt8)
  | unknownForeignType (imported : String) (tag : UInt8)
  | unknownForeignAggregateMember (index : Nat) (tag : UInt8)
  | malformedForeignAggregate (index : Nat) (source : ForeignAggregateError)
  | unknownForeignAggregate (imported : String) (index : UInt32)
  | unknownCallbackAggregate (callback : Nat) (index : UInt32)
  | releaseCountMismatch (functions entries : Nat)
  | retainedRowMismatch (rows imports : Nat)
  | retainedOutOfRange (imported : String) (position params : Nat)
  | duplicateRetainedPosition (imported : String) (position : Nat)
  | constantInitOutOfRange (slot init functions : Nat)
  | trailingBytes (count : Nat)
  deriving DecidableEq, Repr

/-! ## Writing -/

def textBytes (text : String) : List UInt8 :=
  text.toByteArray.data.toList

def writeBytes (bytes : List UInt8) : List UInt8 :=
  countBytes bytes.length ++ bytes

def writeText (text : String) : List UInt8 :=
  writeBytes (textBytes text)

def writeList {α : Type} (write : α → List UInt8) (items : List α) : List UInt8 :=
  countBytes items.length ++ items.flatMap write

def writeMain (main : Option UInt32) : List UInt8 :=
  u64Bytes (main.elim noEntrypointWide UInt32.toUInt64)

def writeFunction (function : FuncProto) : List UInt8 :=
  writeText function.name ++ (u64Bytes function.paramCount ++ (u64Bytes function.localCount ++
    ([function.execution.asByte] ++ writeBytes (encode function.code))))

def writeExportType (ty : ExportType) : List UInt8 :=
  [ty.tag] ++ u32Bytes ty.classIndex

def writeExport (exported : ModuleExport) : List UInt8 :=
  writeText exported.name ++ (writeText exported.kiraName ++ (u32Bytes exported.function ++
    (writeList writeExportType exported.params ++ writeExportType exported.result)))

def writeExports (exports : ExportTable) : List UInt8 :=
  writeList writeText exports.classes ++ writeList writeExport exports.functions

def writeSpec (spec : ForeignTypeSpec) : List UInt8 :=
  [spec.tag] ++ spec.aggregate?.elim [] u32Bytes

def writeSignature (signature : ForeignSignature) : List UInt8 :=
  writeList writeSpec signature.parameters ++ writeSpec signature.result

def writeImport (imported : ForeignImport) : List UInt8 :=
  writeText imported.library ++ (writeText imported.symbol ++
    ([imported.abi.tag] ++ writeSignature imported.signature))

def writeForeign (imports : List ForeignImport) : List UInt8 :=
  writeList writeImport imports

def nestedMemberTag : UInt8 := 0xff

def arrayMemberTag : UInt8 := 0xfe

def writeElement : ForeignArrayElement → List UInt8
  | .scalar ty => [ty.tag]
  | .aggregate id => [nestedMemberTag] ++ u32Bytes id

def writeMember : ForeignMember → List UInt8
  | .scalar ty => [ty.tag]
  | .aggregate id => [nestedMemberTag] ++ u32Bytes id
  | .array element count => [arrayMemberTag] ++ (writeElement element ++ u32Bytes count)

def writeAggregate (row : ForeignAggregate) : List UInt8 :=
  writeList writeMember row.members

def writeForeignAggregates (aggregates : ForeignAggregates) : List UInt8 :=
  writeList writeAggregate aggregates.entries

def writeCallback (callback : ForeignCallback) : List UInt8 :=
  u32Bytes callback.function ++ writeSignature callback.signature

def writeForeignCallbacks (callbacks : List ForeignCallback) : List UInt8 :=
  writeList writeCallback callbacks

def everyLocalCount : Format → UInt64
  | .legacy => 0xffffffff
  | .wide => 0xffffffffffffffff

def writeRelease : FrameRelease → List UInt8
  | .everyLocal => u64Bytes (everyLocalCount .wide)
  | .planned slots => writeList u64Bytes slots

def writeReleases (functions : List FuncProto) : List UInt8 :=
  writeList (fun function => writeRelease function.releases) functions

def writeRetained (imported : ForeignImport) : List UInt8 :=
  writeList (fun position => u32Bytes (UInt32.ofNat position))
    imported.signature.retainedPositions

def writeForeignRetained (imports : List ForeignImport) : List UInt8 :=
  writeList writeRetained imports

def writeConstants (constants : List UInt64) : List UInt8 :=
  writeList u64Bytes constants

def writeType (row : TypeDescriptorRow) : List UInt8 :=
  writeText row.name ++ (writeText row.package ++ (writeText row.kind ++
    (writeList u64Bytes row.arguments ++ writeList writeText row.conformances)))

def writeTypes (types : List TypeDescriptorRow) : List UInt8 :=
  writeList writeType types

namespace Module

/-! A section is written when it, or any section behind it, holds something:
a section is only unambiguous when every section it follows is there to be
read first. -/

def hasTypes (program : Module) : Bool :=
  !program.types.isEmpty

def hasConstants (program : Module) : Bool :=
  !program.constants.isEmpty || program.hasTypes

def hasRetained (program : Module) : Bool :=
  (program.foreignImports.any fun imported => imported.signature.anyRetained) ||
    program.hasConstants

def hasReleases (program : Module) : Bool :=
  (program.functions.any fun function => function.releases != .everyLocal) ||
    program.hasRetained

def hasCallbacks (program : Module) : Bool :=
  !program.foreignCallbacks.isEmpty || program.hasReleases

def hasAggregates (program : Module) : Bool :=
  !program.foreignAggregates.entries.isEmpty || program.hasCallbacks

def hasForeign (program : Module) : Bool :=
  !program.foreignImports.isEmpty || program.hasAggregates

def hasExports (program : Module) : Bool :=
  !program.exports.isEmpty || program.hasForeign

def headBytes (program : Module) : List UInt8 :=
  magic ++ (writeMain program.main ++
    (writeList writeText program.strings ++ writeList writeFunction program.functions))

/-- The trailing sections, each empty unless it is written. -/
def sectionBytes (program : Module) : List (List UInt8) :=
  [if program.hasExports then writeExports program.exports else [],
    if program.hasForeign then writeForeign program.foreignImports else [],
    if program.hasAggregates then writeForeignAggregates program.foreignAggregates else [],
    if program.hasCallbacks then writeForeignCallbacks program.foreignCallbacks else [],
    if program.hasReleases then writeReleases program.functions else [],
    if program.hasRetained then writeForeignRetained program.foreignImports else [],
    if program.hasConstants then writeConstants program.constants else [],
    if program.hasTypes then writeTypes program.types else []]

/-- The byte format of a module. -/
def toBytes (program : Module) : List UInt8 :=
  program.headBytes ++ program.sectionBytes.flatten

end Module

/-! ## Reading -/

abbrev ModuleReader := Reader ModuleDecodeError

def takeBytes (count : Nat) : ModuleReader (List UInt8) :=
  take (fun _ => .truncated) count

def takeByte : ModuleReader UInt8 :=
  byte fun _ => .truncated

def takeU16 : ModuleReader UInt16 :=
  u16 fun _ => .truncated

def takeU32 : ModuleReader UInt32 :=
  u32 fun _ => .truncated

def takeU64 : ModuleReader UInt64 :=
  u64 fun _ => .truncated

def readCount (format : Format) : ModuleReader UInt64 :=
  if format.isLegacy then UInt32.toUInt64 <$> takeU32 else takeU64

def readIndexCount (format : Format) (table : String) : ModuleReader UInt64 := do
  let count ← readCount format
  if count.toNat < 2 ^ 32 then pure count
  else fail (.indexTableTooLarge table count.toNat)

/-- The host's `usize` is 64 bits wide. -/
def usizeLimit : Nat := 2 ^ 64

def readLenPrefixed (format : Format) : ModuleReader (List UInt8) := do
  let len ← readCount format
  if len.toNat < usizeLimit then takeBytes len.toNat
  else fail (.lengthTooLarge len.toNat)

def readString (format : Format) : ModuleReader String := do
  let bytes ← readLenPrefixed format
  okOr (String.fromUTF8? ⟨bytes.toArray⟩) .invalidString

def readList {α : Type} (format : Format) (read : Nat → ModuleReader α) :
    ModuleReader (List α) := do
  let count ← readCount format
  many read 0 count.toNat

def readTable {α : Type} (format : Format) (table : String) (read : Nat → ModuleReader α) :
    ModuleReader (List α) := do
  let count ← readIndexCount format table
  many read 0 count.toNat

def readFormat : ModuleReader Format := do
  let opening ← takeBytes 4
  if opening = magic then pure .wide
  else if opening = legacyMagic then pure .legacy
  else fail .badMagic

def readMain (format : Format) : ModuleReader (Option UInt32) :=
  if format.isLegacy then do
    let index ← takeU32
    if index = noEntrypoint then pure none else pure (some index)
  else do
    let index ← takeU64
    if index = noEntrypointWide then pure none
    else if index.toNat < 2 ^ 32 then pure (some index.toUInt32)
    else fail (.entrypointTooLarge index.toNat)

def readShape (format : Format) : ModuleReader UInt64 :=
  if format.isLegacy then UInt16.toUInt64 <$> takeU16 else takeU64

def readCode (format : Format) : ModuleReader (List Instruction) := do
  let bytes ← readLenPrefixed format
  match decodeWithWidth bytes format.isLegacy with
  | .ok code => pure code
  | .error error => fail (.code error)

def readFunction (format : Format) : ModuleReader FuncProto := do
  let name ← readString format
  let paramCount ← readShape format
  let localCount ← readShape format
  let byte ← takeByte
  let execution ← okOr (Execution.fromByte byte) (.unknownExecution byte)
  let code ← readCode format
  pure ⟨name, paramCount, localCount, execution, code, .everyLocal⟩

def readExportType (name : String) : ModuleReader ExportType := do
  let tag ← takeByte
  let index ← takeU32
  okOr (ExportType.fromWire tag index) (.uncrossableExportType name tag)

def readExport (format : Format) : ModuleReader ModuleExport := do
  let name ← readString format
  let kiraName ← readString format
  let function ← takeU32
  let params ← readList format fun _ => readExportType name
  let result ← readExportType name
  pure ⟨name, kiraName, function, params, result⟩

def readExports (format : Format) : ModuleReader ExportTable := do
  let classes ← readTable format "export class" fun _ => readString format
  let functions ← readTable format "export" fun _ => readExport format
  pure ⟨classes, functions⟩

def readSpec (imported : String) : ModuleReader ForeignTypeSpec := do
  let tag ← takeByte
  if tag = ForeignTypeSpec.aggregateTag then .aggregate <$> takeU32
  else .scalar <$> okOr (ForeignType.fromTag tag) (.unknownForeignType imported tag)

def readSignature (format : Format) (named : String) : ModuleReader ForeignSignature := do
  let parameters ← readList format fun _ => readSpec named
  let result ← readSpec named
  pure (.new parameters result)

def readImport (format : Format) : ModuleReader ForeignImport := do
  let library ← readString format
  let symbol ← readString format
  let abiByte ← takeByte
  let abi ← okOr (ForeignAbi.fromTag abiByte) (.unknownForeignAbi symbol abiByte)
  let signature ← readSignature format symbol
  pure ⟨library, symbol, abi, signature⟩

def readForeign (format : Format) : ModuleReader (List ForeignImport) :=
  readTable format "foreign import" fun _ => readImport format

def readElement (index : Nat) : ModuleReader ForeignArrayElement := do
  let tag ← takeByte
  if tag = nestedMemberTag then .aggregate <$> takeU32
  else .scalar <$> okOr (ForeignType.fromTag tag) (.unknownForeignAggregateMember index tag)

def readMember (index : Nat) : ModuleReader ForeignMember := do
  let tag ← takeByte
  if tag = nestedMemberTag then .aggregate <$> takeU32
  else if tag = arrayMemberTag then do
    let element ← readElement index
    .array element <$> takeU32
  else .scalar <$> okOr (ForeignType.fromTag tag) (.unknownForeignAggregateMember index tag)

def readAggregate (format : Format) (index : Nat) : ModuleReader ForeignAggregate :=
  ForeignAggregate.mk <$> readList format fun _ => readMember index

/-- Read rows onto a table, each checked against the rows before it. -/
def readAggregateRows (format : Format) :
    (index count : Nat) → ForeignAggregates → ModuleReader ForeignAggregates
  | _, 0, aggregates => pure aggregates
  | index, count + 1, aggregates => do
    let row ← readAggregate format index
    match aggregates.push row with
    | .error source => fail (.malformedForeignAggregate index source)
    | .ok pushed => readAggregateRows format (index + 1) count pushed

def readAggregateTable (format : Format) : ModuleReader ForeignAggregates := do
  let count ← readIndexCount format "foreign aggregate"
  readAggregateRows format 0 count.toNat .empty

/-- The first aggregate a signature names that the table does not have. -/
def unresolved (aggregates : ForeignAggregates) (signature : ForeignSignature) :
    Option UInt32 :=
  signature.specs.findSome? fun spec =>
    spec.aggregate?.filter fun id => (aggregates.get id).isNone

def checkImports (aggregates : ForeignAggregates) : List ForeignImport → ModuleReader Unit
  | [] => pure ()
  | imported :: imports =>
    match unresolved aggregates imported.signature with
    | some id => fail (.unknownForeignAggregate imported.symbol id)
    | none => checkImports aggregates imports

def readCallback (format : Format) (aggregates : ForeignAggregates) (index : Nat) :
    ModuleReader ForeignCallback := do
  let function ← takeU32
  let signature ← readSignature format ("callback " ++ toString index)
  match unresolved aggregates signature with
  | some id => fail (.unknownCallbackAggregate index id)
  | none => pure ⟨function, signature⟩

def readForeignCallbacks (format : Format) (aggregates : ForeignAggregates) :
    ModuleReader (List ForeignCallback) :=
  readTable format "foreign callback" (readCallback format aggregates)

def readRelease (format : Format) : ModuleReader FrameRelease := do
  let count ← readCount format
  if count = everyLocalCount format then pure .everyLocal
  else .planned <$> many (fun _ => readShape format) 0 count.toNat

def readReleases (format : Format) (functions : List FuncProto) :
    ModuleReader (List FuncProto) := do
  let entries ← readCount format
  if entries.toNat ≠ functions.length then
    fail (.releaseCountMismatch functions.length entries.toNat)
  else
    each (fun function => do
      let releases ← readRelease format
      pure { function with releases := releases }) functions

def readPositions (symbol : String) : Nat → List Bool → ModuleReader (List Bool)
  | 0, retained => pure retained
  | count + 1, retained => do
    let position ← takeU32
    match retained[position.toNat]? with
    | none => fail (.retainedOutOfRange symbol position.toNat retained.length)
    | some true => fail (.duplicateRetainedPosition symbol position.toNat)
    | some false => readPositions symbol count (retained.set position.toNat true)

def readRetained (format : Format) (imported : ForeignImport) :
    ModuleReader ForeignImport := do
  let count ← readCount format
  let retained ← readPositions imported.symbol count.toNat
    (List.replicate imported.signature.parameters.length false)
  pure (imported.retainParameters retained)

def readForeignRetained (format : Format) (imports : List ForeignImport) :
    ModuleReader (List ForeignImport) := do
  let rows ← readIndexCount format "retained foreign parameter"
  if rows.toNat ≠ imports.length then
    fail (.retainedRowMismatch rows.toNat imports.length)
  else
    each (readRetained format) imports

def readConstant (functions : Nat) (slot : Nat) : ModuleReader UInt64 := do
  let init ← takeU64
  if functions ≤ init.toNat then fail (.constantInitOutOfRange slot init.toNat functions)
  else pure init

def readConstants (format : Format) (functions : Nat) : ModuleReader (List UInt64) :=
  readList format (readConstant functions)

def readType (format : Format) : ModuleReader TypeDescriptorRow := do
  let name ← readString format
  let package ← readString format
  let kind ← readString format
  let arguments ← readList format fun _ => takeU64
  let conformances ← readList format fun _ => readString format
  pure ⟨name, package, kind, arguments, conformances⟩

def readTypes (format : Format) : ModuleReader (List TypeDescriptorRow) :=
  readList format fun _ => readType format

def readHead (format : Format) :
    ModuleReader (Option UInt32 × List String × List FuncProto) := do
  let main ← readMain format
  let strings ← readList format fun _ => readString format
  let functions ← readList format fun _ => readFunction format
  pure (main, strings, functions)

/-- The trailing sections; each is empty when the input ended before it. -/
def readSections (format : Format) (main : Option UInt32) (strings : List String)
    (functions : List FuncProto) : ModuleReader Module := do
  let exports ← optional .default (readExports format)
  let imports ← optional [] (readForeign format)
  let aggregates ← optional .empty (readAggregateTable format)
  checkImports aggregates imports
  let callbacks ← optional [] (readForeignCallbacks format aggregates)
  let functions ← optional functions (readReleases format functions)
  let imports ← optional imports (readForeignRetained format imports)
  let constants ← optional [] (readConstants format functions.length)
  let types ← optional [] (readTypes format)
  let left ← remaining
  if left ≠ 0 then fail (.trailingBytes left)
  else pure ⟨functions, main, strings, exports, imports, aggregates, callbacks, constants, types⟩

def readModule : ModuleReader Module := do
  let format ← readFormat
  let (main, strings, functions) ← readHead format
  readSections format main strings functions

/-- A module from its byte format. -/
def Module.fromBytes (bytes : List UInt8) : Except ModuleDecodeError Module :=
  match readModule ⟨0, bytes⟩ with
  | .error error => .error error
  | .ok (program, _) => .ok program

end KiraVm
