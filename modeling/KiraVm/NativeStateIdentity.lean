import KiraVm.FoundationText
import KiraVm.SlotCrossing

/-!
# The identity of a callback-state type

A value of callback state carries the identity of its type across a rebuild.  The identity
of a shape is a hash of what a walk of the type table writes: names and the types of fields
and payloads, never the row of a table.  A row that is open is written as recursive.
-/

namespace KiraVm.KiraIr

/-! ## Packages and nominal identity -/

structure PackageIdentity where
  name : String
  version : String
  dependencyInstance : String
  deriving DecidableEq, Repr

def PackageIdentity.key (package : PackageIdentity) : String :=
  package.name ++ "@" ++ package.version ++ "#" ++ package.dependencyInstance

inductive NominalKind
  | struct | classType | enum | distinct | constructFamily | traitExistential | functionType
  deriving DecidableEq, Repr

/-- Where a type was declared, what as, and what it was instantiated with. -/
structure NominalIdentity where
  package : Option PackageIdentity
  declaredIn : String
  name : String
  kind : NominalKind
  arguments : List Ty
  deriving DecidableEq, Repr

def NominalIdentity.declarationKey (identity : NominalIdentity) : String :=
  (identity.package.map PackageIdentity.key).getD "" ++ "::" ++ identity.declaredIn ++ "::" ++
    identity.name

/-- The type table with the packages the program was assembled from. -/
structure PackagedTable extends TypeTable where
  packages : List PackageIdentity

def PackagedTable.empty : PackagedTable :=
  ⟨.empty, []⟩

/-- Record a package.  A name already recorded keeps its first identity. -/
def PackagedTable.declarePackage (table : PackagedTable) (package : PackageIdentity) :
    PackagedTable :=
  if table.packages.any (fun known => known.name = package.name) then table
  else { table with packages := table.packages ++ [package] }

def PackagedTable.package (table : PackagedTable) (name : String) : PackageIdentity :=
  (table.packages.find? fun package => package.name = name).getD ⟨name, "", ""⟩

/-- What stands before the first opening angle of a name. -/
def templateName (name : String) : String :=
  String.ofList (name.toList.takeWhile (· ≠ '<'))

def StructRow.kind (row : StructRow) : NominalKind :=
  match row.origin with
  | .functionType => .functionType
  | .declared => .struct

def EnumRow.kind (row : EnumRow) : NominalKind :=
  if "Any ".toList.isPrefixOf row.definition.name.toList then .constructFamily
  else if "some ".toList.isPrefixOf row.definition.name.toList then .traitExistential
  else .enum

/-- The name of an instance's row carries the arguments, its identity keeps them apart. -/
def PackagedTable.nominal (table : PackagedTable) (owner : Option String)
    (declaredIn name : String) (kind : NominalKind) (instantiation : Option Instantiation) :
    NominalIdentity where
  package := owner.map table.package
  declaredIn := declaredIn
  name := if instantiation.isSome then templateName name else name
  kind := kind
  arguments := (instantiation.map Instantiation.arguments).getD []

def PackagedTable.identity (table : PackagedTable) : Ty → Option NominalIdentity
  | .struct id =>
    (table.structs[id]?).map fun row =>
      table.nominal row.owner row.declaredIn row.definition.name row.kind row.instantiation
  | .enum id =>
    (table.enums[id]?).map fun row =>
      table.nominal row.owner row.declaredIn row.definition.name row.kind row.instantiation
  | .distinct id =>
    (table.distincts.rows[id]?).map fun row =>
      table.nominal row.owner row.declaredIn row.definition.name .distinct none
  | _ => none

/-! ## Names of types -/

def IntSpelling.name : IntWidth → String
  | .plain => "Int"
  | .i8 => "I8"
  | .i16 => "I16"
  | .i32 => "I32"
  | .u8 => "U8"
  | .u16 => "U16"
  | .u32 => "U32"
  | .u64 => "U64"

def FloatSpelling.name : FloatSpelling → String
  | .plain => "Float"
  | .f32 => "F32"

def TaskResult.valueType : TaskResult → Ty
  | .int spelling => .int spelling
  | .float spelling => .float spelling
  | .bool => .bool
  | .string => .string
  | .number => .number
  | .struct id => .struct id
  | .array id => .array id
  | .enum id => .enum id
  | .distinct id => .distinct id
  | .rawPtr => .rawPtr
  | .foreignPtr id => .foreignPtr id
  | .any => .any

def TaskResult.label : TaskResult → String
  | .int _ => "Int"
  | .float _ => "Float"
  | .bool => "Bool"
  | .string => "String"
  | .number => "Number"
  | .struct _ => "Struct"
  | .array _ => "Array"
  | .enum _ => "Enum"
  | .distinct _ => "Distinct"
  | .rawPtr | .foreignPtr _ => "RawPtr"
  | .any => "Any"

def TypeTable.typeName (table : TypeTable) : Nat → Ty → Option String
  | 0, _ => none
  | steps + 1, ty =>
    match ty with
    | .int spelling => some (IntSpelling.name spelling)
    | .float spelling => some spelling.name
    | .bool => some "Bool"
    | .string => some "String"
    | .number => some "Number"
    | .any => some "Any"
    | .void => some "Void"
    | .rawPtr => some "RawPtr"
    | .cString => some "CString"
    | .runtimeType => some "Type"
    | .cBlock => some "<C storage>"
    | .nativeState id =>
      match table.nativeStates.rows[id]? with
      | some target => (table.typeName steps target).map fun name => "NativeState<" ++ name ++ ">"
      | none => some "<unknown native state>"
    | .task result => some ("Task<" ++ result.label ++ ">")
    | .mainThreadTask result =>
      (table.typeName steps result.valueType).map fun name => "MainThreadTask<" ++ name ++ ">"
    | .error => some "<error>"
    | .struct id =>
      match table.structs[id]? with
      | some row => some row.definition.name
      | none => some "<unknown struct>"
    | .array id =>
      match table.arrays.rows[id]? with
      | some element => (table.typeName steps element).map fun name => "[" ++ name ++ "]"
      | none => some "<unknown array>"
    | .enum id =>
      match table.enums[id]? with
      | some row => some row.definition.name
      | none => some "<unknown enum>"
    | .distinct id =>
      match table.distincts.rows[id]? with
      | some row => some row.definition.name
      | none => some "<unknown distinct type>"
    | .foreignPtr id =>
      match table.foreignPtrs[id]? with
      | some target =>
        (table.typeName steps (.struct target)).map fun name => "pointer to " ++ name
      | none => some "<unknown foreign pointer>"
    | .cell id =>
      match table.cells.rows[id]? with
      | some inner => (table.typeName steps inner).map fun name => "<captured " ++ name ++ ">"
      | none => some "<unknown capture cell>"

/-- The arguments of an instance between angles, after its declaration. -/
def argumentsText (keys : List String) : String :=
  if keys.isEmpty then "" else "<" ++ String.intercalate "," keys ++ ">"

def PackagedTable.identityKey (table : PackagedTable) : Nat → Ty → Option String
  | 0, _ => none
  | steps + 1, ty =>
    match table.identity ty with
    | some identity =>
      (identity.arguments.mapM (table.identityKey steps)).map fun keys =>
        identity.declarationKey ++ argumentsText keys
    | none =>
      match ty with
      | .array id =>
        match table.arrays.rows[id]? with
        | some element => (table.identityKey steps element).map fun key => "[" ++ key ++ "]"
        | none => table.typeName (steps + 1) ty
      | _ => table.typeName (steps + 1) ty

/-! ## The walk -/

/-- What the hash takes for one item: its bytes and a mark that closes it. -/
def mixBytes (bytes : List UInt8) : List UInt8 :=
  bytes ++ [0xff]

def mixText (text : String) : List UInt8 :=
  mixBytes (textBytes text)

def mixWord (value : UInt64) : List UInt8 :=
  mixBytes (ByteReader.u64Bytes value)

def mixField (deeper : Ty → Option (List UInt8)) (field : FieldDef) : Option (List UInt8) :=
  (deeper field.ty).map fun shape =>
    mixText field.name ++ mixWord (if field.isMutable then 1 else 0) ++ shape

def mixVariant (deeper : Ty → Option (List UInt8)) (variant : VariantDef) :
    Option (List UInt8) :=
  match variant.payload with
  | some payload =>
    (deeper payload).map fun shape => mixText variant.name ++ mixText "payload" ++ shape
  | none => some (mixText variant.name ++ mixText "no-payload")

/-- One level of the walk, over the keys and the levels below.  The open rows are those the
walk is inside of: each is taken back when its shape is done. -/
def PackagedTable.mixShape (table : PackagedTable) (identityKey : Ty → Option String)
    (deeper : Ty → List (Nat × Nat) → Option (List UInt8)) (ty : Ty)
    (visiting : List (Nat × Nat)) : Option (List UInt8) :=
  match ty with
  | .int spelling => some (mixText "int" ++ mixWord (intCode spelling))
  | .float spelling => some (mixText "float" ++ mixWord (floatCode spelling))
  | .bool => some (mixText "bool")
  | .string => some (mixText "string")
  | .number => some (mixText "number")
  | .rawPtr | .foreignPtr _ => some (mixText "raw-ptr")
  | .runtimeType => some (mixText "type")
  | .distinct id =>
    match table.distincts.rows[id]? with
    | some row =>
      (identityKey ty).bind fun key =>
        (deeper row.definition.representation visiting).map fun shape =>
          mixText "distinct" ++ mixText key ++ shape
    | none => some (mixText "distinct" ++ mixText "missing-distinct")
  | .struct id =>
    match table.structs[id]? with
    | none => some (mixText "missing-struct")
    | some row =>
      (identityKey ty).bind fun key =>
        -- The captures of a function type are no part of its identity.
        if row.origin = .functionType then some (mixText "struct" ++ mixText key)
        else if (5, id) ∈ visiting then
          some (mixText "struct" ++ mixText key ++ mixText "recursive")
        else
          (row.definition.fields.mapM fun field =>
            mixField (fun inner => deeper inner ((5, id) :: visiting)) field).map
              fun shapes => mixText "struct" ++ mixText key ++ shapes.flatten
  | .array id =>
    match table.arrays.rows[id]? with
    | some element => (deeper element visiting).map fun shape => mixText "array" ++ shape
    | none => some (mixText "array" ++ mixText "missing-array")
  | .enum id =>
    match table.enums[id]? with
    | none => some (mixText "missing-enum")
    | some row =>
      (identityKey ty).bind fun key =>
        if (7, id) ∈ visiting then
          some (mixText "enum" ++ mixText key ++ mixText "recursive")
        else
          (row.definition.variants.mapM fun variant =>
            mixVariant (fun inner => deeper inner ((7, id) :: visiting)) variant).map
              fun shapes => mixText "enum" ++ mixText key ++ shapes.flatten
  | .cell id =>
    if (9, id) ∈ visiting then some (mixText "cell" ++ mixText "recursive")
    else
      match table.cells.rows[id]? with
      | some inner =>
        (deeper inner ((9, id) :: visiting)).map fun shape => mixText "cell" ++ shape
      | none => some (mixText "cell" ++ mixText "missing-cell")
  | .nativeState id =>
    match table.nativeStates.rows[id]? with
    | some target => (deeper target visiting).map fun shape => mixText "native-state" ++ shape
    | none => some (mixText "native-state" ++ mixText "missing-native-state")
  | .void | .error | .cString | .cBlock | .task _ | .mainThreadTask _ | .any =>
    some (mixText "unsupported")

/-- The bytes the walk feeds to the hash, where so many steps are enough. -/
def PackagedTable.mixNativeStateType (table : PackagedTable) :
    Nat → Ty → List (Nat × Nat) → Option (List UInt8)
  | 0, _, _ => none
  | steps + 1, ty, visiting =>
    table.mixShape (table.identityKey steps) (table.mixNativeStateType steps) ty visiting

/-- The hash the walk feeds, byte by byte. -/
def mixHash (bytes : List UInt8) : UInt64 :=
  bytes.foldl (fun hash byte => (hash ^^^ byte.toUInt64) * 0x00000100000001b3) 0xcbf29ce484222325

/-- The hash of the walk's bytes, which is never zero. -/
def PackagedTable.nativeStateFingerprint (hash : List UInt8 → UInt64) (table : PackagedTable)
    (steps : Nat) (ty : Ty) : Option UInt64 :=
  (table.mixNativeStateType steps ty []).map fun bytes =>
    if hash bytes = 0 then 1 else hash bytes

def PackagedTable.nativeStateTypeId (hash : List UInt8 → UInt64) (table : PackagedTable)
    (steps : Nat) (ty : Ty) : Option (Option UInt64) :=
  match ty with
  | .struct _ | .array _ | .enum _ | .cell _ | .distinct _ =>
    (table.nativeStateFingerprint hash steps ty).map fun fingerprint =>
      KiraIr.nativeStateTypeId (fun _ => fingerprint) ty
  | _ => some (KiraIr.nativeStateTypeId (fun _ => 0) ty)

end KiraVm.KiraIr
