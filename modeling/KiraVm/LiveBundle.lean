import KiraVm.LiveProtocol

/-!
# Live bundles

A bundle is a manifest and the bytes of the payloads it names.  The functions are those
of `bundle.rs`, `bundle/names.rs` and `store.rs`.  The hash of a payload is a parameter,
and a directory is a map from the paths of its files to their bytes, where reading and
writing fail only over a file that is not there.
-/

namespace KiraVm

namespace KiraLive

open ByteReader Reader

inductive BuildProfile
  | debug | profiler | release
  deriving DecidableEq, Repr

def BuildProfile.index : BuildProfile → Nat
  | .debug => 0
  | .profiler => 1
  | .release => 2

def BuildProfile.all : List BuildProfile :=
  [.debug, .profiler, .release]

inductive PayloadKind
  | vmBytecode | nativeLibrary | hybridManifest | asset | foreignAdapter | nativeDependency
  | foreignBindings
  deriving DecidableEq, Repr

def PayloadKind.asByte : PayloadKind → UInt8
  | .vmBytecode => 0
  | .nativeLibrary => 1
  | .hybridManifest => 2
  | .asset => 3
  | .foreignAdapter => 4
  | .nativeDependency => 5
  | .foreignBindings => 6

def PayloadKind.fromByte : UInt8 → Option PayloadKind
  | 0 => some .vmBytecode
  | 1 => some .nativeLibrary
  | 2 => some .hybridManifest
  | 3 => some .asset
  | 4 => some .foreignAdapter
  | 5 => some .nativeDependency
  | 6 => some .foreignBindings
  | _ => none

def hashLen : Nat := 32

/-- The digest of a payload's bytes. -/
def ContentHash : Type :=
  { bytes : List UInt8 // bytes.length = hashLen }

instance : DecidableEq ContentHash :=
  inferInstanceAs (DecidableEq { bytes : List UInt8 // bytes.length = hashLen })

structure PayloadEntry where
  name : String
  kind : PayloadKind
  hash : ContentHash
  size : UInt64
  deriving DecidableEq

/-- What a bundle was built for, its payloads, and which of them is started. -/
structure BundleManifest where
  runner : RunnerId
  profile : BuildProfile
  payloads : List PayloadEntry
  entry : UInt32
  deriving DecidableEq

inductive BundleDecodeError
  | badMagic
  | truncated
  | invalidString
  | unknownRunner (byte : UInt8)
  | unknownProfile (byte : UInt8)
  | unknownPayloadKind (byte : UInt8)
  | entryOutOfRange (entry : UInt32) (count : Nat)
  | noPayloads
  | duplicatePayloadName (name : String)
  | unsafePayloadName (name : String)
  deriving DecidableEq, Repr

/-! ## Names -/

def reservedDeviceNames : List String :=
  ["CON", "PRN", "AUX", "NUL", "COM1", "COM2", "COM3", "COM4", "COM5", "COM6", "COM7", "COM8",
    "COM9", "LPT1", "LPT2", "LPT3", "LPT4", "LPT5", "LPT6", "LPT7", "LPT8", "LPT9"]

/-- The reserved names hold no small letter, so a stem is compared in capitals. -/
def isReservedDeviceName (name : String) : Bool :=
  let stem := name.toList.takeWhile (· ≠ '.')
  reservedDeviceNames.any fun reserved => stem.map Char.toUpper == reserved.toList

def isPlainFileName (name : String) : Bool :=
  name != "" && name != "." && name != ".." && !name.toList.contains '/' &&
    !name.toList.contains '\\' && !name.toList.contains '\x00' && !name.toList.contains ':' &&
    !isReservedDeviceName name

/-! ## The manifest's bytes -/

/-- The bytes of `KLB1`. -/
def bundleMagic : List UInt8 := [75, 76, 66, 49]

def writePayload (payload : PayloadEntry) : List UInt8 :=
  writeString payload.name ++
    (payload.kind.asByte :: (payload.hash.val ++ u64Bytes payload.size))

def BundleManifest.toBytes (manifest : BundleManifest) : List UInt8 :=
  bundleMagic ++ (UInt8.ofNat manifest.runner.index :: UInt8.ofNat manifest.profile.index ::
    (u32Bytes manifest.entry ++ shortList writePayload manifest.payloads))

abbrev ManifestReader : Type → Type := Reader BundleDecodeError

/-- The next bytes of a manifest, which may be cut. -/
def takeManifest (count : Nat) : ManifestReader (List UInt8) :=
  take (fun _ => .truncated) count

def readManifestByte : ManifestReader UInt8 :=
  byte fun _ => .truncated

def readManifestString : ManifestReader String := do
  let bytes ← Reader.shortBytes fun _ => .truncated
  okOr (String.fromUTF8? ⟨bytes.toArray⟩) .invalidString

def readHash : ManifestReader ContentHash := do
  let digest ← takeManifest hashLen
  if sized : digest.length = hashLen then pure ⟨digest, sized⟩ else fail .truncated

def readPayloads : (count : Nat) → (seen : List String) → ManifestReader (List PayloadEntry)
  | 0, _ => pure []
  | count + 1, seen => do
    let name ← readManifestString
    if !isPlainFileName name then fail (.unsafePayloadName name)
    else if name ∈ seen then fail (.duplicatePayloadName name)
    else
      let kindRaw ← readManifestByte
      let kind ← okOr (PayloadKind.fromByte kindRaw) (.unknownPayloadKind kindRaw)
      let hash ← readHash
      let size ← u64 fun _ => .truncated
      let payloads ← readPayloads count (name :: seen)
      pure (⟨name, kind, hash, size⟩ :: payloads)

def readManifest : ManifestReader BundleManifest := do
  let opening ← takeManifest 4
  if opening ≠ bundleMagic then fail .badMagic
  else
    let runnerRaw ← readManifestByte
    let runner ← okOr RunnerId.all[runnerRaw.toNat]? (.unknownRunner runnerRaw)
    let profileRaw ← readManifestByte
    let profile ← okOr BuildProfile.all[profileRaw.toNat]? (.unknownProfile profileRaw)
    let entry ← u32 fun _ => .truncated
    let payloadCount ← u32 fun _ => .truncated
    let payloads ← readPayloads payloadCount.toNat []
    if payloads.isEmpty then fail .noPayloads
    else if entry.toNat ≥ payloads.length then fail (.entryOutOfRange entry payloads.length)
    else pure ⟨runner, profile, payloads, entry⟩

/-- Bytes behind the last payload are not looked at. -/
def BundleManifest.fromBytes (bytes : List UInt8) : Except BundleDecodeError BundleManifest :=
  Prod.fst <$> readManifest ⟨0, bytes⟩

/-! ## Bundles -/

/-- A manifest and the bytes of each payload, in the same order. -/
structure Bundle where
  manifest : BundleManifest
  payloads : List (List UInt8)
  deriving DecidableEq

inductive BundleError
  | io (path : String)
  | manifest (path : String) (source : BundleDecodeError)
  | hashMismatch (name : String) (expected found : ContentHash)
  | sizeMismatch (name : String) (expected found : UInt64)
  | missingPayload (name : String)
  | invalid (source : BundleDecodeError)
  deriving DecidableEq

/-- A payload on its way into a bundle, before it has been hashed. -/
structure NamedPayload where
  name : String
  kind : PayloadKind
  bytes : List UInt8
  deriving DecidableEq, Repr

def firstRepeated : (seen names : List String) → Option String
  | _, [] => none
  | seen, name :: names => if name ∈ seen then some name else firstRepeated (name :: seen) names

/-- The files of a directory, by their paths below it. -/
abbrev Directory : Type := String → Option (List UInt8)

def manifestFile : String := "manifest.klb"

def payloadPath (name : String) : String :=
  "payloads/" ++ name

section Hashing

variable (contentHash : List UInt8 → ContentHash)

def Bundle.build (runner : RunnerId) (profile : BuildProfile) (payloads : List NamedPayload)
    (entry : UInt32) : Except BundleError Bundle :=
  if payloads.isEmpty then .error (.invalid .noPayloads)
  else if entry.toNat ≥ payloads.length then
    .error (.invalid (.entryOutOfRange entry payloads.length))
  else
    match payloads.find? fun payload => !isPlainFileName payload.name with
    | some payload => .error (.invalid (.unsafePayloadName payload.name))
    | none =>
      match firstRepeated [] (payloads.map NamedPayload.name) with
      | some name => .error (.invalid (.duplicatePayloadName name))
      | none =>
        let entries := payloads.map fun payload =>
          { name := payload.name
            kind := payload.kind
            hash := contentHash payload.bytes
            size := UInt64.ofNat payload.bytes.length : PayloadEntry }
        .ok ⟨⟨runner, profile, entries, entry⟩, payloads.map NamedPayload.bytes⟩

def verify (entry : PayloadEntry) (bytes : List UInt8) : Except BundleError Unit :=
  if UInt64.ofNat bytes.length ≠ entry.size then
    .error (.sizeMismatch entry.name entry.size (UInt64.ofNat bytes.length))
  else if contentHash bytes ≠ entry.hash then
    .error (.hashMismatch entry.name entry.hash (contentHash bytes))
  else .ok ()

def receiveAll : List (PayloadEntry × Option (List UInt8)) → Except BundleError (List (List UInt8))
  | [] => .ok []
  | (entry, none) :: _ => .error (.missingPayload entry.name)
  | (entry, some received) :: rest => do
    verify contentHash entry received
    let bytes ← receiveAll rest
    .ok (received :: bytes)

/-- Put a bundle together from a manifest and what was received for it.  Of the manifest
only the entry is checked. -/
def Bundle.assemble (manifest : BundleManifest) (payloads : List (Option (List UInt8))) :
    Except BundleError Bundle :=
  if manifest.entry.toNat ≥ manifest.payloads.length then
    .error (.invalid (.entryOutOfRange manifest.entry manifest.payloads.length))
  else do
    let resized := (payloads ++ List.replicate manifest.payloads.length none).take
      manifest.payloads.length
    let bytes ← receiveAll contentHash (manifest.payloads.zip resized)
    .ok ⟨manifest, bytes⟩

def readFiles (directory : Directory) : List PayloadEntry → Except BundleError (List (List UInt8))
  | [] => .ok []
  | entry :: entries => do
    match directory (payloadPath entry.name) with
    | none => .error (.io (payloadPath entry.name))
    | some bytes =>
      verify contentHash entry bytes
      let files ← readFiles directory entries
      .ok (bytes :: files)

def Bundle.read (directory : Directory) : Except BundleError Bundle :=
  match directory manifestFile with
  | none => .error (.io manifestFile)
  | some manifestBytes =>
    match BundleManifest.fromBytes manifestBytes with
    | .error source => .error (.manifest manifestFile source)
    | .ok manifest => do
      let payloads ← readFiles contentHash directory manifest.payloads
      .ok ⟨manifest, payloads⟩

end Hashing

/-- A directory with one more file, or another one in its place. -/
def Directory.write (directory : Directory) (path : String) (bytes : List UInt8) : Directory :=
  fun other => if other = path then some bytes else directory other

def Bundle.write (bundle : Bundle) (directory : Directory) : Directory :=
  ((bundle.manifest.payloads.zip bundle.payloads).foldl
    (fun directory file => directory.write (payloadPath file.1.name) file.2) directory).write
      manifestFile bundle.manifest.toBytes

/-- The bytes of the payload with a name: those at the place of the first entry that has
it. -/
def Bundle.payloadByName (bundle : Bundle) (name : String) : Option (List UInt8) := do
  let index ← bundle.manifest.payloads.findIdx? fun entry => entry.name == name
  bundle.payloads[index]?

end KiraLive

end KiraVm
