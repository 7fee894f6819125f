import KiraVm.ColouredSearch
import KiraVm.Lockfile

/-!
# Package resolution

Path dependencies are followed breadth first from the root package, by canonical
directory.  Cycles are then found by colouring.  The file system and the readers of
manifest texts are parameters.
-/

namespace KiraVm

namespace Packages

open KiraLock (Path DependencySource ResolvedDependency ResolvedPackage LockFile LockfileStatus
  LockSnapshot)
open ColouredSearch (VisitState)

/-! ## Manifests -/

inductive PackageKind
  | app
  | library
  deriving DecidableEq, Repr

def PackageKind.label : PackageKind → String
  | .app => "app"
  | .library => "library"

structure DependencySpec where
  name : String
  source : DependencySource
  deriving DecidableEq, Repr

structure ProjectManifest where
  name : String
  version : String
  kind : PackageKind
  kiraVersion : String
  moduleRoot : Option String
  dependencies : List DependencySpec
  deriving DecidableEq, Repr

/-- Why a file could not be read. -/
structure ReadError where
  notFound : Bool
  message : String
  deriving DecidableEq, Repr

structure FileSystem where
  canonicalize : Path → Option Path
  isDir : Path → Bool
  isFile : Path → Bool
  readToString : Path → Except ReadError String
  join : Path → String → Path

/-- The readers of the two kinds of manifest. -/
structure ManifestReaders where
  loadDeclaration : String → Except String ProjectManifest
  loadLegacyManifest : String → Except String ProjectManifest

def manifestFileNames : List String :=
  ["package.kira", "kira.toml", "project.toml", "Kira.toml"]

def fileName (path : Path) : Option String :=
  match path.components.getLast? with
  | some (.normal text) => some text
  | _ => none

inductive Diagnostic
  | conflictingPackageIdentity (name first second : String)
  | cyclicPackageDependency (cycle : List String)
  | duplicateDependencyDeclaration (name : String)
  | missingDependencyPackage (name resolvedPath : String)
  | unavailableGitDependency (name url : String) (rev tag : Option String)
  | unavailableRegistryDependency (name version : String)
  | unreadableDependencyManifest (name resolvedPath reason : String)
  | lockfileDrift (description : String)
  deriving DecidableEq, Repr

inductive ResolveError
  | rootDirectory (path : Path)
  | rootManifestRead (path : Path)
  | rootManifestInvalid (path : Path) (reason : String)
  | rootLegacyManifestInvalid (path : Path) (message : String)
  deriving DecidableEq, Repr

structure PendingDependency where
  parent : Nat
  name : String
  candidateDir : Path
  deriving DecidableEq, Repr

structure ResolvedPackageGraph where
  packages : List ResolvedPackage
  diagnostics : List Diagnostic
  lockfile : LockfileStatus

variable (fs : FileSystem) (readers : ManifestReaders)

def findManifest (root : Path) : Option Path :=
  (manifestFileNames.map (fs.join root)).find? fs.isFile

inductive ManifestLoadError
  | declaration (reason : String)
  | legacy (message : String)
  deriving DecidableEq, Repr

def loadManifestText (path : Path) (text : String) : Except ManifestLoadError ProjectManifest :=
  if fileName path = some "package.kira" then
    (readers.loadDeclaration text).mapError .declaration
  else
    (readers.loadLegacyManifest text).mapError .legacy

def resolvedPackage (manifest : ProjectManifest) (rootDir : Path)
    (dependencies : List ResolvedDependency) : ResolvedPackage where
  name := manifest.name
  version := manifest.version
  kind := manifest.kind.label
  kiraVersion := manifest.kiraVersion
  moduleRoot := manifest.moduleRoot.getD manifest.name
  rootDir := rootDir
  dependencies := dependencies

def prepareSource (parent : Nat) (packageDir : Path) (dependency : DependencySpec) :
    List PendingDependency × List Diagnostic :=
  match dependency.source with
  | .path path => ([⟨parent, dependency.name, fs.join packageDir path⟩], [])
  | .registry version => ([], [.unavailableRegistryDependency dependency.name version])
  | .git url rev tag => ([], [.unavailableGitDependency dependency.name url rev tag])

structure Prepared where
  names : List ResolvedDependency
  pending : List PendingDependency
  diagnostics : List Diagnostic

def prepareDependencies (parent : Nat) (packageDir : Path) :
    (seen : List String) → List DependencySpec → Prepared
  | _, [] => ⟨[], [], []⟩
  | seen, dependency :: dependencies =>
    if dependency.name ∈ seen then
      let rest := prepareDependencies parent packageDir seen dependencies
      { rest with
        diagnostics := .duplicateDependencyDeclaration dependency.name :: rest.diagnostics }
    else
      let (pending, diagnostics) := prepareSource fs parent packageDir dependency
      let rest := prepareDependencies parent packageDir (dependency.name :: seen) dependencies
      { names := ⟨dependency.name, dependency.source⟩ :: rest.names
        pending := pending ++ rest.pending
        diagnostics := diagnostics ++ rest.diagnostics }

def checkExpectedIdentity (expectedName : String) (package : ResolvedPackage)
    (canonicalDir : Path) : List Diagnostic :=
  if package.name = expectedName ∧ package.moduleRoot = expectedName then []
  else
    [.conflictingPackageIdentity expectedName
      ("dependency `" ++ expectedName ++ "` at " ++ canonicalDir.display)
      ("manifest package `" ++ package.name ++ "` with module root `" ++ package.moduleRoot ++
        "`")]

/-- The first directory of each name. -/
abbrev NameRoots : Type := List (String × Path)

def recordNameRoot (name : String) (canonicalDir : Path) (names : NameRoots) :
    NameRoots × List Diagnostic :=
  match names.lookup name with
  | some firstDir =>
    if firstDir ≠ canonicalDir then
      (names, [.conflictingPackageIdentity name firstDir.display canonicalDir.display])
    else
      (names, [])
  | none => ((name, canonicalDir) :: names, [])

def pushEdge (adjacency : List (List Nat)) (parent child : Nat) : List (List Nat) :=
  adjacency.modify parent fun edges => edges ++ [child]

/-! ## Discovery -/

structure Resolution where
  packages : List ResolvedPackage
  adjacency : List (List Nat)
  directories : List (Path × Nat)
  names : NameRoots
  pending : List PendingDependency
  diagnostics : List Diagnostic

def canonicalDirectory (candidate : Path) : Option Path :=
  match fs.canonicalize candidate with
  | some path => if fs.isDir path then some path else none
  | none => none

def loadDependency (name : String) (canonicalDir : Path) : Except Diagnostic ProjectManifest :=
  match findManifest fs canonicalDir with
  | none => .error (.missingDependencyPackage name canonicalDir.display)
  | some path =>
    match fs.readToString path with
    | .error error =>
      .error (.unreadableDependencyManifest name canonicalDir.display error.message)
    | .ok text =>
      match loadManifestText readers path text with
      | .ok manifest => .ok manifest
      | .error (.declaration reason) =>
        .error (.unreadableDependencyManifest name canonicalDir.display reason)
      | .error (.legacy message) =>
        .error (.unreadableDependencyManifest name canonicalDir.display message)

def linkKnown (dependency : PendingDependency) (canonicalDir : Path) (packageIndex : Nat)
    (state : Resolution) : Resolution :=
  let identity := match state.packages[packageIndex]? with
    | some package => checkExpectedIdentity dependency.name package canonicalDir
    | none => []
  let (names, conflicts) := recordNameRoot dependency.name canonicalDir state.names
  { state with
    adjacency := pushEdge state.adjacency dependency.parent packageIndex
    names := names
    diagnostics := state.diagnostics ++ identity ++ conflicts }

def addPackage (dependency : PendingDependency) (canonicalDir : Path)
    (manifest : ProjectManifest) (state : Resolution) : Resolution :=
  let packageIndex := state.packages.length
  let prepared := prepareDependencies fs packageIndex canonicalDir [] manifest.dependencies
  let package := resolvedPackage manifest canonicalDir prepared.names
  let identity := checkExpectedIdentity dependency.name package canonicalDir
  let (names, conflicts) := recordNameRoot dependency.name canonicalDir state.names
  let (names, more) :=
    if package.name ≠ dependency.name then recordNameRoot package.name canonicalDir names
    else (names, [])
  { packages := state.packages ++ [package]
    adjacency := pushEdge (state.adjacency ++ [[]]) dependency.parent packageIndex
    directories := (canonicalDir, packageIndex) :: state.directories
    names := names
    pending := state.pending ++ prepared.pending
    diagnostics := state.diagnostics ++ prepared.diagnostics ++ identity ++ conflicts ++ more }

def Resolution.report (state : Resolution) (diagnostic : Diagnostic) : Resolution :=
  { state with diagnostics := state.diagnostics ++ [diagnostic] }

def resolveDependency (dependency : PendingDependency) (state : Resolution) : Resolution :=
  match canonicalDirectory fs dependency.candidateDir with
  | none =>
    state.report (.missingDependencyPackage dependency.name dependency.candidateDir.display)
  | some canonicalDir =>
    match state.directories.lookup canonicalDir with
    | some packageIndex => linkKnown dependency canonicalDir packageIndex state
    | none =>
      match loadDependency fs readers dependency.name canonicalDir with
      | .error diagnostic => state.report diagnostic
      | .ok manifest => addPackage fs dependency canonicalDir manifest state

def resolvePending : Nat → Resolution → Option Resolution
  | steps, state =>
    match state.pending with
    | [] => some state
    | dependency :: pending =>
      match steps with
      | 0 => none
      | steps + 1 =>
        resolvePending steps
          (resolveDependency fs readers dependency { state with pending := pending })

/-! ## Cycles -/

def cycleDiagnostic (packages : List ResolvedPackage) (path : List Nat) (dependency : Nat) :
    Diagnostic :=
  let cycle := (path.filterMap (packages[·]?)).map ResolvedPackage.name
  match packages[dependency]? with
  | some package => .cyclicPackageDependency (cycle ++ [package.name])
  | none => .cyclicPackageDependency cycle

/-- A visit goes no deeper than there are packages. -/
def diagnoseCycles (packages : List ResolvedPackage) (adjacency : List (List Nat))
    (diagnostics : List Diagnostic) : Option (List Diagnostic) :=
  (ColouredSearch.visitAll adjacency (cycleDiagnostic packages) packages.length
    (List.range packages.length) (ColouredSearch.start packages.length diagnostics)).map
      ColouredSearch.Search.reports

/-! ## The root -/

def loadRoot (canonicalRoot : Path) : Except ResolveError ProjectManifest :=
  let manifestPath := (findManifest fs canonicalRoot).getD (fs.join canonicalRoot "package.kira")
  match fs.readToString manifestPath with
  | .error _ => .error (.rootManifestRead manifestPath)
  | .ok text =>
    match loadManifestText readers manifestPath text with
    | .ok manifest => .ok manifest
    | .error (.declaration reason) => .error (.rootManifestInvalid manifestPath reason)
    | .error (.legacy message) => .error (.rootLegacyManifestInvalid manifestPath message)

def startResolution (canonicalRoot : Path) (manifest : ProjectManifest) : Resolution :=
  let prepared := prepareDependencies fs 0 canonicalRoot [] manifest.dependencies
  let package := resolvedPackage manifest canonicalRoot prepared.names
  { packages := [package]
    adjacency := [[]]
    directories := [(canonicalRoot, 0)]
    names := [(package.name, canonicalRoot)]
    pending := prepared.pending
    diagnostics := prepared.diagnostics }

def readLockfile (canonicalRoot : Path) : LockFile :=
  match fs.readToString (fs.join canonicalRoot "kira.lock") with
  | .ok text => .text text
  | .error error => if error.notFound then .absent else .unreadable error.message

variable (fromStr : String → Except String LockSnapshot)

def finish (canonicalRoot : Path) (state : Resolution) : Option ResolvedPackageGraph := do
  let diagnostics ← diagnoseCycles state.packages state.adjacency state.diagnostics
  let (lockfile, drift) :=
    KiraLock.check fromStr (readLockfile fs canonicalRoot) state.packages
  pure
    { packages := state.packages
      diagnostics := diagnostics ++ drift.map .lockfileDrift
      lockfile := lockfile }

def resolve (steps : Nat) (rootDir : Path) : Option (Except ResolveError ResolvedPackageGraph) :=
  match fs.canonicalize rootDir with
  | none => some (.error (.rootDirectory rootDir))
  | some canonicalRoot =>
    match loadRoot fs readers canonicalRoot with
    | .error error => some (.error error)
    | .ok manifest => do
      let state ← resolvePending fs readers steps (startResolution fs canonicalRoot manifest)
      let graph ← finish fs fromStr canonicalRoot state
      pure (.ok graph)

end Packages

end KiraVm
