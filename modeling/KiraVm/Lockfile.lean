import KiraVm.TomlText
import Mathlib.Data.Finset.Sort
import Mathlib.Data.String.Basic

/-!
# Lockfiles

How `kira.lock` is rendered from a resolved package graph, when it is written, and how one on
disk is checked against a graph.  The functions are those of `lockfile_sync.rs` and
`lockfile_check.rs`.  A path is what those functions see of it; the parser of TOML texts is a
parameter.
-/

namespace KiraVm

namespace KiraLock

open TomlText (Value Header Section Document)

/-! ## The package graph -/

/-- One component of a path. -/
inductive Component
  | drive (text : String)
  | rootDir
  | curDir
  | parentDir
  | normal (text : String)
  deriving DecidableEq, Repr

def Component.text : Component → String
  | .drive text => text
  | .rootDir => "/"
  | .curDir => "."
  | .parentDir => ".."
  | .normal text => text

structure Path where
  components : List Component
  display : String
  isAbsolute : Bool
  deriving DecidableEq, Repr

inductive DependencySource
  | registry (version : String)
  | path (path : String)
  | git (url : String) (rev tag : Option String)
  deriving DecidableEq, Repr

structure ResolvedDependency where
  name : String
  source : DependencySource
  deriving DecidableEq, Repr

structure ResolvedPackage where
  name : String
  version : String
  kind : String
  kiraVersion : String
  moduleRoot : String
  rootDir : Path
  dependencies : List ResolvedDependency
  deriving DecidableEq, Repr

def ResolvedPackage.dependencyNames (package : ResolvedPackage) : List String :=
  package.dependencies.map ResolvedDependency.name

/-! ## Rendering -/

/-- The text with each occurrence of a character replaced. -/
def replace (text : String) (char : Char) (spelling : String) : String :=
  String.ofList (text.toList.flatMap fun other =>
    if other = char then spelling.toList else [other])

/-- Escape the two characters that would end a basic string. -/
def escape (value : String) : String :=
  replace (replace value '\\' "\\\\") '"' "\\\""

def pushField (text key value : String) : String :=
  text ++ (key ++ " = \"" ++ escape value ++ "\"\n")

/-- What is left of two paths behind the components they share. -/
def stripShared : List Component → List Component → List Component × List Component
  | base :: bases, target :: targets =>
    if base = target then stripShared bases targets else (base :: bases, target :: targets)
  | bases, targets => (bases, targets)

def relativePath (base target : Path) : String :=
  let (bases, targets) := stripShared base.components target.components
  let ups := bases.length
  let rest := targets.map Component.text
  if ups = 0 ∧ rest = [] then "."
  else if 0 < ups ∧ target.isAbsolute ∧ rest.length = target.components.length then target.display
  else "/".intercalate (List.replicate ups ".." ++ rest)

/-- Write a field that may be absent. -/
def pushOption (text key : String) (value : Option String) : String :=
  match value with
  | some value => pushField text key value
  | none => text

def pushSource (text : String) (dependency : ResolvedDependency) : String :=
  match dependency.source with
  | .path path => pushField (pushField text "source" "path") "path" path
  | .registry version => pushField (pushField text "source" "registry") "version" version
  | .git url rev tag =>
    let text := pushField (pushField text "source" "git") "url" url
    pushOption (pushOption text "rev" rev) "tag" tag

def pushRootDependency (text : String) (dependency : ResolvedDependency) : String :=
  let text := text ++ "\n[[root_dependency]]\n"
  pushSource (pushField text "name" dependency.name) dependency

def pushPackage (base : Path) (text : String) (package : ResolvedPackage) : String :=
  let text := text ++ "\n[[package]]\n"
  let text := pushField text "name" package.name
  let text := pushField text "version" package.version
  let text := pushField text "kind" package.kind
  let text := pushField text "kira" package.kiraVersion
  let text := pushField text "module_root" package.moduleRoot
  let text := pushField text "source" "path"
  let text := pushField text "path" (relativePath base package.rootDir)
  if package.dependencies = [] then text
  else
    let names := ", ".intercalate
      (package.dependencyNames.map fun name => "\"" ++ escape name ++ "\"")
    text ++ ("dependencies = [" ++ names ++ "]\n")

/-- The packages behind the root in name order. -/
def pinned (packages : List ResolvedPackage) : List ResolvedPackage :=
  packages.mergeSort fun left right => left.name ≤ right.name

/-- The lockfile text of a graph, whose first package is the root. -/
def renderLockfileFrom (base : Path) (packages : List ResolvedPackage) : String :=
  let text := "version = 1\n"
  match packages with
  | [] => text
  | root :: packages =>
    let text := text ++ "\n[root]\n"
    let text := pushField text "name" root.name
    let text := pushField text "version" root.version
    let text := pushField text "kind" root.kind
    let text := pushField text "kira" root.kiraVersion
    let text := root.dependencies.foldl pushRootDependency text
    (pinned packages).foldl (pushPackage base) text

/-! ## Syncing -/

/-- The lockfile on disk. -/
inductive LockFile
  | absent
  | unreadable (error : String)
  | text (content : String)
  deriving DecidableEq, Repr

inductive SyncOutcome
  | unchanged
  | written
  deriving DecidableEq, Repr

/-- Write the lockfile unless it already holds the graph.  A write that is refused is an
error. -/
def syncLockfile (base : Path) (packages : List ResolvedPackage) (refused : Option String)
    (file : LockFile) : Except String SyncOutcome × LockFile :=
  let rendered := renderLockfileFrom base packages
  if file = .text rendered then (.ok .unchanged, file)
  else
    match refused with
    | some error => (.error error, file)
    | none => (.ok .written, .text rendered)

/-! ## What is read of a lockfile -/

inductive LockedDependency
  | name (name : String)
  | entry (name : String)
  deriving DecidableEq, Repr

def LockedDependency.named : LockedDependency → String
  | .name spelled => spelled
  | .entry spelled => spelled

structure LockedRoot where
  name : String
  dependencies : Option (List LockedDependency)
  deriving DecidableEq, Repr

structure LockedPackage where
  name : String
  dependencies : List LockedDependency
  deriving DecidableEq, Repr

structure LockSnapshot where
  root : Option LockedRoot
  rootDependencies : Option (List LockedDependency)
  packages : List LockedPackage
  deriving DecidableEq, Repr

/-- What a document holds under a top-level key. -/
inductive Held
  | absent
  | value (value : Value)
  | table (entries : List (String × Value))
  | elements (tables : List (List (String × Value)))
  deriving DecidableEq, Repr

/-- The entries above every header. -/
def topEntries (document : Document) : List (String × Value) :=
  (document.find? fun part => part.header = .top).elim [] Section.entries

def elementsOf (document : Document) (key : String) : List (List (String × Value)) :=
  (document.filter fun part => part.header = .element key).map Section.entries

def heldAt (document : Document) (key : String) : Held :=
  match (topEntries document).lookup key with
  | some value => .value value
  | none =>
    match document.find? fun part => part.header = .table key with
    | some part => .table part.entries
    | none =>
      match elementsOf document key with
      | [] => .absent
      | tables => .elements tables

/-- A text that may be left out. -/
def readName (entries : List (String × Value)) : Option String :=
  match entries.lookup "name" with
  | none => some ""
  | some (.text name) => some name
  | some _ => none

def readDependencies (entries : List (String × Value)) : Option (Option (List LockedDependency)) :=
  match entries.lookup "dependencies" with
  | none => some none
  | some (.texts names) => some (some (names.map .name))
  | some _ => none

/-- A dependency written as a table, which has a name. -/
def readEntry (entries : List (String × Value)) : Option LockedDependency :=
  match entries.lookup "name" with
  | some (.text name) => some (.entry name)
  | _ => none

def readRoot : Held → Option (Option LockedRoot)
  | .absent => some none
  | .table entries => do
    let name ← readName entries
    let dependencies ← readDependencies entries
    some (some ⟨name, dependencies⟩)
  | _ => none

def readRootDependencies : Held → Option (Option (List LockedDependency))
  | .absent => some none
  | .value (.texts names) => some (some (names.map .name))
  | .elements tables => (tables.mapM readEntry).map some
  | _ => none

def readPackage (entries : List (String × Value)) : Option LockedPackage := do
  let name ← readName entries
  let dependencies ← readDependencies entries
  some ⟨name, dependencies.getD []⟩

def readPackages : Held → Option (List LockedPackage)
  | .value (.texts []) => some []
  | .elements tables => tables.mapM readPackage
  | _ => none

/-- The packages, under either of their two keys but not both. -/
def readEitherPackages : Held → Held → Option (List LockedPackage)
  | .absent, .absent => some []
  | packages, .absent => readPackages packages
  | .absent, package => readPackages package
  | _, _ => none

def deserialize (document : Document) : Option LockSnapshot := do
  let root ← readRoot (heldAt document "root")
  let rootDependencies ← readRootDependencies (heldAt document "root_dependency")
  let packages ← readEitherPackages (heldAt document "packages") (heldAt document "package")
  some ⟨root, rootDependencies, packages⟩

/-! ## Checking -/

def displayNames (names : Finset String) : String :=
  if names = ∅ then "[]" else "[" ++ ", ".intercalate (names.sort) ++ "]"

def lockedNames (dependencies : List LockedDependency) : Finset String :=
  (dependencies.map LockedDependency.named).toFinset

def names (package : ResolvedPackage) : Finset String :=
  package.dependencyNames.toFinset

/-- The dependencies of each name.  A later package of a name replaces an earlier one. -/
abbrev Edges : Type := List (String × Finset String)

def Edges.get (edges : Edges) (name : String) : Option (Finset String) :=
  ((edges.filter fun edge => edge.1 = name).getLast?).map Prod.snd

def Edges.keys (edges : Edges) : Finset String :=
  (edges.map Prod.fst).toFinset

def lockedRootEdges (snapshot : LockSnapshot) (root : LockedRoot) : Except String (Finset String) :=
  match snapshot.rootDependencies.map lockedNames, root.dependencies.map lockedNames with
  | some topLevel, some nested =>
    if topLevel ≠ nested then
      .error ("the top-level root dependency set is " ++ displayNames topLevel ++
        ", but `root.dependencies` is " ++ displayNames nested)
    else .ok topLevel
  | some topLevel, none => .ok topLevel
  | none, some nested => .ok nested
  | none, none => .ok ∅

/-- What the first name says whose dependencies differ, in name order. -/
def edgeDrift (locked resolved : Edges) : List String → Option String
  | [] => none
  | name :: rest =>
    match resolved.get name, locked.get name with
    | some resolvedEdges, some lockedEdges =>
      if lockedEdges ≠ resolvedEdges then
        some ("the lockfile has `" ++ name ++ "` depending on " ++ displayNames lockedEdges ++
          ", but its manifest declares " ++ displayNames resolvedEdges)
      else edgeDrift locked resolved rest
    | _, _ => edgeDrift locked resolved rest

def resolvedEdges (packages : List ResolvedPackage) : Edges :=
  packages.map fun package => (package.name, names package)

def lockedEdges (packages : List LockedPackage) : Edges :=
  packages.map fun package => (package.name, lockedNames package.dependencies)

/-- How a lockfile differs from a graph, if it does. -/
def driftDescription (snapshot : LockSnapshot) : List ResolvedPackage → Option String
  | [] => none
  | root :: packages =>
    match snapshot.root with
    | none => some "the root package record is missing"
    | some lockedRoot =>
      if lockedRoot.name ≠ root.name then
        some ("the root is `" ++ lockedRoot.name ++ "` instead of `" ++ root.name ++ "`")
      else
        match lockedRootEdges snapshot lockedRoot with
        | .error description => some description
        | .ok rootEdges =>
          if rootEdges ≠ names root then
            some ("the lockfile's root dependency set is " ++ displayNames rootEdges ++
              ", but the manifests resolve to " ++ displayNames (names root))
          else
            let resolved := resolvedEdges packages
            let locked := lockedEdges snapshot.packages
            if locked.keys ≠ resolved.keys then
              some ("the lockfile's package set is " ++ displayNames locked.keys ++
                ", but the manifests resolve to " ++ displayNames resolved.keys)
            else edgeDrift locked resolved resolved.keys.sort

inductive LockfileStatus
  | absent
  | current
  | drifted
  deriving DecidableEq, Repr

section Check

/- The parser, on a whole text. -/
variable (fromStr : String → Except String LockSnapshot)

/-- Check a lockfile against a graph; what is found is described. -/
def check (file : LockFile) (packages : List ResolvedPackage) : LockfileStatus × List String :=
  match file with
  | .absent => (.absent, [])
  | .unreadable error => (.drifted, ["the file could not be read (" ++ error ++ ")"])
  | .text text =>
    match fromStr text with
    | .error error => (.drifted, ["the file could not be parsed (" ++ error ++ ")"])
    | .ok snapshot =>
      match driftDescription snapshot packages with
      | some description => (.drifted, [description])
      | none => (.current, [])

/-- The parser reads the TOML of a text, and answers what its document deserializes to. -/
def Conforming : Prop :=
  ∀ text document snapshot, TomlText.parse text = some document →
    deserialize document = some snapshot → fromStr text = .ok snapshot

end Check

end KiraLock

end KiraVm
