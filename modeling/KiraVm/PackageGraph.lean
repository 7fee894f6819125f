import KiraVm.PackageResolver
import Mathlib.Algebra.BigOperators.Group.Finset.Basic
import Mathlib.Data.Set.Finite.Basic

/-!
# The graph of path dependencies

A directory depends on those that its manifest names by a path, when they hold a package
that can be read.  Discovery goes through everything the root depends on.
-/

namespace KiraVm

namespace Packages

open KiraLock (Path DependencySource ResolvedDependency ResolvedPackage LockFile LockfileStatus
  LockSnapshot)
open ColouredSearch (edgesOf)

variable (fs : FileSystem) (readers : ManifestReaders) (root : Path)

/-! ## What depends on what -/

/-- The manifest of a directory that holds a readable package. -/
def manifestAt (dir : Path) : Option ProjectManifest :=
  if dir = root then (loadRoot fs readers root).toOption
  else (loadDependency fs readers "" dir).toOption

def declared : (seen : List String) → List DependencySpec → List DependencySpec
  | _, [] => []
  | seen, dependency :: dependencies =>
    if dependency.name ∈ seen then declared seen dependencies
    else dependency :: declared (dependency.name :: seen) dependencies

def DependencySpec.path (dependency : DependencySpec) : Option String :=
  match dependency.source with
  | .path path => some path
  | _ => none

/-- The package directory that a candidate names. -/
def targetOf (candidate : Path) : Option Path :=
  (canonicalDirectory fs candidate).filter fun dir => (manifestAt fs readers root dir).isSome

/-- The package directories that a manifest names, in the order of declaration. -/
def targetsOf (dir : Path) (manifest : ProjectManifest) : List Path :=
  ((declared [] manifest.dependencies).filterMap DependencySpec.path).filterMap fun path =>
    targetOf fs readers root (fs.join dir path)

def dependencyTargets (dir : Path) : List Path :=
  match manifestAt fs readers root dir with
  | some manifest => targetsOf fs readers root dir manifest
  | none => []

def DependsOn (dir target : Path) : Prop :=
  target ∈ dependencyTargets fs readers root dir

def Reachable (dir : Path) : Prop :=
  Relation.ReflTransGen (DependsOn fs readers root) root dir

/-! ## What is prepared -/

variable {fs readers root}

theorem toOption_loadDependency (name other : String) (dir : Path) :
    (loadDependency fs readers name dir).toOption =
      (loadDependency fs readers other dir).toOption := by
  unfold loadDependency
  cases findManifest fs dir with
  | none => rfl
  | some path =>
    simp only []
    cases fs.readToString path with
    | error error => rfl
    | ok text =>
      simp only []
      cases loadManifestText readers path text with
      | ok manifest => rfl
      | error error => cases error <;> rfl

theorem prepared_names (parent : Nat) (dir : Path) (seen : List String)
    (dependencies : List DependencySpec) :
    (prepareDependencies fs parent dir seen dependencies).names =
      (declared seen dependencies).map fun dependency => ⟨dependency.name, dependency.source⟩ := by
  induction dependencies generalizing seen with
  | nil => rfl
  | cons dependency dependencies ih =>
    rw [prepareDependencies, declared]
    by_cases repeated : dependency.name ∈ seen
    · rw [if_pos repeated, if_pos repeated]
      exact ih seen
    · rw [if_neg repeated, if_neg repeated, List.map_cons, ← ih]

theorem prepared_pending (parent : Nat) (dir : Path) (seen : List String)
    (dependencies : List DependencySpec) :
    ((prepareDependencies fs parent dir seen dependencies).pending.map
        PendingDependency.candidateDir) =
      ((declared seen dependencies).filterMap DependencySpec.path).map (fs.join dir) := by
  induction dependencies generalizing seen with
  | nil => rfl
  | cons dependency dependencies ih =>
    rw [prepareDependencies, declared]
    by_cases repeated : dependency.name ∈ seen
    · rw [if_pos repeated, if_pos repeated]
      exact ih seen
    · rw [if_neg repeated, if_neg repeated]
      cases source : dependency.source with
      | path path =>
        simp only [prepareSource, source, List.filterMap_cons, DependencySpec.path,
          List.map_cons, List.singleton_append, ← ih]
      | registry version =>
        simp only [prepareSource, source, List.filterMap_cons, DependencySpec.path,
          List.nil_append, ← ih]
      | git url rev tag =>
        simp only [prepareSource, source, List.filterMap_cons, DependencySpec.path,
          List.nil_append, ← ih]

theorem prepared_parent (parent : Nat) (dir : Path) (seen : List String)
    (dependencies : List DependencySpec) :
    ∀ pending ∈ (prepareDependencies fs parent dir seen dependencies).pending,
      pending.parent = parent := by
  induction dependencies generalizing seen with
  | nil => simp [prepareDependencies]
  | cons dependency dependencies ih =>
    intro pending pendingIn
    rw [prepareDependencies] at pendingIn
    by_cases repeated : dependency.name ∈ seen
    · rw [if_pos repeated] at pendingIn
      exact ih seen pending pendingIn
    · rw [if_neg repeated] at pendingIn
      rcases List.mem_append.mp pendingIn with own | later
      · unfold prepareSource at own
        cases source : dependency.source <;> simp [source] at own
        rw [own]
      · exact ih _ pending later

def cycleReports (diagnostics : List Diagnostic) : List (List String) :=
  diagnostics.filterMap fun diagnostic =>
    match diagnostic with
    | .cyclicPackageDependency cycle => some cycle
    | _ => none

@[simp]
theorem cycleReports_append (first second : List Diagnostic) :
    cycleReports (first ++ second) = cycleReports first ++ cycleReports second :=
  List.filterMap_append

theorem prepared_cycleReports (parent : Nat) (dir : Path) (seen : List String)
    (dependencies : List DependencySpec) :
    cycleReports (prepareDependencies fs parent dir seen dependencies).diagnostics = [] := by
  induction dependencies generalizing seen with
  | nil => rfl
  | cons dependency dependencies ih =>
    rw [prepareDependencies]
    by_cases repeated : dependency.name ∈ seen
    · rw [if_pos repeated]
      exact ih seen
    · rw [if_neg repeated]
      have own : cycleReports (prepareSource fs parent dir dependency).2 = [] := by
        unfold prepareSource
        cases dependency.source <;> rfl
      simp only [cycleReports_append, own, ih, List.append_nil]

theorem identity_cycleReports (name : String) (package : ResolvedPackage) (dir : Path) :
    cycleReports (checkExpectedIdentity name package dir) = [] := by
  unfold checkExpectedIdentity
  split <;> rfl

theorem nameRoot_cycleReports (name : String) (dir : Path) (names : NameRoots) :
    cycleReports (recordNameRoot name dir names).2 = [] := by
  unfold recordNameRoot
  split
  · split <;> rfl
  · rfl

end Packages

end KiraVm
