import KiraVm.PackageGraph

/-!
# Discovery

Every package that is there was reached from the root; its edges and what is still
pending of it are together its dependencies.  When nothing is pending, everything
reachable is there.
-/

namespace KiraVm

namespace Packages

open KiraLock (Path DependencySource ResolvedDependency ResolvedPackage LockFile LockfileStatus
  LockSnapshot)
open ColouredSearch (edgesOf)

variable (fs : FileSystem) (readers : ManifestReaders) (root : Path)

def directoriesOf (packages : List ResolvedPackage) : List Path :=
  packages.map ResolvedPackage.rootDir

def packageFor (dir : Path) (manifest : ProjectManifest) : ResolvedPackage :=
  resolvedPackage manifest dir
    ((declared [] manifest.dependencies).map fun dependency =>
      ⟨dependency.name, dependency.source⟩)

/-- The package directories that the pending dependencies of a package name. -/
def awaiting (index : Nat) (pending : List PendingDependency) : List Path :=
  (pending.filter fun dependency => dependency.parent = index).filterMap fun dependency =>
    targetOf fs readers root dependency.candidateDir

structure Discovers (state : Resolution) : Prop where
  lengths : state.adjacency.length = state.packages.length
  root_mem : root ∈ directoriesOf state.packages
  nodup : (directoriesOf state.packages).Nodup
  directories : ∀ (dir : Path) (index : Nat), state.directories.lookup dir = some index ↔
    (directoriesOf state.packages)[index]? = some dir
  loaded : ∀ package ∈ state.packages, ∃ manifest,
    manifestAt fs readers root package.rootDir = some manifest ∧
      package = packageFor package.rootDir manifest
  reachable : ∀ dir ∈ directoriesOf state.packages, Reachable fs readers root dir
  parents : ∀ dependency ∈ state.pending, dependency.parent < state.packages.length
  edges : ∀ (index : Nat) (dir : Path), (directoriesOf state.packages)[index]? = some dir →
    (edgesOf state.adjacency index).map ((directoriesOf state.packages)[·]?) ++
        (awaiting fs readers root index state.pending).map some =
      (dependencyTargets fs readers root dir).map some
  uncycled : cycleReports state.diagnostics = []

variable {fs readers root}

/-! ## Edges -/

theorem edgesOf_pushEdge {adjacency : List (List Nat)} {parent : Nat}
    (inside : parent < adjacency.length) (child index : Nat) :
    edgesOf (pushEdge adjacency parent child) index =
      if index = parent then edgesOf adjacency index ++ [child] else edgesOf adjacency index := by
  rw [edgesOf, pushEdge, List.getElem?_modify]
  by_cases same : index = parent
  · subst same
    simp [edgesOf, inside]
  · have other : parent ≠ index := Ne.symm same
    simp [edgesOf, same, other]

theorem awaiting_cons (index : Nat) (dependency : PendingDependency)
    (pending : List PendingDependency) :
    awaiting fs readers root index (dependency :: pending) =
      (if dependency.parent = index then
        (targetOf fs readers root dependency.candidateDir).toList
      else []) ++ awaiting fs readers root index pending := by
  unfold awaiting
  by_cases own : dependency.parent = index
  · rw [if_pos own, List.filter_cons_of_pos (by simpa using own), List.filterMap_cons]
    cases targetOf fs readers root dependency.candidateDir <;> rfl
  · rw [if_neg own, List.filter_cons_of_neg (by simpa using own), List.nil_append]

theorem awaiting_append (index : Nat) (first second : List PendingDependency) :
    awaiting fs readers root index (first ++ second) =
      awaiting fs readers root index first ++ awaiting fs readers root index second := by
  rw [awaiting, List.filter_append, List.filterMap_append, awaiting, awaiting]

variable {pending : List PendingDependency} {state next : Resolution}
  {dependency : PendingDependency} {target : Path} {manifest : ProjectManifest} {dir : Path}

theorem awaiting_eq_nil {index : Nat} (others : ∀ dependency ∈ pending, dependency.parent ≠ index) :
    awaiting fs readers root index pending = [] := by
  have none_ : (pending.filter fun dependency => decide (dependency.parent = index)) = [] := by
    rw [List.filter_eq_nil_iff]
    intro dependency dependencyIn
    simpa using others dependency dependencyIn
  rw [awaiting, none_, List.filterMap_nil]

theorem awaiting_prepared (index : Nat) (dir : Path) (manifest : ProjectManifest) :
    awaiting fs readers root index
        (prepareDependencies fs index dir [] manifest.dependencies).pending =
      targetsOf fs readers root dir manifest := by
  have all : ((prepareDependencies fs index dir [] manifest.dependencies).pending.filter
      fun dependency => decide (dependency.parent = index)) =
        (prepareDependencies fs index dir [] manifest.dependencies).pending := by
    rw [List.filter_eq_self]
    intro dependency dependencyIn
    simpa using prepared_parent index dir [] manifest.dependencies dependency dependencyIn
  have candidates := @prepared_pending fs index dir [] manifest.dependencies
  rw [awaiting, all, targetsOf]
  have mapped := congrArg (List.filterMap (targetOf fs readers root)) candidates
  rw [List.filterMap_map, List.filterMap_map] at mapped
  exact mapped

theorem prepared_package (index : Nat) (dir : Path) (manifest : ProjectManifest) :
    resolvedPackage manifest dir
        (prepareDependencies fs index dir [] manifest.dependencies).names =
      packageFor dir manifest := by
  rw [prepared_names, packageFor]

/-! ## Steps -/

/-- A dependency that names no package leaves the graph as it is. -/
theorem Discovers.skip (discovers : Discovers fs readers root state)
    (queue : state.pending = dependency :: pending)
    (noTarget : targetOf fs readers root dependency.candidateDir = none)
    (packages : next.packages = state.packages) (adjacency : next.adjacency = state.adjacency)
    (directories : next.directories = state.directories) (rest : next.pending = pending)
    (uncycled : cycleReports next.diagnostics = []) : Discovers fs readers root next where
  lengths := by rw [packages, adjacency, discovers.lengths]
  root_mem := by rw [packages]; exact discovers.root_mem
  nodup := by rw [packages]; exact discovers.nodup
  directories := by rw [packages, directories]; exact discovers.directories
  loaded := by rw [packages]; exact discovers.loaded
  reachable := by rw [packages]; exact discovers.reachable
  parents := by
    rw [packages, rest]
    intro other otherIn
    apply discovers.parents
    rw [queue]
    exact List.mem_cons_of_mem dependency otherIn
  edges := by
    intro index dir dirAt
    rw [packages] at dirAt ⊢
    have edges := discovers.edges index dir dirAt
    rw [queue, awaiting_cons, noTarget, Option.toList_none, ite_self, List.nil_append] at edges
    rw [adjacency, rest]
    exact edges
  uncycled := uncycled

theorem Discovers.dependsOn (discovers : Discovers fs readers root state)
    (queue : state.pending = dependency :: pending)
    (found : targetOf fs readers root dependency.candidateDir = some target) :
    Reachable fs readers root target := by
  have parentInside : dependency.parent < state.packages.length := by
    apply discovers.parents
    rw [queue]
    exact List.mem_cons_self
  have ⟨dir, dirAt⟩ : ∃ dir, (directoriesOf state.packages)[dependency.parent]? = some dir :=
    ⟨_, List.getElem?_eq_getElem (by rw [directoriesOf, List.length_map]; exact parentInside)⟩
  have edges := discovers.edges dependency.parent dir dirAt
  have targetIn : some target ∈ (dependencyTargets fs readers root dir).map some := by
    rw [← edges, queue, awaiting_cons, found, if_pos rfl]
    simp
  have depends : DependsOn fs readers root dir target := by
    rcases List.mem_map.mp targetIn with ⟨other, otherIn, same⟩
    cases same
    exact otherIn
  exact (discovers.reachable dir (List.mem_of_getElem? dirAt)).tail depends

theorem Discovers.link (discovers : Discovers fs readers root state)
    (queue : state.pending = dependency :: pending) {index : Nat}
    (found : targetOf fs readers root dependency.candidateDir = some target)
    (known : state.directories.lookup target = some index)
    (packages : next.packages = state.packages)
    (adjacency : next.adjacency = pushEdge state.adjacency dependency.parent index)
    (directories : next.directories = state.directories) (rest : next.pending = pending)
    (uncycled : cycleReports next.diagnostics = []) : Discovers fs readers root next where
  lengths := by
    rw [packages, adjacency, pushEdge, List.length_modify, discovers.lengths]
  root_mem := by rw [packages]; exact discovers.root_mem
  nodup := by rw [packages]; exact discovers.nodup
  directories := by rw [packages, directories]; exact discovers.directories
  loaded := by rw [packages]; exact discovers.loaded
  reachable := by rw [packages]; exact discovers.reachable
  parents := by
    rw [packages, rest]
    intro other otherIn
    apply discovers.parents
    rw [queue]
    exact List.mem_cons_of_mem dependency otherIn
  edges := by
    intro other dir dirAt
    rw [packages] at dirAt ⊢
    have edges := discovers.edges other dir dirAt
    have parentInside : dependency.parent < state.adjacency.length := by
      rw [discovers.lengths]
      apply discovers.parents
      rw [queue]
      exact List.mem_cons_self
    have targetAt := (discovers.directories target index).mp known
    rw [queue, awaiting_cons, found] at edges
    rw [adjacency, rest, edgesOf_pushEdge parentInside, ← edges]
    by_cases own : other = dependency.parent
    · rw [if_pos own, if_pos own.symm]
      simp [targetAt]
    · rw [if_neg own, if_neg (Ne.symm own), List.nil_append]
  uncycled := uncycled

theorem edgesOf_append_nil (adjacency : List (List Nat)) (index : Nat) :
    edgesOf (adjacency ++ [[]]) index = edgesOf adjacency index := by
  unfold edgesOf
  rcases lt_trichotomy index adjacency.length with inside | atEnd | outside
  · rw [List.getElem?_append_left inside]
  · rw [atEnd]
    simp
  · rw [List.getElem?_eq_none (by simp; omega), List.getElem?_eq_none (by omega)]

theorem edgesOf_length (adjacency : List (List Nat)) :
    edgesOf adjacency adjacency.length = [] := by
  rw [edgesOf, List.getElem?_eq_none le_rfl]
  rfl

theorem Discovers.add (discovers : Discovers fs readers root state)
    (queue : state.pending = dependency :: pending)
    (found : targetOf fs readers root dependency.candidateDir = some target)
    (new : state.directories.lookup target = none)
    (loaded : manifestAt fs readers root target = some manifest)
    (packages : next.packages = state.packages ++ [packageFor target manifest])
    (adjacency : next.adjacency =
      pushEdge (state.adjacency ++ [[]]) dependency.parent state.packages.length)
    (directories : next.directories = (target, state.packages.length) :: state.directories)
    (rest : next.pending = pending ++
      (prepareDependencies fs state.packages.length target [] manifest.dependencies).pending)
    (uncycled : cycleReports next.diagnostics = []) : Discovers fs readers root next := by
  have dirs : directoriesOf next.packages = directoriesOf state.packages ++ [target] := by
    rw [packages, directoriesOf, List.map_append]
    rfl
  have dirsLength : (directoriesOf state.packages).length = state.packages.length :=
    List.length_map _
  have targetNew : target ∉ directoriesOf state.packages := by
    intro targetIn
    rcases List.mem_iff_getElem?.mp targetIn with ⟨index, targetAt⟩
    have known := (discovers.directories target index).mpr targetAt
    rw [new] at known
    cases known
  have parentInside : dependency.parent < state.packages.length := by
    apply discovers.parents
    rw [queue]
    exact List.mem_cons_self
  have pendingParents : ∀ other ∈ pending, other.parent < state.packages.length := by
    intro other otherIn
    apply discovers.parents
    rw [queue]
    exact List.mem_cons_of_mem dependency otherIn
  have pushInside : dependency.parent < (state.adjacency ++ [[]]).length := by
    rw [List.length_append, discovers.lengths]
    omega
  constructor
  · rw [packages, adjacency, pushEdge, List.length_modify, List.length_append, List.length_append,
      discovers.lengths]
    rfl
  · rw [dirs]
    exact List.mem_append_left _ discovers.root_mem
  · rw [dirs, List.nodup_append]
    refine ⟨discovers.nodup, List.nodup_singleton target, ?_⟩
    intro other otherIn last lastIn same
    rw [same, List.mem_singleton.mp lastIn] at otherIn
    exact targetNew otherIn
  · intro dir index
    rw [directories, dirs, List.lookup_cons]
    by_cases same : dir = target
    · subst same
      simp only [beq_self_eq_true]
      constructor
      · intro isIndex
        cases isIndex
        rw [← dirsLength]
        exact List.getElem?_concat_length
      · intro dirAt
        by_cases inside : index < (directoriesOf state.packages).length
        · rw [List.getElem?_append_left inside] at dirAt
          exact absurd (List.mem_of_getElem? dirAt) targetNew
        · have bound := (List.getElem?_eq_some_iff.mp dirAt).1
          rw [List.length_append, List.length_singleton] at bound
          congr 1
          omega
    · have differs : (dir == target) = false := by simpa using same
      simp only [differs]
      rw [discovers.directories]
      by_cases inside : index < (directoriesOf state.packages).length
      · rw [List.getElem?_append_left inside]
      · rw [List.getElem?_eq_none (Nat.not_lt.mp inside),
          List.getElem?_append_right (Nat.not_lt.mp inside)]
        constructor
        · intro impossible
          cases impossible
        · intro isTarget
          have targetIs := List.mem_of_getElem? isTarget
          exact absurd (List.mem_singleton.mp targetIs) same
  · intro package packageIn
    rw [packages] at packageIn
    rcases List.mem_append.mp packageIn with earlier | last
    · exact discovers.loaded package earlier
    · rw [List.mem_singleton.mp last]
      exact ⟨manifest, loaded, rfl⟩
  · intro dir dirIn
    rw [dirs] at dirIn
    rcases List.mem_append.mp dirIn with earlier | last
    · exact discovers.reachable dir earlier
    · rw [List.mem_singleton.mp last]
      exact discovers.dependsOn queue found
  · intro other otherIn
    rw [packages, List.length_append, List.length_singleton]
    rw [rest] at otherIn
    rcases List.mem_append.mp otherIn with earlier | prepared
    · have below := pendingParents other earlier
      omega
    · rw [prepared_parent _ _ _ _ other prepared]
      omega
  · intro index dir dirAt
    rw [dirs] at dirAt ⊢
    have getsSame : ∀ edge ∈ edgesOf state.adjacency index, ∀ dir,
        (directoriesOf state.packages)[index]? = some dir →
        (directoriesOf state.packages ++ [target])[edge]? =
          (directoriesOf state.packages)[edge]? := by
      intro edge edgeIn dir dirAt
      have edges := discovers.edges index dir dirAt
      have known : (directoriesOf state.packages)[edge]? ∈
          (dependencyTargets fs readers root dir).map some := by
        rw [← edges]
        exact List.mem_append_left _ (List.mem_map_of_mem edgeIn)
      rcases List.mem_map.mp known with ⟨goal, _, goalAt⟩
      rw [← goalAt]
      have inside := (List.getElem?_eq_some_iff.mp goalAt.symm).1
      rw [List.getElem?_append_left inside, ← goalAt]
    have last : (directoriesOf state.packages ++ [target])[state.packages.length]? =
        some target := by
      rw [← dirsLength]
      exact List.getElem?_concat_length
    rw [adjacency, edgesOf_pushEdge pushInside, edgesOf_append_nil, rest, awaiting_append]
    by_cases inside : index < (directoriesOf state.packages).length
    · rw [List.getElem?_append_left inside] at dirAt
      have edges := discovers.edges index dir dirAt
      have notOwn : awaiting fs readers root index
          (prepareDependencies fs state.packages.length target [] manifest.dependencies).pending =
            [] := by
        apply awaiting_eq_nil
        intro other otherIn
        rw [prepared_parent _ _ _ _ other otherIn]
        omega
      have mapped : (edgesOf state.adjacency index).map
          ((directoriesOf state.packages ++ [target])[·]?) =
            (edgesOf state.adjacency index).map ((directoriesOf state.packages)[·]?) := by
        apply List.map_congr_left
        intro edge edgeIn
        exact getsSame edge edgeIn dir dirAt
      rw [queue, awaiting_cons, found] at edges
      rw [notOwn, List.append_nil, ← edges]
      by_cases own : index = dependency.parent
      · rw [if_pos own, if_pos own.symm, List.map_append, mapped]
        simp [last]
      · rw [if_neg own, if_neg (Ne.symm own), List.nil_append, mapped]
    · have bound := (List.getElem?_eq_some_iff.mp dirAt).1
      rw [List.length_append, List.length_singleton] at bound
      have atEnd : index = state.packages.length := by omega
      subst atEnd
      rw [last] at dirAt
      cases dirAt
      have notParent : state.packages.length ≠ dependency.parent := by omega
      have noEdges : edgesOf state.adjacency state.packages.length = [] := by
        rw [← discovers.lengths]
        exact edgesOf_length _
      have noneAwaits : awaiting fs readers root state.packages.length pending = [] := by
        apply awaiting_eq_nil
        intro other otherIn
        have below := pendingParents other otherIn
        omega
      rw [if_neg notParent, noEdges, noneAwaits, awaiting_prepared, dependencyTargets, loaded]
      rfl
  · exact uncycled

/-! ## Runs -/

theorem manifestAt_of_ne (other : dir ≠ root) (name : String) :
    manifestAt fs readers root dir = (loadDependency fs readers name dir).toOption := by
  rw [manifestAt, if_neg other, toOption_loadDependency "" name]

theorem loadDependency_error_cycleReports {name : String} {diagnostic : Diagnostic}
    (failed : loadDependency fs readers name dir = .error diagnostic) :
    cycleReports [diagnostic] = [] := by
  revert failed
  unfold loadDependency
  cases findManifest fs dir with
  | none =>
    intro failed
    cases failed
    rfl
  | some path =>
    simp only []
    cases fs.readToString path with
    | error error =>
      intro failed
      cases failed
      rfl
    | ok text =>
      simp only []
      cases loadManifestText readers path text with
      | ok manifest =>
        intro failed
        cases failed
      | error error =>
        cases error <;> intro failed <;> cases failed <;> rfl

theorem addPackage_cycleReports (uncycled : cycleReports state.diagnostics = []) :
    cycleReports (addPackage fs dependency dir manifest state).diagnostics = [] := by
  unfold addPackage
  simp only [cycleReports_append, uncycled, prepared_cycleReports, identity_cycleReports,
    nameRoot_cycleReports, List.nil_append]
  split
  · exact nameRoot_cycleReports _ _ _
  · rfl

/-- What a step leaves: the same packages and one dependency less, or a new package. -/
inductive Steps (fs : FileSystem) (readers : ManifestReaders) (root : Path)
    (pending : List PendingDependency) (state next : Resolution) : Prop
  | same (packages : next.packages = state.packages) (rest : next.pending = pending)
  | new (target : Path) (manifest : ProjectManifest)
      (loaded : manifestAt fs readers root target = some manifest)
      (unknown : target ∉ directoriesOf state.packages)
      (packages : next.packages = state.packages ++ [packageFor target manifest])
      (rest : next.pending.length ≤
        pending.length + (declared [] manifest.dependencies).length)

theorem pending_length_le (parent : Nat) (dir : Path) (dependencies : List DependencySpec) :
    (prepareDependencies fs parent dir [] dependencies).pending.length ≤
      (declared [] dependencies).length := by
  have lengths := congrArg List.length (@prepared_pending fs parent dir [] dependencies)
  rw [List.length_map, List.length_map] at lengths
  rw [lengths]
  exact List.length_filterMap_le _ _

theorem resolveDependency_discovers (discovers : Discovers fs readers root state)
    (queue : state.pending = dependency :: pending) :
    Discovers fs readers root
        (resolveDependency fs readers dependency { state with pending := pending }) ∧
      Steps fs readers root pending state
        (resolveDependency fs readers dependency { state with pending := pending }) := by
  have rootKnown : state.directories.lookup root ≠ none := by
    rcases List.mem_iff_getElem?.mp discovers.root_mem with ⟨index, rootAt⟩
    rw [(discovers.directories root index).mpr rootAt]
    simp
  unfold resolveDependency
  cases located : canonicalDirectory fs dependency.candidateDir with
  | none =>
    have noTarget : targetOf fs readers root dependency.candidateDir = none := by
      rw [targetOf, located]
      rfl
    have uncycled : cycleReports
        (state.diagnostics ++ [.missingDependencyPackage dependency.name
          dependency.candidateDir.display]) = [] := by
      rw [cycleReports_append, discovers.uncycled]
      rfl
    exact ⟨discovers.skip queue noTarget rfl rfl rfl rfl uncycled, .same rfl rfl⟩
  | some target =>
    simp only []
    cases known : state.directories.lookup target with
    | some index =>
      have targetAt := (discovers.directories target index).mp known
      have targetIn := List.mem_of_getElem? targetAt
      have found : targetOf fs readers root dependency.candidateDir = some target := by
        rcases List.mem_map.mp targetIn with ⟨package, packageIn, rfl⟩
        rcases discovers.loaded package packageIn with ⟨manifest, loaded, _⟩
        rw [targetOf, located, Option.filter_some, loaded]
        rfl
      refine ⟨discovers.link queue found known rfl rfl rfl rfl ?_, .same rfl rfl⟩
      change cycleReports (state.diagnostics ++ _ ++
        (recordNameRoot dependency.name target state.names).2) = []
      rw [cycleReports_append, cycleReports_append, discovers.uncycled, nameRoot_cycleReports,
        List.append_nil, List.nil_append]
      cases state.packages[index]? with
      | none => rfl
      | some package => exact identity_cycleReports _ _ _
    | none =>
      have notRoot : target ≠ root := by
        intro same
        rw [same] at known
        exact rootKnown known
      simp only []
      cases loads : loadDependency fs readers dependency.name target with
      | error diagnostic =>
        have noTarget : targetOf fs readers root dependency.candidateDir = none := by
          rw [targetOf, located, Option.filter_some,
            manifestAt_of_ne notRoot dependency.name, loads]
          rfl
        have uncycled : cycleReports (state.diagnostics ++ [diagnostic]) = [] := by
          rw [cycleReports_append, discovers.uncycled,
            loadDependency_error_cycleReports loads]
          rfl
        exact ⟨discovers.skip queue noTarget rfl rfl rfl rfl uncycled, .same rfl rfl⟩
      | ok manifest =>
        have loaded : manifestAt fs readers root target = some manifest := by
          rw [manifestAt_of_ne notRoot dependency.name, loads]
          rfl
        have found : targetOf fs readers root dependency.candidateDir = some target := by
          rw [targetOf, located, Option.filter_some, loaded]
          rfl
        have packages : (addPackage fs dependency target manifest
            { state with pending := pending }).packages =
              state.packages ++ [packageFor target manifest] := by
          rw [← @prepared_package fs state.packages.length]
          rfl
        have targetNew : target ∉ directoriesOf state.packages := by
          intro targetIn
          rcases List.mem_iff_getElem?.mp targetIn with ⟨index, targetAt⟩
          rw [(discovers.directories target index).mpr targetAt] at known
          cases known
        refine ⟨discovers.add queue found known loaded packages rfl rfl rfl ?_,
          .new target manifest loaded targetNew packages ?_⟩
        · exact addPackage_cycleReports discovers.uncycled
        · change (pending ++ _).length ≤ _
          rw [List.length_append]
          exact Nat.add_le_add_left (pending_length_le _ _ _) _

theorem discovers_start (loads : loadRoot fs readers root = .ok manifest) :
    Discovers fs readers root (startResolution fs root manifest) := by
  have loaded : manifestAt fs readers root root = some manifest := by
    rw [manifestAt, if_pos rfl, loads]
    rfl
  constructor
  · rfl
  · exact List.mem_singleton_self root
  · exact List.nodup_singleton root
  · intro dir index
    change List.lookup dir [(root, 0)] = some index ↔ [root][index]? = some dir
    rw [List.lookup_cons]
    by_cases same : dir = root
    · subst same
      cases index <;> simp
    · have differs : (dir == root) = false := by simpa using same
      cases index <;> simp [differs, Ne.symm same]
  · intro package packageIn
    rw [List.mem_singleton.mp packageIn, prepared_package]
    exact ⟨manifest, loaded, rfl⟩
  · intro dir dirIn
    rw [List.mem_singleton.mp dirIn]
    exact Relation.ReflTransGen.refl
  · intro dependency dependencyIn
    rw [prepared_parent _ _ _ _ dependency dependencyIn]
    exact Nat.one_pos
  · intro index dir dirAt
    change [root][index]? = some dir at dirAt
    cases index with
    | zero =>
      cases dirAt
      change [] ++ (awaiting fs readers root 0
        (prepareDependencies fs 0 root [] manifest.dependencies).pending).map some = _
      rw [awaiting_prepared, dependencyTargets, loaded, List.nil_append]
    | succ index => simp at dirAt
  · exact prepared_cycleReports _ _ _ _

/-- How many dependencies the manifest of a directory declares. -/
def declaredCount (fs : FileSystem) (readers : ManifestReaders) (root dir : Path) : Nat :=
  match manifestAt fs readers root dir with
  | some manifest => (declared [] manifest.dependencies).length
  | none => 0

/-- The steps left: what is pending, and what the packages to come declare. -/
def stepsLeft (fs : FileSystem) (readers : ManifestReaders) (root : Path)
    (all : Finset Path) (state : Resolution) : Nat :=
  state.pending.length +
    ∑ dir ∈ all \ (directoriesOf state.packages).toFinset, declaredCount fs readers root dir

theorem stepsLeft_step {all : Finset Path}
    (covers : ∀ dir, Reachable fs readers root dir → dir ∈ all)
    (queue : state.pending = dependency :: pending) (discovers : Discovers fs readers root next)
    (steps : Steps fs readers root pending state next) :
    stepsLeft fs readers root all next < stepsLeft fs readers root all state := by
  unfold stepsLeft
  rw [queue, List.length_cons]
  cases steps with
  | same packages rest =>
    rw [packages, rest]
    omega
  | new target manifest loaded unknown packages rest =>
    have dirs : (directoriesOf next.packages).toFinset =
        insert target (directoriesOf state.packages).toFinset := by
      rw [packages, directoriesOf, List.map_append, List.toFinset_append, Finset.union_comm]
      rfl
    have targetIn : target ∈ directoriesOf next.packages := by
      rw [packages, directoriesOf, List.map_append]
      exact List.mem_append_right _ (List.mem_singleton_self target)
    have inAll : target ∈ all \ (directoriesOf state.packages).toFinset := by
      rw [Finset.mem_sdiff, List.mem_toFinset]
      exact ⟨covers target (discovers.reachable target targetIn), unknown⟩
    have split := Finset.add_sum_erase _ (declaredCount fs readers root) inAll
    have count : declaredCount fs readers root target =
        (declared [] manifest.dependencies).length := by
      rw [declaredCount, loaded]
    rw [dirs, Finset.sdiff_insert]
    omega

theorem resolvePending_ends {all : Finset Path}
    (covers : ∀ dir, Reachable fs readers root dir → dir ∈ all) (room : Nat)
    (state : Resolution) (discovers : Discovers fs readers root state)
    (small : stepsLeft fs readers root all state ≤ room) :
    ∃ final, Discovers fs readers root final ∧ final.pending = [] ∧
      ∀ steps ≥ room, resolvePending fs readers steps state = some final := by
  induction room generalizing state with
  | zero =>
    have empty : state.pending = [] := by
      apply List.eq_nil_of_length_eq_zero
      unfold stepsLeft at small
      omega
    refine ⟨state, discovers, empty, ?_⟩
    intro steps _
    cases steps <;> simp [resolvePending, empty]
  | succ room ih =>
    cases queue : state.pending with
    | nil =>
      refine ⟨state, discovers, queue, ?_⟩
      intro steps _
      cases steps <;> simp [resolvePending, queue]
    | cons dependency pending =>
      have ⟨nextDiscovers, taken⟩ := resolveDependency_discovers discovers queue
      have less := stepsLeft_step covers queue nextDiscovers taken
      rcases ih _ nextDiscovers (by omega) with ⟨final, finalDiscovers, empty, reaches⟩
      refine ⟨final, finalDiscovers, empty, ?_⟩
      intro steps enough
      cases steps with
      | zero => omega
      | succ steps =>
        rw [resolvePending, queue]
        exact reaches steps (by omega)

theorem mem_directoriesOf_iff (discovers : Discovers fs readers root state)
    (empty : state.pending = []) (dir : Path) :
    dir ∈ directoriesOf state.packages ↔ Reachable fs readers root dir := by
  constructor
  · exact discovers.reachable dir
  · intro reachable
    induction reachable with
    | refl => exact discovers.root_mem
    | @tail source target _ depends ih =>
      rcases List.mem_iff_getElem?.mp ih with ⟨index, sourceAt⟩
      have edges := discovers.edges index source sourceAt
      have targetIn : some target ∈ (dependencyTargets fs readers root source).map some :=
        List.mem_map_of_mem depends
      rw [← edges, empty] at targetIn
      simp only [awaiting, List.filter_nil, List.filterMap_nil, List.map_nil,
        List.append_nil] at targetIn
      rcases List.mem_map.mp targetIn with ⟨edge, _, targetAt⟩
      exact List.mem_of_getElem? targetAt

end Packages

end KiraVm
