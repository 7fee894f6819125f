import KiraVm.PackageDiscovery

/-!
# What resolution answers

The packages are the reachable directories, each once, with their path dependencies as
edges.  A cycle is reported exactly when there is one, at most once for each dependency that
closes it.
-/

namespace KiraVm

namespace Packages

open KiraLock (Path DependencySource ResolvedDependency ResolvedPackage LockFile LockfileStatus
  LockSnapshot)
open ColouredSearch (edgesOf Edge IsCycle chain closing)

variable (fs : FileSystem) (readers : ManifestReaders) (root : Path)

def nameOf (dir : Path) : String :=
  match manifestAt fs readers root dir with
  | some manifest => manifest.name
  | none => ""

/-- A way of dependencies from a reachable directory back to it. -/
def IsDependencyCycle (chain : List Path) : Prop :=
  ∃ first rest, chain = first :: rest ++ [first] ∧ (first :: rest).Nodup ∧
    List.IsChain (DependsOn fs readers root) chain ∧ Reachable fs readers root first

def place (packages : List ResolvedPackage) (index : Nat) : Path :=
  (directoriesOf packages)[index]?.getD root

variable {fs readers root}

section Final

variable {state : Resolution} (discovers : Discovers fs readers root state)
  (empty : state.pending = [])

include discovers empty

variable {index : Nat} {found : List Nat}

theorem edges_final (inside : index < state.packages.length) :
    (edgesOf state.adjacency index).map ((directoriesOf state.packages)[·]?) =
      (dependencyTargets fs readers root (place root state.packages index)).map some := by
  have dirAt : (directoriesOf state.packages)[index]? =
      some (place root state.packages index) := by
    have bound : index < (directoriesOf state.packages).length := by
      rwa [directoriesOf, List.length_map]
    rw [place, List.getElem?_eq_getElem bound, Option.getD_some]
  have edges := discovers.edges index _ dirAt
  rwa [empty, awaiting, List.filter_nil, List.filterMap_nil, List.map_nil,
    List.append_nil] at edges

theorem edge_inside {source target : Nat} (edge : Edge state.adjacency source target) :
    source < state.packages.length ∧ target < state.packages.length := by
  have sourceInside : source < state.packages.length := by
    by_contra outside
    change target ∈ edgesOf state.adjacency source at edge
    rw [edgesOf, List.getElem?_eq_none (by rw [discovers.lengths]; omega)] at edge
    simp at edge
  constructor
  · exact sourceInside
  · have goes : (directoriesOf state.packages)[target]? ∈
        (edgesOf state.adjacency source).map ((directoriesOf state.packages)[·]?) :=
      List.mem_map_of_mem edge
    rw [edges_final discovers empty sourceInside] at goes
    rcases List.mem_map.mp goes with ⟨dir, _, dirAt⟩
    have bound := (List.getElem?_eq_some_iff.mp dirAt.symm).1
    rwa [directoriesOf, List.length_map] at bound

theorem targets_final (inside : index < state.packages.length) :
    (edgesOf state.adjacency index).map (place root state.packages) =
      dependencyTargets fs readers root (place root state.packages index) := by
  have edges := congrArg (List.map fun dir => dir.getD root)
    (edges_final discovers empty inside)
  rw [List.map_map, List.map_map] at edges
  change (edgesOf state.adjacency index).map
    (fun edge => (directoriesOf state.packages)[edge]?.getD root) = _
  simpa [Function.comp_def] using edges

theorem dependsOn_of_edge {source target : Nat} (edge : Edge state.adjacency source target) :
    DependsOn fs readers root (place root state.packages source)
      (place root state.packages target) := by
  have inside := (edge_inside discovers empty edge).1
  rw [DependsOn, ← targets_final discovers empty inside]
  exact List.mem_map_of_mem edge

omit discovers empty in
theorem place_mem (inside : index < state.packages.length) :
    place root state.packages index ∈ directoriesOf state.packages := by
  have bound : index < (directoriesOf state.packages).length := by
    rwa [directoriesOf, List.length_map]
  rw [place, List.getElem?_eq_getElem bound, Option.getD_some]
  exact List.getElem_mem bound

omit empty in
theorem place_injOn {first second : Nat} (firstInside : first < state.packages.length)
    (secondInside : second < state.packages.length)
    (same : place root state.packages first = place root state.packages second) :
    first = second := by
  have firstBound : first < (directoriesOf state.packages).length := by
    rwa [directoriesOf, List.length_map]
  have secondBound : second < (directoriesOf state.packages).length := by
    rwa [directoriesOf, List.length_map]
  rw [place, place, List.getElem?_eq_getElem firstBound, List.getElem?_eq_getElem secondBound,
    Option.getD_some, Option.getD_some] at same
  exact (discovers.nodup.getElem_inj_iff).mp same

theorem edges_of_dependencies {source goal : Path}
    (way : Relation.TransGen (DependsOn fs readers root) source goal)
    (sourceAt : (directoriesOf state.packages)[index]? = some source) :
    ∃ last, (directoriesOf state.packages)[last]? = some goal ∧
      Relation.TransGen (Edge state.adjacency) index last := by
  have step : ∀ (index : Nat) (dir target : Path),
      (directoriesOf state.packages)[index]? = some dir → DependsOn fs readers root dir target →
        ∃ next, (directoriesOf state.packages)[next]? = some target ∧
          Edge state.adjacency index next := by
    intro index dir target dirAt depends
    have inside := (List.getElem?_eq_some_iff.mp dirAt).1
    rw [directoriesOf, List.length_map] at inside
    have isPlace : place root state.packages index = dir := by rw [place, dirAt, Option.getD_some]
    have goes : some target ∈ (dependencyTargets fs readers root dir).map some :=
      List.mem_map_of_mem depends
    rw [← isPlace, ← edges_final discovers empty inside] at goes
    rcases List.mem_map.mp goes with ⟨next, edge, nextAt⟩
    exact ⟨next, nextAt, edge⟩
  induction way with
  | single depends =>
    rcases step index source _ sourceAt depends with ⟨next, nextAt, edge⟩
    exact ⟨next, nextAt, .single edge⟩
  | tail _ depends ih =>
    rcases ih with ⟨middle, middleAt, before⟩
    rcases step middle _ _ middleAt depends with ⟨next, nextAt, edge⟩
    exact ⟨next, nextAt, before.tail edge⟩

/-- The graph of the packages has a cycle exactly when the dependencies have one. -/
theorem cycle_iff :
    (∃ node, Relation.TransGen (Edge state.adjacency) node node) ↔
      ∃ dir, Reachable fs readers root dir ∧
        Relation.TransGen (DependsOn fs readers root) dir dir := by
  constructor
  · rintro ⟨node, cycle⟩
    have ⟨next, edge, _⟩ := Relation.TransGen.head'_iff.mp cycle
    have inside := (edge_inside discovers empty edge).1
    refine ⟨place root state.packages node,
      discovers.reachable _ (place_mem inside), ?_⟩
    exact Relation.TransGen.lift (place root state.packages)
      (fun _ _ edge => dependsOn_of_edge discovers empty edge) _ _ cycle
  · rintro ⟨dir, reachable, cycle⟩
    have dirIn := (mem_directoriesOf_iff discovers empty dir).mpr reachable
    rcases List.mem_iff_getElem?.mp dirIn with ⟨index, dirAt⟩
    rcases edges_of_dependencies discovers empty cycle dirAt with ⟨last, lastAt, way⟩
    have inside := (List.getElem?_eq_some_iff.mp dirAt).1
    have same : index = last := by
      apply (List.getElem?_inj inside discovers.nodup).mp
      rw [dirAt, lastAt]
    rw [← same] at way
    exact ⟨index, way⟩

/-! ## Reports -/

theorem isCycle_inside (cycle : IsCycle state.adjacency found) :
    ∀ index ∈ found, index < state.packages.length := by
  rcases cycle with ⟨first, rest, rfl, _, path⟩
  have inner : ∀ index ∈ first :: rest, index < state.packages.length := by
    intro index indexIn
    rcases List.mem_iff_append.mp indexIn with ⟨before, after, split⟩
    rw [split, List.append_assoc, List.cons_append, List.isChain_append] at path
    cases closed : after ++ [first] with
    | nil => simp at closed
    | cons next others =>
      have onward := path.2.1
      rw [closed, List.isChain_cons_cons] at onward
      exact (edge_inside discovers empty onward.1).1
  intro index indexIn
  rcases List.mem_append.mp indexIn with within | atEnd
  · exact inner index within
  · rw [List.mem_singleton.mp atEnd]
    exact inner first List.mem_cons_self

theorem isDependencyCycle_map (cycle : IsCycle state.adjacency found) :
    IsDependencyCycle fs readers root (found.map (place root state.packages)) := by
  have inside := isCycle_inside discovers empty cycle
  rcases cycle with ⟨first, rest, rfl, nodup, path⟩
  refine ⟨place root state.packages first, rest.map (place root state.packages), by simp,
    ?_, ?_, ?_⟩
  · rw [← List.map_cons]
    apply List.Nodup.map_on _ nodup
    intro one oneIn other otherIn same
    exact place_injOn discovers (inside one (List.mem_append_left _ oneIn))
      (inside other (List.mem_append_left _ otherIn)) same
  · rw [List.isChain_map]
    exact path.imp fun _ _ edge => dependsOn_of_edge discovers empty edge
  · exact discovers.reachable _ (place_mem (inside first (by simp)))

omit empty in
theorem nameOf_place {package : ResolvedPackage}
    (packageAt : state.packages[index]? = some package) :
    nameOf fs readers root (place root state.packages index) = package.name := by
  have dirAt : place root state.packages index = package.rootDir := by
    rw [place, directoriesOf, List.getElem?_map, packageAt]
    rfl
  rcases discovers.loaded package (List.mem_of_getElem? packageAt) with ⟨manifest, loaded, same⟩
  rw [dirAt, nameOf, loaded, same]
  rfl

omit empty in
theorem names_map (inside : ∀ index ∈ found, index < state.packages.length) :
    (found.filterMap (state.packages[·]?)).map ResolvedPackage.name =
      (found.map (place root state.packages)).map (nameOf fs readers root) := by
  induction found with
  | nil => rfl
  | cons index found ih =>
    have packageAt := List.getElem?_eq_getElem (inside index List.mem_cons_self)
    have rest := ih fun other otherIn => inside other (List.mem_cons_of_mem index otherIn)
    rw [List.filterMap_cons, packageAt, List.map_cons, List.map_cons, List.map_cons, rest,
      nameOf_place discovers packageAt]

omit empty in
theorem map_place_injOn {first second : List Nat}
    (firstInside : ∀ index ∈ first, index < state.packages.length)
    (secondInside : ∀ index ∈ second, index < state.packages.length)
    (same : first.map (place root state.packages) = second.map (place root state.packages)) :
    first = second := by
  induction first generalizing second with
  | nil =>
    cases second with
    | nil => rfl
    | cons index second => simp at same
  | cons one first ih =>
    cases second with
    | nil => simp at same
    | cons other second =>
      rw [List.map_cons, List.map_cons, List.cons.injEq] at same
      have head := place_injOn discovers (firstInside one List.mem_cons_self)
        (secondInside other List.mem_cons_self) same.1
      have tail := ih (fun index indexIn => firstInside index (List.mem_cons_of_mem one indexIn))
        (fun index indexIn => secondInside index (List.mem_cons_of_mem other indexIn)) same.2
      rw [head, tail]

/-- A cycle is reported at most as often as the package in front of its end declares its
end. -/
theorem count_reports {reports : List (List Nat)}
    (cycles : ∀ found ∈ reports, IsCycle state.adjacency found)
    (tallied : ∀ source target, (reports.map closing).count (some source, some target) ≤
      (edgesOf state.adjacency source).count target)
    {before : List Path} {source target : Path} :
    (reports.map (List.map (place root state.packages))).count (before ++ [source, target]) ≤
      (dependencyTargets fs readers root source).count target := by
  by_cases reported : before ++ [source, target] ∈
      reports.map (List.map (place root state.packages))
  · rcases List.mem_map.mp reported with ⟨found, foundIn, foundEq⟩
    have foundInside := isCycle_inside discovers empty (cycles found foundIn)
    have once : (reports.map (List.map (place root state.packages))).count
        (before ++ [source, target]) ≤ reports.count found := by
      rw [List.count, List.countP_map, List.count]
      apply List.countP_mono_left
      intro other otherIn same
      have otherInside := isCycle_inside discovers empty (cycles other otherIn)
      simp only [Function.comp_apply, beq_iff_eq] at same ⊢
      exact map_place_injOn discovers otherInside foundInside (same.trans foundEq.symm)
    rcases List.map_eq_append_iff.mp foundEq with ⟨front, back, rfl, _, backEq⟩
    rcases List.map_eq_cons_iff.mp backEq with ⟨last, others, rfl, rfl, othersEq⟩
    rcases List.map_eq_cons_iff.mp othersEq with ⟨goal, none_, rfl, rfl, noneEq⟩
    have none_nil : none_ = [] := List.map_eq_nil_iff.mp noneEq
    subst none_nil
    have closed : closing (front ++ [last, goal]) = (some last, some goal) := by
      have split : front ++ [last, goal] = (front ++ [last]) ++ [goal] := by simp
      rw [closing, split, List.dropLast_concat, List.getLast?_concat, List.getLast?_concat]
    have lastInside : last < state.packages.length := foundInside last (by simp)
    calc
      (reports.map (List.map (place root state.packages))).count
          (before ++ [place root state.packages last, place root state.packages goal]) ≤
          reports.count (front ++ [last, goal]) := once
      _ ≤ (reports.map closing).count (closing (front ++ [last, goal])) :=
        List.count_le_count_map
      _ ≤ (edgesOf state.adjacency last).count goal := by
        rw [closed]
        exact tallied last goal
      _ ≤ ((edgesOf state.adjacency last).map (place root state.packages)).count
          (place root state.packages goal) := List.count_le_count_map
      _ = _ := by rw [targets_final discovers empty lastInside]
  · rw [List.count_eq_zero_of_not_mem reported]
    exact Nat.zero_le _

end Final

def reportCycle (packages : List ResolvedPackage) (found : List Nat) : Diagnostic :=
  .cyclicPackageDependency ((found.filterMap (packages[·]?)).map ResolvedPackage.name)

theorem cycleDiagnostic_eq (packages : List ResolvedPackage) (path : List Nat)
    (dependency : Nat) :
    cycleDiagnostic packages path dependency = reportCycle packages (chain path dependency) := by
  rw [cycleDiagnostic, reportCycle, chain, List.filterMap_append, List.map_append]
  cases found : packages[dependency]? with
  | none => simp [found]
  | some package => simp [found]

theorem diagnoseCycles_eq (packages : List ResolvedPackage) (adjacency : List (List Nat))
    (diagnostics : List Diagnostic) :
    diagnoseCycles packages adjacency diagnostics =
      (ColouredSearch.visitAll adjacency chain packages.length (List.range packages.length)
        (ColouredSearch.start packages.length [])).map fun search =>
          diagnostics ++ search.reports.map (reportCycle packages) := by
  let change : List (List Nat) → List Diagnostic :=
    fun reports => diagnostics ++ reports.map (reportCycle packages)
  have renamed := @ColouredSearch.visitAll_map _ _ adjacency chain (cycleDiagnostic packages) change
    (by
      intro reports path target
      unfold change
      rw [List.map_append, ← List.append_assoc, cycleDiagnostic_eq]
      rfl)
    packages.length (List.range packages.length) (ColouredSearch.start packages.length [])
  have start : (ColouredSearch.start packages.length ([] : List (List Nat))).map change =
      ColouredSearch.start packages.length diagnostics := by
    simp [change, ColouredSearch.start, ColouredSearch.Search.map]
  rw [start] at renamed
  rw [diagnoseCycles, renamed, Option.map_map]
  rfl

theorem cycleReports_map_reportCycle (packages : List ResolvedPackage) (found : List (List Nat)) :
    cycleReports (found.map (reportCycle packages)) =
      found.map fun indices =>
        (indices.filterMap (packages[·]?)).map ResolvedPackage.name := by
  rw [cycleReports, List.filterMap_map]
  let names : List Nat → List String :=
    fun indices => (indices.filterMap (packages[·]?)).map ResolvedPackage.name
  exact congrFun (@List.filterMap_eq_map _ _ names) found

theorem cycleReports_drift (drift : List String) :
    cycleReports (drift.map .lockfileDrift) = [] := by
  rw [cycleReports, List.filterMap_map]
  exact List.filterMap_eq_nil_iff.mpr fun _ _ => rfl

theorem closing_split {found : List Path} (cycle : IsDependencyCycle fs readers root found) :
    ∃ before source target, found = before ++ [source, target] := by
  rcases cycle with ⟨first, rest, rfl, _⟩
  rcases List.eq_nil_or_concat (first :: rest) with empty | ⟨before, source, split⟩
  · cases empty
  · rw [List.concat_eq_append] at split
    exact ⟨before, source, first, by rw [split]; simp⟩

variable {fromStr : String → Except String LockSnapshot}

/-- With enough steps resolution ends with the reachable packages and their path
dependencies.  It reports a cycle exactly when there is one, and a chain at most once for each
declaration that closes it. -/
theorem resolve_follows_paths {rootDir : Path} {manifest : ProjectManifest}
    (canonical : fs.canonicalize rootDir = some root)
    (loads : loadRoot fs readers root = .ok manifest)
    (finite : {dir | Reachable fs readers root dir}.Finite) :
    ∃ enough state graph,
      (∀ steps ≥ enough,
        resolvePending fs readers steps (startResolution fs root manifest) = some state ∧
        resolve fs readers fromStr steps rootDir = some (.ok graph)) ∧
      graph.packages = state.packages ∧
      (directoriesOf graph.packages).Nodup ∧
      (∀ dir, dir ∈ directoriesOf graph.packages ↔ Reachable fs readers root dir) ∧
      (∀ package ∈ graph.packages, ∃ manifest,
        manifestAt fs readers root package.rootDir = some manifest ∧
          package = packageFor package.rootDir manifest) ∧
      (∀ index < graph.packages.length,
        (edgesOf state.adjacency index).map (place root graph.packages) =
          dependencyTargets fs readers root (place root graph.packages index)) ∧
      ∃ chains : List (List Path),
        cycleReports graph.diagnostics = chains.map (List.map (nameOf fs readers root)) ∧
        (∀ chain ∈ chains, IsDependencyCycle fs readers root chain) ∧
        (chains = [] ↔ ¬ ∃ dir, Reachable fs readers root dir ∧
          Relation.TransGen (DependsOn fs readers root) dir dir) ∧
        (∀ before source target, chains.count (before ++ [source, target]) ≤
          (dependencyTargets fs readers root source).count target) ∧
        ((∀ dir, Reachable fs readers root dir →
          (dependencyTargets fs readers root dir).Nodup) → chains.Nodup) := by
  have covers : ∀ dir, Reachable fs readers root dir → dir ∈ finite.toFinset := by
    intro dir reachable
    exact (Set.Finite.mem_toFinset finite).mpr reachable
  rcases resolvePending_ends covers _ _ (discovers_start loads) le_rfl with
    ⟨state, discovers, empty, reaches⟩
  rcases @ColouredSearch.visitAll_reports state.adjacency state.packages.length
      state.packages.length discovers.lengths.le le_rfl with
    ⟨search, searched, cycles, noneIff, tallied⟩
  have diagnosed : diagnoseCycles state.packages state.adjacency state.diagnostics =
      some (state.diagnostics ++ search.reports.map (reportCycle state.packages)) := by
    rw [diagnoseCycles_eq, searched]
    rfl
  let checked := KiraLock.check fromStr (readLockfile fs root) state.packages
  let graph : ResolvedPackageGraph :=
    { packages := state.packages
      diagnostics := state.diagnostics ++ search.reports.map (reportCycle state.packages) ++
        checked.2.map .lockfileDrift
      lockfile := checked.1 }
  have finished : finish fs fromStr root state = some graph := by
    rw [finish, diagnosed]
    rfl
  have namesEq : cycleReports graph.diagnostics =
      (search.reports.map (List.map (place root state.packages))).map
        (List.map (nameOf fs readers root)) := by
    change cycleReports (state.diagnostics ++ search.reports.map (reportCycle state.packages) ++
      checked.2.map .lockfileDrift) = _
    rw [cycleReports_append, cycleReports_append, discovers.uncycled,
      cycleReports_map_reportCycle, cycleReports_drift, List.append_nil, List.nil_append,
      List.map_map]
    apply List.map_congr_left
    intro found foundIn
    exact names_map discovers (isCycle_inside discovers empty (cycles found foundIn))
  have areCycles : ∀ chain ∈ search.reports.map (List.map (place root state.packages)),
      IsDependencyCycle fs readers root chain := by
    intro chain chainIn
    rcases List.mem_map.mp chainIn with ⟨found, foundIn, rfl⟩
    exact isDependencyCycle_map discovers empty (cycles found foundIn)
  have counted : ∀ before source target,
      (search.reports.map (List.map (place root state.packages))).count
        (before ++ [source, target]) ≤
          (dependencyTargets fs readers root source).count target :=
    fun _ _ _ => count_reports discovers empty cycles tallied
  refine ⟨stepsLeft fs readers root finite.toFinset (startResolution fs root manifest), state,
    graph, ?_, rfl, discovers.nodup, mem_directoriesOf_iff discovers empty,
    discovers.loaded, fun index inside => targets_final discovers empty inside,
    search.reports.map (List.map (place root state.packages)), namesEq, areCycles, ?_, counted, ?_⟩
  · intro steps enough
    constructor
    · exact reaches steps enough
    · rw [resolve, canonical]
      simp only [loads]
      rw [reaches steps enough]
      rw [Option.bind_eq_bind, Option.bind_some, finished]
      rfl
  · rw [List.map_eq_nil_iff, noneIff, cycle_iff discovers empty]
  · intro simple
    rw [List.nodup_iff_count_le_one]
    intro chain
    by_cases chainIn : chain ∈ search.reports.map (List.map (place root state.packages))
    · rcases closing_split (areCycles chain chainIn) with ⟨before, source, target, rfl⟩
      apply le_trans (counted before source target)
      by_cases depends : target ∈ dependencyTargets fs readers root source
      · have sourceReachable : Reachable fs readers root source := by
          rcases List.mem_map.mp chainIn with ⟨found, foundIn, foundEq⟩
          have sourceIn : source ∈ found.map (place root state.packages) := by
            rw [foundEq]
            simp
          rcases List.mem_map.mp sourceIn with ⟨index, indexIn, rfl⟩
          have inside := isCycle_inside discovers empty (cycles found foundIn) index indexIn
          exact discovers.reachable _ (place_mem inside)
        exact (List.nodup_iff_count_le_one.mp (simple source sourceReachable)) target
      · rw [List.count_eq_zero_of_not_mem depends]
        exact Nat.zero_le 1
    · rw [List.count_eq_zero_of_not_mem chainIn]
      exact Nat.zero_le 1

/-! ## A package that depends on itself twice -/

def appDir : Path where
  components := [.rootDir, .normal "app"]
  display := "/app"
  isAbsolute := true

def joinPath (dir : Path) (text : String) : Path where
  components := dir.components ++ [if text = "." then .curDir else .normal text]
  display := dir.display ++ "/" ++ text
  isAbsolute := dir.isAbsolute

/-- One directory with a `package.kira`. -/
def singleDirectory : FileSystem where
  canonicalize path := if path = appDir ∨ path = joinPath appDir "." then some appDir else none
  isDir path := path = appDir
  isFile path := path = joinPath appDir "package.kira"
  readToString path :=
    if path = joinPath appDir "package.kira" then .ok "Package A"
    else .error ⟨true, "not found"⟩
  join := joinPath

def selfManifest : ProjectManifest where
  name := "A"
  version := "0.1.0"
  kind := .library
  kiraVersion := "0.1.0"
  moduleRoot := none
  dependencies := [⟨"A", .path "."⟩, ⟨"Again", .path "."⟩]

def selfReaders : ManifestReaders where
  loadDeclaration _ := .ok selfManifest
  loadLegacyManifest _ := .error "not a legacy manifest"

def noLockfile (_ : String) : Except String LockSnapshot :=
  .error "no lockfile"

/-- The reports of the graph that two steps resolve to. -/
def selfReports : Option (List (List String)) :=
  match resolve singleDirectory selfReaders noLockfile 2 appDir with
  | some (.ok graph) => some (cycleReports graph.diagnostics)
  | _ => none

/-- The cycle of a package that declares its own directory under two names is reported
twice. -/
theorem selfReports_twice :
    selfReports = some [["A", "A"], ["A", "A"]] ∧ ¬ [["A", "A"], ["A", "A"]].Nodup := by
  decide

theorem selfReachable (dir : Path)
    (reachable : Reachable singleDirectory selfReaders appDir dir) : dir = appDir := by
  have only : ∀ candidate target,
      targetOf singleDirectory selfReaders appDir candidate = some target → target = appDir := by
    intro candidate target found
    rw [targetOf, Option.filter_eq_some_iff] at found
    have located := found.1
    unfold canonicalDirectory singleDirectory at located
    by_cases inside : candidate = appDir ∨ candidate = joinPath appDir "."
    · simp only [if_pos inside] at located
      simpa using located.symm
    · simp only [if_neg inside] at located
      cases located
  induction reachable with
  | refl => rfl
  | tail _ depends _ =>
    unfold DependsOn dependencyTargets at depends
    split at depends
    · rcases List.mem_filterMap.mp depends with ⟨path, _, found⟩
      exact only _ _ found
    · simp at depends

theorem resolve_follows_paths_self :
    ∃ enough graph, (∀ steps ≥ enough,
        resolve singleDirectory selfReaders noLockfile steps appDir = some (.ok graph)) ∧
      directoriesOf graph.packages ≠ [] ∧ cycleReports graph.diagnostics ≠ [] := by
  have canonical : singleDirectory.canonicalize appDir = some appDir := by decide
  have loads : loadRoot singleDirectory selfReaders appDir = .ok selfManifest := by
    decide
  have finite : {dir | Reachable singleDirectory selfReaders appDir dir}.Finite :=
    (Set.finite_singleton appDir).subset selfReachable
  rcases @resolve_follows_paths singleDirectory selfReaders appDir noLockfile _ _ canonical loads finite with
    ⟨enough, state, graph, reaches, _, _, members, _, _, chains, names, _, noneIff, _, _⟩
  refine ⟨enough, graph, fun steps large => (reaches steps large).2, ?_, ?_⟩
  · exact List.ne_nil_of_mem ((members appDir).mpr Relation.ReflTransGen.refl)
  · rw [names]
    intro empty
    have loop : DependsOn singleDirectory selfReaders appDir appDir appDir := by
      change appDir ∈ dependencyTargets singleDirectory selfReaders appDir appDir
      decide
    exact noneIff.mp (List.map_eq_nil_iff.mp empty)
      ⟨appDir, Relation.ReflTransGen.refl, .single loop⟩

end Packages

end KiraVm
