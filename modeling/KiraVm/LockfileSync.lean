import KiraVm.LockfileLines

/-!
# Lockfiles that read back as current

What a synced lockfile records of a graph, and which graphs it is current for: those with the
root's name, the root's dependencies, and each other package's dependencies.  Versions, kinds
and paths are written and never compared.
-/

namespace KiraVm

namespace KiraLock

open TomlText

/-! ## What is recorded -/

def valueTexts : Value → List String
  | .text held => [held]
  | .integer _ => []
  | .texts held => held

def recordedTexts (base : Path) (packages : List ResolvedPackage) : List String :=
  (lockSections base packages).flatMap fun part =>
    part.entries.flatMap fun entry => valueTexts entry.2

/-- Every recorded text can stand in a basic string as it is escaped. -/
def Recordable (base : Path) (packages : List ResolvedPackage) : Prop :=
  ∀ text ∈ recordedTexts base packages, Plain text

instance (base : Path) (packages : List ResolvedPackage) : Decidable (Recordable base packages) :=
  inferInstanceAs (Decidable (∀ text ∈ recordedTexts base packages, _))

/-- A section of text fields under bare keys. -/
structure Shaped (part : Section) : Prop where
  header : (Line.header part.header).Written
  keys : ∀ entry ∈ part.entries, Key entry.1
  values : ∀ entry ∈ part.entries, ∀ number, entry.2 ≠ .integer number
  distinct : (part.entries.map Prod.fst).Nodup
  behind : part.header ≠ .top

theorem Shaped.written {part : Section} (shaped : Shaped part)
    (plain : ∀ entry ∈ part.entries, ∀ text ∈ valueTexts entry.2, Plain text) : part.Written where
  header := shaped.header
  entries := by
    rintro ⟨key, value⟩ listed
    refine ⟨shaped.keys _ listed, ?_⟩
    have texts := plain _ listed
    cases value with
    | text text => exact texts text List.mem_cons_self
    | integer number => exact absurd rfl (shaped.values _ listed number)
    | texts held => exact texts

theorem rootSection_shaped (root : ResolvedPackage) : Shaped (rootSection root) where
  header := (by decide : Key "root")
  keys := by simp [rootSection]; decide
  values := by simp [rootSection]
  distinct := by simp [rootSection]
  behind := nofun

theorem dependencySection_shaped (dependency : ResolvedDependency) :
    Shaped (dependencySection dependency) := by
  rcases dependency with ⟨name, source⟩
  constructor
  · exact (by decide : Key "root_dependency")
  · cases source with
    | registry version => simp [dependencySection, sourceEntries]; decide
    | path path => simp [dependencySection, sourceEntries]; decide
    | git url rev tag =>
      cases rev <;> cases tag <;> simp [dependencySection, sourceEntries, optionEntry] <;> decide
  · cases source with
    | registry version => simp [dependencySection, sourceEntries]
    | path path => simp [dependencySection, sourceEntries]
    | git url rev tag =>
      cases rev <;> cases tag <;> simp [dependencySection, sourceEntries, optionEntry]
  · cases source with
    | registry version => simp [dependencySection, sourceEntries]
    | path path => simp [dependencySection, sourceEntries]
    | git url rev tag =>
      cases rev <;> cases tag <;> simp [dependencySection, sourceEntries, optionEntry]
  · intro many
    cases many

theorem packageSection_shaped (base : Path) (package : ResolvedPackage) :
    Shaped (packageSection base package) := by
  constructor
  · exact (by decide : Key "package")
  · unfold packageSection edgeEntries
    split
    · simp; decide
    · simp; decide
  · unfold packageSection edgeEntries
    split <;> simp
  · unfold packageSection edgeEntries
    split <;> simp
  · exact nofun

theorem lockSections_shaped (base : Path) (packages : List ResolvedPackage) :
    ∀ part ∈ lockSections base packages, Shaped part := by
  cases packages with
  | nil => exact fun _ listed => absurd listed List.not_mem_nil
  | cons root packages =>
    intro part listed
    rcases List.mem_cons.mp listed with rfl | listed
    · exact rootSection_shaped root
    · rcases List.mem_append.mp listed with listed | listed
      · rcases List.mem_map.mp listed with ⟨dependency, _, rfl⟩
        exact dependencySection_shaped dependency
      · rcases List.mem_map.mp listed with ⟨package, _, rfl⟩
        exact packageSection_shaped base package

def lockDocument (base : Path) (packages : List ResolvedPackage) : Document :=
  ⟨.top, lockEntries⟩ :: lockSections base packages

theorem topKeys_lockDocument (base : Path) (packages : List ResolvedPackage) :
    topKeys (lockDocument base packages) = ["version"] := by
  have none : (lockSections base packages).filter (fun part => part.header = .top) = [] := by
    rw [List.filter_eq_nil_iff]
    intro part listed
    simp [(lockSections_shaped base packages part listed).behind]
  rw [topKeys, lockDocument, List.filter_cons]
  simp [none, lockEntries]

theorem tableKeys_lockDocument (base : Path) (packages : List ResolvedPackage) :
    tableKeys (lockDocument base packages) = [] ∨
      tableKeys (lockDocument base packages) = ["root"] := by
  cases packages with
  | nil => exact Or.inl rfl
  | cons root packages =>
    right
    simp [tableKeys, lockDocument, lockSections, rootSection, dependencySection, packageSection,
      List.filterMap_map]

theorem elementKeys_lockDocument (base : Path) (packages : List ResolvedPackage) :
    ∀ key ∈ elementKeys (lockDocument base packages), key = "root_dependency" ∨ key = "package" := by
  cases packages with
  | nil => exact fun _ listed => absurd listed List.not_mem_nil
  | cons root packages =>
    intro key listed
    simp only [elementKeys, lockDocument, lockSections, rootSection, List.filterMap_cons,
      List.filterMap_append, List.filterMap_map] at listed
    rcases List.mem_append.mp listed with listed | listed
    · rcases List.mem_filterMap.mp listed with ⟨dependency, _, same⟩
      exact Or.inl (Option.some.inj same).symm
    · rcases List.mem_filterMap.mp listed with ⟨package, _, same⟩
      exact Or.inr (Option.some.inj same).symm

theorem lockDocument_valid (base : Path) (packages : List ResolvedPackage) :
    Valid (lockDocument base packages) where
  entries := by
    intro part listed
    rcases List.mem_cons.mp listed with rfl | listed
    · decide
    · exact (lockSections_shaped base packages part listed).distinct
  tables := by
    rw [topKeys_lockDocument]
    rcases tableKeys_lockDocument base packages with same | same <;> rw [same] <;> decide
  elements := by
    rw [topKeys_lockDocument]
    intro key listed
    rcases elementKeys_lockDocument base packages key listed with rfl | rfl <;>
      rcases tableKeys_lockDocument base packages with same | same <;> rw [same] <;> decide

variable {base : Path} {packages : List ResolvedPackage}

/-- The text of a graph whose texts can be recorded is read as its document. -/
theorem parse_render (recordable : Recordable base packages) :
    parse (renderLockfileFrom base packages) = some (lockDocument base packages) := by
  have text : renderLockfileFrom base packages =
      String.ofList (writeLines (documentLines lockEntries (lockSections base packages))) := by
    rw [← render_toList, String.ofList_toList]
  rw [text]
  apply parse_documentLines
  · intro entry listed
    rw [List.mem_singleton.mp listed]
    exact ⟨by decide, (by decide : 1 < 10)⟩
  · intro part listed
    apply (lockSections_shaped base packages part listed).written
    intro entry held text member
    apply recordable
    exact List.mem_flatMap.mpr ⟨part, listed, List.mem_flatMap.mpr ⟨entry, held, member⟩⟩
  · exact lockDocument_valid base packages

/-! ## What is read back -/

/-- What is read of the document of a graph. -/
def lockSnapshot : List ResolvedPackage → LockSnapshot
  | [] => ⟨none, none, []⟩
  | root :: packages =>
    { root := some ⟨root.name, none⟩
      rootDependencies := if root.dependencies = [] then none
        else some (root.dependencies.map fun dependency => .entry dependency.name)
      packages := (pinned packages).map fun package =>
        ⟨package.name, package.dependencyNames.map .name⟩ }

section Document

variable (base : Path) (root : ResolvedPackage) (packages : List ResolvedPackage)

theorem lockDocument_table (key : String) :
    (lockDocument base (root :: packages)).find? (fun part => part.header = .table key) =
      if key = "root" then some (rootSection root) else none := by
  by_cases named : key = "root"
  · rw [if_pos named, named]
    rfl
  · rw [if_neg named, List.find?_eq_none]
    intro part listed
    simp only [lockDocument, lockSections, List.mem_cons, List.mem_append, List.mem_map] at listed
    rcases listed with rfl | rfl | ⟨dependency, _, rfl⟩ | ⟨package, _, rfl⟩
    · simp
    · simp [rootSection, Ne.symm named]
    · simp [dependencySection]
    · simp [packageSection]

theorem lockDocument_dependencies :
    elementsOf (lockDocument base (root :: packages)) "root_dependency" =
      root.dependencies.map fun dependency => (dependencySection dependency).entries := by
  simp [elementsOf, lockDocument, lockSections, rootSection, dependencySection, packageSection,
    List.filter_map, Function.comp_def]

theorem lockDocument_packages :
    elementsOf (lockDocument base (root :: packages)) "package" =
      (pinned packages).map fun package => (packageSection base package).entries := by
  simp [elementsOf, lockDocument, lockSections, rootSection, dependencySection, packageSection,
    List.filter_map, Function.comp_def]

theorem lockDocument_no_packages :
    elementsOf (lockDocument base (root :: packages)) "packages" = [] := by
  simp [elementsOf, lockDocument, lockSections, rootSection, dependencySection, packageSection,
    List.filter_map, Function.comp_def]

end Document

theorem readEntry_section (dependency : ResolvedDependency) :
    readEntry (dependencySection dependency).entries = some (.entry dependency.name) :=
  rfl

theorem readPackage_section (base : Path) (package : ResolvedPackage) :
    readPackage (packageSection base package).entries =
      some ⟨package.name, package.dependencyNames.map .name⟩ := by
  unfold packageSection edgeEntries
  by_cases none : package.dependencies = []
  · rw [if_pos none]
    have unnamed : package.dependencyNames = [] := by
      rw [ResolvedPackage.dependencyNames, none]
      rfl
    rw [unnamed]
    rfl
  · rw [if_neg none]
    rfl

theorem mapM_sections {α β γ : Type} {part : α → γ} {read : γ → Option β} {value : α → β}
    (reads : ∀ item, read (part item) = some (value item)) (items : List α) :
    (items.map part).mapM read = some (items.map value) := by
  induction items with
  | nil => rfl
  | cons item items ih =>
    rw [List.map_cons, List.mapM_cons, reads, ih]
    rfl

theorem heldAt_elements {root : ResolvedPackage} {key : String}
    {tables : List (List (String × Value))} (version : key ≠ "version") (table : key ≠ "root")
    (elements : elementsOf (lockDocument base (root :: packages)) key = tables) :
    heldAt (lockDocument base (root :: packages)) key =
      if tables = [] then .absent else .elements tables := by
  have top : (topEntries (lockDocument base (root :: packages))).lookup key = none := by
    change lockEntries.lookup key = none
    simp [lockEntries, List.lookup_cons, beq_eq_false_iff_ne.mpr version]
  unfold heldAt
  rw [top, lockDocument_table, if_neg table, elements]
  cases tables with
  | nil => rfl
  | cons first tables => rfl

theorem deserialize_lockDocument (base : Path) (packages : List ResolvedPackage) :
    deserialize (lockDocument base packages) = some (lockSnapshot packages) := by
  cases packages with
  | nil => rfl
  | cons root packages =>
    have rootRead : readRoot (heldAt (lockDocument base (root :: packages)) "root") =
        some (some ⟨root.name, none⟩) := rfl
    have dependenciesRead :
        readRootDependencies (heldAt (lockDocument base (root :: packages)) "root_dependency") =
          some (lockSnapshot (root :: packages)).rootDependencies := by
      rw [heldAt_elements (by decide) (by decide) (lockDocument_dependencies base root packages)]
      rw [lockSnapshot]
      by_cases none : root.dependencies = []
      · rw [if_pos none, none]
        rfl
      · rw [if_neg none, if_neg (by simpa using none)]
        change (List.mapM readEntry _).map some = _
        rw [mapM_sections readEntry_section]
        rfl
    have packagesRead :
        readEitherPackages (heldAt (lockDocument base (root :: packages)) "packages")
          (heldAt (lockDocument base (root :: packages)) "package") =
          some (lockSnapshot (root :: packages)).packages := by
      rw [heldAt_elements (by decide) (by decide) (lockDocument_no_packages base root packages),
        heldAt_elements (by decide) (by decide) (lockDocument_packages base root packages)]
      rw [lockSnapshot]
      cases listed : pinned packages with
      | nil => rfl
      | cons package others =>
        change List.mapM readPackage (((package :: others).map fun package =>
          (packageSection base package).entries)) = _
        rw [mapM_sections (readPackage_section base)]
    unfold deserialize
    rw [rootRead, dependenciesRead, packagesRead]
    rfl

/-! ## Which graphs a lockfile is current for -/

/-- The graphs that checking does not tell apart: the same root with the same dependencies, and
the same dependencies of each other name. -/
structure SameEdges (root other : ResolvedPackage) (packages others : List ResolvedPackage) :
    Prop where
  name : root.name = other.name
  dependencies : names root = names other
  edges : ∀ name, (resolvedEdges packages).get name = (resolvedEdges others).get name

theorem Edges.get_eq_none_iff {edges : Edges} {name : String} :
    edges.get name = none ↔ name ∉ edges.keys := by
  rw [Edges.get, Option.map_eq_none_iff, List.getLast?_eq_none_iff, List.filter_eq_nil_iff,
    Edges.keys, List.mem_toFinset, List.mem_map]
  constructor
  · rintro apart ⟨edge, listed, named⟩
    exact apart edge listed (decide_eq_true named)
  · intro absent edge listed named
    exact absent ⟨edge, listed, of_decide_eq_true named⟩

theorem edgeDrift_eq_none {locked resolved : Edges} (same : locked.keys = resolved.keys)
    (order : List String) :
    edgeDrift locked resolved order = none ↔
      ∀ name ∈ order, locked.get name = resolved.get name := by
  induction order with
  | nil => simp [edgeDrift]
  | cons name order ih =>
    rw [List.forall_mem_cons, ← ih, edgeDrift]
    cases resolvedAt : resolved.get name with
    | none =>
      have lockedAt : locked.get name = none := by
        rw [Edges.get_eq_none_iff, same, ← Edges.get_eq_none_iff]
        exact resolvedAt
      simp [lockedAt]
    | some resolvedEdges =>
      cases lockedAt : locked.get name with
      | none =>
        rw [Edges.get_eq_none_iff, same, ← Edges.get_eq_none_iff, resolvedAt] at lockedAt
        cases lockedAt
      | some lockedEdges =>
        by_cases equal : lockedEdges = resolvedEdges
        · simp [equal]
        · simp [equal]

theorem keys_of_get {first second : Edges} (same : ∀ name, first.get name = second.get name) :
    first.keys = second.keys := by
  ext name
  rw [← not_iff_not, ← Edges.get_eq_none_iff, ← Edges.get_eq_none_iff, same]

theorem nameOrder_trans (first second third : ResolvedPackage)
    (before : decide (first.name ≤ second.name) = true)
    (behind : decide (second.name ≤ third.name) = true) :
    decide (first.name ≤ third.name) = true :=
  decide_eq_true ((of_decide_eq_true before).trans (of_decide_eq_true behind))

theorem nameOrder_total (first second : ResolvedPackage) :
    (decide (first.name ≤ second.name) || decide (second.name ≤ first.name)) = true := by
  simpa using le_total first.name second.name

theorem pinned_filter (packages : List ResolvedPackage) (name : String) :
    (pinned packages).filter (fun package => package.name = name) =
      packages.filter fun package => package.name = name := by
  have level : (packages.filter fun package => package.name = name).Pairwise
      fun first second => decide (first.name ≤ second.name) = true := by
    rw [List.pairwise_iff_forall_sublist]
    intro first second inside
    have firstName := List.of_mem_filter (inside.subset List.mem_cons_self)
    have secondName := List.of_mem_filter
      (inside.subset (List.mem_cons_of_mem _ List.mem_cons_self))
    simp only [decide_eq_true_eq] at firstName secondName
    rw [firstName, secondName]
    simp
  have inside := List.sublist_mergeSort nameOrder_trans nameOrder_total level List.filter_sublist
  have kept := inside.filter fun package => decide (package.name = name)
  rw [List.filter_filter] at kept
  simp only [Bool.and_self] at kept
  apply (kept.eq_of_length ?_).symm
  exact ((List.mergeSort_perm packages _).filter _).length_eq.symm

theorem get_pinned (packages : List ResolvedPackage) (name : String) :
    (resolvedEdges (pinned packages)).get name = (resolvedEdges packages).get name := by
  have same := pinned_filter packages name
  simp only [Edges.get, resolvedEdges, List.filter_map, Function.comp_def]
  rw [same]

theorem lockedEdges_snapshot (packages : List ResolvedPackage) :
    lockedEdges (packages.map fun package =>
      ⟨package.name, package.dependencyNames.map .name⟩) = resolvedEdges packages := by
  simp [lockedEdges, resolvedEdges, lockedNames, names, Function.comp_def, LockedDependency.named]

theorem lockedRootEdges_snapshot (root : ResolvedPackage) (packages : List ResolvedPackage) :
    lockedRootEdges (lockSnapshot (root :: packages)) ⟨root.name, none⟩ = .ok (names root) := by
  by_cases none : root.dependencies = []
  · simp [lockedRootEdges, lockSnapshot, none, names, ResolvedPackage.dependencyNames]
  · simp [lockedRootEdges, lockSnapshot, none, names, ResolvedPackage.dependencyNames, lockedNames,
      Function.comp_def, LockedDependency.named]

/-- A lockfile's snapshot differs from a graph exactly where checking tells them apart. -/
theorem drift_snapshot_iff (root other : ResolvedPackage) (packages others : List ResolvedPackage) :
    driftDescription (lockSnapshot (root :: packages)) (other :: others) = none ↔
      SameEdges root other packages others := by
  have snapshotRoot : (lockSnapshot (root :: packages)).root = some ⟨root.name, none⟩ := rfl
  have snapshotEdges : lockedEdges (lockSnapshot (root :: packages)).packages =
      resolvedEdges (pinned packages) := lockedEdges_snapshot _
  simp only [driftDescription, snapshotRoot, lockedRootEdges_snapshot, snapshotEdges]
  by_cases name : root.name = other.name
  · rw [if_neg (not_not.mpr name)]
    by_cases dependencies : names root = names other
    · rw [if_neg (not_not.mpr dependencies)]
      by_cases keys : (resolvedEdges (pinned packages)).keys = (resolvedEdges others).keys
      · rw [if_neg (not_not.mpr keys), edgeDrift_eq_none keys]
        constructor
        · intro same
          refine ⟨name, dependencies, ?_⟩
          intro package
          rw [← get_pinned]
          by_cases listed : package ∈ (resolvedEdges others).keys
          · exact same package ((Finset.mem_sort _).mpr listed)
          · rw [Edges.get_eq_none_iff.mpr listed]
            rw [← keys] at listed
            exact Edges.get_eq_none_iff.mpr listed
        · intro same package _
          rw [get_pinned]
          exact same.edges package
      · rw [if_pos keys]
        constructor
        · exact nofun
        · intro same
          refine absurd (keys_of_get ?_) keys
          intro package
          rw [get_pinned]
          exact same.edges package
    · rw [if_pos dependencies]
      exact ⟨nofun, fun same => absurd same.dependencies dependencies⟩
  · rw [if_pos name]
    exact ⟨nofun, fun same => absurd same.name name⟩

theorem check_rendered {fromStr : String → Except String LockSnapshot}
    (conforming : Conforming fromStr) (recordable : Recordable base packages)
    (graph : List ResolvedPackage) :
    (check fromStr (.text (renderLockfileFrom base packages)) graph).1 = .current ↔
      driftDescription (lockSnapshot packages) graph = none := by
  have read := conforming _ _ _ (parse_render recordable) (deserialize_lockDocument base packages)
  simp only [check, read]
  cases driftDescription (lockSnapshot packages) graph with
  | none => exact ⟨fun _ => rfl, fun _ => rfl⟩
  | some description => exact ⟨nofun, nofun⟩

/-! ## The order of discovery -/

theorem pinned_perm {others : List ResolvedPackage} (same : packages.Perm others)
    (distinct : (packages.map ResolvedPackage.name).Nodup) : pinned packages = pinned others := by
  have sorted := fun packages =>
    List.pairwise_mergeSort nameOrder_trans nameOrder_total packages
  have whole : (pinned packages).Perm (pinned others) :=
    (List.mergeSort_perm packages _).trans (same.trans (List.mergeSort_perm others _).symm)
  refine List.Perm.eq_of_pairwise ?_ (sorted packages) (sorted others) whole
  intro first second firstListed secondListed before behind
  have names : first.name = second.name :=
    le_antisymm (of_decide_eq_true before) (of_decide_eq_true behind)
  have firstMember := (List.mergeSort_perm packages _).mem_iff.mp firstListed
  have secondMember := same.mem_iff.mpr ((List.mergeSort_perm others _).mem_iff.mp secondListed)
  exact List.inj_on_of_nodup_map distinct firstMember secondMember names

theorem syncLockfile_ok {refused : Option String} {file after : LockFile} {outcome : SyncOutcome}
    (synced : syncLockfile base packages refused file = (.ok outcome, after)) :
    after = .text (renderLockfileFrom base packages) := by
  unfold syncLockfile at synced
  dsimp only at synced
  split at synced
  · cases synced
    assumption
  · cases refused with
    | none =>
      cases synced
      rfl
    | some error => cases synced

theorem check_text (fromStr : String → Except String LockSnapshot) (text : String)
    (graph : List ResolvedPackage) (stale : (check fromStr (.text text) graph).1 ≠ .current) :
    (check fromStr (.text text) graph).1 = .drifted := by
  unfold check at stale ⊢
  dsimp only at stale ⊢
  split
  · rfl
  · split
    · rfl
    · rename_i read _ current
      rw [read] at stale
      dsimp only at stale
      rw [current] at stale
      exact absurd rfl stale

/-- A lockfile that is synced reads back as current, is not written again, and is stale for a
graph whose names or dependencies differ; the packages behind the root may be discovered in
any order. -/
theorem synced_lockfile_is_current {fromStr : String → Except String LockSnapshot}
    (conforming : Conforming fromStr) {base : Path} {root : ResolvedPackage}
    {packages : List ResolvedPackage} (recordable : Recordable base (root :: packages))
    {refused : Option String} {file after : LockFile} {outcome : SyncOutcome}
    (synced : syncLockfile base (root :: packages) refused file = (.ok outcome, after)) :
    (check fromStr after (root :: packages)).1 = .current ∧
      (∀ refused, syncLockfile base (root :: packages) refused after = (.ok .unchanged, after)) ∧
      (∀ other others, (SameEdges root other packages others →
          (check fromStr after (other :: others)).1 = .current) ∧
        (¬ SameEdges root other packages others →
          (check fromStr after (other :: others)).1 = .drifted)) ∧
      ∀ others, packages.Perm others → (packages.map ResolvedPackage.name).Nodup →
        renderLockfileFrom base (root :: others) = renderLockfileFrom base (root :: packages) := by
  rw [syncLockfile_ok synced]
  have checked := fun other others => (check_rendered conforming recordable (other :: others)).trans
    (drift_snapshot_iff root other packages others)
  refine ⟨?_, ?_, ?_, ?_⟩
  · exact (checked root packages).mpr ⟨rfl, rfl, fun _ => rfl⟩
  · intro refused
    unfold syncLockfile
    exact if_pos rfl
  · intro other others
    constructor
    · exact (checked other others).mpr
    · intro differs
      apply check_text
      exact fun current => differs ((checked other others).mp current)
  · intro others same distinct
    simp only [renderLockfileFrom, pinned_perm same distinct]

/-- A parser of line-oriented TOML alone. -/
def readLines (text : String) : Except String LockSnapshot :=
  match (parse text).bind deserialize with
  | some snapshot => .ok snapshot
  | none => .error "unreadable"

theorem readLines_conforming : Conforming readLines := by
  intro text document snapshot parsed read
  simp [readLines, parsed, read]

def namedPackage (name directory : String) (dependencies : List String) : ResolvedPackage where
  name := name
  version := "0.1.0"
  kind := "library"
  kiraVersion := "0.1.0"
  moduleRoot := name
  rootDir := ⟨[.rootDir, .normal "packages", .normal directory], "/packages/" ++ directory, true⟩
  dependencies := dependencies.map fun dependency => ⟨dependency, .path ("../" ++ dependency)⟩

def appPath : Path :=
  ⟨[.rootDir, .normal "packages", .normal "app"], "/packages/app", true⟩

theorem quoted_directory_is_current :
    let root := namedPackage "app" "app" ["Left"]
    let packages := [namedPackage "Left" "a \"quoted\" \\ name" []]
    Recordable appPath (root :: packages) ∧
      (check readLines (.text (renderLockfileFrom appPath (root :: packages)))
        (root :: packages)).1 = .current := by
  intro root packages
  have recordable : Recordable appPath (root :: packages) := by decide +kernel
  have synced : syncLockfile appPath (root :: packages) none .absent =
      (.ok .written, .text (renderLockfileFrom appPath (root :: packages))) := rfl
  exact ⟨recordable, (synced_lockfile_is_current readLines_conforming recordable synced).1⟩

/-- A graph that differs in a version is not stale, and a directory with a line feed in its
name leaves a lockfile that is not read. -/
theorem versions_are_not_compared :
    (check readLines (.text (renderLockfileFrom appPath [namedPackage "app" "app" []]))
        [{ namedPackage "app" "app" [] with version := "0.2.0" }]).1 = .current ∧
      (check readLines (.text (renderLockfileFrom appPath
          [namedPackage "app" "app" [], namedPackage "Left" "a\nb" []]))
        [namedPackage "app" "app" [], namedPackage "Left" "a\nb" []]).1 = .drifted := by
  constructor <;> decide +kernel

end KiraLock

end KiraVm
