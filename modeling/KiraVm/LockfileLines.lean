import KiraVm.Lockfile

/-!
# The lines of a lockfile

A lockfile text is the lines of its fields and headers.  Where its texts can stand in basic
strings it is read back as those lines.
-/

namespace KiraVm

namespace KiraLock

open TomlText

/-! ## The sections -/

def optionEntry (key : String) (value : Option String) : List (String × Value) :=
  (value.map fun value => (key, Value.text value)).toList

def sourceEntries (source : DependencySource) : List (String × Value) :=
  match source with
  | .path path => [("source", .text "path"), ("path", .text path)]
  | .registry version => [("source", .text "registry"), ("version", .text version)]
  | .git url rev tag =>
    [("source", .text "git"), ("url", .text url)] ++ (optionEntry "rev" rev ++ optionEntry "tag" tag)

def dependencySection (dependency : ResolvedDependency) : Section where
  header := .element "root_dependency"
  entries := ("name", .text dependency.name) :: sourceEntries dependency.source

/-- The array of a package's dependencies, which is left out when it is empty. -/
def edgeEntries (package : ResolvedPackage) : List (String × Value) :=
  if package.dependencies = [] then [] else [("dependencies", .texts package.dependencyNames)]

def packageSection (base : Path) (package : ResolvedPackage) : Section where
  header := .element "package"
  entries := [("name", .text package.name), ("version", .text package.version),
    ("kind", .text package.kind), ("kira", .text package.kiraVersion),
    ("module_root", .text package.moduleRoot), ("source", .text "path"),
    ("path", .text (relativePath base package.rootDir))] ++ edgeEntries package

def rootSection (root : ResolvedPackage) : Section where
  header := .table "root"
  entries := [("name", .text root.name), ("version", .text root.version),
    ("kind", .text root.kind), ("kira", .text root.kiraVersion)]

def lockSections (base : Path) : List ResolvedPackage → List Section
  | [] => []
  | root :: packages =>
    rootSection root ::
      (root.dependencies.map dependencySection ++ (pinned packages).map (packageSection base))

def lockEntries : List (String × Value) := [("version", .integer 1)]

/-! ## The text of the lines -/

theorem escape_toList (value : String) : (escape value).toList = value.toList.flatMap escapeChar := by
  simp only [escape, replace, String.toList_ofList, List.flatMap_assoc]
  apply List.flatMap_congr
  intro char _
  by_cases slash : char = '\\'
  · rw [slash]
    rfl
  · by_cases quote : char = '"'
    · rw [quote]
      rfl
    · simp [escapeChar, slash, quote]

theorem writeLines_append (first second : List Line) :
    writeLines (first ++ second) = writeLines first ++ writeLines second :=
  List.flatMap_append

theorem pushField_toList (text key value : String) :
    (pushField text key value).toList = text.toList ++ writeLines [.entry key (.text value)] := by
  simp [pushField, writeLines, writeLine, writeValue, quoted, escape_toList]

theorem pushOption_toList (text key : String) (value : Option String) :
    (pushOption text key value).toList = text.toList ++ writeLines ((optionEntry key value).map entryLine) := by
  cases value with
  | none => simp [pushOption, optionEntry, writeLines]
  | some value => exact pushField_toList text key value

theorem pushSource_toList (text : String) (dependency : ResolvedDependency) :
    (pushSource text dependency).toList =
      text.toList ++ writeLines ((sourceEntries dependency.source).map entryLine) := by
  unfold pushSource sourceEntries
  cases dependency.source with
  | path path => simp [pushField_toList, writeLines, entryLine]
  | registry version => simp [pushField_toList, writeLines, entryLine]
  | git url rev tag =>
    simp [pushField_toList, pushOption_toList, writeLines, entryLine]

theorem joined_toList (name : String) (names : List String) :
    (", ".intercalate ((name :: names).map fun name => "\"" ++ escape name ++ "\"")).toList =
      quoted name.toList ++ names.flatMap (fun name => ',' :: ' ' :: quoted name.toList) := by
  have spelled : ∀ name : String, ("\"" ++ escape name ++ "\"").toList = quoted name.toList := by
    intro name
    simp [quoted, escape_toList]
  induction names generalizing name with
  | nil => simp [spelled]
  | cons next names ih =>
    have later := ih next
    rw [List.map_cons] at later
    rw [List.map_cons, List.map_cons, String.intercalate_cons_cons, String.toList_append,
      String.toList_append, spelled, later]
    simp

theorem pushRootDependency_toList (text : String) (dependency : ResolvedDependency) :
    (pushRootDependency text dependency).toList =
      text.toList ++ writeLines (sectionLines (dependencySection dependency)) := by
  simp [pushRootDependency, dependencySection, sectionLines, entryLine, pushSource_toList,
    pushField_toList, writeLines, writeLine]

theorem pushPackage_toList (base : Path) (text : String) (package : ResolvedPackage) :
    (pushPackage base text package).toList = text.toList ++
      writeLines (sectionLines (packageSection base package)) := by
  unfold pushPackage packageSection edgeEntries
  by_cases none : package.dependencies = []
  · rw [if_pos none, if_pos none]
    simp [sectionLines, entryLine, pushField_toList, writeLines, writeLine]
  · rw [if_neg none, if_neg none]
    cases edges : package.dependencies with
    | nil => exact absurd edges none
    | cons dependency dependencies =>
      have named : package.dependencyNames =
          dependency.name :: dependencies.map ResolvedDependency.name := by
        rw [ResolvedPackage.dependencyNames, edges]
        rfl
      rw [named, String.toList_append, String.toList_append, String.toList_append,
        joined_toList]
      simp [sectionLines, entryLine, pushField_toList, writeLines, writeLine, writeValue]

theorem foldl_toList {α : Type} {push : String → α → String} {lines : α → List Line}
    (adds : ∀ text item, (push text item).toList = text.toList ++ writeLines (lines item))
    (items : List α) (text : String) :
    (items.foldl push text).toList = text.toList ++ writeLines (items.flatMap lines) := by
  induction items generalizing text with
  | nil => simp [writeLines]
  | cons item items ih =>
    rw [List.foldl_cons, ih, adds, List.flatMap_cons, writeLines_append, List.append_assoc]

theorem render_toList (base : Path) (packages : List ResolvedPackage) :
    (renderLockfileFrom base packages).toList =
      writeLines (documentLines lockEntries (lockSections base packages)) := by
  cases packages with
  | nil => simp [renderLockfileFrom, lockSections, documentLines, lockEntries, entryLine,
      writeLines, writeLine, writeValue]
  | cons root packages =>
    change ((pinned packages).foldl (pushPackage base) (root.dependencies.foldl pushRootDependency
      _)).toList = _
    rw [foldl_toList (pushPackage_toList base), foldl_toList pushRootDependency_toList]
    simp [pushField_toList, lockSections, documentLines, lockEntries, rootSection, sectionLines,
      entryLine, writeLines, writeLine, writeValue, List.flatMap_map, List.flatMap_assoc]

end KiraLock

end KiraVm
