import KiraVm.ModuleTables
import KiraVm.SectionReader
import Mathlib.Tactic.IntervalCases
import Mathlib.Tactic.MkIffOfInductiveProp

/-!
# Module sections

The trailing sections of a module, read one behind the other.  A module whose
tables fit their counts and whose rows resolve is recovered from its bytes,
whichever of its trailing sections are empty.
-/

namespace KiraVm

open ByteReader ByteReader.Reader

namespace Module

/-! ## What can be written -/

/-- Every table fits its count, every foreign signature names rows of the
aggregate table, and every retained position has a 32-bit index. -/
@[mk_iff]
structure WellFormed (program : Module) : Prop where
  strings : program.strings.length < 2 ^ 64 ∧ ∀ text ∈ program.strings, TextFits text
  functions : program.functions.length < 2 ^ 64 ∧
    ∀ function ∈ program.functions, function.Fits ∧ function.releases.Fits
  exports : program.exports.Fits
  imports : program.foreignImports.length < 2 ^ 32 ∧
    ∀ imported ∈ program.foreignImports, imported.Fits ∧ imported.RetainedFits
  aggregates : program.foreignAggregates.Fits
  callbacks : program.foreignCallbacks.length < 2 ^ 32 ∧
    ∀ callback ∈ program.foreignCallbacks, callback.signature.parameters.length < 2 ^ 64
  constants : program.constants.length < 2 ^ 64
  types : program.types.length < 2 ^ 64 ∧ ∀ row ∈ program.types, row.Fits
  importsResolve : ∀ imported ∈ program.foreignImports,
    unresolved program.foreignAggregates imported.signature = none
  callbacksResolve : ∀ callback ∈ program.foreignCallbacks,
    unresolved program.foreignAggregates callback.signature = none

/-- A well-formed module whose constants name functions of the module and whose
callbacks retain no parameter. -/
@[mk_iff]
structure Encodable (program : Module) : Prop extends WellFormed program where
  constantsResolve : ∀ init ∈ program.constants, init.toNat < program.functions.length
  callbacksBorrow : ∀ callback ∈ program.foreignCallbacks, callback.signature.retained = []

instance : DecidablePred WellFormed := fun program => decidable_of_iff' _ (wellFormed_iff program)

instance : DecidablePred Encodable := fun program =>
  have : Decidable (∀ init ∈ program.constants, init.toNat < program.functions.length) :=
    List.decidableBAll _ _
  decidable_of_iff' _ (encodable_iff program)

end Module

/-! ## Reading section by section -/

def exportsStep (format : Format) (program : Module) : ModuleReader Module := do
  let exports ← optional program.exports (readExports format)
  pure { program with exports := exports }

def foreignStep (format : Format) (program : Module) : ModuleReader Module := do
  let imports ← optional program.foreignImports (readForeign format)
  pure { program with foreignImports := imports }

def aggregatesStep (format : Format) (program : Module) : ModuleReader Module := do
  let aggregates ← optional program.foreignAggregates (readAggregateTable format)
  checkImports aggregates program.foreignImports
  pure { program with foreignAggregates := aggregates }

def callbacksStep (format : Format) (program : Module) : ModuleReader Module := do
  let callbacks ← optional program.foreignCallbacks
    (readForeignCallbacks format program.foreignAggregates)
  pure { program with foreignCallbacks := callbacks }

def releasesStep (format : Format) (program : Module) : ModuleReader Module := do
  let functions ← optional program.functions (readReleases format program.functions)
  pure { program with functions := functions }

def retainedStep (format : Format) (program : Module) : ModuleReader Module := do
  let imports ← optional program.foreignImports (readForeignRetained format program.foreignImports)
  pure { program with foreignImports := imports }

def constantsStep (format : Format) (program : Module) : ModuleReader Module := do
  let constants ← optional program.constants (readConstants format program.functions.length)
  pure { program with constants := constants }

def typesStep (format : Format) (program : Module) : ModuleReader Module := do
  let types ← optional program.types (readTypes format)
  pure { program with types := types }

def sectionSteps (format : Format) : List (Module → ModuleReader Module) :=
  [exportsStep format, foreignStep format, aggregatesStep format, callbacksStep format,
    releasesStep format, retainedStep format, constantsStep format, typesStep format]

/-- A module read up to its trailing sections. -/
def Module.head (main : Option UInt32) (strings : List String) (functions : List FuncProto) :
    Module :=
  ⟨functions, main, strings, .default, [], .empty, [], [], []⟩

def finish (program : Module) : ModuleReader Module := do
  let left ← remaining
  if left ≠ 0 then fail (.trailingBytes left) else pure program

theorem readSections_eq (format : Format) (main : Option UInt32) (strings : List String)
    (functions : List FuncProto) :
    readSections format main strings functions =
      readSteps (sectionSteps format) (Module.head main strings functions) >>= finish := by
  simp [readSections, sectionSteps, readSteps, exportsStep, foreignStep, aggregatesStep,
    callbacksStep, releasesStep, retainedStep, constantsStep, typesStep, Module.head, finish]

variable {program : Module} {cursor after : Cursor}

theorem fromBytes_ok_iff {bytes : List UInt8} :
    Module.fromBytes bytes = .ok program ↔
      ∃ after, readModule ⟨0, bytes⟩ = .ok (program, after) := by
  unfold Module.fromBytes
  cases readModule ⟨0, bytes⟩ with
  | error error => simp
  | ok answer =>
    obtain ⟨answered, after⟩ := answer
    simp

theorem checkImports_ok_iff {aggregates : ForeignAggregates} {imports : List ForeignImport} :
    checkImports aggregates imports cursor = .ok ((), after) ↔
      (∀ imported ∈ imports, unresolved aggregates imported.signature = none) ∧
        cursor = after := by
  induction imports with
  | nil => simp [checkImports]
  | cons imported imports ih =>
    cases missing : unresolved aggregates imported.signature with
    | some id => simp [checkImports, missing]
    | none => simp [checkImports, missing, ih]

theorem checkImports_outcome (aggregates : ForeignAggregates) (imports : List ForeignImport)
    (cursor : Cursor) :
    checkImports aggregates imports cursor = .ok ((), cursor) ∨
      ∃ error, checkImports aggregates imports cursor = .error error := by
  cases answer : checkImports aggregates imports cursor with
  | error error => exact .inr ⟨error, rfl⟩
  | ok result =>
    obtain ⟨_, after⟩ := result
    obtain ⟨-, rfl⟩ := checkImports_ok_iff.mp answer
    exact .inl rfl

theorem sectionSteps_idle (format : Format) :
    ∀ step ∈ sectionSteps format, IdleAtEnd step := by
  intro step member program cursor ended
  simp only [sectionSteps, List.mem_cons, List.not_mem_nil, or_false] at member
  obtain rfl | rfl | rfl | rfl | rfl | rfl | rfl | rfl := member
  case inr.inr.inl =>
    -- the import check runs whether or not the table is there
    obtain passes | ⟨error, fails⟩ :=
      checkImports_outcome program.foreignAggregates program.foreignImports cursor
    · left
      refine bind_ok_iff.mpr ⟨_, _, optional_ended ended, ?_⟩
      exact bind_ok_iff.mpr ⟨_, _, passes, pure_ok_iff.mpr ⟨rfl, rfl⟩⟩
    · right
      refine ⟨error, ?_⟩
      rw [aggregatesStep, bind_of_ok (optional_ended ended), bind_of_error fails]
  all_goals
    left
    exact bind_ok_iff.mpr ⟨_, _, optional_ended ended, pure_ok_iff.mpr ⟨rfl, rfl⟩⟩

/-! ## The sections of a module -/

def FuncProto.unplanned (function : FuncProto) : FuncProto :=
  { function with releases := .everyLocal }

/-- The module with only its first `kept` trailing sections; those behind are
as a reader takes them when they are not there. -/
def Module.keepSections (program : Module) (kept : Nat) : Module where
  functions := if 4 < kept then program.functions
    else program.functions.map FuncProto.unplanned
  main := program.main
  strings := program.strings
  exports := if 0 < kept then program.exports else .default
  foreignImports := if 5 < kept then program.foreignImports
    else if 1 < kept then program.foreignImports.map ForeignImport.bare else []
  foreignAggregates := if 2 < kept then program.foreignAggregates else .empty
  foreignCallbacks := if 3 < kept then program.foreignCallbacks else []
  constants := if 6 < kept then program.constants else []
  types := if 7 < kept then program.types else []

/-- Each section's bytes with the module read behind it. -/
def Module.sections (program : Module) : List (List UInt8 × Module) :=
  program.sectionBytes.zipIdx.map fun entry => (entry.1, program.keepSections (entry.2 + 1))

theorem Module.sections_bytes (program : Module) :
    program.sections.map Prod.fst = program.sectionBytes := by
  rw [Module.sections, List.map_map]
  exact List.zipIdx_map_fst 0 program.sectionBytes

theorem Module.sectionsBytes_take (program : Module) (kept : Nat) :
    sectionsBytes (program.sections.take kept) = (program.sectionBytes.take kept).flatten := by
  rw [sectionsBytes, List.flatMap_def, List.map_take, program.sections_bytes]

theorem Module.sectionsBytes_sections (program : Module) :
    sectionsBytes program.sections = program.sectionBytes.flatten := by
  rw [sectionsBytes, List.flatMap_def, program.sections_bytes]

theorem Module.stateBehind_sections (program : Module) {kept : Nat} (bound : kept ≤ 8) :
    stateBehind (program.keepSections 0) program.sections kept = program.keepSections kept := by
  interval_cases kept <;> rfl

theorem writeList_ne_nil {α : Type} (write : α → List UInt8) (items : List α) :
    writeList write items ≠ [] := by
  apply List.ne_nil_of_length_pos
  simp [writeList]

theorem writeForeign_bare (imports : List ForeignImport) :
    writeForeign (imports.map ForeignImport.bare) = writeForeign imports := by
  simp only [writeForeign, writeList, List.length_map, List.flatMap_map]
  rfl

theorem ForeignImport.bare_eq_self {imported : ForeignImport}
    (borrows : imported.signature.anyRetained = false) : imported.bare = imported := by
  have signature := ForeignSignature.bare_eq_self borrows
  rw [ForeignSignature.bare] at signature
  rw [bare, signature]

theorem FuncProto.unplanned_eq_self {function : FuncProto}
    (everyLocal : function.releases = .everyLocal) : function.unplanned = function := by
  rw [FuncProto.unplanned, ← everyLocal]

theorem ExportTable.eq_default {table : ExportTable} (empty : table.isEmpty) :
    table = .default := by
  obtain ⟨classes, functions⟩ := table
  simp_all [ExportTable.isEmpty, ExportTable.default]

namespace Module

variable {program : Module}

/-! A section is left out only when it and everything behind it is empty. -/

theorem hasTypes_eq_false : program.hasTypes = false ↔ program.types = [] := by
  simp [hasTypes]

theorem hasConstants_eq_false :
    program.hasConstants = false ↔ program.constants = [] ∧ program.hasTypes = false := by
  simp [hasConstants]

theorem hasRetained_eq_false :
    program.hasRetained = false ↔
      (∀ imported ∈ program.foreignImports, imported.signature.anyRetained = false) ∧
        program.hasConstants = false := by
  simp [hasRetained]

theorem hasReleases_eq_false :
    program.hasReleases = false ↔
      (∀ function ∈ program.functions, function.releases = .everyLocal) ∧
        program.hasRetained = false := by
  simp [hasReleases]

theorem hasCallbacks_eq_false :
    program.hasCallbacks = false ↔
      program.foreignCallbacks = [] ∧ program.hasReleases = false := by
  simp [hasCallbacks]

theorem hasAggregates_eq_false :
    program.hasAggregates = false ↔
      program.foreignAggregates = .empty ∧ program.hasCallbacks = false := by
  have emptyIff : program.foreignAggregates = .empty ↔ program.foreignAggregates.entries = [] :=
    ⟨fun same => congrArg ForeignAggregates.entries same, fun same =>
      ForeignAggregates.ext_entries same⟩
  simp [hasAggregates, emptyIff]

theorem hasForeign_eq_false :
    program.hasForeign = false ↔
      program.foreignImports = [] ∧ program.hasAggregates = false := by
  simp [hasForeign]

theorem hasExports_eq_false :
    program.hasExports = false ↔
      program.exports.isEmpty ∧ program.hasForeign = false := by
  simp [hasExports]

def NoneBehind (program : Module) (first : Nat) : Prop :=
  ∀ behind ∈ program.sections.drop first, behind.1 = []

theorem noneBehind_types (absent : program.hasTypes = false) : program.NoneBehind 7 := by
  simp [NoneBehind, sections, sectionBytes, absent]

theorem noneBehind_constants (absent : program.hasConstants = false) :
    program.NoneBehind 6 :=
  List.forall_mem_cons.mpr
    ⟨by simp [absent], noneBehind_types (hasConstants_eq_false.mp absent).2⟩

theorem noneBehind_retained (absent : program.hasRetained = false) : program.NoneBehind 5 :=
  List.forall_mem_cons.mpr
    ⟨by simp [absent], noneBehind_constants (hasRetained_eq_false.mp absent).2⟩

theorem noneBehind_releases (absent : program.hasReleases = false) : program.NoneBehind 4 :=
  List.forall_mem_cons.mpr
    ⟨by simp [absent], noneBehind_retained (hasReleases_eq_false.mp absent).2⟩

theorem noneBehind_callbacks (absent : program.hasCallbacks = false) : program.NoneBehind 3 :=
  List.forall_mem_cons.mpr
    ⟨by simp [absent], noneBehind_releases (hasCallbacks_eq_false.mp absent).2⟩

theorem noneBehind_aggregates (absent : program.hasAggregates = false) :
    program.NoneBehind 2 :=
  List.forall_mem_cons.mpr
    ⟨by simp [absent], noneBehind_callbacks (hasAggregates_eq_false.mp absent).2⟩

theorem noneBehind_foreign (absent : program.hasForeign = false) : program.NoneBehind 1 :=
  List.forall_mem_cons.mpr
    ⟨by simp [absent], noneBehind_aggregates (hasForeign_eq_false.mp absent).2⟩

/-! Each section is read behind the ones before it, from the last to the
first. -/

theorem typesChain (encodable : program.Encodable) :
    SectionChain ((sectionSteps .wide).drop 7) (program.keepSections 7)
      (program.sections.drop 7) := by
  have codes := readList_codes fun _ => readType_codes
  refine .extend rfl codes.recovers codes.extends encodable.types (writeList_ne_nil _ _)
    (fun _ => pure_ok_iff.mpr ⟨rfl, rfl⟩) ?_ .nil
  intro absent
  have same : program.keepSections 7 = program.keepSections 8 := by
    simp [keepSections, hasTypes_eq_false.mp absent]
  exact ⟨same, fun _ => pure_ok_iff.mpr ⟨same, rfl⟩, by simp⟩

theorem constantsChain (encodable : program.Encodable) :
    SectionChain ((sectionSteps .wide).drop 6) (program.keepSections 6)
      (program.sections.drop 6) := by
  have codes := readConstants_codes program.functions.length
  refine .extend rfl codes.recovers codes.extends
    ⟨encodable.constants, encodable.constantsResolve⟩ (writeList_ne_nil _ _)
    (fun _ => pure_ok_iff.mpr ⟨rfl, rfl⟩) ?_ (typesChain encodable)
  intro absent
  obtain ⟨empty, noTypes⟩ := hasConstants_eq_false.mp absent
  have same : program.keepSections 6 = program.keepSections 7 := by
    simp [keepSections, empty]
  exact ⟨same, fun _ => pure_ok_iff.mpr ⟨same, rfl⟩, noneBehind_types noTypes⟩

theorem retainedChain (encodable : program.Encodable) :
    SectionChain ((sectionSteps .wide).drop 5) (program.keepSections 5)
      (program.sections.drop 5) := by
  have rows : List.Forall₂ (fun base imported : ForeignImport =>
      imported.bare = base ∧ imported.RetainedFits)
      (program.foreignImports.map ForeignImport.bare) program.foreignImports := by
    rw [List.forall₂_map_left_iff, List.forall₂_same]
    exact fun imported member => ⟨rfl, (encodable.imports.2 imported member).2⟩
  refine .extend rfl (readForeignRetained_recovers _) (readForeignRetained_extends _)
    ⟨encodable.imports.1, rows⟩ (writeList_ne_nil _ _)
    (fun _ => pure_ok_iff.mpr ⟨rfl, rfl⟩) ?_ (constantsChain encodable)
  intro absent
  obtain ⟨borrows, noConstants⟩ := hasRetained_eq_false.mp absent
  have bareEq : program.foreignImports.map ForeignImport.bare = program.foreignImports :=
    (List.map_congr_left fun imported member =>
      ForeignImport.bare_eq_self (borrows imported member)).trans (List.map_id _)
  have same : program.keepSections 5 = program.keepSections 6 := by
    simp [keepSections, bareEq]
  exact ⟨same, fun _ => pure_ok_iff.mpr ⟨same, rfl⟩, noneBehind_constants noConstants⟩

theorem releasesChain (encodable : program.Encodable) :
    SectionChain ((sectionSteps .wide).drop 4) (program.keepSections 4)
      (program.sections.drop 4) := by
  have codes := readReleases_codes (program.functions.map FuncProto.unplanned)
  have rows : List.Forall₂ Replans (program.functions.map FuncProto.unplanned)
      program.functions := by
    rw [List.forall₂_map_left_iff, List.forall₂_same]
    exact fun function member => ⟨rfl, (encodable.functions.2 function member).2⟩
  refine .extend rfl codes.recovers codes.extends
    ⟨by simpa using encodable.functions.1, rows⟩ (writeList_ne_nil _ _)
    (fun _ => pure_ok_iff.mpr ⟨rfl, rfl⟩) ?_ (retainedChain encodable)
  intro absent
  obtain ⟨everyLocal, noRetained⟩ := hasReleases_eq_false.mp absent
  have plainEq : program.functions.map FuncProto.unplanned = program.functions :=
    (List.map_congr_left fun function member =>
      FuncProto.unplanned_eq_self (everyLocal function member)).trans (List.map_id _)
  have same : program.keepSections 4 = program.keepSections 5 := by
    simp [keepSections, plainEq]
  exact ⟨same, fun _ => pure_ok_iff.mpr ⟨same, rfl⟩, noneBehind_retained noRetained⟩

theorem callbacksChain (encodable : program.Encodable) :
    SectionChain ((sectionSteps .wide).drop 3) (program.keepSections 3)
      (program.sections.drop 3) := by
  have codes := readTable_codes "foreign callback" (readCallback_codes program.foreignAggregates)
  have fits : ∀ callback ∈ program.foreignCallbacks, callback.signature.Bare ∧
      unresolved program.foreignAggregates callback.signature = none := fun callback member =>
    ⟨⟨encodable.callbacks.2 callback member, encodable.callbacksBorrow callback member⟩,
      encodable.callbacksResolve callback member⟩
  refine .extend rfl codes.recovers codes.extends
    ⟨encodable.callbacks.1, fits⟩ (writeList_ne_nil _ _)
    (fun _ => pure_ok_iff.mpr ⟨rfl, rfl⟩) ?_ (releasesChain encodable)
  intro absent
  obtain ⟨empty, noReleases⟩ := hasCallbacks_eq_false.mp absent
  have same : program.keepSections 3 = program.keepSections 4 := by
    simp [keepSections, empty]
  exact ⟨same, fun _ => pure_ok_iff.mpr ⟨same, rfl⟩, noneBehind_releases noReleases⟩

theorem aggregatesChain (encodable : program.Encodable) :
    SectionChain ((sectionSteps .wide).drop 2) (program.keepSections 2)
      (program.sections.drop 2) := by
  have codes := readAggregateTable_codes
  have resolve : ∀ imported ∈ program.foreignImports.map ForeignImport.bare,
      unresolved program.foreignAggregates imported.signature = none := by
    intro imported member
    obtain ⟨original, originalMember, rfl⟩ := List.mem_map.mp member
    exact encodable.importsResolve original originalMember
  refine .extend rfl codes.recovers codes.extends encodable.aggregates (writeList_ne_nil _ _)
    (fun _ => bind_ok_iff.mpr ⟨(), _, checkImports_ok_iff.mpr ⟨resolve, rfl⟩,
      pure_ok_iff.mpr ⟨rfl, rfl⟩⟩) ?_ (callbacksChain encodable)
  intro absent
  obtain ⟨empty, noCallbacks⟩ := hasAggregates_eq_false.mp absent
  have same : program.keepSections 2 = program.keepSections 3 := by
    simp [keepSections, empty]
  refine ⟨same, fun _ => bind_ok_iff.mpr ⟨(), _, checkImports_ok_iff.mpr ⟨?_, rfl⟩,
    pure_ok_iff.mpr ⟨same, rfl⟩⟩, noneBehind_callbacks noCallbacks⟩
  rw [empty] at resolve
  exact resolve

theorem foreignChain (encodable : program.Encodable) :
    SectionChain ((sectionSteps .wide).drop 1) (program.keepSections 1)
      (program.sections.drop 1) := by
  have codes := readTable_codes "foreign import" fun _ => readImport_codes
  have fits : ∀ imported ∈ program.foreignImports.map ForeignImport.bare,
      imported.Fits ∧ imported.signature.retained = [] := by
    intro imported member
    obtain ⟨original, originalMember, rfl⟩ := List.mem_map.mp member
    exact ⟨(encodable.imports.2 original originalMember).1, rfl⟩
  have written : writeForeign program.foreignImports =
      writeForeign (program.foreignImports.map ForeignImport.bare) :=
    (writeForeign_bare _).symm
  change SectionChain _ _ ((if program.hasForeign then writeForeign program.foreignImports else [],
    program.keepSections 2) :: program.sections.drop 2)
  rw [written]
  refine .extend rfl codes.recovers codes.extends
    ⟨by simpa using encodable.imports.1, fits⟩ (writeList_ne_nil _ _)
    (fun _ => pure_ok_iff.mpr ⟨rfl, rfl⟩) ?_ (aggregatesChain encodable)
  intro absent
  obtain ⟨empty, noAggregates⟩ := hasForeign_eq_false.mp absent
  have same : program.keepSections 1 = program.keepSections 2 := by
    simp [keepSections, empty]
  exact ⟨same, fun _ => pure_ok_iff.mpr ⟨same, rfl⟩, noneBehind_aggregates noAggregates⟩

/-- The trailing sections of a module are read one behind the other. -/
theorem sectionChain (encodable : program.Encodable) :
    SectionChain (sectionSteps .wide) (program.keepSections 0) program.sections := by
  have codes := readExports_codes
  have nonempty : writeExports program.exports ≠ [] :=
    List.append_ne_nil_of_left_ne_nil (writeList_ne_nil _ _) _
  refine .extend rfl codes.recovers codes.extends encodable.exports nonempty
    (fun _ => pure_ok_iff.mpr ⟨rfl, rfl⟩) ?_ (foreignChain encodable)
  intro absent
  obtain ⟨empty, noForeign⟩ := hasExports_eq_false.mp absent
  have same : program.keepSections 0 = program.keepSections 1 := by
    simp [keepSections, ExportTable.eq_default empty]
  exact ⟨same, fun _ => pure_ok_iff.mpr ⟨same, rfl⟩, noneBehind_foreign noForeign⟩

end Module

/-! ## Magic and head -/

def Format.magicBytes : Format → List UInt8
  | .wide => magic
  | .legacy => legacyMagic

theorem readFormat_ok_iff {format : Format} :
    readFormat cursor = .ok (format, after) ↔ Spans cursor format.magicBytes after := by
  simp only [readFormat, takeBytes, bind_ok_iff, take_ok_iff]
  constructor
  · rintro ⟨opening, middle, ⟨-, spans⟩, matched⟩
    split at matched
    case isTrue isWide =>
      obtain ⟨rfl, rfl⟩ := pure_ok_iff.mp matched
      subst isWide
      exact spans
    case isFalse =>
      obtain ⟨isLegacy, same⟩ := ite_fail_ok_iff.mp matched
      obtain ⟨rfl, rfl⟩ := pure_ok_iff.mp same
      subst isLegacy
      exact spans
  · intro spans
    cases format with
    | wide => exact ⟨magic, after, ⟨rfl, spans⟩, rfl⟩
    | legacy => exact ⟨legacyMagic, after, ⟨rfl, spans⟩, rfl⟩

/-- The entrypoint, strings and functions as they are written. -/
def writeHead (head : Option UInt32 × List String × List FuncProto) : List UInt8 :=
  writeMain head.1 ++ (writeList writeText head.2.1 ++ writeList writeFunction head.2.2)

theorem readHead_codes :
    Codes (readHead .wide)
      (fun head => (head.2.1.length < 2 ^ 64 ∧ ∀ text ∈ head.2.1, TextFits text) ∧
        head.2.2.length < 2 ^ 64 ∧
          ∀ function ∈ head.2.2, function.Fits ∧ function.releases = .everyLocal)
      writeHead := by
  rintro cursor ⟨main, strings, functions⟩ after
  simp only [readHead, bind_ok_iff, pure_ok_iff, readMain_codes _ _ _,
    readList_codes (fun _ => readString_codes) _ _ _,
    readList_codes (fun _ => readFunction_codes) _ _ _, Prod.mk.injEq, writeHead, spans_append]
  constructor
  · rintro ⟨_, first, ⟨-, mainSpans⟩, _, second, ⟨stringsFit, stringsSpans⟩, _, _,
      ⟨functionsFit, functionsSpans⟩, ⟨rfl, rfl, rfl⟩, rfl⟩
    exact ⟨⟨stringsFit, functionsFit⟩, first, mainSpans, second, stringsSpans, functionsSpans⟩
  · rintro ⟨⟨stringsFit, functionsFit⟩, first, mainSpans, second, stringsSpans, functionsSpans⟩
    exact ⟨_, first, ⟨trivial, mainSpans⟩, _, second, ⟨stringsFit, stringsSpans⟩, _, _,
      ⟨functionsFit, functionsSpans⟩, ⟨rfl, rfl, rfl⟩, rfl⟩

/-- The head a reader answers before it meets the release plans. -/
def Module.headValue (program : Module) : Option UInt32 × List String × List FuncProto :=
  (program.main, program.strings, program.functions.map FuncProto.unplanned)

theorem Module.headBytes_eq (program : Module) :
    program.headBytes = magic ++ writeHead program.headValue := by
  simp only [headBytes, writeHead, headValue, writeList, List.length_map, List.flatMap_map]
  rfl

theorem Module.headValue_fits (encodable : program.Encodable) :
    ((program.headValue.2.1.length < 2 ^ 64 ∧ ∀ text ∈ program.headValue.2.1, TextFits text) ∧
      program.headValue.2.2.length < 2 ^ 64 ∧
        ∀ function ∈ program.headValue.2.2,
          function.Fits ∧ function.releases = .everyLocal) := by
  refine ⟨encodable.strings, by simpa [headValue] using encodable.functions.1, ?_⟩
  intro function member
  obtain ⟨original, originalMember, rfl⟩ := List.mem_map.mp member
  exact ⟨(encodable.functions.2 original originalMember).1, rfl⟩

theorem readModule_of_head {format : Format} {middle : Cursor}
    {main : Option UInt32} {strings : List String} {functions : List FuncProto}
    (magicSpans : Spans cursor format.magicBytes middle)
    (headRead : readHead format middle = .ok ((main, strings, functions), after)) :
    readModule cursor =
      (readSteps (sectionSteps format) (Module.head main strings functions) >>= finish)
        after := by
  rw [readModule, bind_of_ok (readFormat_ok_iff.mpr magicSpans), bind_of_ok headRead]
  exact congrFun (readSections_eq format main strings functions) after

theorem Module.readModule_head (encodable : program.Encodable) (rest : List UInt8) :
    readModule ⟨0, program.headBytes ++ rest⟩ =
      (readSteps (sectionSteps .wide) (program.keepSections 0) >>= finish)
        ⟨program.headBytes.length, rest⟩ := by
  have magicSpans : Spans ⟨0, program.headBytes ++ rest⟩ (Format.magicBytes .wide)
      ⟨magic.length, writeHead program.headValue ++ rest⟩ :=
    ⟨by rw [headBytes_eq, List.append_assoc]; rfl, by simp [Format.magicBytes]⟩
  have headSpans : Spans ⟨magic.length, writeHead program.headValue ++ rest⟩
      (writeHead program.headValue) ⟨program.headBytes.length, rest⟩ :=
    ⟨rfl, by rw [headBytes_eq, List.length_append]⟩
  exact readModule_of_head magicSpans
    (readHead_codes.recovers _ (headValue_fits encodable) _ _ headSpans)

theorem finish_ended (ended : cursor.rest = []) :
    finish program cursor = .ok (program, cursor) := by
  rw [finish, bind_of_ok (remaining_ok_iff.mpr ⟨rfl, rfl⟩), ended]
  rfl

theorem Module.fromBytes_toBytes (encodable : program.Encodable) :
    fromBytes program.toBytes = .ok program := by
  have sectionsRead := (sectionChain encodable).reads_all
    (⟨by simp [program.sectionsBytes_sections], rfl⟩ :
      Spans ⟨program.headBytes.length, program.sectionBytes.flatten⟩
        (sectionsBytes program.sections)
        ⟨program.headBytes.length + (sectionsBytes program.sections).length, []⟩) rfl
  have last : stateBehind (program.keepSections 0) program.sections program.sections.length =
      program := program.stateBehind_sections (Nat.le_refl 8)
  rw [last] at sectionsRead
  have moduleRead := readModule_head encodable program.sectionBytes.flatten
  rw [bind_of_ok sectionsRead, finish_ended rfl] at moduleRead
  exact fromBytes_ok_iff.mpr ⟨_, moduleRead⟩

end KiraVm
