import KiraVm.ModuleSections

/-!
# Module round trips

Whatever decodes, from either format, fits the tables of the current format and
resolves, so decoding and writing again loses nothing.
-/

namespace KiraVm

open ByteReader ByteReader.Reader

section Answers

variable (format : Format)

theorem readList_answers {α : Type} {read : Nat → ModuleReader α} {property : α → Prop}
    (answers : ∀ index, Answers (read index) property) :
    Answers (readList format read)
      (fun values => values.length < 2 ^ 64 ∧ ∀ value ∈ values, property value) := by
  intro cursor values after succeeds
  obtain ⟨count, middle, -, items⟩ := bind_ok_iff.mp succeeds
  obtain ⟨lengthEq, allHold⟩ := many_answers answers 0 count.toNat _ _ _ items
  exact ⟨lengthEq ▸ count.toNat_lt, allHold⟩

theorem readTable_answers {α : Type} (table : String) {read : Nat → ModuleReader α}
    {property : α → Prop} (answers : ∀ index, Answers (read index) property) :
    Answers (readTable format table read)
      (fun values => values.length < 2 ^ 32 ∧ ∀ value ∈ values, property value) := by
  intro cursor values after succeeds
  obtain ⟨count, middle, counted, items⟩ := bind_ok_iff.mp succeeds
  obtain ⟨lengthEq, allHold⟩ := many_answers answers 0 count.toNat _ _ _ items
  exact ⟨lengthEq ▸ (readIndexCount_ok_iff.mp counted).1, allHold⟩

theorem readString_answers : Answers (readString format) TextFits := by
  intro cursor text after succeeds
  simp only [readString, bind_ok_iff, readLenPrefixed_ok_iff, okOr_ok_iff,
    fromUTF8_eq_some_iff] at succeeds
  obtain ⟨bytes, middle, ⟨len, _, -, lengthEq, -⟩, rfl, -⟩ := succeeds
  exact lt_of_eq_of_lt lengthEq len.toNat_lt

variable {cursor after : Cursor}

theorem readCount_legacy_lt {count : UInt64}
    (succeeds : readCount .legacy cursor = .ok (count, after)) : count.toNat < 2 ^ 32 := by
  obtain ⟨narrow, -, rfl⟩ := map_ok_iff.mp succeeds
  simpa using narrow.toNat_lt

theorem readCode_answers :
    Answers (readCode format)
      (fun code => (∀ instruction ∈ code, instruction.Fits) ∧
        (encode code).length < 2 ^ 64) := by
  cases format with
  | wide => exact readCode_codes.answers
  | legacy =>
    intro cursor code after succeeds
    simp only [readCode, bind_ok_iff, readLenPrefixed_ok_iff] at succeeds
    obtain ⟨bytes, middle, ⟨len, _, counted, lengthEq, -⟩, matched⟩ := succeeds
    cases found : decodeWithWidth bytes (Format.isLegacy .legacy) with
    | error error => simp [found] at matched
    | ok decoded =>
      rw [found] at matched
      obtain ⟨rfl, -⟩ := pure_ok_iff.mp matched
      obtain ⟨fits, grows⟩ := decodeWithWidth_grows found
      have := readCount_legacy_lt counted
      exact ⟨fits, by omega⟩

theorem readFunction_answers :
    Answers (readFunction format)
      (fun function => function.Fits ∧ function.releases = .everyLocal) := by
  intro cursor function after succeeds
  simp only [readFunction, bind_ok_iff, pure_ok_iff] at succeeds
  obtain ⟨name, _, nameRead, _, _, -, _, _, -, _, _, -, _, _, -, code, _, codeRead, rfl, rfl⟩ :=
    succeeds
  exact ⟨⟨readString_answers format _ _ _ nameRead, readCode_answers format _ _ _ codeRead⟩, rfl⟩

theorem readExport_answers : Answers (readExport format) ModuleExport.Fits := by
  intro cursor exported after succeeds
  simp only [readExport, bind_ok_iff, pure_ok_iff] at succeeds
  obtain ⟨name, _, nameRead, kiraName, _, kiraRead, _, _, -, params, _, paramsRead, _, _, -, rfl,
    rfl⟩ := succeeds
  have all (_ : Nat) : Answers (readExportType name) fun _ => True := fun _ _ _ _ => trivial
  exact ⟨readString_answers format _ _ _ nameRead, readString_answers format _ _ _ kiraRead,
    (readList_answers format all _ _ _ paramsRead).1⟩

theorem readExports_answers : Answers (readExports format) ExportTable.Fits := by
  intro cursor table after succeeds
  simp only [readExports, bind_ok_iff, pure_ok_iff] at succeeds
  obtain ⟨classes, _, classesRead, functions, _, functionsRead, rfl, rfl⟩ := succeeds
  exact ⟨readTable_answers format _ (fun _ => readString_answers format) _ _ _ classesRead,
    readTable_answers format _ (fun _ => readExport_answers format) _ _ _ functionsRead⟩

theorem readSignature_answers (named : String) :
    Answers (readSignature format named) ForeignSignature.Bare := by
  intro cursor signature after succeeds
  simp only [readSignature, bind_ok_iff, pure_ok_iff] at succeeds
  obtain ⟨parameters, _, parametersRead, _, _, -, rfl, rfl⟩ := succeeds
  have all (_ : Nat) : Answers (readSpec named) fun _ => True := fun _ _ _ _ => trivial
  exact ⟨(readList_answers format all _ _ _ parametersRead).1, rfl⟩

theorem readImport_answers :
    Answers (readImport format)
      (fun imported => imported.Fits ∧ imported.signature.retained = []) := by
  intro cursor imported after succeeds
  simp only [readImport, bind_ok_iff, pure_ok_iff] at succeeds
  obtain ⟨library, _, libraryRead, symbol, _, symbolRead, _, _, -, _, _, -, signature, _,
    signatureRead, rfl, rfl⟩ := succeeds
  obtain ⟨short, bare⟩ := readSignature_answers format symbol _ _ _ signatureRead
  exact ⟨⟨readString_answers format _ _ _ libraryRead, readString_answers format _ _ _ symbolRead,
    short⟩, bare⟩

theorem readAggregate_answers (index : Nat) :
    Answers (readAggregate format index) (fun row => row.members.length < 2 ^ 64) := by
  intro cursor row after succeeds
  obtain ⟨members, membersRead, rfl⟩ := map_ok_iff.mp succeeds
  have all (_ : Nat) : Answers (readMember index) fun _ => True := fun _ _ _ _ => trivial
  exact (readList_answers format all _ _ _ membersRead).1

theorem readAggregateRows_answers {index count : Nat} {aggregates result : ForeignAggregates}
    (fits : ∀ row ∈ aggregates.entries, row.members.length < 2 ^ 64)
    (succeeds : readAggregateRows format index count aggregates cursor = .ok (result, after)) :
    result.entries.length = aggregates.entries.length + count ∧
      ∀ row ∈ result.entries, row.members.length < 2 ^ 64 := by
  induction count generalizing index aggregates cursor with
  | zero =>
    obtain ⟨rfl, -⟩ := pure_ok_iff.mp succeeds
    exact ⟨rfl, fits⟩
  | succ count ih =>
    obtain ⟨row, middle, rowRead, matched⟩ := bind_ok_iff.mp succeeds
    have rowFits := readAggregate_answers format index _ _ _ rowRead
    cases pushing : aggregates.push row with
    | error error => simp [pushing] at matched
    | ok pushed =>
      rw [pushing] at matched
      have entriesEq := ForeignAggregates.push_ok_iff.mp pushing
      have pushedFits : ∀ other ∈ pushed.entries, other.members.length < 2 ^ 64 := by
        rw [entriesEq]
        simpa [or_imp, forall_and] using ⟨fits, rowFits⟩
      obtain ⟨lengthEq, allFit⟩ := ih pushedFits matched
      refine ⟨?_, allFit⟩
      rw [lengthEq, entriesEq, List.length_append, List.length_singleton]
      omega

theorem readAggregateTable_answers :
    Answers (readAggregateTable format) ForeignAggregates.Fits := by
  intro cursor aggregates after succeeds
  obtain ⟨count, middle, counted, rowsRead⟩ := bind_ok_iff.mp succeeds
  obtain ⟨lengthEq, fits⟩ := readAggregateRows_answers format (by simp [ForeignAggregates.empty])
    rowsRead
  have small := (readIndexCount_ok_iff.mp counted).1
  refine ⟨?_, fits⟩
  simp only [ForeignAggregates.empty, List.length_nil, Nat.zero_add] at lengthEq
  omega

theorem readCallback_answers (aggregates : ForeignAggregates) (index : Nat) :
    Answers (readCallback format aggregates index)
      (fun callback => callback.signature.Bare ∧
        unresolved aggregates callback.signature = none) := by
  intro cursor callback after succeeds
  simp only [readCallback, bind_ok_iff] at succeeds
  obtain ⟨_, _, -, signature, _, signatureRead, matched⟩ := succeeds
  cases missing : unresolved aggregates signature with
  | some id => simp [missing] at matched
  | none =>
    rw [missing] at matched
    obtain ⟨rfl, -⟩ := pure_ok_iff.mp matched
    exact ⟨readSignature_answers format _ _ _ _ signatureRead, missing⟩

theorem readRelease_answers : Answers (readRelease format) FrameRelease.Fits := by
  intro cursor releases after succeeds
  obtain ⟨count, middle, counted, matched⟩ := bind_ok_iff.mp succeeds
  split at matched
  case isTrue =>
    obtain ⟨rfl, -⟩ := pure_ok_iff.mp matched
    trivial
  case isFalse planned =>
    obtain ⟨slots, slotsRead, rfl⟩ := map_ok_iff.mp matched
    have all (_ : Nat) : Answers (readShape format) fun _ => True := fun _ _ _ _ => trivial
    have lengthEq := (many_answers all 0 count.toNat _ _ _ slotsRead).1
    simp only [FrameRelease.Fits]
    cases format with
    | legacy =>
      have := readCount_legacy_lt counted
      omega
    | wide =>
      have notSentinel : count.toNat ≠ 2 ^ 64 - 1 := fun same =>
        planned (UInt64.toNat_inj.mp same)
      have := count.toNat_lt
      omega

theorem readReleases_answers (functions : List FuncProto) :
    Answers (readReleases format functions) (List.Forall₂ Replans functions) := by
  intro cursor replanned after succeeds
  obtain ⟨entries, middle, -, matched⟩ := bind_ok_iff.mp succeeds
  obtain ⟨-, rows⟩ := fail_ite_ok_iff.mp matched
  refine each_answers ?_ functions _ _ _ rows
  intro function cursor replanned after succeeds
  simp only [bind_ok_iff, pure_ok_iff] at succeeds
  obtain ⟨releases, _, releasesRead, rfl, -⟩ := succeeds
  exact ⟨rfl, readRelease_answers format _ _ _ releasesRead⟩

theorem readPositions_answers {symbol : String} {count : Nat} {flags result : List Bool}
    (small : ∀ position ∈ setPositions flags, position < 2 ^ 32)
    (succeeds : readPositions symbol count flags cursor = .ok (result, after)) :
    ∀ position ∈ setPositions result, position < 2 ^ 32 := by
  induction count generalizing flags cursor with
  | zero =>
    obtain ⟨rfl, -⟩ := pure_ok_iff.mp succeeds
    exact small
  | succ count ih =>
    obtain ⟨read, middle, -, matched⟩ := bind_ok_iff.mp succeeds
    cases found : flags[read.toNat]? with
    | none => simp [found] at matched
    | some flag =>
      cases flag with
      | true => simp [found] at matched
      | false =>
        rw [found] at matched
        refine ih ?_ matched
        intro position kept
        rw [mem_setPositions, List.getElem?_set] at kept
        by_cases same : read.toNat = position
        · exact same ▸ read.toNat_lt
        · rw [if_neg same] at kept
          exact small position (mem_setPositions.mpr kept)

/-- The import with retained flags of 32-bit positions, all else unchanged. -/
def Retains (base imported : ForeignImport) : Prop :=
  imported.library = base.library ∧ imported.symbol = base.symbol ∧
    imported.signature.specs = base.signature.specs ∧
    imported.signature.parameters = base.signature.parameters ∧
    ∀ position ∈ setPositions imported.signature.retained, position < 2 ^ 32

theorem retains_self {base : ForeignImport} (bare : base.signature.retained = []) :
    Retains base base :=
  ⟨rfl, rfl, rfl, rfl, by simp [bare, setPositions]⟩

theorem readRetained_answers {base : ForeignImport} (bare : base.signature.retained = []) :
    Answers (readRetained format base) (Retains base) := by
  intro cursor imported after succeeds
  simp only [readRetained, bind_ok_iff, pure_ok_iff] at succeeds
  obtain ⟨count, _, -, flags, _, flagsRead, rfl, -⟩ := succeeds
  have small := readPositions_answers (by simp [mem_setPositions, List.getElem?_replicate])
    flagsRead
  unfold ForeignImport.retainParameters ForeignSignature.withRetained
  split
  case isTrue => exact ⟨rfl, rfl, rfl, rfl, small⟩
  case isFalse => exact retains_self bare

theorem readForeignRetained_answers {bases : List ForeignImport}
    (bare : ∀ base ∈ bases, base.signature.retained = []) :
    Answers (readForeignRetained format bases) (List.Forall₂ Retains bases) := by
  intro cursor imports after succeeds
  obtain ⟨rows, middle, -, matched⟩ := bind_ok_iff.mp succeeds
  obtain ⟨-, rowsRead⟩ := fail_ite_ok_iff.mp matched
  clear matched succeeds
  induction bases generalizing middle imports with
  | nil =>
    obtain ⟨rfl, -⟩ := pure_ok_iff.mp rowsRead
    exact .nil
  | cons base bases ih =>
    simp only [each, bind_ok_iff, pure_ok_iff] at rowsRead
    obtain ⟨first, next, firstRead, rest, _, restRead, rfl, rfl⟩ := rowsRead
    exact .cons (readRetained_answers format (bare base (by simp)) _ _ _ firstRead)
      (ih (fun other member => bare other (by simp [member])) _ next restRead)

theorem readConstants_answers (functions : Nat) :
    Answers (readConstants format functions)
      (fun constants => constants.length < 2 ^ 64 ∧ ∀ init ∈ constants, init.toNat < functions) := by
  refine readList_answers format fun slot => ?_
  intro cursor init after succeeds
  obtain ⟨read, _, -, matched⟩ := bind_ok_iff.mp succeeds
  obtain ⟨inRange, same⟩ := fail_ite_ok_iff.mp matched
  obtain ⟨rfl, -⟩ := pure_ok_iff.mp same
  exact Nat.lt_of_not_le inRange

theorem readType_answers : Answers (readType format) TypeDescriptorRow.Fits := by
  intro cursor row after succeeds
  simp only [readType, bind_ok_iff, pure_ok_iff] at succeeds
  obtain ⟨_, _, nameRead, _, _, packageRead, _, _, kindRead, _, _, argumentsRead, _, _,
    conformancesRead, rfl, rfl⟩ := succeeds
  have all (_ : Nat) : Answers takeU64 fun _ => True := fun _ _ _ _ => trivial
  exact ⟨readString_answers format _ _ _ nameRead, readString_answers format _ _ _ packageRead,
    readString_answers format _ _ _ kindRead, (readList_answers format all _ _ _ argumentsRead).1,
    readList_answers format (fun _ => readString_answers format) _ _ _ conformancesRead⟩

theorem readHead_answers :
    Answers (readHead format)
      (fun head => (head.2.1.length < 2 ^ 64 ∧ ∀ text ∈ head.2.1, TextFits text) ∧
        head.2.2.length < 2 ^ 64 ∧
          ∀ function ∈ head.2.2, function.Fits ∧ function.releases = .everyLocal) := by
  intro cursor head after succeeds
  simp only [readHead, bind_ok_iff, pure_ok_iff] at succeeds
  obtain ⟨_, _, -, _, _, stringsRead, _, _, functionsRead, rfl, rfl⟩ := succeeds
  exact ⟨readList_answers format (fun _ => readString_answers format) _ _ _ stringsRead,
    readList_answers format (fun _ => readFunction_answers format) _ _ _ functionsRead⟩

end Answers

theorem Replans.refl {function : FuncProto} (everyLocal : function.releases = .everyLocal) :
    Replans function function :=
  ⟨rfl, by rw [everyLocal]; trivial⟩

theorem Replans.fits {function replanned : FuncProto} (replans : Replans function replanned)
    (fits : function.Fits) : replanned.Fits ∧ replanned.releases.Fits := by
  obtain ⟨same, planFits⟩ := replans
  refine ⟨?_, planFits⟩
  rw [same]
  exact fits

theorem Retains.fits {base imported : ForeignImport} (retains : Retains base imported)
    (fits : base.Fits) : imported.Fits ∧ imported.RetainedFits := by
  obtain ⟨sameLibrary, sameSymbol, -, sameParameters, small⟩ := retains
  obtain ⟨libraryFits, symbolFits, short⟩ := fits
  exact ⟨⟨sameLibrary ▸ libraryFits, sameSymbol ▸ symbolFits, sameParameters ▸ short⟩,
    sameParameters ▸ short, small⟩

theorem Retains.unresolved_eq {base imported : ForeignImport} (retains : Retains base imported)
    (aggregates : ForeignAggregates) :
    unresolved aggregates imported.signature = unresolved aggregates base.signature := by
  rw [unresolved, retains.2.2.1, unresolved]

theorem forall₂_exists_left {α β : Type} {relation : α → β → Prop} {left : List α}
    {right : List β} (rows : List.Forall₂ relation left right) {value : β}
    (member : value ∈ right) : ∃ source ∈ left, relation source value := by
  induction rows with
  | nil => simp at member
  | cons related _ ih =>
    obtain rfl | behind := List.mem_cons.mp member
    · exact ⟨_, by simp, related⟩
    · obtain ⟨source, sourceMember, holds⟩ := ih behind
      exact ⟨source, List.mem_cons_of_mem _ sourceMember, holds⟩

/-- Whatever is read behind a head that fits can be written. -/
theorem readSections_answers (format : Format) (main : Option UInt32) {strings : List String}
    {functions : List FuncProto}
    (stringsFit : strings.length < 2 ^ 64 ∧ ∀ text ∈ strings, TextFits text)
    (functionsFit : functions.length < 2 ^ 64 ∧
      ∀ function ∈ functions, function.Fits ∧ function.releases = .everyLocal) :
    Answers (readSections format main strings functions) Module.Encodable := by
  intro cursor program after succeeds
  simp only [readSections, bind_ok_iff] at succeeds
  obtain ⟨exports, _, exportsRead, imports, _, importsRead, aggregates, _, aggregatesRead, _, _,
    importsChecked, callbacks, _, callbacksRead, replanned, _, releasesRead, retained, _,
    retainedRead, constants, _, constantsRead, types, _, typesRead, left, _, -, matched⟩ := succeeds
  obtain ⟨-, same⟩ := fail_ite_ok_iff.mp matched
  obtain ⟨rfl, -⟩ := pure_ok_iff.mp same
  have exportsFit := optional_answers (by simp [ExportTable.Fits, ExportTable.default])
    (readExports_answers format) _ _ _ exportsRead
  have importsFit := optional_answers (by simp)
    (readTable_answers format "foreign import" fun _ => readImport_answers format) _ _ _ importsRead
  have aggregatesFit := optional_answers
    (by simp [ForeignAggregates.Fits, ForeignAggregates.empty])
    (readAggregateTable_answers format) _ _ _ aggregatesRead
  obtain ⟨resolve, rfl⟩ := checkImports_ok_iff.mp importsChecked
  have callbacksFit := optional_answers (by simp)
    (readTable_answers format "foreign callback" (readCallback_answers format aggregates)) _ _ _
    callbacksRead
  have plans := optional_answers
    (List.forall₂_same.mpr fun function member => Replans.refl (functionsFit.2 function member).2)
    (readReleases_answers format functions) _ _ _ releasesRead
  have retains := optional_answers
    (List.forall₂_same.mpr fun imported member => retains_self (importsFit.2 imported member).2)
    (readForeignRetained_answers format fun imported member => (importsFit.2 imported member).2)
    _ _ _ retainedRead
  have constantsFit := optional_answers (by simp)
    (readConstants_answers format replanned.length) _ _ _ constantsRead
  have typesFit := optional_answers (by simp)
    (readList_answers format fun _ => readType_answers format) _ _ _ typesRead
  refine ⟨⟨stringsFit, ⟨plans.length_eq ▸ functionsFit.1, ?_⟩, exportsFit,
    ⟨retains.length_eq ▸ importsFit.1, ?_⟩, aggregatesFit, ⟨callbacksFit.1, ?_⟩, constantsFit.1,
    typesFit, ?_, ?_⟩, constantsFit.2, ?_⟩
  · intro function member
    obtain ⟨source, sourceMember, replans⟩ := forall₂_exists_left plans member
    exact replans.fits (functionsFit.2 source sourceMember).1
  · intro imported member
    obtain ⟨base, baseMember, retaining⟩ := forall₂_exists_left retains member
    exact retaining.fits (importsFit.2 base baseMember).1
  · exact fun callback member => (callbacksFit.2 callback member).1.1
  · intro imported member
    obtain ⟨base, baseMember, retaining⟩ := forall₂_exists_left retains member
    rw [retaining.unresolved_eq]
    exact resolve base baseMember
  · exact fun callback member => (callbacksFit.2 callback member).2
  · exact fun callback member => (callbacksFit.2 callback member).1.2

/-- Whatever decodes, from either format, can be written. -/
theorem Module.encodable_of_fromBytes {bytes : List UInt8} {program : Module}
    (decodes : fromBytes bytes = .ok program) : program.Encodable := by
  obtain ⟨after, moduleRead⟩ := fromBytes_ok_iff.mp decodes
  obtain ⟨format, _, -, behind⟩ := bind_ok_iff.mp moduleRead
  obtain ⟨⟨main, strings, functions⟩, _, headRead, sectionsRead⟩ := bind_ok_iff.mp behind
  obtain ⟨stringsFit, functionsFit⟩ := readHead_answers format _ _ _ headRead
  exact readSections_answers format main stringsFit functionsFit _ _ _ sectionsRead

/-- Modules survive writing and reading, and decoded modules survive reading,
writing and reading again, whichever format they came from. -/
theorem module_round_trip :
    (∀ program : Module, program.Encodable →
      Module.fromBytes program.toBytes = .ok program) ∧
    (∀ (bytes : List UInt8) (program : Module), Module.fromBytes bytes = .ok program →
      Module.fromBytes program.toBytes = .ok program) :=
  ⟨fun _ encodable => Module.fromBytes_toBytes encodable,
    fun _ _ decodes => Module.fromBytes_toBytes (Module.encodable_of_fromBytes decodes)⟩

/-- One function that returns, with its plan, a constant it initialises and a
type row; everything between is empty. -/
def constantModule : Module where
  functions := [⟨"", 0, 1, .runtime, [.constVoid, .return_], .planned [0]⟩]
  main := some 0
  strings := []
  exports := .default
  foreignImports := []
  foreignAggregates := .empty
  foreignCallbacks := []
  constants := [0]
  types := [⟨"", "", "", [0], []⟩]

/-- The previous format's bytes of a module with nothing in it. -/
def legacyEmptyBytes : List UInt8 :=
  legacyMagic ++ [255, 255, 255, 255, 0, 0, 0, 0, 0, 0, 0, 0]

def emptyModule : Module :=
  .head none [] []

theorem module_round_trip_example :
    (constantModule.Encodable ∧
      Module.fromBytes constantModule.toBytes = .ok constantModule) ∧
    Module.fromBytes legacyEmptyBytes = .ok emptyModule ∧
      Module.fromBytes emptyModule.toBytes = .ok emptyModule :=
  ⟨⟨by decide, module_round_trip.1 constantModule (by decide)⟩,
    by decide, module_round_trip.2 legacyEmptyBytes emptyModule (by decide)⟩

/-- A constant whose initialiser names no function. -/
def danglingConstant : Module :=
  { emptyModule with constants := [0] }

/-- A callback whose signature retains its parameter: only imports have a
retained row in the format. -/
def retainingCallback : Module :=
  { emptyModule with
    foreignCallbacks := [⟨0, ⟨[.scalar .i64], .scalar .i64, [true], by decide⟩⟩] }

theorem module_round_trip_needs_resolved_constants :
    (danglingConstant.WellFormed ∧ Module.fromBytes danglingConstant.toBytes =
      .error (.constantInitOutOfRange 0 0 0)) ∧
    retainingCallback.WellFormed ∧ Module.fromBytes retainingCallback.toBytes =
      .ok { emptyModule with foreignCallbacks := [⟨0, .new [.scalar .i64] (.scalar .i64)⟩] } ∧
    Module.fromBytes retainingCallback.toBytes ≠ .ok retainingCallback := by
  decide

end KiraVm
