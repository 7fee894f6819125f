import KiraVm.ForeignFields

/-!
# The tables of a wide module

In the wide format every table but the retained-parameter plans is coded
exactly: its reader succeeds on its writer's bytes and on nothing else.  A
retained plan lists positions in any order, so it is recovered from the bytes
written for it, in ascending order.
-/

namespace KiraVm

open ByteReader ByteReader.Reader

/-! ## Words, texts and tables -/

variable {cursor after : Cursor}

@[simp]
theorem takeByte_ok_iff {result : UInt8} :
    takeByte cursor = .ok (result, after) ↔ Spans cursor [result] after :=
  byte_ok_iff

@[simp]
theorem takeU32_ok_iff {result : UInt32} :
    takeU32 cursor = .ok (result, after) ↔ Spans cursor (u32Bytes result) after :=
  u32_ok_iff

@[simp]
theorem takeU64_ok_iff {result : UInt64} :
    takeU64 cursor = .ok (result, after) ↔ Spans cursor (u64Bytes result) after :=
  u64_ok_iff

@[simp]
theorem readCount_wide : readCount .wide = takeU64 := rfl

@[simp]
theorem readShape_wide : readShape .wide = takeU64 := rfl

theorem readIndexCount_ok_iff {format : Format} {table : String} {result : UInt64} :
    readIndexCount format table cursor = .ok (result, after) ↔
      result.toNat < 2 ^ 32 ∧ readCount format cursor = .ok (result, after) := by
  simp only [readIndexCount, bind_ok_iff, ite_fail_ok_iff, pure_ok_iff]
  constructor
  · rintro ⟨_, _, counted, small, rfl, rfl⟩
    exact ⟨small, counted⟩
  · rintro ⟨small, counted⟩
    exact ⟨_, _, counted, small, rfl, rfl⟩

theorem readLenPrefixed_ok_iff {format : Format} {bytes : List UInt8} :
    readLenPrefixed format cursor = .ok (bytes, after) ↔
      ∃ len middle, readCount format cursor = .ok (len, middle) ∧
        bytes.length = len.toNat ∧ Spans middle bytes after := by
  have inRange (len : UInt64) : len.toNat < usizeLimit := len.toNat_lt
  simp [readLenPrefixed, inRange, takeBytes]

theorem readLenPrefixed_codes :
    Codes (readLenPrefixed .wide) (fun bytes => bytes.length < 2 ^ 64) writeBytes := by
  intro cursor bytes after
  simp only [readLenPrefixed_ok_iff, readCount_wide, takeU64_ok_iff, writeBytes, spans_append]
  constructor
  · rintro ⟨len, middle, lenSpans, lengthEq, spans⟩
    refine ⟨lengthEq ▸ len.toNat_lt, middle, ?_, spans⟩
    rwa [countBytes, lengthEq, UInt64.ofNat_toNat]
  · rintro ⟨fits, middle, lenSpans, spans⟩
    exact ⟨UInt64.ofNat bytes.length, middle, lenSpans, (toNat_ofNat_of_fits fits).symm, spans⟩

theorem fromUTF8_eq_some_iff {bytes : List UInt8} {text : String} :
    String.fromUTF8? ⟨bytes.toArray⟩ = some text ↔ textBytes text = bytes := by
  simp only [String.fromUTF8?, textBytes]
  constructor
  · intro found
    split at found
    case isTrue valid =>
      cases found
      rfl
    case isFalse => cases found
  · rintro rfl
    have same : (⟨text.toByteArray.data.toList.toArray⟩ : ByteArray) = text.toByteArray := by
      simp
    rw [same, dif_pos text.isValidUTF8]
    rfl

def TextFits (text : String) : Prop :=
  (textBytes text).length < 2 ^ 64

instance : DecidablePred TextFits := fun _ => Nat.decLt _ _

theorem readString_codes : Codes (readString .wide) TextFits writeText := by
  intro cursor text after
  simp only [readString, bind_ok_iff, okOr_ok_iff, readLenPrefixed_codes _ _ _,
    fromUTF8_eq_some_iff, writeText, TextFits]
  constructor
  · rintro ⟨_, _, ⟨fits, spans⟩, rfl, rfl⟩
    exact ⟨fits, spans⟩
  · rintro ⟨fits, spans⟩
    exact ⟨_, _, ⟨fits, spans⟩, rfl, rfl⟩

theorem readList_codes {α : Type} {read : Nat → ModuleReader α} {fits : α → Prop}
    {write : α → List UInt8} (codes : ∀ index, Codes (read index) fits write) :
    Codes (readList .wide read)
      (fun values => values.length < 2 ^ 64 ∧ ∀ value ∈ values, fits value)
      (writeList write) :=
  counted_codes codes

theorem readTable_codes {α : Type} (table : String) {read : Nat → ModuleReader α}
    {fits : α → Prop} {write : α → List UInt8}
    (codes : ∀ index, Codes (read index) fits write) :
    Codes (readTable .wide table read)
      (fun values => values.length < 2 ^ 32 ∧ ∀ value ∈ values, fits value)
      (writeList write) := by
  intro cursor values after
  have list := readList_codes codes cursor values after
  simp only [readList, readTable, bind_ok_iff, readIndexCount_ok_iff, readCount_wide,
    many_codes codes _ _ _ _ _] at list ⊢
  constructor
  · rintro ⟨count, middle, ⟨small, counted⟩, ⟨lengthEq, allFit⟩, spans⟩
    obtain ⟨-, written⟩ := list.mp ⟨count, middle, counted, ⟨lengthEq, allFit⟩, spans⟩
    exact ⟨⟨lengthEq ▸ small, allFit⟩, written⟩
  · rintro ⟨⟨small, allFit⟩, written⟩
    obtain ⟨count, middle, counted, ⟨lengthEq, -⟩, spans⟩ :=
      list.mpr ⟨⟨by omega, allFit⟩, written⟩
    exact ⟨count, middle, ⟨lengthEq ▸ small, counted⟩, ⟨lengthEq, allFit⟩, spans⟩

theorem words_codes : ∀ _ : Nat, Codes takeU64 (fun _ => True) u64Bytes := by
  intro _ cursor word after
  simp

/-! ## The head -/

theorem readMain_codes : Codes (readMain .wide) (fun _ => True) writeMain := by
  intro cursor main after
  change (takeU64 >>= _) cursor = _ ↔ _
  simp only [bind_ok_iff, takeU64_ok_iff, true_and, writeMain]
  constructor
  · rintro ⟨index, middle, spans, checked⟩
    split at checked
    case isTrue absent =>
      obtain ⟨rfl, rfl⟩ := pure_ok_iff.mp checked
      exact absent ▸ spans
    case isFalse =>
      split at checked
      case isTrue small =>
        obtain ⟨rfl, rfl⟩ := pure_ok_iff.mp checked
        have widened : index.toUInt32.toUInt64 = index := by
          apply UInt64.toNat_inj.mp
          simpa using small
        simpa [widened] using spans
      case isFalse => exact absurd checked (by simp)
  · intro spans
    refine ⟨_, _, spans, ?_⟩
    cases main with
    | none => exact pure_ok_iff.mpr ⟨rfl, rfl⟩
    | some index =>
      have small : index.toUInt64.toNat < 2 ^ 32 := by simpa using index.toNat_lt
      have present : index.toUInt64 ≠ noEntrypointWide := by
        intro absent
        rw [absent] at small
        exact absurd small (by decide)
      rw [Option.elim_some, if_neg present, if_pos small]
      simp

def FuncProto.Fits (function : FuncProto) : Prop :=
  TextFits function.name ∧ (∀ instruction ∈ function.code, instruction.Fits) ∧
    (encode function.code).length < 2 ^ 64

instance : DecidablePred FuncProto.Fits := fun _ => instDecidableAnd

theorem readCode_codes :
    Codes (readCode .wide)
      (fun code => (∀ instruction ∈ code, instruction.Fits) ∧ (encode code).length < 2 ^ 64)
      (fun code => writeBytes (encode code)) := by
  intro cursor code after
  simp only [readCode, bind_ok_iff, readLenPrefixed_codes _ _ _]
  constructor
  · rintro ⟨bytes, middle, ⟨fits, spans⟩, matched⟩
    cases found : decodeWithWidth bytes (Format.isLegacy .wide) with
    | error error => exact absurd matched (by simp [found])
    | ok decoded =>
      rw [found] at matched
      obtain ⟨rfl, rfl⟩ := pure_ok_iff.mp matched
      obtain ⟨codeFits, rfl⟩ := decode_ok_iff.mp found
      exact ⟨⟨codeFits, fits⟩, spans⟩
  · rintro ⟨⟨codeFits, fits⟩, spans⟩
    refine ⟨encode code, after, ⟨fits, spans⟩, ?_⟩
    have decoded : decodeWithWidth (encode code) (Format.isLegacy .wide) = .ok code :=
      decode_ok_iff.mpr ⟨codeFits, rfl⟩
    rw [decoded]
    exact pure_ok_iff.mpr ⟨rfl, rfl⟩

theorem readFunction_codes :
    Codes (readFunction .wide)
      (fun function => function.Fits ∧ function.releases = .everyLocal) writeFunction := by
  rintro cursor ⟨name, paramCount, localCount, execution, code, releases⟩ after
  simp only [readFunction, bind_ok_iff, pure_ok_iff, okOr_ok_iff, readString_codes _ _ _,
    readShape_wide, takeU64_ok_iff, takeByte_ok_iff, readCode_codes _ _ _,
    Execution.fromByte_eq_some_iff, FuncProto.mk.injEq, FuncProto.Fits, writeFunction,
    spans_append]
  constructor
  · rintro ⟨_, first, ⟨nameFits, nameSpans⟩, _, second, paramSpans, _, third, localSpans, _,
      fourth, byteSpans, _, _, ⟨rfl, rfl⟩, _, _, ⟨codeFits, codeSpans⟩,
      ⟨rfl, rfl, rfl, rfl, rfl, rfl⟩, rfl⟩
    exact ⟨⟨⟨nameFits, codeFits⟩, rfl⟩, first, nameSpans, second, paramSpans, third, localSpans,
      fourth, byteSpans, codeSpans⟩
  · rintro ⟨⟨⟨nameFits, codeFits⟩, rfl⟩, first, nameSpans, second, paramSpans, third, localSpans,
      fourth, byteSpans, codeSpans⟩
    exact ⟨_, first, ⟨nameFits, nameSpans⟩, _, second, paramSpans, _, third, localSpans, _,
      fourth, byteSpans, _, _, ⟨rfl, rfl⟩, _, _, ⟨codeFits, codeSpans⟩,
      ⟨rfl, rfl, rfl, rfl, rfl, rfl⟩, rfl⟩

/-! ## Exports -/

theorem readExportType_codes (name : String) :
    Codes (readExportType name) (fun _ => True) writeExportType := by
  intro cursor ty after
  simp only [readExportType, bind_ok_iff, takeByte_ok_iff, takeU32_ok_iff, okOr_ok_iff,
    ExportType.fromWire_eq_some_iff, true_and, writeExportType, spans_append]
  constructor
  · rintro ⟨_, middle, tagSpans, _, _, indexSpans, ⟨rfl, rfl⟩, rfl⟩
    exact ⟨middle, tagSpans, indexSpans⟩
  · rintro ⟨middle, tagSpans, indexSpans⟩
    exact ⟨_, middle, tagSpans, _, _, indexSpans, ⟨rfl, rfl⟩, rfl⟩

def ModuleExport.Fits (exported : ModuleExport) : Prop :=
  TextFits exported.name ∧ TextFits exported.kiraName ∧ exported.params.length < 2 ^ 64

instance : DecidablePred ModuleExport.Fits := fun _ => instDecidableAnd

theorem readExport_codes : Codes (readExport .wide) ModuleExport.Fits writeExport := by
  rintro cursor ⟨name, kiraName, function, params, result⟩ after
  simp only [readExport, bind_ok_iff, pure_ok_iff, readString_codes _ _ _, takeU32_ok_iff,
    readList_codes (fun _ => readExportType_codes _) _ _ _, readExportType_codes _ _ _ _,
    ModuleExport.mk.injEq, ModuleExport.Fits, writeExport, spans_append]
  constructor
  · rintro ⟨_, first, ⟨nameFits, nameSpans⟩, _, second, ⟨kiraFits, kiraSpans⟩, _, third,
      functionSpans, _, fourth, ⟨⟨paramsFit, -⟩, paramsSpans⟩, _, _, ⟨-, resultSpans⟩,
      ⟨rfl, rfl, rfl, rfl, rfl⟩, rfl⟩
    exact ⟨⟨nameFits, kiraFits, paramsFit⟩, first, nameSpans, second, kiraSpans, third,
      functionSpans, fourth, paramsSpans, resultSpans⟩
  · rintro ⟨⟨nameFits, kiraFits, paramsFit⟩, first, nameSpans, second, kiraSpans, third,
      functionSpans, fourth, paramsSpans, resultSpans⟩
    exact ⟨_, first, ⟨nameFits, nameSpans⟩, _, second, ⟨kiraFits, kiraSpans⟩, _, third,
      functionSpans, _, fourth, ⟨⟨paramsFit, fun _ _ => trivial⟩, paramsSpans⟩, _, _,
      ⟨trivial, resultSpans⟩, ⟨rfl, rfl, rfl, rfl, rfl⟩, rfl⟩

def ExportTable.Fits (table : ExportTable) : Prop :=
  (table.classes.length < 2 ^ 32 ∧ ∀ text ∈ table.classes, TextFits text) ∧
    table.functions.length < 2 ^ 32 ∧ ∀ exported ∈ table.functions, exported.Fits

instance : DecidablePred ExportTable.Fits := fun _ => instDecidableAnd

theorem readExports_codes : Codes (readExports .wide) ExportTable.Fits writeExports := by
  rintro cursor ⟨classes, functions⟩ after
  simp only [readExports, bind_ok_iff, pure_ok_iff,
    readTable_codes _ (fun _ => readString_codes) _ _ _,
    readTable_codes _ (fun _ => readExport_codes) _ _ _, ExportTable.mk.injEq, ExportTable.Fits,
    writeExports, spans_append]
  constructor
  · rintro ⟨_, middle, ⟨classesFit, classesSpans⟩, _, _, ⟨functionsFit, functionsSpans⟩,
      ⟨rfl, rfl⟩, rfl⟩
    exact ⟨⟨classesFit, functionsFit⟩, middle, classesSpans, functionsSpans⟩
  · rintro ⟨⟨classesFit, functionsFit⟩, middle, classesSpans, functionsSpans⟩
    exact ⟨_, middle, ⟨classesFit, classesSpans⟩, _, _, ⟨functionsFit, functionsSpans⟩,
      ⟨rfl, rfl⟩, rfl⟩

/-! ## Foreign signatures and imports -/

theorem readSpec_codes (imported : String) :
    Codes (readSpec imported) (fun _ => True) writeSpec :=
  specReader_codes _ _

/-- A signature as it is written: its retained flags are not part of it. -/
def ForeignSignature.Bare (signature : ForeignSignature) : Prop :=
  signature.parameters.length < 2 ^ 64 ∧ signature.retained = []

theorem ForeignSignature.eq_new_iff {signature : ForeignSignature}
    {parameters : List ForeignTypeSpec} {result : ForeignTypeSpec} :
    ForeignSignature.new parameters result = signature ↔
      parameters = signature.parameters ∧ result = signature.result ∧
        signature.retained = [] := by
  obtain ⟨otherParameters, otherResult, retained, shape⟩ := signature
  simp [ForeignSignature.new, eq_comm]

theorem readSignature_codes (named : String) :
    Codes (readSignature .wide named) ForeignSignature.Bare writeSignature := by
  intro cursor signature after
  simp only [readSignature, bind_ok_iff, pure_ok_iff, readSpec_codes _ _ _ _,
    readList_codes (fun _ => readSpec_codes named) _ _ _, ForeignSignature.eq_new_iff,
    ForeignSignature.Bare, writeSignature, spans_append]
  constructor
  · rintro ⟨_, middle, ⟨⟨short, -⟩, paramsSpans⟩, _, _, ⟨-, resultSpans⟩, ⟨rfl, rfl, bare⟩, rfl⟩
    exact ⟨⟨short, bare⟩, middle, paramsSpans, resultSpans⟩
  · rintro ⟨⟨short, bare⟩, middle, paramsSpans, resultSpans⟩
    exact ⟨_, middle, ⟨⟨short, fun _ _ => trivial⟩, paramsSpans⟩, _, _, ⟨trivial, resultSpans⟩,
      ⟨rfl, rfl, bare⟩, rfl⟩

def ForeignImport.Fits (imported : ForeignImport) : Prop :=
  TextFits imported.library ∧ TextFits imported.symbol ∧
    imported.signature.parameters.length < 2 ^ 64

instance : DecidablePred ForeignImport.Fits := fun _ => instDecidableAnd

theorem readImport_codes :
    Codes (readImport .wide)
      (fun imported => imported.Fits ∧ imported.signature.retained = []) writeImport := by
  rintro cursor ⟨library, symbol, abi, signature⟩ after
  simp only [readImport, bind_ok_iff, pure_ok_iff, okOr_ok_iff, readString_codes _ _ _,
    takeByte_ok_iff, ForeignAbi.fromTag_eq_some_iff, readSignature_codes _ _ _ _,
    ForeignImport.mk.injEq, ForeignImport.Fits, ForeignSignature.Bare, writeImport, spans_append]
  constructor
  · rintro ⟨_, first, ⟨libraryFits, librarySpans⟩, _, second, ⟨symbolFits, symbolSpans⟩, _, third,
      abiSpans, _, _, ⟨rfl, rfl⟩, _, _, ⟨⟨short, bare⟩, signatureSpans⟩, ⟨rfl, rfl, rfl, rfl⟩, rfl⟩
    exact ⟨⟨⟨libraryFits, symbolFits, short⟩, bare⟩, first, librarySpans, second, symbolSpans,
      third, abiSpans, signatureSpans⟩
  · rintro ⟨⟨⟨libraryFits, symbolFits, short⟩, bare⟩, first, librarySpans, second, symbolSpans,
      third, abiSpans, signatureSpans⟩
    exact ⟨_, first, ⟨libraryFits, librarySpans⟩, _, second, ⟨symbolFits, symbolSpans⟩, _, third,
      abiSpans, _, _, ⟨rfl, rfl⟩, _, _, ⟨⟨short, bare⟩, signatureSpans⟩, ⟨rfl, rfl, rfl, rfl⟩, rfl⟩

/-! ## Aggregates -/

theorem readMember_codes (index : Nat) :
    Codes (readMember index) (fun _ => True) writeMember :=
  memberReader_codes _ _

theorem readAggregate_codes (index : Nat) :
    Codes (readAggregate .wide index) (fun row => row.members.length < 2 ^ 64)
      writeAggregate := by
  rintro cursor ⟨members⟩ after
  simp only [readAggregate, map_ok_iff, readList_codes (fun _ => readMember_codes index) _ _ _,
    ForeignAggregate.mk.injEq, writeAggregate]
  constructor
  · rintro ⟨_, ⟨⟨short, -⟩, spans⟩, rfl⟩
    exact ⟨short, spans⟩
  · rintro ⟨short, spans⟩
    exact ⟨_, ⟨⟨short, fun _ _ => trivial⟩, spans⟩, rfl⟩

theorem readAggregateRows_eq (index count : Nat) (aggregates : ForeignAggregates) :
    readAggregateRows .wide index count aggregates =
      rowsReader (readAggregate .wide) .malformedForeignAggregate index count aggregates := by
  induction count generalizing index aggregates with
  | zero => rfl
  | succ count ih =>
    refine bind_congr fun row => ?_
    cases aggregates.push row with
    | error source => rfl
    | ok pushed => exact ih (index + 1) pushed

def ForeignAggregates.Fits (aggregates : ForeignAggregates) : Prop :=
  aggregates.entries.length < 2 ^ 32 ∧
    ∀ row ∈ aggregates.entries, row.members.length < 2 ^ 64

instance : DecidablePred ForeignAggregates.Fits := fun _ => instDecidableAnd

theorem readAggregateTable_codes :
    Codes (readAggregateTable .wide) ForeignAggregates.Fits writeForeignAggregates := by
  intro cursor aggregates after
  simp only [readAggregateTable, bind_ok_iff, readIndexCount_ok_iff, readCount_wide,
    takeU64_ok_iff, readAggregateRows_eq,
    rowsReader_ok_iff readAggregate_codes, ForeignAggregates.Fits, writeForeignAggregates,
    writeList, spans_append, ForeignAggregates.empty, List.nil_append]
  constructor
  · rintro ⟨count, middle, ⟨small, countSpans⟩, rows, lengthEq, rfl, short, spans⟩
    refine ⟨⟨lengthEq ▸ small, short⟩, middle, ?_, spans⟩
    rwa [countBytes, lengthEq, UInt64.ofNat_toNat]
  · rintro ⟨⟨small, short⟩, middle, countSpans, spans⟩
    have count : (UInt64.ofNat aggregates.entries.length).toNat = aggregates.entries.length :=
      toNat_ofNat_of_fits (by omega)
    exact ⟨UInt64.ofNat aggregates.entries.length, middle, ⟨by rwa [count], countSpans⟩,
      aggregates.entries, count.symm, rfl, short, spans⟩

/-! ## Callbacks -/

theorem readCallback_codes (aggregates : ForeignAggregates) (index : Nat) :
    Codes (readCallback .wide aggregates index)
      (fun callback => callback.signature.Bare ∧ unresolved aggregates callback.signature = none)
      writeCallback := by
  rintro cursor ⟨function, signature⟩ after
  simp only [readCallback, bind_ok_iff, takeU32_ok_iff, readSignature_codes _ _ _ _,
    writeCallback, spans_append]
  constructor
  · rintro ⟨_, middle, functionSpans, read, next, ⟨bare, signatureSpans⟩, matched⟩
    cases missing : unresolved aggregates read with
    | some id => simp [missing] at matched
    | none =>
      simp only [missing, pure_ok_iff, ForeignCallback.mk.injEq] at matched
      obtain ⟨⟨rfl, rfl⟩, rfl⟩ := matched
      exact ⟨⟨bare, missing⟩, middle, functionSpans, signatureSpans⟩
  · rintro ⟨⟨bare, resolved⟩, middle, functionSpans, signatureSpans⟩
    refine ⟨_, middle, functionSpans, _, after, ⟨bare, signatureSpans⟩, ?_⟩
    rw [resolved]
    exact pure_ok_iff.mpr ⟨rfl, rfl⟩

/-! ## Release plans -/

/-- The count of a plan is distinct from the word that stands for every local. -/
def FrameRelease.Fits : FrameRelease → Prop
  | .everyLocal => True
  | .planned slots => slots.length < 2 ^ 64 - 1

instance : DecidablePred FrameRelease.Fits
  | .everyLocal => instDecidableTrue
  | .planned _ => Nat.decLt _ _

theorem readRelease_codes : Codes (readRelease .wide) FrameRelease.Fits writeRelease := by
  intro cursor releases after
  change (takeU64 >>= _) cursor = _ ↔ _
  simp only [bind_ok_iff, takeU64_ok_iff]
  constructor
  · rintro ⟨count, middle, countSpans, matched⟩
    split at matched
    case isTrue everyLocal =>
      obtain ⟨rfl, rfl⟩ := pure_ok_iff.mp matched
      subst everyLocal
      exact ⟨trivial, countSpans⟩
    case isFalse planned =>
      obtain ⟨slots, slotsRead, rfl⟩ := map_ok_iff.mp matched
      obtain ⟨⟨lengthEq, -⟩, spans⟩ := (many_codes words_codes _ _ _ _ _).mp slotsRead
      have notSentinel : count.toNat ≠ 2 ^ 64 - 1 := fun same =>
        planned (UInt64.toNat_inj.mp same)
      have := count.toNat_lt
      refine ⟨by simp only [FrameRelease.Fits]; omega, spans_append.mpr ⟨middle, ?_, spans⟩⟩
      rwa [countBytes, lengthEq, UInt64.ofNat_toNat]
  · rintro ⟨fits, spans⟩
    cases releases with
    | everyLocal => exact ⟨everyLocalCount .wide, after, spans, pure_ok_iff.mpr ⟨rfl, rfl⟩⟩
    | planned slots =>
      obtain ⟨middle, countSpans, slotsSpans⟩ := spans_append.mp spans
      simp only [FrameRelease.Fits] at fits
      have count : (UInt64.ofNat slots.length).toNat = slots.length :=
        toNat_ofNat_of_fits (by omega)
      refine ⟨UInt64.ofNat slots.length, middle, countSpans, ?_⟩
      have notSentinel : UInt64.ofNat slots.length ≠ everyLocalCount .wide := by
        intro same
        rw [same] at count
        have sentinel : (everyLocalCount .wide).toNat = 2 ^ 64 - 1 := rfl
        omega
      rw [if_neg notSentinel]
      exact map_ok_iff.mpr ⟨slots, (many_codes words_codes _ _ _ _ _).mpr
        ⟨⟨count.symm, fun _ _ => trivial⟩, slotsSpans⟩, rfl⟩

/-- The function with a release plan that fits, all else unchanged. -/
def Replans (function replanned : FuncProto) : Prop :=
  replanned = { function with releases := replanned.releases } ∧ replanned.releases.Fits

theorem readReleases_codes (functions : List FuncProto) :
    Codes (readReleases .wide functions)
      (fun replanned => functions.length < 2 ^ 64 ∧ List.Forall₂ Replans functions replanned)
      writeReleases := by
  intro cursor replanned after
  have rowCodes (function : FuncProto) :
      Codes (do let releases ← readRelease .wide
                pure { function with releases := releases } : ModuleReader FuncProto)
        (Replans function) (fun replanned => writeRelease replanned.releases) := by
    intro cursor replanned after
    simp only [bind_ok_iff, pure_ok_iff, readRelease_codes _ _ _, Replans]
    constructor
    · rintro ⟨releases, _, ⟨fits, spans⟩, rfl, rfl⟩
      exact ⟨⟨rfl, fits⟩, spans⟩
    · rintro ⟨⟨same, fits⟩, spans⟩
      exact ⟨_, _, ⟨fits, spans⟩, same.symm, rfl⟩
  simp only [readReleases, bind_ok_iff, readCount_wide, takeU64_ok_iff, fail_ite_ok_iff,
    ne_eq, not_not, each_codes rowCodes _ _ _ _, writeReleases, writeList, spans_append]
  constructor
  · rintro ⟨entries, middle, countSpans, lengthEq, rows, spans⟩
    refine ⟨⟨lengthEq ▸ entries.toNat_lt, rows⟩, middle, ?_, spans⟩
    rwa [countBytes, ← rows.length_eq, ← lengthEq, UInt64.ofNat_toNat]
  · rintro ⟨⟨short, rows⟩, middle, countSpans, spans⟩
    rw [← rows.length_eq] at countSpans
    exact ⟨_, middle, countSpans, toNat_ofNat_of_fits short, rows, spans⟩

/-! ## Constants and type descriptors -/

theorem readConstants_codes (functions : Nat) :
    Codes (readConstants .wide functions)
      (fun constants => constants.length < 2 ^ 64 ∧ ∀ init ∈ constants, init.toNat < functions)
      writeConstants := by
  apply readList_codes
  intro slot cursor init after
  simp only [readConstant, bind_ok_iff, takeU64_ok_iff, fail_ite_ok_iff, pure_ok_iff, not_le]
  constructor
  · rintro ⟨_, _, spans, inRange, rfl, rfl⟩
    exact ⟨inRange, spans⟩
  · rintro ⟨inRange, spans⟩
    exact ⟨_, _, spans, inRange, rfl, rfl⟩

def TypeDescriptorRow.Fits (row : TypeDescriptorRow) : Prop :=
  TextFits row.name ∧ TextFits row.package ∧ TextFits row.kind ∧
    row.arguments.length < 2 ^ 64 ∧
    row.conformances.length < 2 ^ 64 ∧ ∀ text ∈ row.conformances, TextFits text

instance : DecidablePred TypeDescriptorRow.Fits := fun _ => instDecidableAnd

theorem readType_codes : Codes (readType .wide) TypeDescriptorRow.Fits writeType := by
  rintro cursor ⟨name, package, kind, arguments, conformances⟩ after
  simp only [readType, bind_ok_iff, pure_ok_iff, readString_codes _ _ _,
    readList_codes words_codes _ _ _, readList_codes (fun _ => readString_codes) _ _ _,
    TypeDescriptorRow.mk.injEq, TypeDescriptorRow.Fits, writeType, spans_append]
  constructor
  · rintro ⟨_, first, ⟨nameFits, nameSpans⟩, _, second, ⟨packageFits, packageSpans⟩, _, third,
      ⟨kindFits, kindSpans⟩, _, fourth, ⟨⟨argumentsFit, -⟩, argumentsSpans⟩, _, _,
      ⟨conformancesFit, conformancesSpans⟩, ⟨rfl, rfl, rfl, rfl, rfl⟩, rfl⟩
    exact ⟨⟨nameFits, packageFits, kindFits, argumentsFit, conformancesFit⟩, first, nameSpans,
      second, packageSpans, third, kindSpans, fourth, argumentsSpans, conformancesSpans⟩
  · rintro ⟨⟨nameFits, packageFits, kindFits, argumentsFit, conformancesFit⟩, first, nameSpans,
      second, packageSpans, third, kindSpans, fourth, argumentsSpans, conformancesSpans⟩
    exact ⟨_, first, ⟨nameFits, nameSpans⟩, _, second, ⟨packageFits, packageSpans⟩, _, third,
      ⟨kindFits, kindSpans⟩, _, fourth, ⟨⟨argumentsFit, fun _ _ => trivial⟩, argumentsSpans⟩, _, _,
      ⟨conformancesFit, conformancesSpans⟩, ⟨rfl, rfl, rfl, rfl, rfl⟩, rfl⟩

/-! ## Retained-parameter plans -/

theorem readPositions_eq (symbol : String) (count : Nat) (flags : List Bool) :
    readPositions symbol count flags =
      positionsReader (fun _ => .truncated) (.retainedOutOfRange symbol)
        (.duplicateRetainedPosition symbol) count flags := by
  induction count generalizing flags with
  | zero => rfl
  | succ count ih =>
    simp only [readPositions, positionsReader, ih]
    rfl

/-- The import with no parameter retained. -/
def ForeignImport.bare (imported : ForeignImport) : ForeignImport :=
  { imported with signature := .new imported.signature.parameters imported.signature.result }

def ForeignImport.RetainedFits (imported : ForeignImport) : Prop :=
  imported.signature.parameters.length < 2 ^ 64 ∧
    ∀ position ∈ setPositions imported.signature.retained, position < 2 ^ 32

instance : DecidablePred ForeignImport.RetainedFits := fun _ => instDecidableAnd

theorem ForeignImport.retain_bare (imported : ForeignImport) :
    imported.bare.retainParameters
      (setFlags (List.replicate imported.signature.parameters.length false)
        (setPositions imported.signature.retained)) = imported := by
  have signature := imported.signature.retain_bare
  rw [ForeignImport.retainParameters, bare]
  rw [ForeignSignature.bare] at signature
  rw [signature]

theorem ForeignImport.setPositions_short {imported : ForeignImport}
    (fits : imported.RetainedFits) :
    (setPositions imported.signature.retained).length < 2 ^ 64 :=
  imported.signature.retained_length_le.trans_lt fits.1

theorem readRetained_recovers (base : ForeignImport) :
    Recovers (readRetained .wide base)
      (fun imported => imported.bare = base ∧ imported.RetainedFits) writeRetained := by
  rintro imported ⟨rfl, fits⟩ cursor after spans
  obtain ⟨middle, countSpans, positionsSpans⟩ := spans_append.mp spans
  have flagsRead := positionsReader_spans (fun _ => ModuleDecodeError.truncated)
    (.retainedOutOfRange imported.symbol) (.duplicateRetainedPosition imported.symbol)
    (setPositions_nodup imported.signature.retained)
    (fun position kept => ⟨fits.2 position kept, imported.signature.retained_unset kept⟩) positionsSpans
  have count := toNat_ofNat_of_fits (ForeignImport.setPositions_short fits)
  rw [← count, ← readPositions_eq] at flagsRead
  exact bind_ok_iff.mpr ⟨_, middle, takeU64_ok_iff.mpr countSpans,
    bind_ok_iff.mpr ⟨_, after, flagsRead, pure_ok_iff.mpr ⟨imported.retain_bare, rfl⟩⟩⟩

theorem readForeignRetained_recovers (bases : List ForeignImport) :
    Recovers (readForeignRetained .wide bases)
      (fun imports => imports.length < 2 ^ 32 ∧
        List.Forall₂ (fun base imported => imported.bare = base ∧ imported.RetainedFits)
          bases imports)
      writeForeignRetained := by
  rintro imports ⟨short, rows⟩ cursor after spans
  obtain ⟨middle, countSpans, rowsSpans⟩ := spans_append.mp spans
  have count : (UInt64.ofNat imports.length).toNat = imports.length :=
    toNat_ofNat_of_fits (by omega)
  have rowsRead := each_recovers readRetained_recovers bases imports rows middle after rowsSpans
  refine bind_ok_iff.mpr ⟨UInt64.ofNat imports.length, middle,
    readIndexCount_ok_iff.mpr ⟨by rwa [count], takeU64_ok_iff.mpr countSpans⟩,
    fail_ite_ok_iff.mpr ⟨?_, rowsRead⟩⟩
  rw [count, rows.length_eq]
  exact not_not.mpr rfl

theorem readForeignRetained_extends (bases : List ForeignImport) :
    Extends (readForeignRetained .wide bases) := by
  apply Extends.bind
  · intro cursor value after counted further
    obtain ⟨small, counted⟩ := readIndexCount_ok_iff.mp counted
    exact readIndexCount_ok_iff.mpr ⟨small, (words_codes 0).extends _ _ _ counted further⟩
  · intro rows
    split
    · exact Extends.fail _
    · apply each_extends
      intro base
      apply Extends.bind (words_codes 0).extends
      intro count
      rw [readPositions_eq]
      exact Extends.bind (positionsReader_extends _ _ _ _ _) fun flags => Extends.pure _

end KiraVm
