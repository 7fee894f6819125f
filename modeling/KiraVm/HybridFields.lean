import KiraVm.HybridManifest
import KiraVm.ModuleTables

/-!
# The fields of a hybrid manifest

Every field but the retained rows is coded exactly: its reader succeeds on its writer's bytes
and on nothing else.  A counted run is read only where its count fits the rest of the input,
which the bytes of its elements always fill.
-/

namespace KiraVm

namespace KiraHybrid

open ByteReader ByteReader.Reader

variable {α : Type}

variable {cursor after : Cursor}

@[simp]
theorem takeByte_ok_iff {result : UInt8} :
    takeByte cursor = .ok (result, after) ↔ Spans cursor [result] after :=
  byte_ok_iff

@[simp]
theorem takeU32_ok_iff {result : UInt32} :
    takeU32 cursor = .ok (result, after) ↔ Spans cursor (u32Bytes result) after :=
  u32_ok_iff

theorem readCount_ok_iff {count : Nat} :
    readCount cursor = .ok (count, after) ↔
      count < 2 ^ 32 ∧ Spans cursor (u32Bytes (UInt32.ofNat count)) after ∧
        count ≤ after.rest.length := by
  simp only [readCount, bind_ok_iff, takeU32_ok_iff, remaining_ok_iff, fail_ite_ok_iff,
    pure_ok_iff, not_lt]
  constructor
  · rintro ⟨word, middle, spans, _, _, ⟨rfl, rfl⟩, enough, rfl, rfl⟩
    exact ⟨word.toNat_lt, by rwa [UInt32.ofNat_toNat], enough⟩
  · rintro ⟨small, spans, enough⟩
    have same := toNat_ofNat_of_short small
    exact ⟨_, after, spans, _, _, ⟨rfl, rfl⟩, by rwa [same], same, rfl⟩

theorem flatMap_length_ge {write : α → List UInt8} {values : List α}
    (nonempty : ∀ value, write value ≠ []) : values.length ≤ (values.flatMap write).length := by
  induction values with
  | nil => exact Nat.le_refl 0
  | cons value values ih =>
    have here := List.length_pos_iff.mpr (nonempty value)
    rw [List.flatMap_cons, List.length_append, List.length_cons]
    omega

/-- A counted run of elements that take a byte each or more. -/
theorem readCounted_codes {read : Nat → ManifestReader α} {fits : α → Prop}
    {write : α → List UInt8} (nonempty : ∀ value, write value ≠ [])
    (codes : ∀ index, Codes (read index) fits write) :
    Codes (readCounted read)
      (fun values => values.length < 2 ^ 32 ∧ ∀ value ∈ values, fits value)
      (shortList write) := by
  intro cursor values after
  simp only [readCounted, bind_ok_iff, readCount_ok_iff, many_codes codes _ _ _ _ _, shortList, spans_append]
  constructor
  · rintro ⟨count, middle, ⟨small, countSpans, _⟩, ⟨rfl, allFit⟩, spans⟩
    exact ⟨⟨small, allFit⟩, middle, countSpans, spans⟩
  · rintro ⟨⟨small, allFit⟩, middle, countSpans, spans⟩
    refine ⟨_, middle, ⟨small, countSpans, ?_⟩, ⟨rfl, allFit⟩, spans⟩
    rw [spans.1, List.length_append]
    exact (flatMap_length_ge nonempty).trans (Nat.le_add_right _ _)

theorem shortList_ne_nil (write : α → List UInt8) (values : List α) :
    shortList write values ≠ [] := by
  apply List.ne_nil_of_length_pos
  simp [shortList]

/-! ## Strings and functions -/

def ShortText (text : String) : Prop :=
  (textBytes text).length < 2 ^ 32

instance : DecidablePred ShortText := fun _ => Nat.decLt _ _

theorem readString_codes : Codes readString ShortText writeString := by
  intro cursor text after
  simp only [readString, bind_ok_iff, okOr_ok_iff, shortBytes_codes _ _ _, fromUTF8_eq_some_iff,
    writeString, ShortText]
  constructor
  · rintro ⟨_, _, ⟨fits, spans⟩, rfl, rfl⟩
    exact ⟨fits, spans⟩
  · rintro ⟨fits, spans⟩
    exact ⟨_, _, ⟨fits, spans⟩, rfl, rfl⟩

theorem readParam_codes : Codes readParam (fun _ => True) writeParam := by
  rintro cursor ⟨ty, ownership⟩ after
  simp only [readParam, bind_ok_iff, takeByte_ok_iff, okOr_ok_iff, Ownership.fromByte_eq_some_iff,
    pure_ok_iff, HybridParam.mk.injEq, true_and, writeParam, spans_append]
  constructor
  · rintro ⟨_, first, tySpans, _, _, byteSpans, _, _, ⟨rfl, rfl⟩, ⟨rfl, rfl⟩, rfl⟩
    exact ⟨first, tySpans, byteSpans⟩
  · rintro ⟨first, tySpans, byteSpans⟩
    exact ⟨_, first, tySpans, _, _, byteSpans, _, _, ⟨rfl, rfl⟩, ⟨rfl, rfl⟩, rfl⟩

/-- A function whose texts and parameters fit their counts, and whose symbol is absent rather
than empty. -/
structure HybridFunction.Fits (function : HybridFunction) : Prop where
  name : ShortText function.name
  params : function.params.length < 2 ^ 32
  exported : ShortText (function.exportedName.getD "")
  named : function.exportedName ≠ some ""

theorem exported_iff {exported : String} {exportedName : Option String} :
    (if exported = "" then none else some exported) = exportedName ↔
      exportedName ≠ some "" ∧ exported = exportedName.getD "" := by
  by_cases empty : exported = ""
  · rw [if_pos empty, empty]
    cases exportedName with
    | none => simp
    | some name => simp [eq_comm]
  · rw [if_neg empty]
    cases exportedName with
    | none => simp [empty]
    | some name =>
      simp only [Option.some.injEq, ne_eq, Option.getD_some]
      constructor
      · rintro rfl
        exact ⟨empty, rfl⟩
      · exact fun same => same.2

theorem readFunction_codes : Codes readFunction HybridFunction.Fits writeFunction := by
  rintro cursor ⟨id, name, execution, params, returns, exportedName⟩ after
  have paramsCodes := readCounted_codes (by simp [writeParam]) fun _ => readParam_codes
  simp only [readFunction, bind_ok_iff, takeU32_ok_iff, takeByte_ok_iff, okOr_ok_iff,
    Execution.fromByte_eq_some_iff, readString_codes _ _ _, paramsCodes _ _ _, pure_ok_iff,
    HybridFunction.mk.injEq, exported_iff, writeFunction, spans_append]
  constructor
  · rintro ⟨_, first, idSpans, _, second, byteSpans, _, _, ⟨rfl, rfl⟩, _, third,
      ⟨nameFits, nameSpans⟩, _, fourth, ⟨⟨paramsFit, _⟩, paramsSpans⟩, _, fifth, returnsSpans, _, _,
      ⟨exportedFits, exportedSpans⟩, ⟨rfl, rfl, rfl, rfl, rfl, named, rfl⟩, rfl⟩
    exact ⟨⟨nameFits, paramsFit, exportedFits, named⟩, first, idSpans, second, byteSpans, third,
      nameSpans, fourth, paramsSpans, fifth, returnsSpans, exportedSpans⟩
  · rintro ⟨⟨nameFits, paramsFit, exportedFits, named⟩, first, idSpans, second, byteSpans, third,
      nameSpans, fourth, paramsSpans, fifth, returnsSpans, exportedSpans⟩
    exact ⟨_, first, idSpans, _, second, byteSpans, _, _, ⟨rfl, rfl⟩, _, third,
      ⟨nameFits, nameSpans⟩, _, fourth, ⟨⟨paramsFit, fun _ _ => trivial⟩, paramsSpans⟩, _, fifth,
      returnsSpans, _, _, ⟨exportedFits, exportedSpans⟩, ⟨rfl, rfl, rfl, rfl, rfl, named, rfl⟩, rfl⟩

/-! ## Imports and aggregates -/

theorem readSpec_codes (imported : String) :
    Codes (readSpec imported) (fun _ => True) writeSpec :=
  specReader_codes _ _

theorem readMember_codes (index : Nat) :
    Codes (readMember index) (fun _ => True) writeMember :=
  memberReader_codes _ _

structure HybridForeign.Fits (imported : HybridForeign) : Prop where
  library : ShortText imported.library
  symbol : ShortText imported.symbol
  params : imported.signature.parameters.length < 2 ^ 32
  adapter : ShortText imported.adapterSymbol

theorem writeSpec_ne_nil (spec : ForeignTypeSpec) : writeSpec spec ≠ [] :=
  List.cons_ne_nil _ _

theorem writeMember_ne_nil (member : ForeignMember) : writeMember member ≠ [] := by
  cases member <;> exact List.cons_ne_nil _ _

theorem writeString_ne_nil (text : String) : writeString text ≠ [] := by
  apply List.ne_nil_of_length_pos
  simp [writeString, shortBytes_length]

theorem writeForeign_ne_nil (imported : HybridForeign) : writeForeign imported ≠ [] :=
  List.append_ne_nil_of_left_ne_nil (writeString_ne_nil _) _

theorem writeFunction_ne_nil (function : HybridFunction) : writeFunction function ≠ [] := by
  apply List.ne_nil_of_length_pos
  simp [writeFunction]

theorem readImport_codes :
    Codes readImport (fun imported => imported.Fits ∧ imported.signature.retained = [])
      writeForeign := by
  rintro cursor ⟨library, symbol, abi, signature, adapterSymbol⟩ after
  have paramsCodes := fun named : String =>
    readCounted_codes writeSpec_ne_nil fun _ => readSpec_codes named
  simp only [readImport, bind_ok_iff, takeByte_ok_iff, okOr_ok_iff,
    ForeignAbi.fromTag_eq_some_iff, readString_codes _ _ _, paramsCodes _ _ _ _,
    readSpec_codes _ _ _ _, pure_ok_iff, HybridForeign.mk.injEq, ForeignSignature.eq_new_iff,
    writeForeign, spans_append]
  constructor
  · rintro ⟨_, first, ⟨libraryFits, librarySpans⟩, _, second, ⟨symbolFits, symbolSpans⟩, _, third,
      abiSpans, _, _, ⟨rfl, rfl⟩, _, fourth, ⟨⟨short, _⟩, paramsSpans⟩, _, fifth, ⟨_, resultSpans⟩,
      _, _, ⟨adapterFits, adapterSpans⟩, ⟨rfl, rfl, rfl, ⟨rfl, rfl, bare⟩, rfl⟩, rfl⟩
    exact ⟨⟨⟨libraryFits, symbolFits, short, adapterFits⟩, bare⟩, first, librarySpans, second,
      symbolSpans, third, abiSpans, fourth, paramsSpans, fifth, resultSpans, adapterSpans⟩
  · rintro ⟨⟨⟨libraryFits, symbolFits, short, adapterFits⟩, bare⟩, first, librarySpans, second,
      symbolSpans, third, abiSpans, fourth, paramsSpans, fifth, resultSpans, adapterSpans⟩
    exact ⟨_, first, ⟨libraryFits, librarySpans⟩, _, second, ⟨symbolFits, symbolSpans⟩, _, third,
      abiSpans, _, _, ⟨rfl, rfl⟩, _, fourth, ⟨⟨short, fun _ _ => trivial⟩, paramsSpans⟩, _, fifth,
      ⟨trivial, resultSpans⟩, _, _, ⟨adapterFits, adapterSpans⟩,
      ⟨rfl, rfl, rfl, ⟨rfl, rfl, bare⟩, rfl⟩, rfl⟩

theorem readAggregate_codes (index : Nat) :
    Codes (readAggregate index) (fun row => row.members.length < 2 ^ 32) writeAggregate := by
  rintro cursor ⟨members⟩ after
  have membersCodes := readCounted_codes writeMember_ne_nil fun _ => readMember_codes index
  simp only [readAggregate, map_ok_iff, membersCodes _ _ _, ForeignAggregate.mk.injEq,
    writeAggregate]
  constructor
  · rintro ⟨_, ⟨⟨short, _⟩, spans⟩, rfl⟩
    exact ⟨short, spans⟩
  · rintro ⟨short, spans⟩
    exact ⟨_, ⟨⟨short, fun _ _ => trivial⟩, spans⟩, rfl⟩

theorem readAggregateRows_eq (index count : Nat) (aggregates : ForeignAggregates) :
    readAggregateRows index count aggregates =
      rowsReader readAggregate .malformedForeignAggregate index count aggregates := by
  induction count generalizing index aggregates with
  | zero => rfl
  | succ count ih =>
    refine bind_congr fun row => ?_
    cases aggregates.push row with
    | error source => rfl
    | ok pushed => exact ih (index + 1) pushed

/-- A table whose rows fit their 32-bit counts. -/
def ShortRows (aggregates : ForeignAggregates) : Prop :=
  aggregates.entries.length < 2 ^ 32 ∧
    ∀ row ∈ aggregates.entries, row.members.length < 2 ^ 32

instance : DecidablePred ShortRows := fun _ => instDecidableAnd

theorem readAggregateTable_codes :
    Codes readAggregateTable ShortRows writeAggregates := by
  intro cursor aggregates after
  simp only [readAggregateTable, bind_ok_iff, takeU32_ok_iff, readAggregateRows_eq,
    rowsReader_ok_iff readAggregate_codes, ShortRows, writeAggregates, shortList,
    spans_append, ForeignAggregates.empty, List.nil_append]
  constructor
  · rintro ⟨count, middle, countSpans, rows, lengthEq, rfl, short, spans⟩
    have small := count.toNat_lt
    rw [← lengthEq] at small
    refine ⟨⟨small, short⟩, middle, ?_, spans⟩
    rwa [lengthEq, UInt32.ofNat_toNat]
  · rintro ⟨⟨small, short⟩, middle, countSpans, spans⟩
    exact ⟨UInt32.ofNat aggregates.entries.length, middle, countSpans, aggregates.entries,
      (toNat_ofNat_of_short small).symm, rfl, short, spans⟩

/-! ## Retained rows -/

/-- The import with no parameter retained. -/
def HybridForeign.bare (imported : HybridForeign) : HybridForeign :=
  { imported with signature := imported.signature.bare }

theorem readPositions_eq (symbol : String) (count : Nat) (flags : List Bool) :
    readPositions symbol count flags =
      positionsReader (fun _ => .truncated) (.retainedOutOfRange symbol)
        (.duplicateRetainedPosition symbol) count flags := by
  induction count generalizing flags with
  | zero => rfl
  | succ count ih =>
    simp only [readPositions, positionsReader, ih]
    rfl

theorem readRetained_recovers (base : HybridForeign) :
    Recovers (readRetained base)
      (fun imported => imported.bare = base ∧ imported.signature.parameters.length < 2 ^ 32)
      writeRetained := by
  rintro imported ⟨rfl, short⟩ cursor after spans
  rcases spans_append.mp spans with ⟨middle, countSpans, positionsSpans⟩
  have few := imported.signature.retained_length_le
  have flagsRead := positionsReader_spans (fun _ => ManifestDecodeError.truncated)
    (.retainedOutOfRange imported.symbol) (.duplicateRetainedPosition imported.symbol)
    (setPositions_nodup imported.signature.retained)
    (fun position kept => ⟨(imported.signature.retained_lt kept).trans short,
      imported.signature.retained_unset kept⟩) positionsSpans
  rw [← readPositions_eq] at flagsRead
  have enough : (setPositions imported.signature.retained).length ≤ middle.rest.length := by
    rw [positionsSpans.1, List.length_append]
    apply Nat.le_add_right_of_le
    apply flatMap_length_ge
    intro position
    apply List.ne_nil_of_length_pos
    simp [writePosition]
  refine bind_ok_iff.mpr ⟨_, middle, readCount_ok_iff.mpr ⟨few.trans_lt short, countSpans, enough⟩, ?_⟩
  refine bind_ok_iff.mpr ⟨_, after, flagsRead, pure_ok_iff.mpr ⟨?_, rfl⟩⟩
  have restored := imported.signature.retain_bare
  rw [HybridForeign.bare]
  dsimp only
  rw [restored]

/-- Imports that are bare rows with retained flags put back. -/
def Retaining (bases imports : List HybridForeign) : Prop :=
  imports.length < 2 ^ 32 ∧ List.Forall₂ (fun base imported =>
    imported.bare = base ∧ imported.signature.parameters.length < 2 ^ 32) bases imports

theorem readRetainedRows_recovers (bases : List HybridForeign) :
    Recovers (readRetainedRows bases) (Retaining bases) (shortList writeRetained) := by
  rintro imports ⟨short, rows⟩ cursor after spans
  rcases spans_append.mp spans with ⟨middle, countSpans, rowsSpans⟩
  have rowsRead := each_recovers readRetained_recovers bases imports rows middle after rowsSpans
  refine bind_ok_iff.mpr ⟨_, middle, takeU32_ok_iff.mpr countSpans, fail_ite_ok_iff.mpr ⟨?_, rowsRead⟩⟩
  rw [toNat_ofNat_of_short short, rows.length_eq]
  exact not_not.mpr rfl

theorem readCount_extends : Extends readCount := by
  intro cursor count after counted further
  rcases readCount_ok_iff.mp counted with ⟨small, spans, enough⟩
  refine readCount_ok_iff.mpr ⟨small, ⟨?_, spans.2⟩, ?_⟩
  · rw [spans.1, List.append_assoc]
  · rw [List.length_append]
    exact enough.trans (Nat.le_add_right _ _)

theorem readRetainedRows_extends (bases : List HybridForeign) :
    Extends (readRetainedRows bases) := by
  apply Extends.bind u32_codes.extends
  intro rows
  split
  · exact Extends.fail _
  · apply each_extends
    intro base
    apply Extends.bind readCount_extends
    intro count
    rw [readPositions_eq]
    exact Extends.bind (positionsReader_extends _ _ _ _ _) fun flags => Extends.pure _

/-! ## The head and the last section -/

theorem readSanitizer_codes :
    Codes readSanitizer (fun sanitizer => sanitizer ≠ .none)
      (fun sanitizer => sanitizer.asByte.toList) := by
  intro cursor sanitizer after
  simp only [readSanitizer, bind_ok_iff, takeByte_ok_iff, okOr_ok_iff]
  constructor
  · rintro ⟨byte, middle, spans, named, rfl⟩
    unfold HybridSanitizer.fromByte at named
    split at named
    · cases named
      exact ⟨by decide, spans⟩
    · cases named
  · rintro ⟨active, spans⟩
    cases sanitizer with
    | none => exact absurd rfl active
    | address => exact ⟨1, after, spans, rfl, rfl⟩

structure Head.Fits (head : Head) : Prop where
  moduleName : ShortText head.moduleName
  bytecodePath : ShortText head.bytecodePath
  nativeLibraryPath : ShortText head.nativeLibraryPath
  count : head.functions.length < 2 ^ 32
  functions : ∀ function ∈ head.functions, function.Fits

def writeHead (head : Head) : List UInt8 :=
  writeString head.moduleName ++ (writeString head.bytecodePath ++
    (writeString head.nativeLibraryPath ++ (u32Bytes head.entry ++
      shortList writeFunction head.functions)))

theorem readHead_codes : Codes readHead Head.Fits writeHead := by
  rintro cursor ⟨moduleName, bytecodePath, nativeLibraryPath, entry, functions⟩ after
  have functionsCodes := readCounted_codes writeFunction_ne_nil fun _ => readFunction_codes
  simp only [readHead, bind_ok_iff, takeU32_ok_iff, readString_codes _ _ _,
    functionsCodes _ _ _, pure_ok_iff, Head.mk.injEq, writeHead, spans_append]
  constructor
  · rintro ⟨_, first, ⟨nameFits, nameSpans⟩, _, second, ⟨codeFits, codeSpans⟩, _, third,
      ⟨libraryFits, librarySpans⟩, _, fourth, entrySpans, _, _,
      ⟨⟨few, functionsFit⟩, functionsSpans⟩, ⟨rfl, rfl, rfl, rfl, rfl⟩, rfl⟩
    exact ⟨⟨nameFits, codeFits, libraryFits, few, functionsFit⟩, first, nameSpans, second,
      codeSpans, third, librarySpans, fourth, entrySpans, functionsSpans⟩
  · rintro ⟨⟨nameFits, codeFits, libraryFits, few, functionsFit⟩, first, nameSpans, second,
      codeSpans, third, librarySpans, fourth, entrySpans, functionsSpans⟩
    exact ⟨_, first, ⟨nameFits, nameSpans⟩, _, second, ⟨codeFits, codeSpans⟩, _, third,
      ⟨libraryFits, librarySpans⟩, _, fourth, entrySpans, _, _,
      ⟨⟨few, functionsFit⟩, functionsSpans⟩, ⟨rfl, rfl, rfl, rfl, rfl⟩, rfl⟩

end KiraHybrid

end KiraVm
