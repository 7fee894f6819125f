import KiraVm.HybridFields
import KiraVm.SectionReader
import Mathlib.Tactic.IntervalCases

/-!
# Hybrid manifests read back

The trailing sections of a manifest are positional, and not every manifest writes those
before one that it writes.  Where it does, and its head is one that decoding accepts, the
manifest is read back from its bytes, and a cut between two sections is the manifest without
those behind the cut.
-/

namespace KiraVm

namespace KiraHybrid

open ByteReader ByteReader.Reader

/-! ## Reading section by section -/

/-- What the trailing sections hold. -/
structure Sections where
  foreign : List HybridForeign
  foreignAggregates : ForeignAggregates
  internalFunctions : UInt32
  sanitizer : HybridSanitizer

def foreignStep (sections : Sections) : ManifestReader Sections := do
  let foreign ← optional sections.foreign (readCounted fun _ => readImport)
  pure { sections with foreign := foreign }

def aggregatesStep (sections : Sections) : ManifestReader Sections := do
  let aggregates ← optional sections.foreignAggregates readAggregateTable
  checkImports aggregates sections.foreign
  pure { sections with foreignAggregates := aggregates }

def internalStep (sections : Sections) : ManifestReader Sections := do
  let internalFunctions ← optional sections.internalFunctions takeU32
  pure { sections with internalFunctions := internalFunctions }

def retainedStep (sections : Sections) : ManifestReader Sections := do
  let foreign ← optional sections.foreign (readRetainedRows sections.foreign)
  pure { sections with foreign := foreign }

def sanitizerStep (sections : Sections) : ManifestReader Sections := do
  let sanitizer ← optional sections.sanitizer readSanitizer
  pure { sections with sanitizer := sanitizer }

def sectionSteps : List (Sections → ManifestReader Sections) :=
  [foreignStep, aggregatesStep, internalStep, retainedStep, sanitizerStep]

def assembled (head : Head) (entry : Option UInt32) (sections : Sections) : HybridManifest :=
  ⟨head.moduleName, head.bytecodePath, head.nativeLibraryPath, entry, head.functions,
    sections.foreign, sections.foreignAggregates, sections.internalFunctions, sections.sanitizer⟩

def finish (head : Head) (sections : Sections) : ManifestReader HybridManifest := do
  let left ← remaining
  if left ≠ 0 then fail (.trailingBytes left)
  else
    let entry ← checkEntry head.entry head.functions
    pure (assembled head entry sections)

theorem readTail_eq (head : Head) :
    readTail head = readSteps sectionSteps ⟨[], .empty, 0, .none⟩ >>= finish head := by
  simp [readTail, sectionSteps, readSteps, foreignStep, aggregatesStep, internalStep,
    retainedStep, sanitizerStep, finish, readForeign, readForeignAggregates,
    readForeignRetained, assembled]

theorem checkImports_ok_iff {aggregates : ForeignAggregates} {imports : List HybridForeign}
    {cursor after : Cursor} :
    checkImports aggregates imports cursor = .ok ((), after) ↔
      (∀ imported ∈ imports, unresolved aggregates imported.signature = none) ∧
        cursor = after := by
  induction imports with
  | nil => simp [checkImports]
  | cons imported imports ih =>
    cases missing : unresolved aggregates imported.signature with
    | some id => simp [checkImports, missing]
    | none => simp [checkImports, missing, ih]

theorem checkImports_outcome (aggregates : ForeignAggregates) (imports : List HybridForeign)
    (cursor : Cursor) :
    checkImports aggregates imports cursor = .ok ((), cursor) ∨
      ∃ error, checkImports aggregates imports cursor = .error error := by
  cases answer : checkImports aggregates imports cursor with
  | error error => exact Or.inr ⟨error, rfl⟩
  | ok result =>
    rcases result with ⟨_, after⟩
    rcases checkImports_ok_iff.mp answer with ⟨_, rfl⟩
    exact Or.inl rfl

theorem sectionSteps_idle : ∀ step ∈ sectionSteps, IdleAtEnd step := by
  intro step member sections cursor ended
  simp only [sectionSteps, List.mem_cons, List.not_mem_nil, or_false] at member
  rcases member with rfl | rfl | rfl | rfl | rfl
  case inr.inl =>
    -- the import check runs whether or not the table is there
    rcases checkImports_outcome sections.foreignAggregates sections.foreign cursor with
      passes | ⟨error, fails⟩
    · left
      refine bind_ok_iff.mpr ⟨_, _, optional_ended ended, ?_⟩
      exact bind_ok_iff.mpr ⟨_, _, passes, pure_ok_iff.mpr ⟨rfl, rfl⟩⟩
    · right
      refine ⟨error, ?_⟩
      rw [aggregatesStep, bind_of_ok (optional_ended ended), bind_of_error fails]
  all_goals
    left
    exact bind_ok_iff.mpr ⟨_, _, optional_ended ended, pure_ok_iff.mpr ⟨rfl, rfl⟩⟩

/-! ## What can be read back -/

/-- A manifest whose texts and tables fit their counts, whose imports name rows of its table,
whose entrypoint is one of its functions, that binds every native function of a library, and
that has aggregates only where the imports before them are written. -/
structure HybridManifest.Encodable (manifest : HybridManifest) : Prop where
  moduleName : ShortText manifest.moduleName
  bytecodePath : ShortText manifest.bytecodePath
  nativeLibraryPath : ShortText manifest.nativeLibraryPath
  functionCount : manifest.functions.length < 2 ^ 32
  functions : ∀ function ∈ manifest.functions, function.Fits
  foreignCount : manifest.foreign.length < 2 ^ 32
  foreign : ∀ imported ∈ manifest.foreign, imported.Fits
  rows : ShortRows manifest.foreignAggregates
  resolve : ∀ imported ∈ manifest.foreign,
    unresolved manifest.foreignAggregates imported.signature = none
  entry : ∀ index ∈ manifest.entry, index.toNat < manifest.functions.length
  bound : manifest.entry = none → unbound manifest.functions = none
  positional : manifest.foreign = [] → manifest.tail = false →
    manifest.foreignAggregates = .empty

namespace HybridManifest

variable {manifest : HybridManifest}

def kept (manifest : HybridManifest) (count : Nat) : Sections where
  foreign := if 3 < count then manifest.foreign
    else if 0 < count then manifest.foreign.map HybridForeign.bare else []
  foreignAggregates := if 1 < count then manifest.foreignAggregates else .empty
  internalFunctions := if 2 < count then manifest.internalFunctions else 0
  sanitizer := if 4 < count then manifest.sanitizer else .none

def keepSections (manifest : HybridManifest) (count : Nat) : HybridManifest :=
  { manifest with
    foreign := (manifest.kept count).foreign
    foreignAggregates := (manifest.kept count).foreignAggregates
    internalFunctions := (manifest.kept count).internalFunctions
    sanitizer := (manifest.kept count).sanitizer }

/-- Each section's bytes with what is read behind it. -/
def sections (manifest : HybridManifest) : List (List UInt8 × Sections) :=
  manifest.sectionBytes.zipIdx.map fun entry => (entry.1, manifest.kept (entry.2 + 1))

theorem sections_bytes (manifest : HybridManifest) :
    manifest.sections.map Prod.fst = manifest.sectionBytes := by
  rw [sections, List.map_map]
  exact List.zipIdx_map_fst 0 manifest.sectionBytes

theorem sectionsBytes_take (manifest : HybridManifest) (count : Nat) :
    sectionsBytes (manifest.sections.take count) = (manifest.sectionBytes.take count).flatten := by
  rw [sectionsBytes, List.flatMap_def, List.map_take, manifest.sections_bytes]

theorem sectionsBytes_sections (manifest : HybridManifest) :
    sectionsBytes manifest.sections = manifest.sectionBytes.flatten := by
  rw [sectionsBytes, List.flatMap_def, manifest.sections_bytes]

theorem stateBehind_sections (manifest : HybridManifest) {count : Nat} (bound : count ≤ 5) :
    stateBehind (manifest.kept 0) manifest.sections count = manifest.kept count := by
  interval_cases count <;> rfl

theorem hasRetained_eq_false :
    manifest.hasRetained = false ↔
      ∀ imported ∈ manifest.foreign, imported.signature.anyRetained = false := by
  simp [hasRetained]

theorem hasSanitizer_eq_false : manifest.hasSanitizer = false ↔ manifest.sanitizer = .none := by
  simp [hasSanitizer]

theorem tail_eq_false :
    manifest.tail = false ↔ manifest.internalFunctions = 0 ∧
      manifest.hasRetained = false ∧ manifest.hasSanitizer = false := by
  simp [tail, and_assoc]

theorem bare_unretained (borrows : manifest.hasRetained = false) :
    manifest.foreign.map HybridForeign.bare = manifest.foreign := by
  have same : ∀ imported ∈ manifest.foreign, imported.bare = id imported := by
    intro imported listed
    rw [HybridForeign.bare,
      ForeignSignature.bare_eq_self (hasRetained_eq_false.mp borrows _ listed)]
    rfl
  rw [List.map_congr_left same, List.map_id]

theorem writeForeign_bare (imports : List HybridForeign) :
    shortList writeForeign (imports.map HybridForeign.bare) = shortList writeForeign imports := by
  simp only [shortList, List.length_map, List.flatMap_map]
  rfl

def NoneBehind (manifest : HybridManifest) (first : Nat) : Prop :=
  ∀ behind ∈ manifest.sections.drop first, behind.1 = []

theorem noneBehind_sanitizer (absent : manifest.hasSanitizer = false) : manifest.NoneBehind 4 := by
  simp [NoneBehind, sections, sectionBytes, hasSanitizer_eq_false.mp absent, HybridSanitizer.asByte]

theorem noneBehind_retained (retained : manifest.hasRetained = false)
    (sanitizer : manifest.hasSanitizer = false) : manifest.NoneBehind 3 :=
  List.forall_mem_cons.mpr ⟨by simp [retained, sanitizer], noneBehind_sanitizer sanitizer⟩

theorem noneBehind_internal (absent : manifest.tail = false) : manifest.NoneBehind 2 := by
  rcases tail_eq_false.mp absent with ⟨_, retained, sanitizer⟩
  exact List.forall_mem_cons.mpr ⟨by simp [absent], noneBehind_retained retained sanitizer⟩

theorem noneBehind_aggregates (empty : manifest.foreignAggregates = .empty)
    (absent : manifest.tail = false) : manifest.NoneBehind 1 :=
  List.forall_mem_cons.mpr
    ⟨by simp [absent, empty, ForeignAggregates.empty], noneBehind_internal absent⟩

/-! Each section is read behind the ones before it, from the last to the first. -/

theorem sanitizerChain (manifest : HybridManifest) :
    SectionChain (sectionSteps.drop 4) (manifest.kept 4) (manifest.sections.drop 4) := by
  have codes := readSanitizer_codes
  by_cases active : manifest.sanitizer = .none
  · have same : manifest.kept 4 = manifest.kept 5 := by
      simp [kept, active]
    change SectionChain _ _ [(manifest.sanitizer.asByte.toList, manifest.kept 5)]
    rw [active, same]
    refine .absent ?_ (by simp) .nil
    intro cursor ended
    rw [← same]
    exact bind_ok_iff.mpr ⟨_, _, optional_ended ended, pure_ok_iff.mpr ⟨rfl, rfl⟩⟩
  · have nonempty : manifest.sanitizer.asByte.toList ≠ [] := by
      cases sanitizer : manifest.sanitizer with
      | none => exact absurd sanitizer active
      | address => exact List.cons_ne_nil _ _
    have step : sanitizerStep (manifest.kept 4) = (optional .none readSanitizer >>= fun sanitizer =>
        pure { manifest.kept 4 with sanitizer := sanitizer }) := rfl
    refine .written ?_ ?_ .nil
    · intro cursor after spans
      rw [step]
      apply optional_reads codes.recovers active nonempty ?_ spans
      exact fun _ => pure_ok_iff.mpr ⟨rfl, rfl⟩
    · intro offset part cut whole opened cutNonempty
      rw [step]
      exact optional_fails_when_cut codes.recovers codes.extends active whole opened cutNonempty
        offset

theorem retainedChain (encodable : manifest.Encodable) :
    SectionChain (sectionSteps.drop 3) (manifest.kept 3) (manifest.sections.drop 3) := by
  have fits : Retaining (manifest.foreign.map HybridForeign.bare) manifest.foreign := by
    refine ⟨encodable.foreignCount, ?_⟩
    rw [List.forall₂_map_left_iff, List.forall₂_same]
    exact fun imported listed => ⟨rfl, (encodable.foreign imported listed).params⟩
  refine .extend rfl (readRetainedRows_recovers _) (readRetainedRows_extends _) fits
    (shortList_ne_nil _ _) (fun _ => pure_ok_iff.mpr ⟨rfl, rfl⟩) ?_ (sanitizerChain manifest)
  intro absent
  rcases Bool.or_eq_false_iff.mp absent with ⟨retained, sanitizer⟩
  have same : manifest.kept 3 = manifest.kept 4 := by
    simp [kept, bare_unretained retained]
  exact ⟨same, fun _ => pure_ok_iff.mpr ⟨same, rfl⟩, noneBehind_sanitizer sanitizer⟩

theorem internalChain (encodable : manifest.Encodable) :
    SectionChain (sectionSteps.drop 2) (manifest.kept 2) (manifest.sections.drop 2) := by
  have nonempty : u32Bytes manifest.internalFunctions ≠ [] := by
    apply List.ne_nil_of_length_pos
    simp
  have codes : Codes takeU32 (fun _ => True) u32Bytes := u32_codes
  refine .extend rfl codes.recovers codes.extends trivial nonempty
    (fun _ => pure_ok_iff.mpr ⟨rfl, rfl⟩) ?_ (retainedChain encodable)
  intro absent
  rcases tail_eq_false.mp absent with ⟨internal, retained, sanitizer⟩
  have same : manifest.kept 2 = manifest.kept 3 := by
    simp [kept, internal]
  exact ⟨same, fun _ => pure_ok_iff.mpr ⟨same, rfl⟩, noneBehind_retained retained sanitizer⟩

theorem aggregatesChain (encodable : manifest.Encodable) :
    SectionChain (sectionSteps.drop 1) (manifest.kept 1) (manifest.sections.drop 1) := by
  have codes := readAggregateTable_codes
  have resolve : ∀ imported ∈ manifest.foreign.map HybridForeign.bare,
      unresolved manifest.foreignAggregates imported.signature = none := by
    intro imported member
    rcases List.mem_map.mp member with ⟨original, originalMember, rfl⟩
    exact encodable.resolve original originalMember
  have nonempty : writeAggregates manifest.foreignAggregates ≠ [] := shortList_ne_nil _ _
  refine .extend rfl codes.recovers codes.extends encodable.rows nonempty
    (fun _ => bind_ok_iff.mpr ⟨(), _, checkImports_ok_iff.mpr ⟨resolve, rfl⟩,
      pure_ok_iff.mpr ⟨rfl, rfl⟩⟩) ?_ (internalChain encodable)
  intro absent
  rcases Bool.or_eq_false_iff.mp absent with ⟨none, noTail⟩
  have empty : manifest.foreignAggregates = .empty := by
    apply ForeignAggregates.ext_entries
    simpa [ForeignAggregates.empty] using none
  have same : manifest.kept 1 = manifest.kept 2 := by
    simp [kept, empty]
  refine ⟨same, fun _ => bind_ok_iff.mpr ⟨(), _, checkImports_ok_iff.mpr ⟨?_, rfl⟩,
    pure_ok_iff.mpr ⟨same, rfl⟩⟩, noneBehind_internal noTail⟩
  rw [empty] at resolve
  exact resolve

theorem sectionChain (encodable : manifest.Encodable) :
    SectionChain sectionSteps (manifest.kept 0) manifest.sections := by
  have codes := readCounted_codes writeForeign_ne_nil fun _ => readImport_codes
  have fits : ∀ imported ∈ manifest.foreign.map HybridForeign.bare,
      imported.Fits ∧ imported.signature.retained = [] := by
    intro imported member
    rcases List.mem_map.mp member with ⟨original, originalMember, rfl⟩
    have original := encodable.foreign original originalMember
    exact ⟨⟨original.library, original.symbol, original.params, original.adapter⟩, rfl⟩
  change SectionChain _ _ ((if !manifest.foreign.isEmpty || manifest.tail then
    shortList writeForeign manifest.foreign else [], manifest.kept 1) :: manifest.sections.drop 1)
  rw [← writeForeign_bare]
  refine .extend rfl codes.recovers codes.extends ⟨by simpa using encodable.foreignCount, fits⟩
    (shortList_ne_nil _ _) (fun _ => pure_ok_iff.mpr ⟨rfl, rfl⟩) ?_ (aggregatesChain encodable)
  intro absent
  rcases Bool.or_eq_false_iff.mp absent with ⟨none, noTail⟩
  have empty : manifest.foreign = [] := by simpa using none
  have same : manifest.kept 0 = manifest.kept 1 := by
    simp [kept, empty]
  exact ⟨same, fun _ => pure_ok_iff.mpr ⟨same, rfl⟩,
    noneBehind_aggregates (encodable.positional empty noTail) noTail⟩

/-! ## Magic, head and end -/

def headValue (manifest : HybridManifest) : Head :=
  ⟨manifest.moduleName, manifest.bytecodePath, manifest.nativeLibraryPath,
    manifest.entry.getD noEntrypoint, manifest.functions⟩

theorem headBytes_eq (manifest : HybridManifest) :
    manifest.headBytes = magic ++ writeHead manifest.headValue :=
  rfl

theorem headValue_fits (encodable : manifest.Encodable) : manifest.headValue.Fits :=
  ⟨encodable.moduleName, encodable.bytecodePath, encodable.nativeLibraryPath,
    encodable.functionCount, encodable.functions⟩

theorem magic_read (rest : List UInt8) (offset : Nat) :
    take (fun _ => ManifestDecodeError.truncated) 4 ⟨offset, magic ++ rest⟩ =
      .ok (magic, ⟨offset + 4, rest⟩) :=
  take_ok_iff.mpr ⟨rfl, rfl, rfl⟩

theorem readManifest_head (encodable : manifest.Encodable) (rest : List UInt8) :
    readManifest ⟨0, manifest.headBytes ++ rest⟩ =
      (readSteps sectionSteps (manifest.kept 0) >>= finish manifest.headValue)
        ⟨manifest.headBytes.length, rest⟩ := by
  have head := readHead_codes.recovers.ahead (headValue_fits encodable) 4 rest
  rw [headBytes_eq, List.append_assoc, readManifest, bind_of_ok (magic_read _ 0)]
  rw [if_neg (not_not.mpr rfl)]
  have same : 4 + (writeHead manifest.headValue).length =
      (magic ++ writeHead manifest.headValue).length := by
    rw [List.length_append]
    rfl
  rw [same] at head
  rw [bind_of_ok head, readTail_eq]
  rfl

/-- What decoding asks of an entrypoint word. -/
theorem checkEntry_ok (encodable : manifest.Encodable) (cursor : Cursor) :
    checkEntry manifest.headValue.entry manifest.headValue.functions cursor =
      .ok (manifest.entry, cursor) := by
  have few := encodable.functionCount
  cases entry : manifest.entry with
  | none =>
    have word : manifest.headValue.entry = noEntrypoint := by
      simp [headValue, entry]
    rw [checkEntry, if_pos word]
    have bound : unbound manifest.headValue.functions = none := encodable.bound entry
    rw [bound]
    rfl
  | some index =>
    have inside := encodable.entry index entry
    have word : manifest.headValue.entry = index := by
      simp [headValue, entry]
    have functions : manifest.headValue.functions = manifest.functions := rfl
    have present : index ≠ noEntrypoint := by
      rintro rfl
      have sentinel : noEntrypoint.toNat = 2 ^ 32 - 1 := rfl
      omega
    rw [word, functions, checkEntry, if_neg present, if_neg (Nat.not_le.mpr inside)]
    rfl

theorem finish_ended (encodable : manifest.Encodable) (sections : Sections) {cursor : Cursor}
    (ended : cursor.rest = []) :
    finish manifest.headValue sections cursor =
      .ok (assembled manifest.headValue manifest.entry sections, cursor) := by
  rw [finish, bind_of_ok (remaining_ok_iff.mpr ⟨rfl, rfl⟩), ended]
  exact bind_ok_iff.mpr ⟨_, _, checkEntry_ok encodable cursor, rfl⟩

theorem fromBytes_of_read {bytes : List UInt8} {after : Cursor}
    (read : readManifest ⟨0, bytes⟩ = .ok (manifest, after)) : fromBytes bytes = .ok manifest := by
  rw [fromBytes, read]

theorem fromBytes_error {bytes : List UInt8} {error : ManifestDecodeError}
    (fails : readManifest ⟨0, bytes⟩ = .error error) : fromBytes bytes = .error error := by
  rw [fromBytes, fails]

theorem fromBytes_toBytes (encodable : manifest.Encodable) :
    fromBytes manifest.toBytes = .ok manifest := by
  have sectionsRead := (sectionChain encodable).reads_all
    (⟨by simp [manifest.sectionsBytes_sections], rfl⟩ :
      Spans ⟨manifest.headBytes.length, manifest.sectionBytes.flatten⟩
        (sectionsBytes manifest.sections)
        ⟨manifest.headBytes.length + (sectionsBytes manifest.sections).length, []⟩) rfl
  have last : stateBehind (manifest.kept 0) manifest.sections manifest.sections.length =
      manifest.kept 5 := manifest.stateBehind_sections (Nat.le_refl 5)
  rw [last] at sectionsRead
  have manifestRead := readManifest_head encodable manifest.sectionBytes.flatten
  rw [bind_of_ok sectionsRead, finish_ended encodable _ rfl] at manifestRead
  exact fromBytes_of_read manifestRead

/-- A manifest cut before its trailing sections does not decode. -/
theorem readManifest_cut_head (encodable : manifest.Encodable) {part between : List UInt8}
    (whole : manifest.headBytes = part ++ between) (nonempty : between ≠ []) :
    ∃ error, readManifest ⟨0, part⟩ = .error error := by
  rw [headBytes_eq] at whole
  rcases split_cases whole with ⟨behind, rfl, headEq⟩ | ⟨cut, cutNonempty, magicEq⟩
  · rcases readHead_codes.recovers.fails_when_cut readHead_codes.extends
      (headValue_fits encodable) headEq nonempty 4 with ⟨error, fails⟩
    refine ⟨error, ?_⟩
    rw [readManifest, bind_of_ok (magic_read _ 0), if_neg (not_not.mpr rfl), bind_of_error fails]
  · have short : part.length < 4 := by
      have lengths := congrArg List.length magicEq
      have some := List.length_pos_iff.mpr cutNonempty
      rw [List.length_append] at lengths
      have four : magic.length = 4 := rfl
      omega
    cases answer : take (fun _ => ManifestDecodeError.truncated) 4 ⟨0, part⟩ with
    | error error => exact ⟨error, bind_of_error answer⟩
    | ok result =>
      rcases take_ok_iff.mp answer with ⟨lengthEq, spans, _⟩
      have restLength := congrArg List.length spans
      rw [List.length_append] at restLength
      dsimp only at restLength
      omega

theorem readManifest_cut_sections (encodable : manifest.Encodable) {part cut : List UInt8}
    (whole : manifest.sectionBytes.flatten = part ++ cut) :
    (∃ error, readManifest ⟨0, manifest.headBytes ++ part⟩ = .error error) ∨
      ∃ count ≤ 5, part = (manifest.sectionBytes.take count).flatten ∧
        ∃ after, readManifest ⟨0, manifest.headBytes ++ part⟩ =
          .ok (manifest.keepSections count, after) := by
  rw [← sectionsBytes_sections] at whole
  rw [readManifest_head encodable]
  rcases (sectionChain encodable).reads_cut sectionSteps_idle whole manifest.headBytes.length with
    ⟨error, fails⟩ | ⟨count, after, bound, partEq, succeeds, ended⟩
  · exact Or.inl ⟨error, bind_of_error fails⟩
  · have few : count ≤ 5 := bound
    rw [manifest.stateBehind_sections few] at succeeds
    rw [sectionsBytes_take] at partEq
    refine Or.inr ⟨count, few, partEq, after, ?_⟩
    rw [bind_of_ok succeeds, finish_ended encodable _ ended]
    rfl

end HybridManifest

/-- An encodable manifest is read back from its bytes, and a proper prefix of them is refused
unless it is cut between two trailing sections; then it is the manifest without the sections
behind the cut. -/
theorem encodable_manifest_codes (manifest : HybridManifest) (encodable : manifest.Encodable) :
    HybridManifest.fromBytes manifest.toBytes = .ok manifest ∧
      ∀ bytes, bytes <+: manifest.toBytes → bytes ≠ manifest.toBytes →
        (∃ error, HybridManifest.fromBytes bytes = .error error) ∨
          ∃ count < 5, bytes = manifest.headBytes ++ (manifest.sectionBytes.take count).flatten ∧
            HybridManifest.fromBytes bytes = .ok (manifest.keepSections count) := by
  refine ⟨HybridManifest.fromBytes_toBytes encodable, ?_⟩
  rintro bytes ⟨cut, whole⟩ proper
  rcases split_cases whole.symm with ⟨part, rfl, sectionsEq⟩ | ⟨between, nonempty, headEq⟩
  · rcases HybridManifest.readManifest_cut_sections encodable sectionsEq with
      ⟨error, fails⟩ | ⟨count, bound, partEq, after, succeeds⟩
    · exact Or.inl ⟨error, HybridManifest.fromBytes_error fails⟩
    · refine Or.inr ⟨count, lt_of_le_of_ne bound ?_, by rw [partEq],
        HybridManifest.fromBytes_of_read succeeds⟩
      rintro rfl
      apply proper
      rw [partEq]
      rfl
  · rcases HybridManifest.readManifest_cut_head encodable headEq nonempty with ⟨error, fails⟩
    exact Or.inl ⟨error, HybridManifest.fromBytes_error fails⟩

/-- A table of one aggregate. -/
def onePoint : ForeignAggregates where
  entries := [⟨[.scalar .i32]⟩]
  ordered := by
    intro index row found member listed referenced refers
    have only : row = ⟨[.scalar .i32]⟩ := List.mem_singleton.mp (List.mem_of_getElem? found)
    rw [only] at listed
    rw [List.mem_singleton.mp listed] at refers
    cases refers

/-- A manifest of no functions and no sections. -/
def bareManifest : HybridManifest :=
  ⟨"demo", "demo.kbc", "libdemo.so", none, [], [], .empty, 0, .none⟩

/-- An import that keeps the aggregate it is handed, in an instrumented library. -/
def keepingManifest : HybridManifest :=
  { bareManifest with
    foreign := [⟨"libc", "keep", .c,
      (ForeignSignature.new [.aggregate 0] (.scalar .void)).withRetained [true], "libc.so"⟩]
    foreignAggregates := onePoint
    sanitizer := .address }

theorem keepingManifest_codes :
    HybridManifest.fromBytes keepingManifest.toBytes = .ok keepingManifest ∧
      HybridManifest.fromBytes keepingManifest.headBytes = .ok (keepingManifest.keepSections 0) := by
  have encodable : keepingManifest.Encodable := by
    refine ⟨by decide, by decide, by decide, by decide, nofun, by decide, ?_,
      by decide, by decide, nofun, fun _ => by decide, nofun⟩
    intro imported listed
    rw [List.mem_singleton.mp listed]
    exact ⟨by decide, by decide, by decide, by decide⟩
  exact ⟨(encodable_manifest_codes keepingManifest encodable).1, by decide⟩

/-! ## What is not read back -/

theorem fromBytes_moduleName {bytes : List UInt8} {manifest : HybridManifest}
    (decoded : HybridManifest.fromBytes bytes = .ok manifest) : ShortText manifest.moduleName := by
  unfold HybridManifest.fromBytes at decoded
  cases read : readManifest ⟨0, bytes⟩ with
  | error error =>
    rw [read] at decoded
    cases decoded
  | ok answer =>
    rcases answer with ⟨answered, after⟩
    rw [read] at decoded
    cases decoded
    rcases bind_ok_iff.mp read with ⟨opening, first, _, checked⟩
    rcases fail_ite_ok_iff.mp checked with ⟨_, behind⟩
    rcases bind_ok_iff.mp behind with ⟨head, second, headRead, tailRead⟩
    have fits := (readHead_codes _ _ _).mp headRead
    rw [readTail_eq] at tailRead
    rcases bind_ok_iff.mp tailRead with ⟨sections, third, _, finished⟩
    rcases bind_ok_iff.mp finished with ⟨left, fourth, _, ended⟩
    rcases fail_ite_ok_iff.mp ended with ⟨_, entered⟩
    rcases bind_ok_iff.mp entered with ⟨entry, fifth, _, same⟩
    rcases pure_ok_iff.mp same with ⟨rfl, _⟩
    exact fits.1.moduleName

theorem text_of_length (length : Nat) : ∃ text, (textBytes text).length = length := by
  induction length with
  | zero => exact ⟨"", rfl⟩
  | succ length ih =>
    rcases ih with ⟨text, sized⟩
    refine ⟨text.push 'a', ?_⟩
    have pushed : (text.push 'a').utf8ByteSize = text.utf8ByteSize + 1 := String.utf8ByteSize_push
    have sizes : ∀ text : String, (textBytes text).length = text.utf8ByteSize := fun _ => rfl
    rw [sizes, pushed, ← sizes, sized]

/-- A library with a native function that has nothing to bind. -/
def unboundLibrary : HybridManifest :=
  { bareManifest with functions := [⟨0, "hot", .native, [], 0, none⟩] }

/-- An aggregate, and no import to name it. -/
def aggregatesAlone : HybridManifest :=
  { bareManifest with foreignAggregates := onePoint }

theorem some_manifests_are_not_read_back :
    HybridManifest.fromBytes unboundLibrary.toBytes = .error (.nativeWithoutSymbol "hot") ∧
      HybridManifest.fromBytes aggregatesAlone.toBytes ≠ .ok aggregatesAlone ∧
      ∃ name, HybridManifest.fromBytes { bareManifest with moduleName := name }.toBytes ≠
        .ok { bareManifest with moduleName := name } := by
  refine ⟨by decide, by decide, ?_⟩
  rcases text_of_length (2 ^ 32) with ⟨name, long⟩
  refine ⟨name, ?_⟩
  intro decoded
  have short : ShortText name := fromBytes_moduleName decoded
  rw [ShortText, long] at short
  exact Nat.lt_irrefl _ short

end KiraHybrid

end KiraVm
