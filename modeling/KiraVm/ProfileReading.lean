import KiraVm.ProfileTables

/-!
# Reading records

Each written record does one thing to the trace that is being read: a line of the
metadata sets its part, and a line of a profile adds to the last profile.
-/

namespace KiraVm.Profiling

/-! ## Words of fields -/

variable {key : String} {written : List (List Char)} {reader last : Reader}

theorem named_spells_bare {value : List Char}
    (keyBare : ∀ character ∈ key.toList, bareChar character = true)
    (bare : ∀ character ∈ value, bareChar character = true) :
    Spells (named key value) (keyed key (String.ofList value)) := by
  have spells := @Spells.bare (named key value) (by
    intro character member
    rcases List.mem_append.mp member with inKey | inValue
    · exact keyBare character inKey
    · rcases List.mem_cons.mp inValue with rfl | inside
      · decide
      · exact bare character inside) (by simp [named])
  have same : String.ofList (named key value) = keyed key (String.ofList value) := by
    rw [← String.toList_inj]
    simp [named, keyed]
  rwa [same] at spells

theorem named_decimal (keyBare : ∀ character ∈ key.toList, bareChar character = true)
    (number : Nat) :
    Spells (named key (decimal number)) (keyed key (String.ofList (decimal number))) :=
  named_spells_bare keyBare (decimal_bare number)

theorem named_label {label : String}
    (keyBare : ∀ character ∈ key.toList, bareChar character = true)
    (bare : ∀ character ∈ label.toList, bareChar character = true) :
    Spells (named key label.toList) (keyed key label) := by
  have spells := named_spells_bare keyBare bare
  rwa [String.ofList_toList] at spells

theorem FrameKind.label_bare (kind : FrameKind) :
    ∀ character ∈ kind.label.toList, bareChar character = true := by
  cases kind <;> exact known_bare (by simp [vocabulary, FrameKind.label])

theorem View.label_spells (view : View) : Spells view.label.toList view.label := by
  cases view <;> exact known_spells (by simp [vocabulary, View.label])

theorem View.parse_label (view : View) : View.parse view.label = some view := by
  cases view <;> rfl

theorem Unit.label_bare (unit : Unit) :
    ∀ character ∈ unit.label.toList, bareChar character = true := by
  cases unit <;> exact known_bare (by simp [vocabulary, Unit.label])

theorem Backend.label_spells (backend : Backend) : Spells backend.label.toList backend.label := by
  cases backend <;> exact known_spells (by simp [vocabulary, Backend.label])

/-! ## Reading lines -/

/-- A line makes one reader of another, whatever its number. -/
structure Reads (text : List Char) (reader next : Reader) : Prop where
  isLine : IsLine text
  reads : ∀ line, reader.line line text = .ok next

/-- Lines that make one reader of another. -/
inductive LeadsTo : List (List Char) → Reader → Reader → Prop
  | nil (reader : Reader) : LeadsTo [] reader reader
  | cons {text : List Char} {written : List (List Char)} {reader next last : Reader}
      (first : Reads text reader next) (rest : LeadsTo written next last) :
      LeadsTo (text :: written) reader last

theorem LeadsTo.lines (leads : LeadsTo written reader last) (line : Nat) :
    reader.lines line written = .ok last := by
  induction leads generalizing line with
  | nil reader => rfl
  | cons first rest ih =>
    unfold Reader.lines
    rw [first.reads line]
    exact ih (line + 1)

theorem LeadsTo.isLines (leads : LeadsTo written reader last) : ∀ line ∈ written, IsLine line := by
  induction leads with
  | nil reader => exact fun line member => (by cases member)
  | cons first rest ih =>
    intro line member
    rcases List.mem_cons.mp member with rfl | member
    · exact first.isLine
    · exact ih line member

theorem LeadsTo.append {more : List (List Char)} {next : Reader}
    (earlier : LeadsTo written reader next) (later : LeadsTo more next last) :
    LeadsTo (written ++ more) reader last := by
  induction earlier with
  | nil reader => exact later
  | cons first rest ih => exact .cons first (ih later)

theorem LeadsTo.single {text : List Char} {reader next : Reader}
    (first : Reads text reader next) : LeadsTo [text] reader next :=
  .cons first (.nil next)

theorem Reads.record {parts : List (List Char)} {texts : List String} {next : Reader}
    (spells : List.Forall₂ Spells parts texts) (nonempty : parts ≠ [])
    (read : ∀ line, reader.record line texts = .ok next) :
    Reads (record parts) reader next where
  isLine := isLine_record spells
  reads := by
    intro line
    unfold Reader.line
    rw [words_record spells nonempty]
    exact read line

/-! ## The metadata -/

theorem metaLine_spells {value : List Char} {text : String} (keySpells : Spells key.toList key)
    (spells : Spells value text) :
    List.Forall₂ Spells ["meta".toList, key.toList, value] ["meta", key, text] :=
  .cons (known_spells (by simp [vocabulary])) (.cons keySpells (.cons spells .nil))

theorem metaLine_reads {key : String} {value : List Char} {text : String}
    (keySpells : Spells key.toList key) (spells : Spells value text) {reader next : Reader}
    (read : ∀ line, reader.record line ["meta", key, text] = .ok next) :
    Reads (metaLine key value) reader next :=
  .record (metaLine_spells keySpells spells) (List.cons_ne_nil _ _) read

theorem arguments_lead (arguments : List String) (reader : Reader) :
    LeadsTo (arguments.map fun argument => metaLine "argument" (quote argument)) reader
      { reader with
        metadata := { reader.metadata with
          arguments := reader.metadata.arguments ++ arguments } } := by
  induction arguments generalizing reader with
  | nil =>
    simp only [List.append_nil]
    exact .nil reader
  | cons argument rest ih =>
    have read := @metaLine_reads "argument" _ _
      (known_spells (by simp [vocabulary])) (Spells.quote argument) reader _
      fun line => rfl
    have others := ih { reader with
      metadata := { reader.metadata with
        arguments := reader.metadata.arguments ++ [argument] } }
    simp only [List.append_assoc, List.singleton_append] at others
    exact .cons read others

theorem source_leads (source : Option String) (reader : Reader)
    (unset : reader.metadata.source = none) :
    LeadsTo (source.toList.map fun source => metaLine "source" (quote source)) reader
      { reader with metadata := { reader.metadata with source := source } } := by
  cases source with
  | none =>
    have same : { reader with metadata := { reader.metadata with source := none } } = reader := by
      rw [← unset]
    rw [same]
    exact .nil reader
  | some source =>
    exact .single (@metaLine_reads "source" _ _
      (known_spells (by simp [vocabulary])) (Spells.quote source) reader _
      fun line => rfl)

theorem metadata_leads (metadata : TraceMeta) :
    LeadsTo metadata.write .new ⟨metadata, []⟩ := by
  obtain ⟨command, arguments, backend, source, started, duration, code⟩ := metadata
  unfold TraceMeta.write
  have first : Reads (metaLine "command" (quote command)) .new
      ⟨⟨command, [], .vm, none, 0, 0, 0⟩, []⟩ :=
    metaLine_reads (known_spells (by simp [vocabulary])) (Spells.quote command)
      fun line => rfl
  have second := arguments_lead arguments ⟨⟨command, [], .vm, none, 0, 0, 0⟩, []⟩
  have third : Reads (metaLine "backend" backend.label.toList)
      ⟨⟨command, arguments, .vm, none, 0, 0, 0⟩, []⟩
      ⟨⟨command, arguments, backend, none, 0, 0, 0⟩, []⟩ := by
    apply metaLine_reads (known_spells (by simp [vocabulary]))
      backend.label_spells
    intro line
    cases backend <;> rfl
  have fourth := source_leads source ⟨⟨command, arguments, backend, none, 0, 0, 0⟩, []⟩ rfl
  have fifth : Reads (metaLine "started-unix-ms" (decimal started.toNat))
      ⟨⟨command, arguments, backend, source, 0, 0, 0⟩, []⟩
      ⟨⟨command, arguments, backend, source, started, 0, 0⟩, []⟩ := by
    apply metaLine_reads (known_spells (by simp [vocabulary]))
      (decimal_spells started.toNat)
    intro line
    change (number line (String.ofList (decimal started.toNat)) >>= _) = _
    rw [number_decimal]
    rfl
  have sixth : Reads (metaLine "duration" (decimal duration.toNat))
      ⟨⟨command, arguments, backend, source, started, 0, 0⟩, []⟩
      ⟨⟨command, arguments, backend, source, started, duration, 0⟩, []⟩ := by
    apply metaLine_reads (known_spells (by simp [vocabulary]))
      (decimal_spells duration.toNat)
    intro line
    change (number line (String.ofList (decimal duration.toNat)) >>= _) = _
    rw [number_decimal]
    rfl
  have seventh : Reads (metaLine "exit-code" (signed code.toInt))
      ⟨⟨command, arguments, backend, source, started, duration, 0⟩, []⟩
      ⟨⟨command, arguments, backend, source, started, duration, code⟩, []⟩ := by
    apply metaLine_reads (known_spells (by simp [vocabulary]))
      (Spells.bare (signed_bare code.toInt) (signed_nonempty code.toInt))
    intro line
    simp only [Reader.record, List.head?_cons, Reader.metaRecord, List.getElem?_cons_succ,
      List.getElem?_cons_zero, Option.getD_some, parseI32_signed]
  exact ((LeadsTo.cons first second).append (.cons third fourth)).append
    (.cons fifth (.cons sixth (.single seventh)))

/-! ## Profiles -/

theorem current_last (metadata : TraceMeta) (done : List Profile) (profile : Profile) (line : Nat)
    (change : Profile → Except TraceError Profile) :
    Reader.current ⟨metadata, done ++ [profile]⟩ line change =
      (change profile).map fun changed => ⟨metadata, done ++ [changed]⟩ := by
  unfold Reader.current
  simp only [List.getLast?_concat, List.dropLast_concat]
  cases change profile <;> rfl

theorem foldlM_ok {State : Type} {read : State → String → Except TraceError State}
    {state next : State} {word : String} {rest : List String} (first : read state word = .ok next) :
    (word :: rest).foldlM read state = rest.foldlM read next := by
  rw [List.foldlM_cons, first]
  rfl

section ProfileFields

variable (profile : Profile) (line : Nat)

theorem readField_event (value : String) :
    profile.readField line (keyed "event" value) = .ok { profile with event := value } := by
  unfold Profile.readField
  rw [known_field (by simp [vocabulary])]
  rfl

theorem readField_unit (unit : Unit) :
    profile.readField line (keyed "unit" unit.label) = .ok { profile with unit := unit } := by
  unfold Profile.readField
  rw [known_field (by simp [vocabulary])]
  cases unit <;> rfl

theorem readField_collector (value : String) :
    profile.readField line (keyed "collector" value) = .ok { profile with collector := value } := by
  unfold Profile.readField
  rw [known_field (by simp [vocabulary])]
  rfl

theorem readField_frequency (frequency : UInt32) :
    profile.readField line (keyed "frequency" (String.ofList (decimal frequency.toNat))) =
      .ok { profile with frequency := frequency } := by
  unfold Profile.readField
  rw [known_field (by simp [vocabulary])]
  change (number line (String.ofList (decimal frequency.toNat)) >>= _) = _
  rw [number_decimal_u32]
  change Except.ok _ = _
  rw [UInt32.toUInt32_toUInt64]

theorem readField_lost (lost : UInt64) :
    profile.readField line (keyed "lost" (String.ofList (decimal lost.toNat))) =
      .ok { profile with lost := lost } := by
  unfold Profile.readField
  rw [known_field (by simp [vocabulary])]
  change (number line (String.ofList (decimal lost.toNat)) >>= _) = _
  rw [number_decimal]
  rfl

end ProfileFields

/-- A profile's own line. -/
theorem profile_reads (profile : Profile) (metadata : TraceMeta) (done : List Profile) :
    Reads (record ["profile".toList, profile.view.label.toList, named "event" (quote profile.event),
        named "unit" profile.unit.label.toList, named "collector" (quote profile.collector),
        named "frequency" (decimal profile.frequency.toNat),
        named "lost" (decimal profile.lost.toNat)])
      ⟨metadata, done⟩
      ⟨metadata, done ++ [{ Profile.new profile.view profile.event profile.collector with
        unit := profile.unit
        frequency := profile.frequency
        lost := profile.lost }]⟩ := by
  apply Reads.record (.cons (known_spells (by simp [vocabulary]))
    (.cons profile.view.label_spells
    (.cons (named_spells (Spells.quote profile.event) (known_bare (by simp [vocabulary])))
    (.cons (named_label (known_bare (by simp [vocabulary])) profile.unit.label_bare)
    (.cons (named_spells (Spells.quote profile.collector) (known_bare (by simp [vocabulary])))
    (.cons (named_decimal (known_bare (by simp [vocabulary])) profile.frequency.toNat)
    (.cons (named_decimal (known_bare (by simp [vocabulary])) profile.lost.toNat) .nil)))))))
    (List.cons_ne_nil _ _)
  intro line
  change Reader.profileRecord _ line _ = _
  unfold Reader.profileRecord
  simp only [List.getElem?_cons_succ, List.getElem?_cons_zero, Option.getD_some,
    View.parse_label, List.drop_succ_cons, List.drop_zero]
  rw [foldlM_ok (readField_event _ line profile.event), foldlM_ok (readField_unit _ line profile.unit),
    foldlM_ok (readField_collector _ line profile.collector),
    foldlM_ok (readField_frequency _ line profile.frequency),
    foldlM_ok (readField_lost _ line profile.lost)]
  rfl

theorem threadName_keyed (name : String) : threadName [keyed "name" name] = name := by
  unfold threadName
  simp only [List.foldl_cons, List.foldl_nil]
  rw [known_field (by simp [vocabulary])]
  rfl

theorem threads_lead (threads : List ThreadRecord) (metadata : TraceMeta) (done : List Profile)
    (profile : Profile) :
    LeadsTo (threads.map ThreadRecord.write) ⟨metadata, done ++ [profile]⟩
      ⟨metadata, done ++ [{ profile with threads := profile.threads ++ threads }]⟩ := by
  induction threads generalizing profile with
  | nil =>
    simp only [List.append_nil]
    exact .nil _
  | cons thread rest ih =>
    have others := ih { profile with threads := profile.threads ++ [thread] }
    simp only [List.append_assoc, List.singleton_append] at others
    refine .cons ?_ others
    apply Reads.record (.cons (known_spells (by simp [vocabulary])) (.cons
      (decimal_spells thread.id.toNat) (.cons (named_spells (Spells.quote thread.name)
        (known_bare (by simp [vocabulary]))) .nil))) (List.cons_ne_nil _ _)
    intro line
    change (number line (String.ofList (decimal thread.id.toNat)) >>= _) = _
    rw [number_decimal_u32]
    change Reader.current _ line _ = _
    rw [current_last]
    simp only [List.drop_succ_cons, List.drop_zero, threadName_keyed, UInt32.toUInt32_toUInt64]
    rfl

/-! ## Frames -/

namespace FrameDraft

variable (draft : FrameDraft) (line : Nat)

theorem readField_kind (kind : FrameKind) :
    draft.readField line (keyed "kind" kind.label) = .ok { draft with kind := kind } := by
  unfold FrameDraft.readField
  rw [known_field (by simp [vocabulary])]
  cases kind <;> rfl

theorem readField_name (value : String) :
    draft.readField line (keyed "name" value) =
      .ok { draft with
        table := (draft.table.name value).2, symbol := some (draft.table.name value).1 } := by
  unfold FrameDraft.readField
  rw [known_field (by simp [vocabulary])]
  rfl

theorem readField_object (value : String) :
    draft.readField line (keyed "object" value) =
      .ok { draft with
        table := (draft.table.name value).2, object := some (draft.table.name value).1 } := by
  unfold FrameDraft.readField
  rw [known_field (by simp [vocabulary])]
  rfl

theorem readField_file (value : String) :
    draft.readField line (keyed "file" value) =
      .ok { draft with
        table := (draft.table.name value).2, file := some (draft.table.name value).1 } := by
  unfold FrameDraft.readField
  rw [known_field (by simp [vocabulary])]
  rfl

theorem readField_function (value : UInt32) :
    draft.readField line (keyed "function" (String.ofList (decimal value.toNat))) =
      .ok { draft with function := some value } := by
  unfold FrameDraft.readField
  rw [known_field (by simp [vocabulary])]
  change (number line (String.ofList (decimal value.toNat)) >>= _) = _
  rw [number_decimal_u32]
  change Except.ok _ = _
  rw [UInt32.toUInt32_toUInt64]

theorem readField_offset (value : UInt32) :
    draft.readField line (keyed "offset" (String.ofList (decimal value.toNat))) =
      .ok { draft with offset := some value } := by
  unfold FrameDraft.readField
  rw [known_field (by simp [vocabulary])]
  change (number line (String.ofList (decimal value.toNat)) >>= _) = _
  rw [number_decimal_u32]
  change Except.ok _ = _
  rw [UInt32.toUInt32_toUInt64]

theorem readField_line (value : UInt32) :
    draft.readField line (keyed "line" (String.ofList (decimal value.toNat))) =
      .ok { draft with line := some value } := by
  unfold FrameDraft.readField
  rw [known_field (by simp [vocabulary])]
  change (number line (String.ofList (decimal value.toNat)) >>= _) = _
  rw [number_decimal_u32]
  change Except.ok _ = _
  rw [UInt32.toUInt32_toUInt64]

end FrameDraft

/-- The optional words of a frame: those of numbers. -/
def numberField (key : String) (value : Option UInt32) : List String :=
  value.toList.map fun number => keyed key (String.ofList (decimal number.toNat))

/-- The words of a frame behind its index. -/
def FrameText.fields (text : FrameText) : List String :=
  [keyed "kind" text.kind.label, keyed "name" text.symbol, keyed "object" text.object] ++
    numberField "function" text.function ++ numberField "offset" text.offset ++
    (text.file.toList.map fun file => keyed "file" file) ++ numberField "line" text.line

theorem numberField_spells (keyBare : ∀ character ∈ key.toList, bareChar character = true)
    (value : Option UInt32) :
    List.Forall₂ Spells (value.toList.map fun number => named key (decimal number.toNat))
      (numberField key value) := by
  cases value with
  | none => exact .nil
  | some number => exact .cons (named_decimal keyBare number.toNat) .nil

theorem writeFrame_spells (table : FrameTable) (index : Nat) (frame : Frame) :
    ∃ parts, table.writeFrame index frame = record parts ∧ parts ≠ [] ∧
      List.Forall₂ Spells parts
        ("frame" :: String.ofList (decimal index) :: (table.spell frame).fields) := by
  refine ⟨_, rfl, by simp, ?_⟩
  have first : List.Forall₂ Spells
      ["frame".toList, decimal index, named "kind" frame.kind.label.toList,
        named "name" (quote (table.text frame.symbol)),
        named "object" (quote (table.text frame.object))]
      ("frame" :: String.ofList (decimal index) :: [keyed "kind" frame.kind.label,
        keyed "name" (table.text frame.symbol), keyed "object" (table.text frame.object)]) :=
    .cons (known_spells (by simp [vocabulary])) (.cons (decimal_spells index)
      (.cons (named_label (known_bare (by simp [vocabulary])) frame.kind.label_bare)
      (.cons (named_spells (Spells.quote _) (known_bare (by simp [vocabulary])))
      (.cons (named_spells (Spells.quote _) (known_bare (by simp [vocabulary]))) .nil))))
  have file : List.Forall₂ Spells
      (frame.file.toList.map fun file => named "file" (quote (table.text file)))
      ((frame.file.map table.text).toList.map fun file => keyed "file" file) := by
    cases frame.file with
    | none => exact .nil
    | some file => exact .cons (named_spells (Spells.quote _) (known_bare (by simp [vocabulary]))) .nil
  have all := List.rel_append (List.rel_append (List.rel_append (List.rel_append first
    (numberField_spells (@known_bare "function" (by simp [vocabulary])) frame.function))
    (numberField_spells (@known_bare "offset" (by simp [vocabulary])) frame.offset))
    file) (numberField_spells (@known_bare "line" (by simp [vocabulary])) frame.line)
  exact all

theorem foldlM_append_ok {State : Type} {read : State → String → Except TraceError State}
    {state next : State} {words more : List String} (first : words.foldlM read state = .ok next) :
    (words ++ more).foldlM read state = more.foldlM read next := by
  rw [List.foldlM_append, first]
  rfl

theorem numberField_read {key : String} {line : Nat} {draft : FrameDraft}
    {set : Option UInt32 → FrameDraft}
    (reads : ∀ number : UInt32, draft.readField line
      (keyed key (String.ofList (decimal number.toNat))) = .ok (set (some number)))
    (unset : set none = draft) (value : Option UInt32) :
    (numberField key value).foldlM (FrameDraft.readField line) draft = .ok (set value) := by
  cases value with
  | none =>
    rw [unset]
    rfl
  | some number => exact foldlM_ok (reads number)

theorem fields_read (table : FrameTable) (line : Nat) (text : FrameText) :
    ∃ draft, text.fields.foldlM (FrameDraft.readField line) (.new table) = .ok draft ∧
      draft.finish = table.readBack text := by
  obtain ⟨symbol, kind, object, function, offset, file, sourceLine⟩ := text
  unfold FrameText.fields
  simp only [List.append_assoc, List.cons_append, List.nil_append]
  rw [foldlM_ok (FrameDraft.readField_kind _ line kind),
    foldlM_ok (FrameDraft.readField_name _ line symbol),
    foldlM_ok (FrameDraft.readField_object _ line object)]
  simp only [FrameDraft.new]
  generalize isFirst : table.name symbol = first
  generalize isSecond : first.2.name object = second
  have functionRead := @numberField_read "function" line
    ⟨second.2, kind, some first.1, some second.1, none, none, none, none⟩
    (fun value => ⟨second.2, kind, some first.1, some second.1, value, none, none, none⟩)
    (FrameDraft.readField_function _ line) rfl function
  have offsetRead := @numberField_read "offset" line
    ⟨second.2, kind, some first.1, some second.1, function, none, none, none⟩
    (fun value => ⟨second.2, kind, some first.1, some second.1, function, value, none, none⟩)
    (FrameDraft.readField_offset _ line) rfl offset
  have fileRead : (file.toList.map fun file => keyed "file" file).foldlM
      (FrameDraft.readField line)
      ⟨second.2, kind, some first.1, some second.1, function, offset, none, none⟩ =
      .ok ⟨(second.2.nameFile file).2, kind, some first.1, some second.1, function, offset,
        (second.2.nameFile file).1, none⟩ := by
    cases file with
    | none => rfl
    | some file => exact foldlM_ok (FrameDraft.readField_file _ line file)
  have lineRead := @numberField_read "line" line
    ⟨(second.2.nameFile file).2, kind, some first.1, some second.1, function, offset,
      (second.2.nameFile file).1, none⟩
    (fun value => ⟨(second.2.nameFile file).2, kind, some first.1, some second.1, function, offset,
      (second.2.nameFile file).1, value⟩)
    (FrameDraft.readField_line _ line) rfl sourceLine
  rw [foldlM_append_ok functionRead, foldlM_append_ok offsetRead, foldlM_append_ok fileRead,
    lineRead]
  refine ⟨_, rfl, ?_⟩
  unfold FrameDraft.finish FrameTable.readBack
  simp only [isFirst, isSecond, Option.getD_some]

theorem frames_lead (table : FrameTable) (frames : List Frame) (start : Nat)
    (metadata : TraceMeta) (done : List Profile) (profile : Profile) :
    LeadsTo ((frames.zipIdx start).map fun entry => table.writeFrame entry.2 entry.1)
      ⟨metadata, done ++ [profile]⟩
      ⟨metadata, done ++ [{ profile with
        frames := (frames.map table.spell).foldl FrameTable.readBack profile.frames }]⟩ := by
  induction frames generalizing start profile with
  | nil => exact .nil _
  | cons frame rest ih =>
    have others := ih (start + 1)
      { profile with frames := profile.frames.readBack (table.spell frame) }
    rw [List.zipIdx_cons, List.map_cons, List.map_cons, List.foldl_cons]
    refine .cons ?_ others
    obtain ⟨parts, isRecord, nonempty, spells⟩ := writeFrame_spells table start frame
    simp only
    rw [isRecord]
    apply Reads.record spells nonempty
    intro line
    obtain ⟨draft, read, finished⟩ := fields_read profile.frames line (table.spell frame)
    change Reader.frameRecord _ line _ = _
    unfold Reader.frameRecord
    rw [current_last]
    simp only [List.drop_succ_cons, List.drop_zero]
    rw [read, ← finished]
    rfl

/-! ## Samples -/

section SampleFields

variable (line : Nat) (frames : FrameTable) (sample : Sample)

theorem readField_thread (thread : UInt32) :
    Sample.readField line frames sample (keyed "thread" (String.ofList (decimal thread.toNat))) =
      .ok { sample with thread := thread } := by
  unfold Sample.readField
  rw [known_field (by simp [vocabulary])]
  change (number line (String.ofList (decimal thread.toNat)) >>= _) = _
  rw [number_decimal_u32]
  change Except.ok _ = _
  rw [UInt32.toUInt32_toUInt64]

theorem readField_time (time : UInt64) :
    Sample.readField line frames sample (keyed "time" (String.ofList (decimal time.toNat))) =
      .ok { sample with time := time } := by
  unfold Sample.readField
  rw [known_field (by simp [vocabulary])]
  change (number line (String.ofList (decimal time.toNat)) >>= _) = _
  rw [number_decimal]
  rfl

theorem readField_weight (weight : UInt64) :
    Sample.readField line frames sample (keyed "weight" (String.ofList (decimal weight.toNat))) =
      .ok { sample with weight := weight } := by
  unfold Sample.readField
  rw [known_field (by simp [vocabulary])]
  change (number line (String.ofList (decimal weight.toNat)) >>= _) = _
  rw [number_decimal]
  rfl

end SampleFields

theorem comma_notMem_decimal (number : Nat) : ',' ∉ decimal number := by
  intro member
  exact absurd (Decimal.digits_isDigit number ',' member) (by decide)

theorem entries_commas (stack : List FrameId) :
    entries (String.ofList (commas (stack.map fun frame => decimal frame.toNat))) =
      stack.map fun frame => String.ofList (decimal frame.toNat) := by
  unfold entries commas
  rw [String.toList_ofList]
  cases stack with
  | nil => rfl
  | cons frame rest =>
    rw [List.splitOn_intercalate ',' ?_ (by simp), List.filter_eq_self.mpr ?_, List.map_map]
    · rfl
    · intro number member
      obtain ⟨frame, -, rfl⟩ := List.mem_map.mp member
      exact decide_eq_true Nat.toDigits_ne_nil
    · intro number member
      obtain ⟨frame, -, rfl⟩ := List.mem_map.mp member
      exact comma_notMem_decimal frame.toNat

theorem commas_bare (stack : List FrameId) :
    ∀ character ∈ commas (stack.map fun frame => decimal frame.toNat),
      bareChar character = true := by
  induction stack with
  | nil => exact fun character member => (by cases member)
  | cons frame rest ih =>
    cases rest with
    | nil =>
      simp only [commas, List.map_cons, List.map_nil, List.intercalate_singleton]
      exact decimal_bare frame.toNat
    | cons second others =>
      have split : commas ((frame :: second :: others).map fun frame => decimal frame.toNat) =
          decimal frame.toNat ++
            ',' :: commas ((second :: others).map fun frame => decimal frame.toNat) := by
        simp [commas, List.intercalate_cons_cons]
      rw [split]
      intro character member
      rcases List.mem_append.mp member with digit | member
      · exact decimal_bare frame.toNat character digit
      · rcases List.mem_cons.mp member with rfl | inside
        · decide
        · exact ih character inside

theorem readField_stack (line : Nat) (frames : FrameTable) (sample : Sample) (stack : List FrameId)
    (inside : ∀ frame ∈ stack, frame.toNat < frames.frames.length) :
    Sample.readField line frames sample
        (keyed "stack" (String.ofList (commas (stack.map fun frame => decimal frame.toNat)))) =
      .ok { sample with stack := sample.stack ++ stack } := by
  unfold Sample.readField
  rw [known_field (by simp [vocabulary])]
  change (entries _).foldlM _ sample = _
  rw [entries_commas]
  induction stack generalizing sample with
  | nil =>
    rw [List.append_nil]
    rfl
  | cons frame rest ih =>
    have others := ih { sample with stack := sample.stack ++ [frame] }
      fun other member => inside other (List.mem_cons_of_mem _ member)
    simp only [List.append_assoc, List.singleton_append] at others
    rw [List.map_cons, List.foldlM_cons, number_decimal_u32]
    have found : frames.id frame = some frame := by
      unfold FrameTable.id
      rw [if_pos (inside frame List.mem_cons_self)]
    simp only [bind, Except.bind, UInt32.toUInt32_toUInt64, found]
    exact others

theorem samples_lead (samples : List Sample) (metadata : TraceMeta) (done : List Profile)
    (profile : Profile)
    (inside : ∀ sample ∈ samples, ∀ frame ∈ sample.stack,
      frame.toNat < profile.frames.frames.length) :
    LeadsTo (samples.map Sample.write) ⟨metadata, done ++ [profile]⟩
      ⟨metadata, done ++ [{ profile with samples := profile.samples ++ samples }]⟩ := by
  induction samples generalizing profile with
  | nil =>
    simp only [List.append_nil]
    exact .nil _
  | cons sample rest ih =>
    have others := ih { profile with samples := profile.samples ++ [sample] }
      fun other member => inside other (List.mem_cons_of_mem _ member)
    simp only [List.append_assoc, List.singleton_append] at others
    refine .cons ?_ others
    apply Reads.record (.cons (known_spells (by simp [vocabulary]))
      (.cons (named_decimal (known_bare (by simp [vocabulary])) sample.thread.toNat)
      (.cons (named_decimal (known_bare (by simp [vocabulary])) sample.time.toNat)
      (.cons (named_decimal (known_bare (by simp [vocabulary])) sample.weight.toNat)
      (.cons (named_spells_bare (known_bare (by simp [vocabulary])) (commas_bare sample.stack)) .nil)))))
      (List.cons_ne_nil _ _)
    intro line
    change Reader.sampleRecord _ line _ = _
    unfold Reader.sampleRecord
    rw [current_last]
    simp only [List.drop_succ_cons, List.drop_zero]
    rw [foldlM_ok (readField_thread line profile.frames _ sample.thread),
      foldlM_ok (readField_time line profile.frames _ sample.time),
      foldlM_ok (readField_weight line profile.frames _ sample.weight),
      foldlM_ok (readField_stack line profile.frames _ sample.stack
        (inside sample List.mem_cons_self))]
    rfl

end KiraVm.Profiling
