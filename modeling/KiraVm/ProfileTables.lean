import KiraVm.ProfileWords
import Mathlib.Data.List.Perm.Subperm

/-!
# Frame tables read back

A frame is written as texts, and read by interning them again.  The frames of a table
come back in their order when their texts are distinct and there is a handle for each.
-/

namespace KiraVm.Profiling

/-- A frame with its names as texts. -/
structure FrameText where
  symbol : String
  kind : FrameKind
  object : String
  function : Option UInt32
  offset : Option UInt32
  file : Option String
  line : Option UInt32
  deriving DecidableEq

def FrameText.names (text : FrameText) : List String :=
  text.symbol :: text.object :: text.file.toList

namespace FrameTable

def spell (table : FrameTable) (frame : Frame) : FrameText :=
  ⟨table.text frame.symbol, frame.kind, table.text frame.object, frame.function, frame.offset,
    frame.file.map table.text, frame.line⟩

def spelled (table : FrameTable) : List FrameText :=
  table.frames.map table.spell

/-- The names that reading the frames interns. -/
def neededNames (table : FrameTable) : List String :=
  errorText :: "" :: table.spelled.flatMap FrameText.names

/-- The frames of a table are distinct as texts, and there are handles for their names,
the reserved one and the empty one. -/
structure Spellable (table : FrameTable) : Prop where
  distinct : table.spelled.Nodup
  room : table.neededNames.dedup.length ≤ 2 ^ 32

/-! ## Interning -/

/-- A table with more names, and the same frames. -/
structure Extends (table next : FrameTable) : Prop where
  names : table.names.strings <+: next.names.strings
  frames : next.frames = table.frames

theorem Extends.refl (table : FrameTable) : table.Extends table :=
  ⟨List.prefix_rfl, rfl⟩

variable {table next : FrameTable} {symbol : Symbol} {frame : Frame}

theorem Extends.trans {last : FrameTable} (earlier : table.Extends next)
    (later : next.Extends last) : table.Extends last :=
  ⟨earlier.names.trans later.names, later.frames.trans earlier.frames⟩

/-- A handle of one of the table's names. -/
def Minted (table : FrameTable) (symbol : Symbol) : Prop :=
  symbol.toNat < table.names.strings.length

theorem Minted.extends (minted : table.Minted symbol)
    (later : table.names.strings <+: next.names.strings) :
    next.Minted symbol ∧ next.text symbol = table.text symbol := by
  obtain ⟨more, split⟩ := later
  have inside : symbol.toNat < table.names.strings.length := minted
  unfold Minted text Interner.resolve
  rw [← split, List.length_append, List.getElem?_append_left inside]
  exact ⟨by omega, rfl⟩

/-- Interning gives a handle, and a handle of the text when there is one. -/
theorem name_spec (table : FrameTable) (text : String) :
    table.Extends (table.name text).2 ∧ (table.name text).2.Minted (table.name text).1 ∧
      (table.names.strings.length < 2 ^ 32 ∨ text ∈ table.names.strings →
        (table.name text).2.text (table.name text).1 = text ∧
          (table.name text).2.names.strings ⊆ text :: table.names.strings) := by
  have fits := table.names.fits
  unfold name Interner.intern
  by_cases known : text ∈ table.names.strings
  · rw [dif_pos known]
    have inside := List.idxOf_lt_length_of_mem known
    have index : (UInt32.ofNat (table.names.strings.idxOf text)).toNat =
        table.names.strings.idxOf text := by
      rw [UInt32.toNat_ofNat']
      exact Nat.mod_eq_of_lt (lt_of_lt_of_le inside fits)
    refine ⟨Extends.refl table, ?_, ?_⟩
    · simp only [Minted, index]
      exact inside
    · intro _
      refine ⟨?_, List.subset_cons_self _ _⟩
      simp only [FrameTable.text, Interner.resolve, index]
      rw [List.getElem?_eq_getElem inside, List.getElem_idxOf]
      rfl
  · rw [dif_neg known]
    by_cases room : table.names.strings.length < 2 ^ 32
    · rw [dif_pos room]
      have index : (UInt32.ofNat table.names.strings.length).toNat =
          table.names.strings.length := by
        rw [UInt32.toNat_ofNat']
        exact Nat.mod_eq_of_lt room
      refine ⟨⟨List.prefix_append _ _, rfl⟩, ?_, ?_⟩
      · simp only [Minted, index, List.length_append, List.length_singleton]
        omega
      · intro _
        refine ⟨?_, ?_⟩
        · simp only [FrameTable.text, Interner.resolve, index]
          rw [List.getElem?_append_right (le_refl _), Nat.sub_self]
          rfl
        · intro string member
          rcases List.mem_append.mp member with early | late
          · exact List.mem_cons_of_mem _ early
          · rw [List.mem_singleton.mp late]
            exact List.mem_cons_self
    · rw [dif_neg room]
      refine ⟨Extends.refl table, ?_, ?_⟩
      · unfold Minted Symbol.error
        have head := table.names.reserved
        cases strings : table.names.strings with
        | nil =>
          rw [strings] at head
          cases head
        | cons first rest => exact Nat.succ_pos _
      · rintro (early | late)
        · exact absurd early room
        · exact absurd late known

theorem name_within {table : FrameTable} {allowed : List String} {text : String}
    (within : table.names.strings ⊆ allowed) (room : allowed.dedup.length ≤ 2 ^ 32)
    (isAllowed : text ∈ allowed) :
    (table.name text).2.text (table.name text).1 = text ∧
      (table.name text).2.names.strings ⊆ allowed := by
  have handle : table.names.strings.length < 2 ^ 32 ∨ text ∈ table.names.strings := by
    by_cases known : text ∈ table.names.strings
    · exact Or.inr known
    · left
      have nodup : (text :: table.names.strings).Nodup :=
        List.nodup_cons.mpr ⟨known, table.names.nodup⟩
      have inside : text :: table.names.strings ⊆ allowed.dedup := by
        intro string member
        rw [List.mem_dedup]
        rcases List.mem_cons.mp member with rfl | member
        · exact isAllowed
        · exact within member
      have shorter := (List.subperm_of_subset nodup inside).length_le
      rw [List.length_cons] at shorter
      omega
  obtain ⟨isText, names⟩ := (table.name_spec text).2.2 handle
  refine ⟨isText, ?_⟩
  intro string member
  rcases List.mem_cons.mp (names member) with rfl | member
  · exact isAllowed
  · exact within member

/-! ## Frames -/

/-- The handles of a frame are the table's. -/
structure FrameMinted (table : FrameTable) (frame : Frame) : Prop where
  symbol : table.Minted frame.symbol
  object : table.Minted frame.object
  file : ∀ file ∈ frame.file, table.Minted file

/-- The handles of the table's frames are the table's. -/
def AllMinted (table : FrameTable) : Prop :=
  ∀ frame ∈ table.frames, table.FrameMinted frame

theorem FrameMinted.extends (minted : table.FrameMinted frame)
    (later : table.names.strings <+: next.names.strings) :
    next.FrameMinted frame ∧ next.spell frame = table.spell frame := by
  obtain ⟨symbol, symbolText⟩ := minted.symbol.extends later
  obtain ⟨object, objectText⟩ := minted.object.extends later
  refine ⟨⟨symbol, object, fun file member => ((minted.file file member).extends later).1⟩, ?_⟩
  unfold spell
  rw [symbolText, objectText]
  have fileText : frame.file.map next.text = frame.file.map table.text := by
    cases isFile : frame.file with
    | none => rfl
    | some file =>
      have fileMinted := minted.file file (by rw [isFile]; rfl)
      rw [Option.map_some, Option.map_some, (fileMinted.extends later).2]
  rw [fileText]

theorem Extends.spelled {table next : FrameTable} (later : table.Extends next)
    (minted : table.AllMinted) : next.AllMinted ∧ next.spelled = table.spelled := by
  refine ⟨?_, ?_⟩
  · intro frame member
    rw [later.frames] at member
    exact ((minted frame member).extends later.names).1
  · unfold FrameTable.spelled
    rw [later.frames]
    exact List.map_congr_left fun frame member => ((minted frame member).extends later.names).2

theorem insert_new (unknown : frame ∉ table.frames) :
    (table.insert frame).2.names = table.names ∧
      (table.insert frame).2.frames = table.frames ++ [frame] := by
  unfold insert
  rw [dif_neg unknown]
  exact ⟨rfl, rfl⟩

/-- Intern a name that may be missing. -/
def nameFile (table : FrameTable) : Option String → Option Symbol × FrameTable
  | none => (none, table)
  | some text => (some (table.name text).1, (table.name text).2)

def readBack (table : FrameTable) (text : FrameText) : FrameTable :=
  let (symbol, table) := table.name text.symbol
  let (object, table) := table.name text.object
  let (file, table) := table.nameFile text.file
  let (_, table) := table.name ""
  (table.insert ⟨symbol, text.kind, object, text.function, text.offset, file, text.line⟩).2

theorem readBack_spec {allowed : List String} {text : FrameText} (minted : table.AllMinted)
    (within : table.names.strings ⊆ allowed) (room : allowed.dedup.length ≤ 2 ^ 32)
    (emptyAllowed : "" ∈ allowed) (isAllowed : text.names ⊆ allowed)
    (unknown : text ∉ table.spelled) :
    (table.readBack text).AllMinted ∧ (table.readBack text).names.strings ⊆ allowed ∧
      (table.readBack text).spelled = table.spelled ++ [text] := by
  have symbolAllowed : text.symbol ∈ allowed := isAllowed List.mem_cons_self
  have objectAllowed : text.object ∈ allowed :=
    isAllowed (List.mem_cons_of_mem _ List.mem_cons_self)
  unfold readBack
  obtain ⟨symbolExtends, symbolMinted, -⟩ := table.name_spec text.symbol
  obtain ⟨symbolText, symbolWithin⟩ := name_within within room symbolAllowed
  generalize table.name text.symbol = made at symbolExtends symbolMinted symbolText symbolWithin ⊢
  obtain ⟨symbol, first⟩ := made
  simp only at symbolExtends symbolMinted symbolText symbolWithin ⊢
  obtain ⟨objectExtends, objectMinted, -⟩ := first.name_spec text.object
  obtain ⟨objectText, objectWithin⟩ := name_within symbolWithin room objectAllowed
  generalize first.name text.object = made at objectExtends objectMinted objectText objectWithin ⊢
  obtain ⟨object, second⟩ := made
  simp only at objectExtends objectMinted objectText objectWithin ⊢
  have files : second.Extends (second.nameFile text.file).2 ∧
      (∀ file ∈ (second.nameFile text.file).1, (second.nameFile text.file).2.Minted file) ∧
      (second.nameFile text.file).1.map (second.nameFile text.file).2.text = text.file ∧
      (second.nameFile text.file).2.names.strings ⊆ allowed := by
    cases isFile : text.file with
    | none => exact ⟨Extends.refl second, fun file member => (by cases member), rfl, objectWithin⟩
    | some file =>
      obtain ⟨fileExtends, fileMinted, -⟩ := second.name_spec file
      obtain ⟨fileText, fileWithin⟩ := @name_within second allowed file objectWithin room
        (isAllowed (by simp [FrameText.names, isFile]))
      refine ⟨fileExtends, ?_, ?_, fileWithin⟩
      · intro other member
        cases member
        exact fileMinted
      · exact congrArg some fileText
  generalize second.nameFile text.file = made at files ⊢
  obtain ⟨file, third⟩ := made
  simp only at files ⊢
  obtain ⟨fileExtends, fileMinted, fileText, fileWithin⟩ := files
  obtain ⟨lastExtends, -, -⟩ := third.name_spec ""
  obtain ⟨-, lastWithin⟩ := name_within fileWithin room emptyAllowed
  generalize third.name "" = made at lastExtends lastWithin ⊢
  obtain ⟨empty, last⟩ := made
  simp only at lastExtends lastWithin ⊢
  have toLast := (symbolExtends.trans (objectExtends.trans fileExtends)).trans lastExtends
  have fromFirst := (objectExtends.trans (fileExtends.trans lastExtends)).names
  have fromSecond := (fileExtends.trans lastExtends).names
  obtain ⟨lastMinted, lastSpelled⟩ := toLast.spelled minted
  generalize isFrame : (⟨symbol, text.kind, object, text.function, text.offset, file,
    text.line⟩ : Frame) = frame
  have frameMinted : last.FrameMinted frame := by
    rw [← isFrame]
    exact ⟨(symbolMinted.extends fromFirst).1, (objectMinted.extends fromSecond).1,
      fun file member => ((fileMinted file member).extends lastExtends.names).1⟩
  have frameText : last.spell frame = text := by
    have finalFile : file.map last.text = text.file := by
      rw [← fileText]
      cases file with
      | none => rfl
      | some file =>
        exact congrArg some ((fileMinted file rfl).extends lastExtends.names).2
    rw [← isFrame]
    unfold spell
    simp only
    rw [(symbolMinted.extends fromFirst).2, (objectMinted.extends fromSecond).2, symbolText,
      objectText, finalFile]
  have frameUnknown : frame ∉ last.frames := by
    intro member
    apply unknown
    rw [← lastSpelled, ← frameText]
    exact List.mem_map_of_mem member
  obtain ⟨names, frames⟩ := insert_new frameUnknown
  generalize (last.insert frame).2 = result at names frames ⊢
  have same : last.names.strings <+: result.names.strings :=
    ⟨[], by rw [names, List.append_nil]⟩
  refine ⟨?_, ?_, ?_⟩
  · intro other member
    rw [frames] at member
    rcases List.mem_append.mp member with early | late
    · exact ((lastMinted other early).extends same).1
    · rw [List.mem_singleton.mp late]
      exact (frameMinted.extends same).1
  · rw [names]
    exact lastWithin
  · unfold FrameTable.spelled at lastSpelled ⊢
    rw [frames, List.map_append, List.map_singleton, (frameMinted.extends same).2, frameText,
      ← lastSpelled]
    congr 1
    exact List.map_congr_left fun other member => ((lastMinted other member).extends same).2

theorem foldl_readBack {texts : List FrameText} {table : FrameTable} {allowed : List String}
    (minted : table.AllMinted) (within : table.names.strings ⊆ allowed)
    (room : allowed.dedup.length ≤ 2 ^ 32) (emptyAllowed : "" ∈ allowed)
    (isAllowed : ∀ text ∈ texts, text.names ⊆ allowed) (distinct : (table.spelled ++ texts).Nodup) :
    (texts.foldl readBack table).spelled = table.spelled ++ texts := by
  induction texts generalizing table with
  | nil => simp
  | cons text rest ih =>
    have unknown : text ∉ table.spelled := by
      intro member
      exact List.disjoint_of_nodup_append distinct member List.mem_cons_self
    obtain ⟨nextMinted, nextWithin, nextSpelled⟩ := readBack_spec minted within room emptyAllowed
      (isAllowed text List.mem_cons_self) unknown
    rw [List.foldl_cons, ih nextMinted nextWithin
      (fun other member => isAllowed other (List.mem_cons_of_mem _ member)) (by
        rwa [nextSpelled, List.append_assoc, List.singleton_append]),
      nextSpelled, List.append_assoc, List.singleton_append]

theorem Spellable.readBack (spellable : table.Spellable) :
    (table.spelled.foldl FrameTable.readBack .new).spelled = table.spelled := by
  have read := @foldl_readBack table.spelled .new table.neededNames
    (fun frame member => (by cases member))
    (by
      intro text member
      rw [List.mem_singleton.mp member]
      exact List.mem_cons_self)
    spellable.room (List.mem_cons_of_mem _ List.mem_cons_self)
    (by
      intro text member name inside
      exact List.mem_cons_of_mem _ (List.mem_cons_of_mem _
        (List.mem_flatMap.mpr ⟨text, member, inside⟩)))
    spellable.distinct
  exact read

/-! ## Tables of their own names -/

theorem Minted.text_inj {other : Symbol} (minted : table.Minted symbol)
    (otherMinted : table.Minted other) (same : table.text symbol = table.text other) :
    symbol = other := by
  have inside : symbol.toNat < table.names.strings.length := minted
  have otherInside : other.toNat < table.names.strings.length := otherMinted
  unfold text Interner.resolve at same
  rw [List.getElem?_eq_getElem inside, List.getElem?_eq_getElem otherInside, Option.getD_some,
    Option.getD_some, table.names.nodup.getElem_inj_iff] at same
  exact UInt32.toNat_inj.mp same

theorem FrameMinted.spell_inj {other : Frame} (minted : table.FrameMinted frame)
    (otherMinted : table.FrameMinted other) (same : table.spell frame = table.spell other) :
    frame = other := by
  obtain ⟨symbol, kind, object, function, offset, file, line⟩ := frame
  obtain ⟨otherSymbol, otherKind, otherObject, otherFunction, otherOffset, otherFile, otherLine⟩ :=
    other
  unfold spell at same
  simp only [FrameText.mk.injEq] at same
  obtain ⟨symbolText, rfl, objectText, rfl, rfl, fileText, rfl⟩ := same
  have files : file = otherFile := by
    cases file with
    | none =>
      cases otherFile with
      | none => rfl
      | some otherFile => cases fileText
    | some file =>
      cases otherFile with
      | none => cases fileText
      | some otherFile =>
        rw [(minted.file file rfl).text_inj (otherMinted.file otherFile rfl)
          (Option.some.inj fileText)]
  have symbols : symbol = otherSymbol := minted.symbol.text_inj otherMinted.symbol symbolText
  have objects : object = otherObject := minted.object.text_inj otherMinted.object objectText
  rw [symbols, objects, files]

theorem Minted.text_mem (minted : table.Minted symbol) :
    table.text symbol ∈ table.names.strings := by
  have inside : symbol.toNat < table.names.strings.length := minted
  unfold text Interner.resolve
  rw [List.getElem?_eq_getElem inside]
  exact List.getElem_mem inside

theorem errorText_mem (table : FrameTable) : errorText ∈ table.names.strings :=
  List.mem_of_mem_head? table.names.reserved

/-- A table whose frames use its own handles can be spelled, as long as it holds the
empty name or has a handle for it. -/
theorem AllMinted.spellable (minted : table.AllMinted)
    (room : table.names.strings.length < 2 ^ 32 ∨ "" ∈ table.names.strings) : table.Spellable where
  distinct := table.distinct.map_on fun frame member other otherMember same =>
    (minted frame member).spell_inj (minted other otherMember) same
  room := by
    have texts : ∀ name ∈ table.spelled.flatMap FrameText.names, name ∈ table.names.strings := by
      intro name member
      obtain ⟨text, isText, inText⟩ := List.mem_flatMap.mp member
      obtain ⟨frame, isFrame, rfl⟩ := List.mem_map.mp isText
      have frameMinted := minted frame isFrame
      rcases List.mem_cons.mp inText with rfl | inText
      · exact frameMinted.symbol.text_mem
      · rcases List.mem_cons.mp inText with rfl | inText
        · exact frameMinted.object.text_mem
        · simp only [spell, Option.mem_toList, Option.map_eq_some_iff] at inText
          obtain ⟨file, isFile, rfl⟩ := inText
          exact (frameMinted.file file isFile).text_mem
    have needed : table.neededNames.dedup ⊆ "" :: table.names.strings := by
      intro name member
      rw [List.mem_dedup] at member
      rcases List.mem_cons.mp member with rfl | member
      · exact List.mem_cons_of_mem _ table.errorText_mem
      · rcases List.mem_cons.mp member with rfl | member
        · exact List.mem_cons_self
        · exact List.mem_cons_of_mem _ (texts name member)
    rcases room with spare | known
    · have shorter := (List.subperm_of_subset (List.nodup_dedup _) needed).length_le
      rw [List.length_cons] at shorter
      omega
    · have inside : table.neededNames.dedup ⊆ table.names.strings := by
        intro name member
        rcases List.mem_cons.mp (needed member) with rfl | member
        · exact known
        · exact member
      exact le_trans (List.subperm_of_subset (List.nodup_dedup _) inside).length_le table.names.fits

end FrameTable

end KiraVm.Profiling
