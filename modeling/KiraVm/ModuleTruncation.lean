import KiraVm.ModuleSections

/-!
# Cut modules

Sections may be missing from the end of a module's bytes, so some cut inputs
decode.  Those are exactly cut between two sections, and what decodes from them
is the module without the sections behind the cut.
-/

namespace KiraVm

open ByteReader ByteReader.Reader

theorem readFormat_cut {part between : List UInt8} (whole : magic = part ++ between)
    (nonempty : between ≠ []) :
    ∃ error, readFormat ⟨0, part⟩ = .error error := by
  cases answer : readFormat ⟨0, part⟩ with
  | error error => exact ⟨error, rfl⟩
  | ok result =>
    obtain ⟨format, after⟩ := result
    obtain ⟨restEq, -⟩ := readFormat_ok_iff.mp answer
    have four : format.magicBytes.length = 4 := by cases format <;> rfl
    have wholeLength : 4 = part.length + between.length := by
      simpa [magic] using congrArg List.length whole
    have partLength : part.length = 4 + after.rest.length := by
      simpa [four] using congrArg List.length restEq
    have := List.length_pos_iff.mpr nonempty
    omega

namespace Module

variable {program : Module}

/-- A module cut before its trailing sections does not decode. -/
theorem readModule_cut_head (encodable : program.Encodable) {part between : List UInt8}
    (whole : program.headBytes = part ++ between) (nonempty : between ≠ []) :
    ∃ error, readModule ⟨0, part⟩ = .error error := by
  rw [headBytes_eq] at whole
  obtain ⟨behind, rfl, headEq⟩ | ⟨cut, cutNonempty, magicEq⟩ := split_cases whole
  · obtain ⟨error, fails⟩ := readHead_codes.recovers.fails_when_cut readHead_codes.extends
      (headValue_fits encodable) headEq nonempty magic.length
    have magicRead : readFormat ⟨0, magic ++ behind⟩ = .ok (.wide, ⟨magic.length, behind⟩) :=
      readFormat_ok_iff.mpr ⟨rfl, by simp [Format.magicBytes]⟩
    refine ⟨error, ?_⟩
    rw [readModule, bind_of_ok magicRead, bind_of_error fails]
  · obtain ⟨error, fails⟩ := readFormat_cut magicEq cutNonempty
    exact ⟨error, bind_of_error fails⟩

theorem readModule_cut_sections (encodable : program.Encodable) {part cut : List UInt8}
    (whole : program.sectionBytes.flatten = part ++ cut) :
    (∃ error, readModule ⟨0, program.headBytes ++ part⟩ = .error error) ∨
      ∃ kept ≤ 8, part = (program.sectionBytes.take kept).flatten ∧
        ∃ after, readModule ⟨0, program.headBytes ++ part⟩ =
          .ok (program.keepSections kept, after) := by
  rw [← sectionsBytes_sections] at whole
  rw [readModule_head encodable]
  obtain ⟨error, fails⟩ | ⟨kept, after, bound, partEq, succeeds, ended⟩ :=
    (sectionChain encodable).reads_cut (sectionSteps_idle .wide) whole program.headBytes.length
  · exact .inl ⟨error, bind_of_error fails⟩
  · have few : kept ≤ 8 := bound
    rw [program.stateBehind_sections few] at succeeds
    rw [sectionsBytes_take] at partEq
    exact .inr ⟨kept, few, partEq, after, by rw [bind_of_ok succeeds, finish_ended ended]⟩

end Module

theorem fromBytes_error {bytes : List UInt8} {error : ModuleDecodeError}
    (fails : readModule ⟨0, bytes⟩ = .error error) : Module.fromBytes bytes = .error error := by
  rw [Module.fromBytes, fails]

/-- A proper prefix of a module's bytes is refused, unless it is cut between two
trailing sections; then it is the module without the sections behind the cut. -/
theorem cut_module_refused_or_shortened (program : Module) (encodable : program.Encodable)
    (bytes : List UInt8) (isCut : bytes <+: program.toBytes) (proper : bytes ≠ program.toBytes) :
    (∃ error, Module.fromBytes bytes = .error error) ∨
      ∃ kept < 8, bytes = program.headBytes ++ (program.sectionBytes.take kept).flatten ∧
        Module.fromBytes bytes = .ok (program.keepSections kept) := by
  obtain ⟨cut, whole⟩ := isCut
  obtain ⟨part, rfl, sectionsEq⟩ | ⟨between, nonempty, headEq⟩ := split_cases whole.symm
  · obtain ⟨error, fails⟩ | ⟨kept, bound, partEq, after, succeeds⟩ :=
      Module.readModule_cut_sections encodable sectionsEq
    · exact .inl ⟨error, fromBytes_error fails⟩
    · refine .inr ⟨kept, lt_of_le_of_ne bound ?_, by rw [partEq],
        fromBytes_ok_iff.mpr ⟨after, succeeds⟩⟩
      rintro rfl
      exact proper (by rw [partEq]; rfl)
  · obtain ⟨error, fails⟩ := Module.readModule_cut_head encodable headEq nonempty
    exact .inl ⟨error, fromBytes_error fails⟩

/-- A module whose only trailing content is its last section. -/
def describedModule : Module :=
  { Module.head none [] [] with types := [⟨"", "", "", [0], []⟩] }

theorem cut_module_refused_or_shortened_example :
    describedModule.Encodable ∧ describedModule.headBytes <+: describedModule.toBytes ∧
      describedModule.headBytes ≠ describedModule.toBytes ∧
      ((∃ error, Module.fromBytes describedModule.headBytes = .error error) ∨
        ∃ kept < 8, describedModule.headBytes =
            describedModule.headBytes ++ (describedModule.sectionBytes.take kept).flatten ∧
          Module.fromBytes describedModule.headBytes =
            .ok (describedModule.keepSections kept)) :=
  ⟨by decide, List.prefix_append _ _, by decide,
    cut_module_refused_or_shortened describedModule (by decide)
      describedModule.headBytes (List.prefix_append _ _) (by decide)⟩

end KiraVm
