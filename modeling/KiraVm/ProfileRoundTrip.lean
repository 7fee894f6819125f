import KiraVm.ProfileReading

/-!
# Traces read back

A trace that is written and read is the same trace, with the frames as texts, when the
frames of each profile are distinct as texts and their names have handles.
-/

namespace KiraVm.Profiling

/-- A profile read back: its frames are the same texts in the same order. -/
structure Profile.Same (profile read : Profile) : Prop where
  view : read.view = profile.view
  event : read.event = profile.event
  unit : read.unit = profile.unit
  collector : read.collector = profile.collector
  frequency : read.frequency = profile.frequency
  lost : read.lost = profile.lost
  threads : read.threads = profile.threads
  frames : read.frames.spelled = profile.frames.spelled
  samples : read.samples = profile.samples

/-- Reading the written trace gives it back. -/
def Trace.RoundTrips (trace : Trace) : Prop :=
  ∃ read, Trace.parse trace.write = .ok read ∧ read.metadata = trace.metadata ∧
    List.Forall₂ Profile.Same trace.profiles read.profiles

/-- The stacks of a profile name frames of its table. -/
def Profile.Named (profile : Profile) : Prop :=
  ∀ sample ∈ profile.samples, ∀ frame ∈ sample.stack,
    frame.toNat < profile.frames.frames.length

/-! ## Reading what was written -/

theorem FrameTable.length_spelled (table : FrameTable) :
    table.spelled.length = table.frames.length :=
  List.length_map _

theorem writeProfile_leads {profile : Profile} (spellable : profile.frames.Spellable)
    (named : profile.Named) (metadata : TraceMeta) (done : List Profile) :
    ∃ read, LeadsTo (writeProfile profile) ⟨metadata, done⟩ ⟨metadata, done ++ [read]⟩ ∧
      profile.Same read := by
  have first := profile_reads profile metadata done
  have threads := threads_lead profile.threads metadata done
    { Profile.new profile.view profile.event profile.collector with
      unit := profile.unit
      frequency := profile.frequency
      lost := profile.lost }
  have frames := frames_lead profile.frames profile.frames.frames 0 metadata done
    { Profile.new profile.view profile.event profile.collector with
      unit := profile.unit
      frequency := profile.frequency
      lost := profile.lost
      threads := [] ++ profile.threads }
  have back := spellable.readBack
  have samples := samples_lead profile.samples metadata done
    { Profile.new profile.view profile.event profile.collector with
      unit := profile.unit
      frequency := profile.frequency
      lost := profile.lost
      threads := [] ++ profile.threads
      frames := profile.frames.spelled.foldl FrameTable.readBack .new }
    (by
      intro sample member frame inside
      have lengths := congrArg List.length back
      rw [FrameTable.length_spelled, FrameTable.length_spelled] at lengths
      simp only
      rw [lengths]
      exact named sample member frame inside)
  refine ⟨_, .cons first ((threads.append frames).append samples), ?_⟩
  exact ⟨rfl, rfl, rfl, rfl, rfl, rfl, List.nil_append _, back, List.nil_append _⟩

theorem profiles_lead {profiles : List Profile}
    (spellable : ∀ profile ∈ profiles, profile.frames.Spellable)
    (named : ∀ profile ∈ profiles, profile.Named) (metadata : TraceMeta) (done : List Profile) :
    ∃ reads, LeadsTo (profiles.flatMap writeProfile) ⟨metadata, done⟩ ⟨metadata, done ++ reads⟩ ∧
      List.Forall₂ Profile.Same profiles reads := by
  induction profiles generalizing done with
  | nil =>
    refine ⟨[], ?_, .nil⟩
    rw [List.append_nil]
    exact .nil _
  | cons profile rest ih =>
    obtain ⟨read, leads, same⟩ := writeProfile_leads (spellable profile List.mem_cons_self)
      (named profile List.mem_cons_self) metadata done
    obtain ⟨reads, others, sames⟩ := ih
      (fun other member => spellable other (List.mem_cons_of_mem _ member))
      (fun other member => named other (List.mem_cons_of_mem _ member)) (done ++ [read])
    rw [List.append_assoc, List.singleton_append] at others
    exact ⟨read :: reads, leads.append others, .cons same sames⟩

theorem header_spells : List.Forall₂ Spells [magic.toList, decimal version.toNat]
    [magic, String.ofList (decimal version.toNat)] :=
  .cons (known_spells (by simp [vocabulary]))
    (.cons (decimal_spells version.toNat) .nil)

theorem parse_leads {written : List (List Char)} {last : Reader}
    (leads : LeadsTo written .new last) :
    Trace.parse (unlines (record [magic.toList, decimal version.toNat] :: written)) =
      .ok ⟨last.metadata, last.profiles⟩ := by
  have isLines : ∀ line ∈ record [magic.toList, decimal version.toNat] :: written, IsLine line := by
    intro line member
    rcases List.mem_cons.mp member with rfl | member
    · exact isLine_record header_spells
    · exact leads.isLines line member
  unfold Trace.parse
  rw [lines_unlines isLines]
  simp only
  rw [words_record header_spells (List.cons_ne_nil _ _)]
  simp only [if_true]
  rw [parseU32_decimal]
  simp only [if_true]
  rw [leads.lines 2]
  rfl

/-- A trace reads back when the frames of its profiles can be spelled and its stacks name
frames of their own tables. -/
theorem roundTrips_of_spellable {trace : Trace}
    (named : ∀ profile ∈ trace.profiles, profile.Named)
    (spellable : ∀ profile ∈ trace.profiles, profile.frames.Spellable) : trace.RoundTrips := by
  obtain ⟨reads, leads, sames⟩ := profiles_lead spellable named trace.metadata []
  have all := (metadata_leads trace.metadata).append leads
  refine ⟨_, parse_leads all, rfl, ?_⟩
  exact sames

/-! ## Two traces -/

def stepTable : FrameTable :=
  let (name, table) := FrameTable.new.name "Cell.\"weird\" name"
  let (object, table) := table.name "[vm]"
  (table.insert ⟨name, .kira, object, some 3, some 17, none, some 7⟩).2

def recorded (frames : FrameTable) (stack : List FrameId) : Trace where
  metadata := ⟨"life", ["a b", ""], .vm, some "src/main.kira", 12, 13, -1⟩
  profiles := [{ Profile.new .kira "kira-wall" "kira runtime" with
    frames := frames
    threads := [⟨0, "main thread"⟩]
    samples := [⟨0, 5, 1000, stack⟩] }]

theorem stepTable_minted : stepTable.AllMinted := by
  intro frame member
  have frames : stepTable.frames = [⟨1, .kira, 2, some 3, some 17, none, some 7⟩] := by
    decide
  have names : stepTable.names.strings.length = 3 := by
    decide
  rw [frames, List.mem_singleton] at member
  rw [member]
  refine ⟨?_, ?_, fun file isFile => (by cases isFile)⟩
  · unfold FrameTable.Minted
    rw [names]
    decide
  · unfold FrameTable.Minted
    rw [names]
    decide

theorem recorded_roundTrips : (recorded stepTable [0, 0]).RoundTrips := by
  have length : stepTable.frames.length = 1 := by
    decide
  have names : stepTable.names.strings.length = 3 := by
    decide
  apply roundTrips_of_spellable
  · intro profile member sample isSample frame isFrame
    rw [List.mem_singleton.mp member] at isSample ⊢
    rw [List.mem_singleton.mp isSample] at isFrame
    have first : frame = 0 := by
      rcases List.mem_cons.mp isFrame with rfl | isFrame
      · rfl
      · exact List.mem_singleton.mp isFrame
    rw [first]
    simp only [length]
    decide
  · intro profile member
    rw [List.mem_singleton.mp member]
    apply stepTable_minted.spellable
    left
    rw [names]
    decide

/-- Two frames of handles that the table never gave out, which both print the reserved
name. -/
def strayTable : FrameTable where
  names := .new
  frames := [⟨98, .kira, 0, none, none, none, none⟩, ⟨99, .kira, 0, none, none, none, none⟩]
  distinct := by decide

def refused : Except TraceError Trace → Bool
  | .ok _ => false
  | .error problem => problem == .malformed 14 "frame 1 is not in this profile"

/-- A trace whose stack names the second of two frames that print alike is refused: the
two are one frame when they are read. -/
theorem stray_refused :
    (∀ profile ∈ (recorded strayTable [1]).profiles, profile.Named) ∧
      refused (Trace.parse (recorded strayTable [1]).write) = true ∧
      ¬ (recorded strayTable [1]).RoundTrips := by
  have isRefused : refused (Trace.parse (recorded strayTable [1]).write) = true := by
    decide +kernel
  refine ⟨?_, isRefused, ?_⟩
  · intro profile member sample isSample frame isFrame
    rw [List.mem_singleton.mp member] at isSample ⊢
    rw [List.mem_singleton.mp isSample] at isFrame
    rw [List.mem_singleton.mp isFrame]
    decide
  · rintro ⟨read, parsed, -⟩
    rw [parsed] at isRefused
    cases isRefused

end KiraVm.Profiling
