import KiraVm.ByteReader

/-!
# Positional optional sections

Steps read one after another onto a state, each of which may find the input at
its end and leave the state as it is.  When the bytes of a section are written
only if the bytes of every section before it are, cutting the input anywhere
leaves either an error or the state behind the last whole section.
-/

namespace ByteReader

open Reader

variable {ε α σ : Type}

theorem reader_id_map (read : Reader ε α) : id <$> read = read := by
  funext cursor
  cases ran : read cursor with
  | error error => exact (bind_of_error ran : (read >>= fun value => pure value) cursor = _)
  | ok answer => exact (bind_of_ok ran : (read >>= fun value => pure value) cursor = _)

theorem reader_bind_assoc {β γ : Type} (first : Reader ε α) (second : α → Reader ε β)
    (third : β → Reader ε γ) :
    first >>= second >>= third = first >>= fun value => second value >>= third := by
  funext cursor
  cases ran : first cursor with
  | error error =>
    rw [bind_of_error ran]
    exact bind_of_error (bind_of_error ran)
  | ok answer =>
    have joined : (first >>= second) cursor = second answer.1 answer.2 := bind_of_ok ran
    rw [bind_of_ok ran]
    cases next : second answer.1 answer.2 with
    | error error => rw [bind_of_error next, bind_of_error (joined.trans next)]
    | ok later => rw [bind_of_ok next, bind_of_ok (joined.trans next)]

instance : LawfulMonad (Reader ε) :=
  LawfulMonad.mk' (Reader ε) reader_id_map (fun _ _ => rfl) reader_bind_assoc

/-- Run the steps in order, each on the state the one before it left. -/
def readSteps : List (σ → Reader ε σ) → σ → Reader ε σ
  | [], state => pure state
  | step :: steps, state => do
    let next ← step state
    readSteps steps next

/-- At the end of the input the step fails or leaves the state as it is. -/
def IdleAtEnd (step : σ → Reader ε σ) : Prop :=
  ∀ state cursor, cursor.rest = [] →
    step state cursor = .ok (state, cursor) ∨ ∃ error, step state cursor = .error error

/-- The bytes of each section and the state behind it.  Behind a section that
is not written no section is. -/
inductive SectionChain :
    List (σ → Reader ε σ) → σ → List (List UInt8 × σ) → Prop
  | nil {state : σ} : SectionChain [] state []
  | written {step : σ → Reader ε σ} {steps : List (σ → Reader ε σ)} {state next : σ}
      {bytes : List UInt8} {sections : List (List UInt8 × σ)}
      (reads : ∀ cursor after, Spans cursor bytes after →
        step state cursor = .ok (next, after))
      (fails : ∀ offset part cut, bytes = part ++ cut → part ≠ [] → cut ≠ [] →
        ∃ error, step state ⟨offset, part⟩ = .error error)
      (rest : SectionChain steps next sections) :
      SectionChain (step :: steps) state ((bytes, next) :: sections)
  | absent {step : σ → Reader ε σ} {steps : List (σ → Reader ε σ)} {state : σ}
      {sections : List (List UInt8 × σ)}
      (idle : ∀ cursor, cursor.rest = [] → step state cursor = .ok (state, cursor))
      (noneBehind : ∀ written ∈ sections, written.1 = [])
      (rest : SectionChain steps state sections) :
      SectionChain (step :: steps) state (([], state) :: sections)

def stateBehind (state : σ) (sections : List (List UInt8 × σ)) (kept : Nat) : σ :=
  ((state :: sections.map Prod.snd)[kept]?).getD state

def sectionsBytes (sections : List (List UInt8 × σ)) : List UInt8 :=
  sections.flatMap Prod.fst

variable {steps : List (σ → Reader ε σ)}

theorem readSteps_idle (idle : ∀ step ∈ steps, IdleAtEnd step) (state : σ) {cursor : Cursor}
    (ended : cursor.rest = []) :
    readSteps steps state cursor = .ok (state, cursor) ∨
      ∃ error, readSteps steps state cursor = .error error := by
  induction steps with
  | nil => exact .inl rfl
  | cons step steps ih =>
    obtain unchanged | ⟨error, fails⟩ := idle step (by simp) state cursor ended
    · rw [readSteps, bind_of_ok unchanged]
      exact ih fun other member => idle other (by simp [member])
    · exact .inr ⟨error, bind_of_error fails⟩

theorem split_cases {first rest part cut : List α} (whole : first ++ rest = part ++ cut) :
    (∃ between, part = first ++ between ∧ rest = between ++ cut) ∨
      ∃ between, between ≠ [] ∧ first = part ++ between := by
  obtain ⟨between, partEq, restEq⟩ | ⟨between, firstEq, cutEq⟩ :=
    List.append_eq_append_iff.mp whole
  · exact .inl ⟨between, partEq, restEq⟩
  · by_cases empty : between = []
    · subst empty
      exact .inl ⟨[], by simpa using firstEq.symm, by simpa using cutEq.symm⟩
    · exact .inr ⟨between, empty, firstEq⟩

theorem SectionChain.reads_all {state : σ} {sections : List (List UInt8 × σ)}
    (chain : SectionChain steps state sections) {cursor after : Cursor}
    (spans : Spans cursor (sectionsBytes sections) after) (ended : after.rest = []) :
    readSteps steps state cursor = .ok (stateBehind state sections sections.length, after) := by
  induction chain generalizing cursor with
  | nil =>
    obtain rfl := spans_nil.mp spans
    rfl
  | @written step steps state next bytes sections reads fails rest ih =>
    obtain ⟨middle, first, behind⟩ := spans_append.mp spans
    refine bind_ok_iff.mpr ⟨next, middle, reads _ _ first, ?_⟩
    rw [ih behind]
    simp [stateBehind]
  | @absent step steps state sections idle noneBehind rest ih =>
    have empty : sectionsBytes sections = [] := List.flatMap_eq_nil_iff.mpr noneBehind
    have none : Spans cursor [] after := by
      simpa [sectionsBytes, List.flatMap_eq_nil_iff.mpr noneBehind] using spans
    obtain rfl := spans_nil.mp none
    refine bind_ok_iff.mpr ⟨state, cursor, idle cursor ended, ?_⟩
    rw [ih (by simp [empty])]
    simp [stateBehind]

theorem SectionChain.reads_cut {state : σ} {sections : List (List UInt8 × σ)}
    (chain : SectionChain steps state sections) (idle : ∀ step ∈ steps, IdleAtEnd step)
    {part cut : List UInt8} (whole : sectionsBytes sections = part ++ cut) (offset : Nat) :
    (∃ error, readSteps steps state ⟨offset, part⟩ = .error error) ∨
      ∃ kept after, kept ≤ sections.length ∧ part = sectionsBytes (sections.take kept) ∧
        readSteps steps state ⟨offset, part⟩ = .ok (stateBehind state sections kept, after) ∧
        after.rest = [] := by
  by_cases ended : part = []
  · subst ended
    obtain unchanged | fails := readSteps_idle idle state (rfl : (⟨offset, []⟩ : Cursor).rest = [])
    · exact .inr ⟨0, ⟨offset, []⟩, by omega, rfl, unchanged, rfl⟩
    · exact .inl fails
  induction chain generalizing part offset with
  | nil => exact absurd (List.append_eq_nil_iff.mp whole.symm).1 ended
  | @absent step steps state sections idleHere noneBehind rest ih =>
    have empty : sectionsBytes (([], state) :: sections) = [] := by
      simpa [sectionsBytes] using noneBehind
    rw [empty] at whole
    exact absurd (List.append_eq_nil_iff.mp whole.symm).1 ended
  | @written step steps state next bytes sections reads fails rest ih =>
    change bytes ++ sectionsBytes sections = part ++ cut at whole
    obtain ⟨between, rfl, restEq⟩ | ⟨between, nonempty, bytesEq⟩ := split_cases whole
    · have first : step state ⟨offset, bytes ++ between⟩ =
          .ok (next, ⟨offset + bytes.length, between⟩) := reads _ _ ⟨rfl, rfl⟩
      have idleRest : ∀ other ∈ steps, IdleAtEnd other := fun other member =>
        idle other (by simp [member])
      rw [readSteps, bind_of_ok first]
      by_cases last : between = []
      · subst last
        obtain unchanged | fails := readSteps_idle idleRest next
          (rfl : (⟨offset + bytes.length, []⟩ : Cursor).rest = [])
        · exact .inr ⟨1, ⟨offset + bytes.length, []⟩, by simp, by simp [sectionsBytes],
            by simpa [stateBehind] using unchanged, rfl⟩
        · exact .inl fails
      · obtain fails | ⟨kept, after, bound, partEq, readsTo, atEnd⟩ :=
          ih idleRest restEq (offset + bytes.length) last
        · exact .inl fails
        · refine .inr ⟨kept + 1, after, by simpa using bound, by simp [sectionsBytes, partEq],
            ?_, atEnd⟩
          have inside : kept < (next :: sections.map Prod.snd).length := by
            simpa using Nat.lt_succ_of_le bound
          rw [readsTo]
          simp [stateBehind, List.getElem?_eq_getElem inside]
    · obtain ⟨error, failsAt⟩ := fails offset part between bytesEq ended nonempty
      exact .inl ⟨error, bind_of_error failsAt⟩

/-! ## A section read by one reader -/

section OneReader

variable {read : Reader ε α} {fits : α → Prop} {write : α → List UInt8} {default value : α}
  {next : α → Reader ε σ} {state : σ}

theorem optional_reads (recovers : Recovers read fits write) (valueFits : fits value)
    (nonempty : write value ≠ []) (finishes : ∀ cursor, next value cursor = .ok (state, cursor))
    {cursor after : Cursor} (spans : Spans cursor (write value) after) :
    (optional default read >>= next) cursor = .ok (state, after) := by
  have notEnded : cursor.rest ≠ [] := by
    rw [spans.1]
    exact List.append_ne_nil_of_left_ne_nil nonempty _
  refine bind_ok_iff.mpr ⟨value, after, ?_, finishes after⟩
  rw [optional_open notEnded]
  exact recovers value valueFits _ _ spans

theorem optional_fails_when_cut (recovers : Recovers read fits write) (extends_ : Extends read)
    (valueFits : fits value) {part cut : List UInt8} (whole : write value = part ++ cut)
    (opened : part ≠ []) (nonempty : cut ≠ []) (offset : Nat) :
    ∃ error, (optional default read >>= next) ⟨offset, part⟩ = .error error := by
  obtain ⟨error, fails⟩ := recovers.fails_when_cut extends_ valueFits whole nonempty offset
  refine ⟨error, bind_of_error ?_⟩
  rw [optional_open opened]
  exact fails

theorem SectionChain.extend {step : σ → Reader ε σ} {steps : List (σ → Reader ε σ)}
    {before : σ} {sections : List (List UInt8 × σ)} {written : Bool}
    (step_eq : step before = optional default read >>= next)
    (recovers : Recovers read fits write) (extends_ : Extends read) (valueFits : fits value)
    (nonempty : write value ≠ []) (finishes : ∀ cursor, next value cursor = .ok (state, cursor))
    (absent : written = false → before = state ∧
      (∀ cursor, next default cursor = .ok (state, cursor)) ∧
      ∀ behind ∈ sections, behind.1 = [])
    (rest : SectionChain steps state sections) :
    SectionChain (step :: steps) before
      ((if written then write value else [], state) :: sections) := by
  cases written with
  | true =>
    refine .written ?_ ?_ rest
    · intro cursor after spans
      rw [step_eq]
      exact optional_reads recovers valueFits nonempty finishes spans
    · intro offset part cut whole opened cutNonempty
      rw [step_eq]
      exact optional_fails_when_cut recovers extends_ valueFits whole opened cutNonempty offset
  | false =>
    obtain ⟨rfl, idle, noneBehind⟩ := absent rfl
    refine .absent ?_ noneBehind rest
    intro cursor ended
    rw [step_eq]
    exact bind_ok_iff.mpr ⟨default, cursor, optional_ended ended, idle cursor⟩

end OneReader

end ByteReader
