import KiraVm.InflateCursor

/-!
# Reading what is spelled

An operation takes bits when it consumes exactly these, whatever follows them, and
stops at the end of the input when only a part of them is there.  What follows a
stopped operation leaves it stopped.
-/

namespace KiraVm

namespace Compression

open Foundation StateLogic BitStrings CanonicalCodes

/-- The inflater goes on, at an offset of its input, with an output, before these bits. -/
structure Stands (inflater : Inflater) (offset : Nat) (out : List UInt8) (bits : List Bool) :
    Prop where
  sound : Sound inflater
  live : inflater.stopped = false
  output : inflater.output = out
  spelled : inflater.bits = bits
  placed : offset + bits.length = 8 * inflater.input.length

/-- From inflaters with no more bits than a limit, the operation takes these bits. -/
structure Takes {α : Type} (limit offset : Nat) (out : List UInt8) (operation : OnInflater α)
    (bits : List Bool) (answer : α) (after : List UInt8) : Prop where
  whole : ∀ inflater rest, (bits ++ rest).length ≤ limit →
    Stands inflater offset out (bits ++ rest) →
    ∃ next, operation inflater = .ok answer next ∧ Stands next (offset + bits.length) after rest
  cut : ∀ inflater front, front.length ≤ limit → front <+: bits → front ≠ bits →
    Stands inflater offset out front →
    ∃ value next, operation inflater = .ok value next ∧ Cut next

/-- The operation leaves a stopped inflater stopped for the same reason. -/
def KeepsCut {α : Type} (operation : OnInflater α) : Prop :=
  ∀ inflater, Cut inflater → ∃ value next, operation inflater = .ok value next ∧ Cut next

section Rules

variable {α β : Type} {operation : OnInflater α} {next : α → OnInflater β} {limit offset : Nat}
  {out middle after : List UInt8} {bits more : List Bool} {value : α} {answer : β}

theorem Stands.limited {inflater : Inflater} (stands : Stands inflater offset out bits) :
    inflater.bitsLeft = bits.length := by
  rw [← length_bits, stands.spelled]

/-! ### Stopped inflaters -/

theorem KeepsCut.pure (value : α) : KeepsCut (Pure.pure value) :=
  fun inflater cut => ⟨value, inflater, rfl, cut⟩

theorem KeepsCut.bind (first : KeepsCut operation) (second : ∀ value, KeepsCut (next value)) :
    KeepsCut (operation >>= next) := by
  intro inflater cut
  rcases first inflater cut with ⟨value, inflater', ran, cut'⟩
  rcases second value inflater' cut' with ⟨answer, inflater'', ran', cut''⟩
  exact ⟨answer, inflater'', (bind_run_ok ran).trans ran', cut''⟩

theorem KeepsCut.asked (stop : β) (goOn : Inflater → OnInflater β) :
    KeepsCut (do let self ← get; if self.stopped then Pure.pure stop else goOn self) := by
  intro inflater cut
  refine ⟨stop, inflater, ?_, cut⟩
  rw [bind_run_ok (get_run inflater), if_pos cut.1]
  rfl

theorem KeepsCut.takeBits (count : Nat) : KeepsCut (takeBits count) :=
  fun inflater cut => ⟨0, inflater, takeBits_stopped count cut.1, cut⟩

/-! ### Inflaters that go on -/

theorem Takes.pure (value : α) : Takes limit offset out (Pure.pure value) [] value out where
  whole := fun inflater _ _ stands => ⟨inflater, rfl, stands⟩
  cut := fun _ _ _ before proper _ => absurd (List.prefix_nil.mp before) proper

/-- Both operations, one behind the other.  What a stopped one answers may be known. -/
theorem Takes.bindKnown {known : α → Prop}
    (first : Takes limit offset out operation bits value middle)
    (knows : ∀ inflater value last, Sound inflater → operation inflater = .ok value last →
      known value)
    (stays : ∀ value, known value → KeepsCut (next value))
    (second : bits.length ≤ limit →
      Takes (limit - bits.length) (offset + bits.length) middle (next value) more answer after) :
    Takes limit offset out (operation >>= next) (bits ++ more) answer after where
  whole := by
    intro inflater rest fits stands
    rw [List.append_assoc] at fits stands
    rcases first.whole inflater _ fits stands with ⟨inflater', ran, stands'⟩
    rw [List.length_append] at fits
    rcases (second (by omega)).whole inflater' rest (by omega) stands' with ⟨last, ran', stands''⟩
    refine ⟨last, (bind_run_ok ran).trans ran', ?_⟩
    rw [List.length_append, ← Nat.add_assoc]
    exact stands''
  cut := by
    intro inflater front fits before proper stands
    by_cases long : bits.length ≤ front.length
    · have starts : bits <+: front :=
        List.prefix_of_prefix_length_le (List.prefix_append bits more) before long
      rcases starts with ⟨rest, rfl⟩
      rcases first.whole inflater rest fits stands with ⟨inflater', ran, stands'⟩
      rw [List.length_append] at fits
      rcases (second (by omega)).cut inflater' rest (by omega)
          ((List.prefix_append_right_inj bits).mp before)
          (fun same => proper (by rw [same])) stands' with ⟨answer, last, ran', cut⟩
      exact ⟨answer, last, (bind_run_ok ran).trans ran', cut⟩
    · have starts : front <+: bits :=
        List.prefix_of_prefix_length_le before (List.prefix_append bits more) (by omega)
      rcases first.cut inflater front fits starts (by rintro rfl; exact long (Nat.le_refl _))
          stands with ⟨value', inflater', ran, cut⟩
      rcases stays value' (knows inflater value' inflater' stands.sound ran) inflater' cut with
        ⟨answer, last, ran', cut'⟩
      exact ⟨answer, last, (bind_run_ok ran).trans ran', cut'⟩

theorem Takes.bind (first : Takes limit offset out operation bits value middle)
    (stays : ∀ value, KeepsCut (next value))
    (second : bits.length ≤ limit →
      Takes (limit - bits.length) (offset + bits.length) middle (next value) more answer after) :
    Takes limit offset out (operation >>= next) (bits ++ more) answer after :=
  first.bindKnown (fun _ _ _ _ _ => trivial) (fun value _ => stays value) second

/-- Nothing is taken behind the operation. -/
theorem Takes.andPure {result : α → β}
    (takes : Takes limit offset out operation bits value after) :
    Takes limit offset out (operation >>= fun answer => Pure.pure (result answer)) bits
      (result value) after := by
  have both : Takes limit offset out (operation >>= fun answer => Pure.pure (result answer))
      (bits ++ []) (result value) after :=
    takes.bind (fun value => KeepsCut.pure (result value)) fun _ => Takes.pure (result value)
  rw [List.append_nil] at both
  exact both

theorem Takes.congr (takes : Takes limit offset out operation bits value after)
    (same : bits = more) : Takes limit offset out operation more value after := by
  rw [← same]
  exact takes

theorem Takes.of_get {operation : Inflater → OnInflater α}
    (rest : ∀ inflater : Inflater, inflater.stopped = false → inflater.output = out →
      inflater.bitsLeft ≤ limit →
      Takes inflater.bitsLeft offset out (operation inflater) bits value after) :
    Takes limit offset out (get >>= operation) bits value after where
  whole := by
    intro inflater suffix fits stands
    have left := stands.limited
    exact (rest inflater stands.live stands.output (by omega)).whole inflater suffix
      (by omega) stands
  cut := by
    intro inflater front fits before proper stands
    have left := stands.limited
    exact (rest inflater stands.live stands.output (by omega)).cut inflater front
      (by omega) before proper stands

theorem Takes.asked {stop : β} {goOn : Inflater → OnInflater β}
    (takes : ∀ inflater : Inflater, inflater.output = out → inflater.bitsLeft ≤ limit →
      Takes inflater.bitsLeft offset out (goOn inflater) bits answer after) :
    Takes limit offset out
      (do let self ← get; if self.stopped then Pure.pure stop else goOn self) bits answer after := by
  apply Takes.of_get
  intro inflater live output fits
  rw [if_neg (by rw [live]; decide)]
  exact takes inflater output fits

/-- The output grows, and nothing is taken. -/
theorem Takes.append {next : OnInflater β} (byte : UInt8)
    (rest : Takes limit offset (out ++ [byte]) next bits answer after) :
    Takes limit offset out ((modify fun self => self.appended byte) >>= fun _ => next) bits answer
      after := by
  have grown : ∀ {inflater : Inflater} {spelled : List Bool},
      Stands inflater offset out spelled →
      Stands (inflater.appended byte) offset (out ++ [byte]) spelled := by
    intro inflater spelled stands
    refine ⟨⟨stands.sound.small, stands.sound.within, stands.sound.few⟩, stands.live, ?_,
      stands.spelled, stands.placed⟩
    rw [← stands.output]
    rfl
  constructor
  · intro inflater suffix fits stands
    exact rest.whole _ suffix fits (grown stands)
  · intro inflater front fits before proper stands
    exact rest.cut _ front fits before proper (grown stands)

theorem Takes.takeBits {count number : Nat} (bounded : count ≤ 16) (fits : number < 2 ^ count) :
    Takes limit offset out (takeBits count) (lowFirst count number) number out where
  whole := by
    intro inflater rest _ stands
    rcases takeBits_run bounded stands.sound stands.live with
      ⟨value, next, ran, kept, sound, small, ⟨live, parts⟩ | ⟨cut, _, lacking⟩⟩
    · rw [stands.spelled] at parts
      have ends := List.append_inj parts (by simp)
      have same := lowFirst_injective fits small ends.1
      refine ⟨next, by rw [same, ran], sound, live, kept.output.trans stands.output,
        ends.2.symm, ?_⟩
      have placed := stands.placed
      rw [List.length_append] at placed
      rw [kept.input]
      omega
    · rw [stands.spelled, List.length_append, length_lowFirst] at lacking
      omega
  cut := by
    intro inflater front _ before proper stands
    rcases takeBits_run bounded stands.sound stands.live with
      ⟨value, next, ran, kept, sound, small, ⟨live, parts⟩ | ⟨cut, _, lacking⟩⟩
    · rw [stands.spelled] at parts
      have long : (lowFirst count number).length ≤ front.length := by
        rw [parts, List.length_append, length_lowFirst, length_lowFirst]
        omega
      exact absurd (before.eq_of_length_le long) proper
    · exact ⟨value, next, ran, cut⟩

end Rules

end Compression

end KiraVm
