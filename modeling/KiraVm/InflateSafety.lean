import KiraVm.InflateSymbols

/-!
# The decoder never stops the program

From every sound inflater each operation answers, leaves the inflater sound and gives
no bits back.  A loop that goes on has taken bits, so that its turns are enough.
-/

namespace KiraVm

namespace Compression

open Foundation StateLogic BitStrings CanonicalCodes

/-- Where an operation may leave an inflater. -/
structure Reached (before after : Inflater) (spent : Nat) : Prop where
  sound : Sound after
  fewer : after.bitsLeft ≤ before.bitsLeft
  went : after.stopped = false →
    before.stopped = false ∧ after.bitsLeft + spent ≤ before.bitsLeft

/-- An answer, and where it leaves the inflater.  What holds of the answer may depend on whether
the inflater has stopped. -/
abbrev Answers {α : Type} (inflater : Inflater) (spent : Nat) (holds : α → Bool → Prop) :
    EStateM.Result KiraTrap Inflater α → Prop :=
  Ends (fun value next => Reached inflater next spent ∧ holds value next.stopped) fun _ _ => False

def Total {α : Type} (operation : OnInflater α) (spent : Nat) (holds : α → Bool → Prop) : Prop :=
  ∀ inflater, Sound inflater → Answers inflater spent holds (operation inflater)

section Rules

variable {α β : Type} {operation : OnInflater α} {next : α → OnInflater β}
  {holds : α → Bool → Prop} {holdsNext : β → Bool → Prop} {spent more : Nat}

theorem Reached.refl {inflater : Inflater} (sound : Sound inflater) :
    Reached inflater inflater 0 :=
  ⟨sound, Nat.le_refl _, fun live => ⟨live, Nat.le_refl _⟩⟩

theorem Reached.trans {first second third : Inflater} (front : Reached first second spent)
    (back : Reached second third more) : Reached first third (spent + more) := by
  constructor
  · exact back.sound
  · exact Nat.le_trans back.fewer front.fewer
  · intro live
    have later := back.went live
    have earlier := front.went later.1
    exact ⟨earlier.1, by omega⟩

theorem Reached.less {first second : Inflater} (reached : Reached first second spent)
    (fewer : more ≤ spent) : Reached first second more :=
  ⟨reached.sound, reached.fewer, fun live => ⟨(reached.went live).1, by
    have went := (reached.went live).2
    omega⟩⟩

theorem Total.pure {value : α} (has : ∀ stopped, holds value stopped) :
    Total (Pure.pure value) 0 holds :=
  fun inflater sound => ⟨Reached.refl sound, has inflater.stopped⟩

theorem answers_bind {inflater : Inflater} (first : Answers inflater spent holds (operation inflater))
    (second : ∀ value after, Reached inflater after spent → holds value after.stopped →
      Answers after more holdsNext (next value after)) :
    Answers inflater (spent + more) holdsNext ((operation >>= next) inflater) := by
  apply Ends.bind first
  rintro value after ⟨reached, has⟩
  have later := second value after reached has
  cases ran : next value after with
  | ok answer last =>
    rw [ran] at later
    exact ⟨reached.trans later.1, later.2⟩
  | error trap last =>
    rw [ran] at later
    exact later

theorem Total.bindAt (first : Total operation spent holds)
    (second : ∀ value inflater, Sound inflater → holds value inflater.stopped →
      Answers inflater more holdsNext (next value inflater)) :
    Total (operation >>= next) (spent + more) holdsNext :=
  fun inflater sound => answers_bind (first inflater sound) fun value after reached has =>
    second value after reached.sound has

theorem Total.bind (first : Total operation spent holds)
    (second : ∀ value stopped, holds value stopped → Total (next value) more holdsNext) :
    Total (operation >>= next) (spent + more) holdsNext :=
  first.bindAt fun value inflater sound has => second value inflater.stopped has inflater sound

theorem answers_weaken {inflater : Inflater} {result : EStateM.Result KiraTrap Inflater α}
    (answers : Answers inflater spent holds result) (fewer : more ≤ spent)
    {holds' : α → Bool → Prop} (imp : ∀ value stopped, holds value stopped → holds' value stopped) :
    Answers inflater more holds' result := by
  cases result with
  | ok value after => exact ⟨answers.1.less fewer, imp value _ answers.2⟩
  | error trap after => exact answers

theorem Total.weaken (total : Total operation spent holds) (fewer : more ≤ spent)
    {holds' : α → Bool → Prop} (imp : ∀ value stopped, holds value stopped → holds' value stopped) :
    Total operation more holds' :=
  fun inflater sound => answers_weaken (total inflater sound) fewer imp

theorem Total.asked {stop : α} {goOn : Inflater → OnInflater α} (has : holds stop true)
    (rest : ∀ inflater, Sound inflater → inflater.stopped = false →
      Answers inflater spent holds (goOn inflater inflater)) :
    Total (do let self ← get; if self.stopped then Pure.pure stop else goOn self) spent holds := by
  intro inflater sound
  rw [bind_run_ok (get_run inflater)]
  split
  · rename_i stopped
    refine ⟨⟨sound, Nat.le_refl _, ?_⟩, ?_⟩
    · intro live
      rw [live] at stopped
      cases stopped
    · rw [stopped]
      exact has
  · rename_i going
    exact rest inflater sound (Bool.eq_false_iff.mpr going)

theorem Total.fail (reason : InflateFailure) : Total (fail reason) spent fun _ stopped =>
    stopped = true := by
  intro inflater sound
  refine ⟨⟨⟨sound.small, sound.within, ?_⟩, Nat.le_refl _, ?_⟩, rfl⟩
  · intro live
    cases live
  · intro live
    cases live

theorem Total.failing (reason : InflateFailure) {value : α} (has : holds value true) :
    Total (do Compression.fail reason; Pure.pure value) spent holds := by
  change Total _ (spent + 0) holds
  apply Total.bindAt (Total.fail reason)
  intro _ inflater sound stopped
  refine ⟨Reached.refl sound, ?_⟩
  rw [stopped]
  exact has

theorem Total.takeBits {count : Nat} (bounded : count ≤ 16) :
    Total (takeBits count) count fun value _ => value < 2 ^ count := by
  intro inflater sound
  by_cases stopped : inflater.stopped = true
  · rw [takeBits_stopped count stopped]
    refine ⟨⟨sound, Nat.le_refl _, ?_⟩, Nat.two_pow_pos count⟩
    intro live
    rw [live] at stopped
    cases stopped
  · have live := Bool.eq_false_iff.mpr stopped
    rcases takeBits_run bounded sound live with
      ⟨value, next, ran, kept, after, small, ⟨goes, parts⟩ | ⟨cut, same, lacking⟩⟩
    · have lengths := congrArg List.length parts
      rw [List.length_append, length_lowFirst, length_bits, length_bits] at lengths
      rw [ran]
      exact ⟨⟨after, by omega, fun _ => ⟨live, by omega⟩⟩, small⟩
    · have lengths := congrArg List.length same
      rw [length_bits, length_bits] at lengths
      rw [ran]
      refine ⟨⟨after, by omega, ?_⟩, small⟩
      intro goes
      exact absurd goes cut.not_live

end Rules

/-! ## Symbols -/

section Walk

variable {lengths : List Nat} {longest : Nat} {table : HuffmanCode}

theorem decodeSymbolFrom_total (tableOf : TableOf lengths longest table)
    (alphabet : Alphabet lengths longest) {code level : Nat} (positive : 0 < level)
    (within : level ≤ longest + 1) (above : firstCode lengths level ≤ code)
    (below : code < 2 ^ level) :
    Total (decodeSymbolFrom table code (firstCode lengths level) (shorter lengths level) level) 1
      fun _ _ => True := by
  induction left : longest + 1 - level generalizing code level with
  | zero =>
    rw [decodeSymbolFrom, if_neg (by rw [tableOf.count]; omega)]
    exact Total.failing _ trivial
  | succ left ih =>
    have counted := tableOf.counted (level - 1) (by omega)
    rw [Nat.sub_add_cancel positive] at counted
    have nextIndex : shorter lengths level + lengths.count level = shorter lengths (level + 1) := by
      rw [shorter, codesOf_positive positive]
    have nextFirst : 2 * (firstCode lengths level + lengths.count level) =
        firstCode lengths (level + 1) := by
      rw [firstCode, codesOf_positive positive]
    have indexHeld : shorter lengths (level + 1) ≤ 5120 := alphabet.shorter_held (by omega)
    have firstHeld : firstCode lengths (level + 1) ≤ 2 ^ 16 * 640 :=
      alphabet.firstCode_held (by omega)
    have power : 2 ^ level ≤ 2 ^ 15 := by
      have short := alphabet.short
      exact Nat.pow_le_pow_right (by decide) (by omega)
    rw [decodeSymbolFrom, if_pos (by rw [tableOf.count]; omega)]
    apply @Total.bind _ _ _ _ _ _ 1 0 (Total.takeBits (by decide))
    intro bit _ small
    have larger : code ≤ code ||| bit := Nat.left_le_or
    have grown : code ||| bit < 2 ^ level :=
      Nat.or_lt_two_pow below (Nat.lt_of_lt_of_le small (Nat.pow_le_pow_right (by decide) positive))
    apply Total.asked trivial
    intro inflater sound live
    rw [elementAt_ok counted, orTrap_ok_bind]
    split
    · rename_i landed
      by_cases beyond : (table.symbols.length : Int) ≤ (shorter lengths level : Int) +
          (((code ||| bit : Nat) : Int) - (firstCode lengths level : Int))
      · rw [if_pos beyond]
        exact (Total.failing _ trivial : Total _ 0 fun _ _ => True) inflater sound
      · have place : (shorter lengths level : Int) +
            (((code ||| bit : Nat) : Int) - (firstCode lengths level : Int)) =
            ((shorter lengths level + ((code ||| bit) - firstCode lengths level) : Nat) : Int) := by
          omega
        rw [if_neg beyond, place, elementAt_inside (by omega)]
        exact ⟨Reached.refl sound, trivial⟩
    · rename_i passed
      rw [nextIndex, heldInt_ok (by omega), orTrap_ok_bind, heldInt_ok (by omega),
        orTrap_ok_bind, shiftLeft_one, heldInt_ok (by omega), orTrap_ok_bind, shiftLeft_one,
        heldInt_ok (by omega), orTrap_ok_bind, nextFirst]
      have rest : Total (decodeSymbolFrom table (2 * (code ||| bit))
          (firstCode lengths (level + 1)) (shorter lengths (level + 1)) (level + 1)) 1
          fun _ _ => True := by
        apply ih
        · exact Nat.succ_pos level
        · omega
        · omega
        · rw [Nat.pow_succ]
          omega
        · omega
      exact rest.weaken (Nat.zero_le 1) (fun _ _ has => has) inflater sound

theorem Total.decodeSymbol (tableOf : TableOf lengths longest table)
    (alphabet : Alphabet lengths longest) :
    Total (decodeSymbol table) 1 fun _ _ => True :=
  decodeSymbolFrom_total tableOf alphabet Nat.one_pos (Nat.succ_pos longest) (Nat.le_refl 0)
    (by decide)

end Walk

end Compression

end KiraVm
