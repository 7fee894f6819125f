import KiraVm.HuffmanTables

/-!
# The bits of an inflater

An inflater stands before the bits of its buffer and of the bytes that are left.
Taking bits takes them from the front, or stops it when there are too few.
-/

namespace KiraVm

namespace Compression

open Foundation StateLogic BitStrings

def Inflater.bits (self : Inflater) : List Bool :=
  lowFirst self.bitCount self.bitBuffer ++ bitsOf (self.input.drop self.pos)

/-- The buffer holds its bits and no others, less than a byte of them while the inflater
goes on. -/
structure Sound (inflater : Inflater) : Prop where
  small : inflater.bitBuffer < 2 ^ inflater.bitCount
  within : inflater.pos ≤ inflater.input.length
  few : inflater.stopped = false → inflater.bitCount < 8

/-- Stopped at the end of the input. -/
def Cut (self : Inflater) : Prop :=
  self.stopped = true ∧ self.failure = .truncated

theorem length_bits (self : Inflater) : self.bits.length = self.bitsLeft := by
  unfold Inflater.bits Inflater.bitsLeft
  rw [List.length_append, length_lowFirst, length_bitsOf, List.length_drop]

variable {self : Inflater} {count : Nat}

theorem Cut.not_live (cut : Cut self) : self.stopped ≠ false := by
  rw [cut.1]
  decide

theorem orTrap_ok_bind {α β : Type} {value : α} {next : α → OnInflater β} :
    (orTrap (.ok value) >>= next) = next value :=
  rfl

/-! ## Filling the buffer -/

theorem heldInt_ok {value : Nat} (held : value < 2 ^ 63) : heldInt value = .ok value := by
  unfold heldInt
  rw [if_pos held]

theorem byte_lifted (byte : UInt8) (few : count < 24) : byte.toNat <<< count < 2 ^ 32 := by
  have below := UInt8.toNat_lt byte
  have power : 2 ^ count ≤ 2 ^ 24 := Nat.pow_le_pow_right (by decide) (by omega)
  rw [Nat.shiftLeft_eq]
  calc byte.toNat * 2 ^ count < 2 ^ 8 * 2 ^ count :=
        Nat.mul_lt_mul_of_pos_right below (Nat.two_pow_pos count)
    _ ≤ 2 ^ 8 * 2 ^ 24 := Nat.mul_le_mul_left _ power
    _ = 2 ^ 32 := by decide

theorem filled_bits {byte : UInt8} (small : self.bitBuffer < 2 ^ self.bitCount)
    (here : self.input[self.pos]? = some byte) :
    (self.filled (byte.toNat <<< self.bitCount)).bits = self.bits := by
  rcases List.getElem?_eq_some_iff.mp here with ⟨inside, same⟩
  unfold Inflater.filled Inflater.bits
  simp only
  rw [lowFirst_join small, List.drop_eq_getElem_cons inside, same, bitsOf_cons,
    List.append_assoc]

theorem filled_small {byte : UInt8} (small : self.bitBuffer < 2 ^ self.bitCount) :
    self.bitBuffer ||| byte.toNat <<< self.bitCount < 2 ^ (self.bitCount + 8) := by
  apply Nat.or_lt_two_pow
  · exact Nat.lt_of_lt_of_le small (Nat.pow_le_pow_right (by decide) (by omega))
  · rw [Nat.shiftLeft_eq, Nat.add_comm, Nat.pow_add]
    exact Nat.mul_lt_mul_of_pos_right (UInt8.toNat_lt byte) (Nat.two_pow_pos _)

/-- What filling leaves as it is. -/
structure Kept (before after : Inflater) : Prop where
  input : after.input = before.input
  output : after.output = before.output

theorem Kept.refl (self : Inflater) : Kept self self :=
  ⟨rfl, rfl⟩

theorem fillTurns_run (bounded : count ≤ 16) (turns : Nat) (self : Inflater)
    (small : self.bitBuffer < 2 ^ self.bitCount) (within : self.pos ≤ self.input.length)
    (near : self.bitCount < count + 8) (positive : 0 < turns)
    (enough : count < self.bitCount + turns) :
    ∃ filled next, fillTurns count turns self = .ok filled next ∧ Kept self next ∧
      next.bitBuffer < 2 ^ next.bitCount ∧ next.pos ≤ next.input.length ∧
      next.bits = self.bits ∧
      (filled = true ∧ count ≤ next.bitCount ∧ next.bitCount < count + 8 ∧
          next.stopped = self.stopped ∨
        filled = false ∧ Cut next ∧ self.bits.length < count) := by
  induction turns generalizing self with
  | zero => omega
  | succ turns ih =>
    rw [fillTurns, bind_run_ok (get_run self)]
    split
    · rename_i lacking
      split
      · rename_i beyond
        refine ⟨false, self.failed .truncated, rfl, ⟨rfl, rfl⟩, small, within, rfl,
          Or.inr ⟨rfl, ⟨rfl, rfl⟩, ?_⟩⟩
        rw [length_bits]
        unfold Inflater.bitsLeft
        omega
      · rename_i going
        have inside : self.pos < self.input.length := by omega
        have here := List.getElem?_eq_getElem inside
        have lifted := byte_lifted self.input[self.pos] (show self.bitCount < 24 by omega)
        rw [byteAt_ok here, orTrap_ok_bind, heldInt_ok (by omega), orTrap_ok_bind]
        have next := filled_bits small here
        rcases ih (self.filled (self.input[self.pos].toNat <<< self.bitCount))
            (filled_small small) inside (by simp only [Inflater.filled]; omega) (by omega)
            (by simp only [Inflater.filled]; omega) with
          ⟨filled, after, ran, kept, smallAfter, withinAfter, same, ended⟩
        refine ⟨filled, after, ran, ⟨kept.input, kept.output⟩, smallAfter, withinAfter,
          same.trans next, ?_⟩
        rw [next] at ended
        exact ended
    · rename_i full
      exact ⟨true, self, rfl, Kept.refl self, small, within, rfl,
        Or.inl ⟨rfl, by omega, near, rfl⟩⟩

/-! ## Taking bits -/

theorem takeBits_run (bounded : count ≤ 16) (sound : Sound self) (live : self.stopped = false) :
    ∃ value next, takeBits count self = .ok value next ∧ Kept self next ∧ Sound next ∧
      value < 2 ^ count ∧
      (next.stopped = false ∧ self.bits = lowFirst count value ++ next.bits ∨
        Cut next ∧ next.bits = self.bits ∧ self.bits.length < count) := by
  have few := sound.few live
  rcases fillTurns_run bounded (count + 1) self sound.small sound.within (by omega)
      (Nat.succ_pos count) (by omega) with
    ⟨filled, after, ran, kept, small, within, same, ended⟩
  have filledIn : fill count self = .ok filled after := ran
  unfold takeBits
  rw [bind_run_ok (get_run self), if_neg (by rw [live]; decide), bind_run_ok filledIn]
  rcases ended with ⟨rfl, enough, near, goes⟩ | ⟨rfl, cut, lacking⟩
  · rw [live] at goes
    have masked : after.bitBuffer &&& (1 <<< count - 1) = after.bitBuffer % 2 ^ count := by
      rw [Nat.one_shiftLeft, Nat.and_two_pow_sub_one_eq_mod]
    have shifted : after.bitBuffer >>> count < 2 ^ (after.bitCount - count) := by
      rw [Nat.shiftRight_eq_div_pow, Nat.div_lt_iff_lt_mul (Nat.two_pow_pos count), ← Nat.pow_add,
        Nat.sub_add_cancel enough]
      exact small
    refine ⟨after.bitBuffer % 2 ^ count, after.taken count, ?_, ⟨kept.input, kept.output⟩,
      ⟨shifted, within, ?_⟩, Nat.mod_lt _ (Nat.two_pow_pos count), Or.inl ⟨goes, ?_⟩⟩
    · rw [← masked]
      rfl
    · intro
      simp only [Inflater.taken]
      omega
    · have parts : lowFirst after.bitCount after.bitBuffer =
          lowFirst count after.bitBuffer ++
            lowFirst (after.bitCount - count) (after.bitBuffer >>> count) := by
        rw [← lowFirst_add, Nat.add_sub_cancel' enough]
      rw [← same, lowFirst_mod]
      unfold Inflater.bits
      rw [parts, List.append_assoc]
      rfl
  · refine ⟨0, after, rfl, kept, ⟨small, within, ?_⟩, Nat.two_pow_pos count,
      Or.inr ⟨cut, same, lacking⟩⟩
    intro goes
    exact absurd goes cut.not_live

theorem takeBits_stopped (count : Nat) (stopped : self.stopped = true) :
    takeBits count self = .ok 0 self := by
  unfold takeBits
  rw [bind_run_ok (get_run self), if_pos stopped]
  rfl

end Compression

end KiraVm
