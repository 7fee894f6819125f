import KiraVm.BitStrings

/-!
# Canonical codes

A canonical code is decided by the length of each symbol's code: the codes of a
length follow one another in the order of the symbols, behind the codes of the
shorter lengths.  A length of zero says that the symbol has no code.
-/

namespace CanonicalCodes

open BitStrings

variable (lengths : List Nat)

def codesOf (length : Nat) : Nat :=
  if length = 0 then 0 else lengths.count length

def firstCode : Nat → Nat
  | 0 => 0
  | length + 1 => 2 * (firstCode length + codesOf lengths length)

def shorter : Nat → Nat
  | 0 => 0
  | length + 1 => shorter length + codesOf lengths length

/-- How many symbols before this one have codes of a length. -/
def rank (symbol length : Nat) : Nat :=
  (lengths.take symbol).count length

def IsCode (symbol : Nat) (bits : List Bool) : Prop :=
  ∃ length, lengths[symbol]? = some length ∧ 0 < length ∧
    firstCode lengths length + rank lengths symbol length < 2 ^ length ∧
    bits = highFirst length (firstCode lengths length + rank lengths symbol length)

variable {lengths : List Nat}

variable {symbol length first second : Nat}

theorem IsCode.positive {bits : List Bool} (isCode : IsCode lengths symbol bits) :
    0 < bits.length := by
  rcases isCode with ⟨length, _, positive, _, rfl⟩
  rw [length_highFirst]
  exact positive

theorem codesOf_positive (positive : 0 < length) :
    codesOf lengths length = lengths.count length := by
  unfold codesOf
  rw [if_neg (by omega)]

theorem codesOf_le (length : Nat) : codesOf lengths length ≤ lengths.length := by
  unfold codesOf
  split
  · omega
  · exact List.count_le_length

/-! ## Codes of different lengths -/

theorem firstCode_passes (length more : Nat) :
    2 ^ (more + 1) * (firstCode lengths length + codesOf lengths length) ≤
      firstCode lengths (length + more + 1) := by
  induction more with
  | zero =>
    rw [firstCode]
    omega
  | succ more ih =>
    rw [show length + (more + 1) + 1 = (length + more + 1) + 1 from rfl, firstCode, Nat.pow_succ]
    linarith

theorem firstCode_le (length : Nat) :
    firstCode lengths length + 2 * lengths.length ≤ 2 ^ length * (2 * lengths.length) := by
  induction length with
  | zero =>
    rw [firstCode]
    omega
  | succ length ih =>
    have few : codesOf lengths length ≤ lengths.length := codesOf_le length
    rw [firstCode, Nat.pow_succ]
    linarith

/-! ## Symbols in the order of their codes -/

theorem rank_succ (here : symbol < lengths.length) :
    rank lengths (symbol + 1) length =
      rank lengths symbol length + if lengths[symbol] = length then 1 else 0 := by
  unfold rank
  rw [List.take_add_one, List.count_append, List.getElem?_eq_getElem here]
  simp [List.count_singleton]

theorem rank_mono (ordered : first ≤ second) :
    rank lengths first length ≤ rank lengths second length := by
  unfold rank
  apply List.Sublist.count_le
  exact (List.take_prefix_take_left ordered).sublist

theorem rank_le (symbol length : Nat) : rank lengths symbol length ≤ lengths.count length :=
  (List.take_sublist symbol lengths).count_le length

theorem rank_lt_rank (has : lengths[first]? = some length) (ordered : first < second) :
    rank lengths first length < rank lengths second length := by
  rcases List.getElem?_eq_some_iff.mp has with ⟨here, same⟩
  have next : rank lengths (first + 1) length =
      rank lengths first length + if lengths[first] = length then 1 else 0 := rank_succ here
  rw [if_pos same] at next
  have later : rank lengths (first + 1) length ≤ rank lengths second length := rank_mono ordered
  omega

theorem rank_lt (has : lengths[symbol]? = some length) :
    rank lengths symbol length < lengths.count length := by
  have later : rank lengths symbol length < rank lengths (symbol + 1) length :=
    rank_lt_rank has (Nat.lt_succ_self symbol)
  have bound : rank lengths (symbol + 1) length ≤ lengths.count length := rank_le _ _
  omega

theorem shorter_mono (ordered : first ≤ second) :
    shorter lengths first ≤ shorter lengths second := by
  induction second with
  | zero =>
    obtain rfl : first = 0 := by omega
    exact Nat.le_refl _
  | succ second ih =>
    by_cases reached : first ≤ second
    · exact Nat.le_trans (ih reached) (Nat.le_add_right _ _)
    · obtain rfl : first = second + 1 := by omega
      exact Nat.le_refl _

theorem place_lt {longest : Nat} (has : lengths[symbol]? = some length)
    (positive : 0 < length) (within : length ≤ longest) :
    shorter lengths length + rank lengths symbol length < shorter lengths (longest + 1) := by
  have bound := rank_lt has
  have later : shorter lengths (length + 1) ≤ shorter lengths (longest + 1) :=
    shorter_mono (Nat.succ_le_succ within)
  rw [shorter, codesOf_positive positive] at later
  omega

theorem place_injective {firstLength secondLength : Nat}
    (hasFirst : lengths[first]? = some firstLength) (firstPositive : 0 < firstLength)
    (hasSecond : lengths[second]? = some secondLength) (secondPositive : 0 < secondLength)
    (same : shorter lengths firstLength + rank lengths first firstLength =
      shorter lengths secondLength + rank lengths second secondLength) :
    first = second := by
  rcases Nat.lt_trichotomy firstLength secondLength with shortest | rfl | longest
  · have apart := place_lt hasFirst firstPositive (Nat.le_sub_one_of_lt shortest)
    rw [Nat.sub_add_cancel secondPositive] at apart
    omega
  · rcases Nat.lt_trichotomy first second with before | equal | after
    · have apart := rank_lt_rank hasFirst before
      omega
    · exact equal
    · have apart := rank_lt_rank hasSecond after
      omega
  · have apart := place_lt hasSecond secondPositive (Nat.le_sub_one_of_lt longest)
    rw [Nat.sub_add_cancel firstPositive] at apart
    omega

end CanonicalCodes
