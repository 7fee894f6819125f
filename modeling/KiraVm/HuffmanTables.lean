import KiraVm.CanonicalCodes
import KiraVm.InflateModel

/-!
# Tables from code lengths

What `huffmanCodeFromLengths` builds: how many codes there are of each length, and
the symbols in the order of their codes.
-/

namespace KiraVm

namespace Compression

open Foundation CanonicalCodes

/-! ## Arrays -/

variable {index longest length : Nat} {lengths : List Nat}

theorem elementAt_ok {α : Type} {elements : List α} {element : α}
    (here : elements[index]? = some element) : elementAt elements index = .ok element := by
  unfold elementAt
  rw [if_neg (by omega), Int.toNat_natCast, here]

theorem elementAt_inside {α : Type} {elements : List α} (inside : index < elements.length) :
    elementAt elements index = .ok elements[index] :=
  elementAt_ok (List.getElem?_eq_getElem inside)

theorem putAt_ok {α : Type} {elements : List α} {element : α} (inside : index < elements.length) :
    putAt elements index element = .ok (elements.set index element) := by
  unfold putAt
  rw [if_pos inside]

/-! ## Tables -/

/-- The table of an alphabet whose codes have at most a length. -/
structure TableOf (lengths : List Nat) (longest : Nat) (table : HuffmanCode) : Prop where
  count : table.counts.length = longest
  counted : ∀ index, index < longest → table.counts[index]? = some (lengths.count (index + 1))
  room : table.symbols.length = shorter lengths (longest + 1)
  placed : ∀ symbol length, lengths[symbol]? = some length → 0 < length → length ≤ longest →
    table.symbols[shorter lengths length + rank lengths symbol length]? = some symbol

def Counted (longest : Nat) (seen counts : List Nat) : Prop :=
  counts.length = longest ∧
    ∀ index, index < longest → counts[index]? = some (seen.count (index + 1))

theorem Counted.one {longest length : Nat} {seen counts : List Nat}
    (counted : Counted longest seen counts) (positive : 0 < length) (within : length ≤ longest) :
    Counted longest (seen ++ [length]) (counts.set (length - 1) (seen.count length + 1)) := by
  constructor
  · rw [List.length_set]
    exact counted.1
  · intro index inside
    rw [List.getElem?_set, List.count_append, List.count_singleton]
    by_cases same : length - 1 = index
    · obtain rfl : length = index + 1 := by omega
      rw [if_pos same, if_pos (by rw [counted.1]; exact inside)]
      simp
    · have other : ¬ (length == index + 1) = true := by
        rw [beq_iff_eq]
        omega
      rw [if_neg same, if_neg other, counted.2 index inside]
      rfl

theorem Counted.skip {seen counts : List Nat} (counted : Counted longest seen counts)
    (outside : ¬ (0 < length ∧ length ≤ longest)) : Counted longest (seen ++ [length]) counts := by
  constructor
  · exact counted.1
  · intro index inside
    have other : ¬ (length == index + 1) = true := by
      rw [beq_iff_eq]
      omega
    rw [counted.2 index inside, List.count_append, List.count_singleton, if_neg other]
    rfl

theorem countLengths_counts (longest : Nat) (lengths seen counts : List Nat)
    (counted : Counted longest seen counts) :
    ∃ all, countLengths longest lengths counts = .ok all ∧
      Counted longest (seen ++ lengths) all := by
  induction lengths generalizing seen counts with
  | nil =>
    rw [List.append_nil]
    exact ⟨counts, rfl, counted⟩
  | cons length lengths ih =>
    rw [countLengths, show seen ++ length :: lengths = (seen ++ [length]) ++ lengths by simp]
    split
    · rename_i coded
      have here : counts[length - 1]? = some (seen.count length) := by
        rw [counted.2 (length - 1) (by omega), Nat.sub_add_cancel coded.1]
      rw [elementAt_ok here, ok_bind, putAt_ok (by rw [counted.1]; omega), ok_bind]
      exact ih _ _ (counted.one coded.1 coded.2)
    · rename_i uncoded
      exact ih _ _ (counted.skip uncoded)

def StartsAt (lengths : List Nat) (longest length : Nat) (offsets : List Nat) : Prop :=
  offsets.length = longest ∧
    ∀ index, index < length → offsets[index]? = some (shorter lengths (index + 1))

theorem offsetsFrom_starts {counts : List Nat} (counted : Counted longest lengths counts)
    (offsets : List Nat) (length : Nat) (within : length ≤ longest)
    (starts : StartsAt lengths longest length offsets) :
    ∃ all, offsetsFrom counts longest offsets (shorter lengths (length + 1)) length =
        .ok (all, shorter lengths (longest + 1)) ∧
      StartsAt lengths longest longest all := by
  induction left : longest - length generalizing offsets length with
  | zero =>
    obtain rfl : length = longest := by omega
    rw [offsetsFrom, if_neg (by omega)]
    exact ⟨offsets, rfl, starts⟩
  | succ left ih =>
    rw [offsetsFrom, if_pos (by omega), putAt_ok (by rw [starts.1]; omega), ok_bind,
      elementAt_ok (counted.2 length (by omega)), ok_bind]
    have next : shorter lengths (length + 1) + lengths.count (length + 1) =
        shorter lengths (length + 1 + 1) := by
      conv => rhs; rw [shorter]
      rw [codesOf_positive (Nat.succ_pos length)]
    rw [next]
    apply ih
    · omega
    · constructor
      · rw [List.length_set]
        exact starts.1
      · intro index before
        rw [List.getElem?_set]
        by_cases same : length = index
        · subst same
          rw [if_pos rfl, if_pos (by rw [starts.1]; omega)]
        · rw [if_neg same]
          exact starts.2 index (by omega)
    · omega

/-- Where the next code of each length goes, and what is placed before. -/
structure Placing (lengths : List Nat) (longest symbol : Nat) (offsets symbols : List Nat) :
    Prop where
  count : offsets.length = longest
  next : ∀ index, index < longest →
    offsets[index]? = some (shorter lengths (index + 1) + rank lengths symbol (index + 1))
  room : symbols.length = shorter lengths (longest + 1)
  placed : ∀ earlier length, earlier < symbol → lengths[earlier]? = some length → 0 < length →
    length ≤ longest →
    symbols[shorter lengths length + rank lengths earlier length]? = some earlier

theorem Placing.skip {offsets symbols : List Nat} {symbol : Nat}
    (placing : Placing lengths longest symbol offsets symbols)
    (here : lengths[symbol]? = some length) (outside : ¬ (0 < length ∧ length ≤ longest)) :
    Placing lengths longest (symbol + 1) offsets symbols := by
  rcases List.getElem?_eq_some_iff.mp here with ⟨inside, same⟩
  constructor
  · exact placing.count
  · intro index within
    rw [placing.next index within, rank_succ inside, if_neg (by omega)]
    rfl
  · exact placing.room
  · intro earlier earlierLength before has positive bounded
    apply placing.placed earlier earlierLength _ has positive bounded
    have apart : earlier ≠ symbol := by
      rintro rfl
      rw [here, Option.some.injEq] at has
      omega
    omega

theorem Placing.place {offsets symbols : List Nat} {symbol : Nat}
    (placing : Placing lengths longest symbol offsets symbols)
    (here : lengths[symbol]? = some length) (positive : 0 < length) (within : length ≤ longest) :
    Placing lengths longest (symbol + 1)
      (offsets.set (length - 1) (shorter lengths length + rank lengths symbol length + 1))
      (symbols.set (shorter lengths length + rank lengths symbol length) symbol) := by
  rcases List.getElem?_eq_some_iff.mp here with ⟨inside, same⟩
  constructor
  · rw [List.length_set]
    exact placing.count
  · intro index bounded
    rw [List.getElem?_set, rank_succ inside]
    by_cases equal : length - 1 = index
    · obtain rfl : length = index + 1 := by omega
      rw [if_pos equal, if_pos (by rw [placing.count]; exact bounded), if_pos same]
      rfl
    · rw [if_neg equal, if_neg (by omega), Nat.add_zero]
      exact placing.next index bounded
  · rw [List.length_set]
    exact placing.room
  · intro earlier earlierLength before has earlierPositive bounded
    rw [List.getElem?_set]
    by_cases equal : shorter lengths length + rank lengths symbol length =
        shorter lengths earlierLength + rank lengths earlier earlierLength
    · have one := place_injective here positive has earlierPositive equal
      subst one
      rw [if_pos equal, if_pos (by rw [placing.room]; exact place_lt here positive within)]
    · rw [if_neg equal]
      apply placing.placed earlier earlierLength _ has earlierPositive bounded
      have apart : earlier ≠ symbol := by
        rintro rfl
        rw [here, Option.some.injEq] at has
        subst has
        exact equal rfl
      omega

theorem placeSymbols_places (offsets symbols : List Nat) (symbol : Nat)
    (within : symbol ≤ lengths.length) (placing : Placing lengths longest symbol offsets symbols) :
    ∃ all after, placeSymbols lengths longest offsets symbols symbol = .ok all ∧
      Placing lengths longest lengths.length after all := by
  induction left : lengths.length - symbol generalizing offsets symbols symbol with
  | zero =>
    obtain rfl : symbol = lengths.length := by omega
    rw [placeSymbols, if_neg (by omega)]
    exact ⟨symbols, offsets, rfl, placing⟩
  | succ left ih =>
    have inside : symbol < lengths.length := by omega
    have here := List.getElem?_eq_getElem inside
    rw [placeSymbols, if_pos inside, elementAt_inside inside, ok_bind]
    split
    · rename_i coded
      have next := placing.next (lengths[symbol] - 1) (by omega)
      rw [Nat.sub_add_cancel coded.1] at next
      have room := place_lt here coded.1 coded.2
      rw [elementAt_ok next, ok_bind, putAt_ok (by rw [placing.room]; exact room), ok_bind,
        putAt_ok (by rw [placing.count]; omega), ok_bind]
      apply ih
      · omega
      · exact placing.place here coded.1 coded.2
      · omega
    · rename_i uncoded
      apply ih
      · omega
      · exact placing.skip here uncoded
      · omega

theorem huffmanCodeFromLengths_table (lengths : List Nat) (longest : Nat) :
    ∃ table, huffmanCodeFromLengths lengths longest = .ok table ∧
      TableOf lengths longest table := by
  have none : Counted longest [] (filledInts longest 0) := by
    constructor
    · exact List.length_replicate
    · intro index inside
      exact List.getElem?_replicate_of_lt inside
  rcases countLengths_counts longest lengths [] _ none with ⟨counts, ranCounts, counted⟩
  rw [List.nil_append] at counted
  have unset : StartsAt lengths longest 0 (filledInts longest 0) :=
    ⟨List.length_replicate, fun index before => absurd before (Nat.not_lt_zero index)⟩
  rcases offsetsFrom_starts counted _ 0 (Nat.zero_le longest) unset with
    ⟨offsets, ranOffsets, starts⟩
  have start : Placing lengths longest 0 offsets
      (filledInts (shorter lengths (longest + 1)) 0) := by
    constructor
    · exact starts.1
    · intro index inside
      exact starts.2 index inside
    · exact List.length_replicate
    · intro earlier length before
      exact absurd before (Nat.not_lt_zero earlier)
  rcases placeSymbols_places _ _ 0 (Nat.zero_le _) start with
    ⟨symbols, after, ranSymbols, placing⟩
  refine ⟨⟨counts, symbols⟩, ?_, ?_⟩
  · unfold huffmanCodeFromLengths
    rw [ranCounts, ok_bind]
    have first : shorter lengths (0 + 1) = 0 := rfl
    rw [first] at ranOffsets
    rw [ranOffsets, ok_bind]
    simp only [ranSymbols, ok_bind]
    rfl
  · constructor
    · exact counted.1
    · exact counted.2
    · exact placing.room
    · intro symbol length has positive within
      apply placing.placed symbol length _ has positive within
      exact (List.getElem?_eq_some_iff.mp has).1

end Compression

end KiraVm
