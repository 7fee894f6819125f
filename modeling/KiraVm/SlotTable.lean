import Mathlib.Data.List.Nodup

/-!
# Tables of reusable slots

A table keeps its entries in numbered slots and reuses the slot of an entry that
is gone.  Every slot counts its entries: a key names a slot together with the
count, so the key of an entry that is gone never names a later one.  A slot whose
count has reached its last value is not used again.
-/

namespace SlotTable

variable {α : Type}

/-- One slot, with the number of entries that are gone from it. -/
structure Slot (α : Type) where
  generation : Nat
  occupant : Option α
  deriving DecidableEq, Repr

/-- The slots of a table and those ready for reuse, the latest first. -/
structure Table (α : Type) where
  slots : List (Slot α)
  free : List Nat
  deriving DecidableEq, Repr

/-- What names an entry. -/
structure Key where
  index : Nat
  generation : Nat
  deriving DecidableEq, Repr

namespace Table

def empty : Table α where
  slots := []
  free := []

/-- The entry a key names. -/
def find? (table : Table α) (key : Key) : Option α :=
  match table.slots[key.index]? with
  | some slot => if slot.generation = key.generation then slot.occupant else none
  | none => none

/-- A slot for a new entry: the latest free one, or a new one while there are
fewer than `limit`. -/
def claim (limit : Nat) (table : Table α) : Option (Nat × Table α) :=
  match table.free with
  | index :: free => some (index, { table with free := free })
  | [] =>
    if table.slots.length < limit then
      some (table.slots.length, { table with slots := table.slots ++ [⟨0, none⟩] })
    else
      none

/-- Put an entry into a slot. -/
def occupy (table : Table α) (index : Nat) (entry : α) : Table α :=
  match table.slots[index]? with
  | none => table
  | some slot => { table with slots := table.slots.set index ⟨slot.generation, some entry⟩ }

/-- Empty a slot and count the entry that is gone, unless the slot has counted
to `last`. -/
def vacate (last : Nat) (table : Table α) (index : Nat) : Table α :=
  match table.slots[index]? with
  | none => table
  | some slot =>
    if slot.generation < last then
      { slots := table.slots.set index ⟨slot.generation + 1, none⟩
        free := index :: table.free }
    else
      { table with slots := table.slots.set index ⟨slot.generation, none⟩ }

def contents {β : Type} (holds : α → List β) (table : Table α) : List β :=
  table.slots.flatMap fun slot => slot.occupant.elim [] holds

/-! ## Finding entries -/

variable {key : Key} {entry : α} {index : Nat} {slot : Slot α} {old : α} {other : Key}

theorem find?_eq_some_iff {table : Table α} :
    table.find? key = some entry ↔
      table.slots[key.index]? = some ⟨key.generation, some entry⟩ := by
  unfold find?
  cases table.slots[key.index]? with
  | none => simp
  | some slot =>
    rcases slot with ⟨generation, occupant⟩
    by_cases same : generation = key.generation <;> simp [same]

theorem mem_contents {β : Type} {holds : α → List β} {table : Table α} {value : β} :
    value ∈ table.contents holds ↔
      ∃ key entry, table.find? key = some entry ∧ value ∈ holds entry := by
  unfold contents
  rw [List.mem_flatMap]
  constructor
  · rintro ⟨⟨generation, occupant⟩, listed, held⟩
    rcases List.getElem?_of_mem listed with ⟨index, here⟩
    cases occupant with
    | none => cases held
    | some entry => exact ⟨⟨index, generation⟩, entry, find?_eq_some_iff.mpr here, held⟩
  · rintro ⟨key, entry, found, held⟩
    exact ⟨_, List.mem_of_getElem? (find?_eq_some_iff.mp found), held⟩

@[simp]
theorem find?_empty (key : Key) : (empty : Table α).find? key = none :=
  rfl

theorem find?_congr {table other : Table α}
    (same : other.slots[key.index]? = table.slots[key.index]?) :
    other.find? key = table.find? key := by
  unfold find?
  rw [same]

theorem occupy_of_slot {table : Table α} (here : table.slots[index]? = some slot) (entry : α) :
    table.occupy index entry =
      { table with slots := table.slots.set index ⟨slot.generation, some entry⟩ } := by
  simp [occupy, here]

theorem occupy_slots_self {table : Table α} (here : table.slots[index]? = some slot) (entry : α) :
    (table.occupy index entry).slots[index]? = some ⟨slot.generation, some entry⟩ := by
  rw [occupy_of_slot here]
  exact List.getElem?_set_self (List.getElem?_eq_some_iff.mp here).1

theorem occupy_slots_ne {table : Table α} {other : Nat} (differs : index ≠ other) :
    (table.occupy index entry).slots[other]? = table.slots[other]? := by
  unfold occupy
  split
  · rfl
  · simp [differs]

@[simp]
theorem occupy_free (table : Table α) (index : Nat) (entry : α) :
    (table.occupy index entry).free = table.free := by
  unfold occupy
  split <;> rfl

@[simp]
theorem occupy_length (table : Table α) (index : Nat) (entry : α) :
    (table.occupy index entry).slots.length = table.slots.length := by
  unfold occupy
  split <;> simp

theorem find?_occupy_self {table : Table α} (entry : α) (found : table.find? key = some old) :
    (table.occupy key.index entry).find? key = some entry := by
  rw [find?_eq_some_iff] at found ⊢
  exact occupy_slots_self found entry

theorem find?_occupy_ne {table : Table α} (found : table.find? key = some old)
    (differs : other ≠ key) : (table.occupy key.index entry).find? other = table.find? other := by
  rw [find?_eq_some_iff] at found
  by_cases same : key.index = other.index
  · have stale : key.generation ≠ other.generation := by
      intro equal
      apply differs
      cases key
      cases other
      simp_all
    rw [same] at found ⊢
    simp [find?, occupy_slots_self found, found, stale]
  · exact find?_congr (occupy_slots_ne same)

theorem vacate_slots_ne {last other : Nat} {table : Table α} (differs : index ≠ other) :
    (table.vacate last index).slots[other]? = table.slots[other]? := by
  unfold vacate
  split
  · rfl
  · split <;> simp [differs]

theorem vacate_slots_self {last : Nat} {table : Table α} (here : table.slots[index]? = some slot) :
    (table.vacate last index).slots[index]? =
      some ⟨if slot.generation < last then slot.generation + 1 else slot.generation, none⟩ := by
  have within := (List.getElem?_eq_some_iff.mp here).1
  unfold vacate
  rw [here]
  by_cases counted : slot.generation < last
  · simp only [counted, if_true]
    exact List.getElem?_set_self within
  · simp only [counted, if_false]
    exact List.getElem?_set_self within

theorem find?_eq_none_of_vacant {table : Table α} {generation : Nat}
    (here : table.slots[key.index]? = some ⟨generation, none⟩) : table.find? key = none := by
  simp [find?, here]

theorem find?_vacate_self {last : Nat} {table : Table α} (found : table.find? key = some old) :
    (table.vacate last key.index).find? key = none := by
  rw [find?_eq_some_iff] at found
  exact find?_eq_none_of_vacant (vacate_slots_self found)

/-- Emptying the slot of one key changes no other key's entry. -/
theorem find?_vacate_ne {last : Nat} {table : Table α} (found : table.find? key = some old)
    (differs : other ≠ key) : (table.vacate last key.index).find? other = table.find? other := by
  rw [find?_eq_some_iff] at found
  by_cases same : key.index = other.index
  · have stale : key.generation ≠ other.generation := by
      intro equal
      apply differs
      cases key
      cases other
      simp_all
    rw [same] at found ⊢
    rw [find?_eq_none_of_vacant (vacate_slots_self found)]
    simp [find?, found, stale]
  · exact find?_congr (vacate_slots_ne same)

/-! ## The invariant -/

/-- Free slots are empty and listed once, no count is past `last`, and there are
at most `limit` slots. -/
structure Sound (last limit : Nat) (table : Table α) : Prop where
  free_nodup : table.free.Nodup
  free_empty : ∀ index ∈ table.free, ∃ generation, table.slots[index]? = some ⟨generation, none⟩
  counted : ∀ (index : Nat) (slot : Slot α), table.slots[index]? = some slot →
    slot.generation ≤ last
  bounded : table.slots.length ≤ limit

/-- The key has been given to an entry. -/
def Issued (table : Table α) (key : Key) : Prop :=
  ∃ slot, table.slots[key.index]? = some slot ∧
    (key.generation < slot.generation ∨
      key.generation = slot.generation ∧ key.index ∉ table.free)

variable {last limit : Nat} {table : Table α}

theorem sound_empty : (empty : Table α).Sound last limit where
  free_nodup := List.nodup_nil
  free_empty := by simp [empty]
  counted := by simp [empty]
  bounded := by simp [empty]

theorem not_issued_empty (key : Key) : ¬ (empty : Table α).Issued key := by
  simp [Issued, empty]

theorem Sound.issued_of_find? (sound : table.Sound last limit)
    (found : table.find? key = some entry) : table.Issued key := by
  rw [find?_eq_some_iff] at found
  refine ⟨_, found, Or.inr ⟨rfl, ?_⟩⟩
  intro listed
  rcases sound.free_empty key.index listed with ⟨generation, vacant⟩
  rw [found] at vacant
  cases vacant

theorem Sound.inRange (sound : table.Sound last limit) (found : table.find? key = some entry) :
    key.index < limit ∧ key.generation ≤ last := by
  rw [find?_eq_some_iff] at found
  have within := (List.getElem?_eq_some_iff.mp found).1
  have bound := sound.bounded
  exact ⟨by omega, sound.counted key.index _ found⟩

/-- An entry keeps its slot's count, and the free slots do not change. -/
theorem Sound.occupy (sound : table.Sound last limit) (found : table.find? key = some old) :
    (table.occupy key.index entry).Sound last limit := by
  rw [find?_eq_some_iff] at found
  refine ⟨by simpa using sound.free_nodup, ?_, ?_, by simpa using sound.bounded⟩
  · intro index listed
    rw [occupy_free] at listed
    rcases sound.free_empty index listed with ⟨generation, vacant⟩
    have differs : key.index ≠ index := by
      intro same
      rw [← same, found] at vacant
      cases vacant
    exact ⟨generation, by rw [occupy_slots_ne differs, vacant]⟩
  · intro index slot here
    by_cases same : key.index = index
    · subst same
      rw [occupy_slots_self found] at here
      cases here
      have bound := sound.counted key.index _ found
      exact bound
    · rw [occupy_slots_ne same] at here
      exact sound.counted index slot here

theorem issued_occupy_iff : (table.occupy index entry).Issued key ↔ table.Issued key := by
  unfold Issued
  rw [occupy_free]
  by_cases same : index = key.index
  · subst same
    cases here : table.slots[key.index]? with
    | none => simp [occupy, here]
    | some slot => simp [occupy_slots_self here]
  · rw [occupy_slots_ne same]

/-! ## Entries that go -/

theorem vacate_length (table : Table α) (last index : Nat) :
    (table.vacate last index).slots.length = table.slots.length := by
  unfold vacate
  split
  · rfl
  · split <;> simp

theorem vacate_free (here : table.slots[index]? = some slot) :
    (table.vacate last index).free =
      if slot.generation < last then index :: table.free else table.free := by
  unfold vacate
  rw [here]
  dsimp only
  split <;> rfl

theorem Sound.vacate (sound : table.Sound last limit) (found : table.find? key = some old) :
    (table.vacate last key.index).Sound last limit := by
  rw [find?_eq_some_iff] at found
  have held : key.index ∉ table.free := by
    intro listed
    rcases sound.free_empty key.index listed with ⟨generation, vacant⟩
    rw [found] at vacant
    cases vacant
  refine ⟨?_, ?_, ?_, by rw [vacate_length]; exact sound.bounded⟩
  · rw [vacate_free found]
    split
    · exact List.nodup_cons.mpr ⟨held, sound.free_nodup⟩
    · exact sound.free_nodup
  · intro index listed
    by_cases same : key.index = index
    · subst same
      exact ⟨_, vacate_slots_self found⟩
    · have before : index ∈ table.free := by
        rw [vacate_free found] at listed
        split at listed
        · rcases List.mem_cons.mp listed with equal | listed
          · exact absurd equal.symm same
          · exact listed
        · exact listed
      rcases sound.free_empty index before with ⟨generation, vacant⟩
      exact ⟨generation, by rw [vacate_slots_ne same, vacant]⟩
  · intro index slot here
    by_cases same : key.index = index
    · subst same
      rw [vacate_slots_self found] at here
      cases here
      have bound := sound.counted key.index _ found
      dsimp only at bound ⊢
      split <;> omega
    · rw [vacate_slots_ne same] at here
      exact sound.counted index slot here

theorem issued_vacate_iff (sound : table.Sound last limit) (found : table.find? key = some old) :
    (table.vacate last key.index).Issued other ↔ table.Issued other := by
  have held := sound.issued_of_find? found
  rw [find?_eq_some_iff] at found
  unfold Issued at held ⊢
  rw [vacate_free found]
  by_cases same : key.index = other.index
  · rw [same] at found held ⊢
    rw [vacate_slots_self found, found]
    rw [found] at held
    simp only [Option.some.injEq, exists_eq_left'] at held ⊢
    have unlisted : other.index ∉ table.free := by
      rcases held with earlier | ⟨-, unlisted⟩
      · omega
      · exact unlisted
    split
    · simp only [List.mem_cons, not_true_eq_false, and_false, or_false, unlisted,
        not_false_eq_true, and_true]
      omega
    · rfl
  · rw [vacate_slots_ne same]
    split
    · simp [Ne.symm same]
    · rfl

/-! ## One entry at a time -/

theorem contents_set {β : Type} {holds : α → List β} {slots : List (Slot α)} {index : Nat}
    {old : Slot α} (here : slots[index]? = some old) :
    ∃ rest, (slots.flatMap fun slot => slot.occupant.elim [] holds).Perm
        (old.occupant.elim [] holds ++ rest) ∧
      ∀ new : Slot α, ((slots.set index new).flatMap fun slot => slot.occupant.elim [] holds).Perm
        (new.occupant.elim [] holds ++ rest) := by
  induction slots generalizing index with
  | nil => simp at here
  | cons slot slots ih =>
    cases index with
    | zero =>
      simp only [List.getElem?_cons_zero, Option.some.injEq] at here
      subst here
      refine ⟨slots.flatMap fun slot => slot.occupant.elim [] holds, by simp, ?_⟩
      intro new
      simp
    | succ index =>
      rw [List.getElem?_cons_succ] at here
      rcases ih here with ⟨rest, before, after⟩
      refine ⟨slot.occupant.elim [] holds ++ rest, ?_, ?_⟩
      · rw [List.flatMap_cons]
        exact (before.append_left _).trans (List.perm_append_comm_assoc _ _ _)
      · intro new
        rw [List.set_cons_succ, List.flatMap_cons]
        exact ((after new).append_left _).trans (List.perm_append_comm_assoc _ _ _)

/-- The table changes in the entry of one key only. -/
structure Updates (last limit : Nat) (table : Table α) (key : Key) (entry : Option α)
    (after : Table α) : Prop where
  sound : after.Sound last limit
  found : after.find? key = entry
  others : ∀ other, other ≠ key → after.find? other = table.find? other
  issues : ∀ other, after.Issued other ↔ other = key ∨ table.Issued other
  rest : ∀ {β : Type} (holds : α → List β), ∃ rest,
    (table.contents holds).Perm ((table.find? key).elim [] holds ++ rest) ∧
      (after.contents holds).Perm (entry.elim [] holds ++ rest)

theorem Sound.updates_occupy (sound : table.Sound last limit) (entry : α)
    (found : table.find? key = some old) :
    Updates last limit table key (some entry) (table.occupy key.index entry) where
  sound := sound.occupy found
  found := find?_occupy_self entry found
  others := fun _ differs => find?_occupy_ne found differs
  issues := fun other => by
    rw [issued_occupy_iff]
    have held := sound.issued_of_find? found
    constructor
    · exact Or.inr
    · rintro (rfl | issued)
      · exact held
      · exact issued
  rest := by
    intro β holds
    have here := find?_eq_some_iff.mp found
    rcases @contents_set α β holds _ _ _ here with ⟨rest, before, after⟩
    refine ⟨rest, by rw [found]; exact before, ?_⟩
    rw [occupy_of_slot here]
    exact after _

/-- An entry that is left as it is. -/
theorem Sound.updates_refl (sound : table.Sound last limit) (found : table.find? key = some old) :
    Updates last limit table key (some old) table where
  sound := sound
  found := found
  others := fun _ _ => rfl
  issues := fun other => by
    have held := sound.issued_of_find? found
    constructor
    · exact Or.inr
    · rintro (rfl | issued)
      · exact held
      · exact issued
  rest := by
    intro β holds
    have here := find?_eq_some_iff.mp found
    rcases @contents_set α β holds _ _ _ here with ⟨rest, before, -⟩
    rw [found]
    exact ⟨rest, before, before⟩

theorem vacate_slots {slot : Slot α} {index : Nat} (here : table.slots[index]? = some slot) :
    ∃ generation, (table.vacate last index).slots = table.slots.set index ⟨generation, none⟩ := by
  unfold vacate
  rw [here]
  dsimp only
  split
  · exact ⟨_, rfl⟩
  · exact ⟨_, rfl⟩

theorem Sound.updates_vacate (sound : table.Sound last limit) (found : table.find? key = some old) :
    Updates last limit table key none (table.vacate last key.index) where
  sound := sound.vacate found
  found := find?_vacate_self found
  others := fun _ differs => find?_vacate_ne found differs
  issues := fun other => by
    rw [issued_vacate_iff sound found]
    have held := sound.issued_of_find? found
    constructor
    · exact Or.inr
    · rintro (rfl | issued)
      · exact held
      · exact issued
  rest := by
    intro β holds
    have here := find?_eq_some_iff.mp found
    rcases @contents_set α β holds _ _ _ here with ⟨rest, before, after⟩
    rcases @vacate_slots α last table _ _ here with ⟨generation, same⟩
    refine ⟨rest, by rw [found]; exact before, ?_⟩
    unfold contents
    rw [same]
    exact after _

theorem Updates.trans {first second : Option α} {middle after : Table α}
    (before : Updates last limit table key first middle)
    (later : Updates last limit middle key second after) :
    Updates last limit table key second after where
  sound := later.sound
  found := later.found
  others := fun other differs => (later.others other differs).trans (before.others other differs)
  issues := fun other => by
    rw [later.issues, before.issues]
    simp
  rest := by
    intro β holds
    rcases before.rest holds with ⟨earlierRest, split, unchanged⟩
    rcases later.rest holds with ⟨laterRest, changed, joined⟩
    rw [before.found] at changed
    have same : laterRest.Perm earlierRest :=
      (List.perm_append_left_iff _).mp (changed.symm.trans unchanged)
    exact ⟨earlierRest, split, joined.trans (same.append_left _)⟩

/-! ## New entries -/

def insert (limit : Nat) (table : Table α) (entry : α) : Option (Key × Table α) :=
  (table.claim limit).bind fun (index, claimed) =>
    claimed.slots[index]?.map fun slot =>
      (⟨index, slot.generation⟩, claimed.occupy index entry)

theorem Sound.insert_cases (sound : table.Sound last limit) (entry : α) :
    (table.insert limit entry = none ∧ table.free = [] ∧ limit ≤ table.slots.length) ∨
    (∃ index free generation, table.free = index :: free ∧
      table.slots[index]? = some ⟨generation, none⟩ ∧
      table.insert limit entry = some (⟨index, generation⟩,
        { slots := table.slots.set index ⟨generation, some entry⟩, free := free })) ∨
    (table.free = [] ∧ table.slots.length < limit ∧
      table.insert limit entry = some (⟨table.slots.length, 0⟩,
        { slots := table.slots ++ [⟨0, some entry⟩], free := [] })) := by
  unfold insert claim
  cases listed : table.free with
  | nil =>
    by_cases room : table.slots.length < limit
    · right; right
      refine ⟨rfl, room, ?_⟩
      simp [room, Table.occupy]
    · left
      simp [room]
      omega
  | cons index free =>
    right; left
    rcases sound.free_empty index (by simp [listed]) with ⟨generation, vacant⟩
    refine ⟨index, free, generation, rfl, vacant, ?_⟩
    simp [vacant, Table.occupy]

/-- What a new entry does to a table. -/
structure Inserts (last limit : Nat) (table : Table α) (entry : α) (key : Key)
    (after : Table α) : Prop extends Updates last limit table key (some entry) after where
  fresh : ¬ table.Issued key
  index_lt : key.index < limit
  generation_le : key.generation ≤ last

theorem Sound.reuse (sound : table.Sound last limit) {generation : Nat} {free : List Nat}
    (listed : table.free = index :: free)
    (vacant : table.slots[index]? = some ⟨generation, none⟩) (entry : α) :
    Inserts last limit table entry ⟨index, generation⟩
      { slots := table.slots.set index ⟨generation, some entry⟩, free := free } := by
  have within := (List.getElem?_eq_some_iff.mp vacant).1
  have unlisted : index ∉ free := by
    have nodup := sound.free_nodup
    rw [listed] at nodup
    exact (List.nodup_cons.mp nodup).1
  have here : (table.slots.set index ⟨generation, some entry⟩)[index]? =
      some ⟨generation, some entry⟩ := List.getElem?_set_self within
  have elsewhere : ∀ other, index ≠ other →
      (table.slots.set index ⟨generation, some entry⟩)[other]? = table.slots[other]? :=
    fun other differs => List.getElem?_set_ne differs
  refine
    { sound := ?sound, found := ?found, others := ?others, issues := ?issues, rest := ?rest, fresh := ?fresh,
      index_lt := ?index_lt, generation_le := ?generation_le }
  case sound =>
    refine ⟨?_, ?_, ?_, by simpa using sound.bounded⟩
    · have nodup := sound.free_nodup
      rw [listed] at nodup
      exact (List.nodup_cons.mp nodup).2
    · intro other otherListed
      have differs : index ≠ other := by
        intro same
        rw [← same] at otherListed
        exact unlisted otherListed
      rcases sound.free_empty other (by simp [listed, otherListed]) with ⟨count, otherVacant⟩
      exact ⟨count, by rw [elsewhere other differs, otherVacant]⟩
    · intro other slot otherHere
      by_cases same : index = other
      · subst same
        rw [here] at otherHere
        cases otherHere
        have bound := sound.counted index _ vacant
        exact bound
      · rw [elsewhere other same] at otherHere
        exact sound.counted other slot otherHere
  case fresh =>
    rintro ⟨slot, slotHere, used⟩
    rw [vacant] at slotHere
    cases slotHere
    simp [listed] at used
  case found =>
    rw [find?_eq_some_iff]
    exact here
  case others =>
    intro other differs
    by_cases same : index = other.index
    · have stale : generation ≠ other.generation := by
        intro equal
        apply differs
        cases other
        simp_all
      have vacantOther : table.slots[other.index]? = some ⟨generation, none⟩ := by
        rw [← same, vacant]
      rw [find?_eq_none_of_vacant vacantOther]
      simp only [find?]
      rw [← same, here]
      simp [stale]
    · exact find?_congr (elsewhere other.index same)
  case issues =>
    intro other
    unfold Issued
    by_cases same : index = other.index
    · rw [← same, here, vacant]
      simp only [Option.some.injEq, exists_eq_left', listed, List.mem_cons,
        not_true_eq_false, and_false, or_false, unlisted, not_false_eq_true, and_true]
      constructor
      · rintro (earlier | current)
        · exact Or.inr earlier
        · left
          cases other
          simp_all
      · rintro (rfl | earlier)
        · exact Or.inr rfl
        · exact Or.inl earlier
    · have differs : other ≠ ⟨index, generation⟩ := by
        rintro rfl
        exact same rfl
      rw [elsewhere other.index same]
      simp [differs, listed, Ne.symm same]
  case rest =>
    intro β holds
    rcases @contents_set α β holds _ _ _ vacant with ⟨rest, before, after⟩
    refine ⟨rest, ?_, after _⟩
    have absent : table.find? ⟨index, generation⟩ = none := find?_eq_none_of_vacant vacant
    rw [absent]
    exact before
  case index_lt =>
    have bound := sound.bounded
    change index < limit
    omega
  case generation_le => exact sound.counted index _ vacant

theorem Sound.grow (sound : table.Sound last limit) (full : table.free = [])
    (room : table.slots.length < limit) (entry : α) :
    Inserts last limit table entry ⟨table.slots.length, 0⟩
      { slots := table.slots ++ [⟨0, some entry⟩], free := [] } := by
  have here : (table.slots ++ [⟨0, some entry⟩])[table.slots.length]? =
      some ⟨0, some entry⟩ := by simp
  have elsewhere : ∀ (other : Nat) (slot : Slot α), table.slots[other]? = some slot →
      (table.slots ++ [⟨0, some entry⟩])[other]? = some slot := by
    intro other slot slotHere
    rw [List.getElem?_append_left (List.getElem?_eq_some_iff.mp slotHere).1]
    exact slotHere
  refine
    { sound := ?sound, found := ?found, others := ?others, issues := ?issues, rest := ?rest, fresh := ?fresh,
      index_lt := ?index_lt, generation_le := ?generation_le }
  case sound =>
    refine ⟨List.nodup_nil, by simp, ?_, by simp; omega⟩
    intro other slot slotHere
    rw [List.getElem?_append] at slotHere
    split at slotHere
    · exact sound.counted other slot slotHere
    · rw [List.getElem?_singleton] at slotHere
      split at slotHere
      · cases slotHere
        exact Nat.zero_le _
      · cases slotHere
  case fresh =>
    rintro ⟨slot, slotHere, -⟩
    simp at slotHere
  case found =>
    rw [find?_eq_some_iff]
    exact here
  case others =>
    intro other differs
    by_cases within : other.index < table.slots.length
    · exact find?_congr (List.getElem?_append_left within)
    · have absent : table.find? other = none := by
        simp [find?, List.getElem?_eq_none (Nat.le_of_not_lt within)]
      rw [absent]
      by_cases same : other.index = table.slots.length
      · have stale : other.generation ≠ 0 := by
          intro equal
          apply differs
          cases other
          simp_all
        simp only [find?, same, here]
        simp [Ne.symm stale]
      · simp only [find?]
        rw [List.getElem?_eq_none (by simp; omega)]
  case issues =>
    intro other
    unfold Issued
    by_cases within : other.index < table.slots.length
    · have differs : other ≠ ⟨table.slots.length, 0⟩ := by
        rintro rfl
        exact Nat.lt_irrefl _ within
      rw [List.getElem?_append_left within]
      simp [differs, full]
    · have absent : table.slots[other.index]? = none :=
        List.getElem?_eq_none (Nat.le_of_not_lt within)
      rw [absent]
      by_cases same : other.index = table.slots.length
      · rw [same, here]
        simp only [Option.some.injEq, exists_eq_left', Nat.not_lt_zero, false_or,
          List.not_mem_nil, not_false_eq_true, and_true, reduceCtorEq, false_and, exists_false,
          or_false]
        constructor
        · intro current
          cases other
          simp_all
        · rintro rfl
          rfl
      · have beyond : (table.slots ++ [⟨0, some entry⟩])[other.index]? = none :=
          List.getElem?_eq_none (by simp; omega)
        rw [beyond]
        simp only [reduceCtorEq, false_and, exists_false, or_false, false_iff]
        rintro rfl
        exact same rfl
  case rest =>
    intro β holds
    refine ⟨table.contents holds, ?_, ?_⟩
    · have absent : table.find? ⟨table.slots.length, 0⟩ = none := by simp [find?]
      rw [absent]
      exact List.Perm.refl _
    · simp only [contents, List.flatMap_append]
      exact List.perm_append_comm.trans (by simp)
  case index_lt => exact room
  case generation_le => exact Nat.zero_le _

theorem Sound.insert_spec (sound : table.Sound last limit) (entry : α) :
    table.insert limit entry = none ∨
      ∃ key after, table.insert limit entry = some (key, after) ∧
        Inserts last limit table entry key after := by
  rcases sound.insert_cases entry with ⟨refused, -, -⟩ |
    ⟨index, free, generation, listed, vacant, inserted⟩ | ⟨full, room, inserted⟩
  · exact Or.inl refused
  · exact Or.inr ⟨_, _, inserted, sound.reuse listed vacant entry⟩
  · exact Or.inr ⟨_, _, inserted, sound.grow full room entry⟩

end Table

end SlotTable
