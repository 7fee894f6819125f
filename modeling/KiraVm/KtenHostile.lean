import KiraVm.KtenGrammar

/-!
# Hostile Kten documents

What each reader does from any bytes: it takes what is spelled, fails, or stops the
program on hostile bytes.  In each case its work is bounded by the bytes that are
left.
-/

namespace KiraVm

namespace Foundation

open StateLogic

/-! ## The fate of a read -/

/-- What stops the reader: a conversion, an operator, or a stack without a frame. -/
def IsDeclaredTrap (trap : KiraTrap) : Prop :=
  trap = .integerRange ∨ trap = .integerOverflow ∨ trap = .callDepth

/-- A read from bytes: some are taken, the reader fails, or the program stops. -/
def Fate {α : Type} (operation : OnReader α) (spells : α → List UInt8 → Prop)
    (hostile : List UInt8 → Prop) (spare fee : Nat) (reader : KtenReader) (bytes : List UInt8) :
    Prop :=
  (∃ value consumed rest work, bytes = consumed ++ rest ∧ spells value consumed ∧
      operation reader = .ok value { reader with cursor := reader.cursor + consumed.length, work := work } ∧
      work + spare ≤ reader.work + 2 * consumed.length) ∨
    (∃ value after, operation reader = .ok value after ∧ Stopped after ∧
      after.bytes = reader.bytes ∧ after.work ≤ reader.work + 2 * bytes.length + fee) ∨
    ∃ trap after, operation reader = .error trap after ∧ hostile bytes ∧ IsDeclaredTrap trap ∧
      after.work ≤ reader.work + 2 * bytes.length + fee

/-- The fate of every read. -/
def Reads {α : Type} (operation : OnReader α) (spells : α → List UInt8 → Prop)
    (hostile : List UInt8 → Prop) (spare fee : Nat) : Prop :=
  ∀ reader bytes, Stands reader bytes → Fate operation spells hostile spare fee reader bytes

/-- A reader that has failed goes on to fail. -/
def Idles {α : Type} (operation : OnReader α) (idle : Nat) : Prop :=
  ∀ reader, Stopped reader → ∃ value after, operation reader = .ok value after ∧
    Stopped after ∧ after.bytes = reader.bytes ∧ after.work ≤ reader.work + idle

section Rules

variable {α β : Type} {operation : OnReader α} {next : α → OnReader β}
  {spells : α → List UInt8 → Prop} {hostile : List UInt8 → Prop}
  {spellsNext : α → β → List UInt8 → Prop} {hostileNext : α → List UInt8 → Prop}
  {spare fee idle spareNext feeNext idleNext : Nat}

theorem Idles.pure (value : α) : Idles (Pure.pure value) 0 :=
  fun reader stopped => ⟨value, reader, rfl, stopped, rfl, Nat.le_refl _⟩

theorem Idles.bind (first : Idles operation idle) (second : ∀ value, Idles (next value) idleNext) :
    Idles (operation >>= next) (idle + idleNext) := by
  intro reader ended
  rcases first reader ended with ⟨value, after, ran, endedFirst, same, spent⟩
  rcases second value after endedFirst with
    ⟨answer, later, ranRest, endedRest, sameRest, spentRest⟩
  refine ⟨answer, later, ?_, endedRest, sameRest.trans same, by omega⟩
  rw [bind_run_ok ran, ranRest]

theorem Reads.pure (value : α) :
    Reads (Pure.pure value) (fun answer consumed => answer = value ∧ consumed = [])
      (fun _ => False) 0 0 :=
  fun reader bytes _ =>
    Or.inl ⟨value, [], bytes, reader.work, rfl, ⟨rfl, rfl⟩, rfl, Nat.le_refl _⟩

theorem Reads.bind (first : Reads operation spells hostile spare fee)
    (second : ∀ value, Reads (next value) (spellsNext value) (hostileNext value)
      spareNext feeNext) (stopped : ∀ value, Idles (next value) idleNext)
    (total : Nat) (onFail : fee + idleNext ≤ total) (onPass : feeNext ≤ total + spare) :
    Reads (operation >>= next)
      (fun answer bytes => ∃ value consumed rest, bytes = consumed ++ rest ∧
        spells value consumed ∧ spellsNext value answer rest)
      (fun bytes => hostile bytes ∨ ∃ value consumed rest, bytes = consumed ++ rest ∧
        spells value consumed ∧ hostileNext value rest)
      (spare + spareNext) total := by
  intro reader bytes stands
  rcases first reader bytes stands with
    ⟨value, consumed, rest, work, rfl, spelled, ran, spent⟩ | ⟨value, after, ran, ended, same, spent⟩ |
    ⟨trap, after, ran, refused, declared, spent⟩
  · have onward := stands.advance work
    rcases second value _ rest onward with
      ⟨answer, taken, later, workLater, rfl, spelledRest, ranRest, spentRest⟩ |
      ⟨answer, after, ranRest, ended, same, spentRest⟩ |
      ⟨trap, after, ranRest, refused, declared, spentRest⟩
    · refine Or.inl ⟨answer, consumed ++ taken, later, workLater, by rw [List.append_assoc],
        ⟨value, consumed, taken, rfl, spelled, spelledRest⟩, ?_, ?_⟩
      · rw [bind_run_ok ran, ranRest]
        simp [Nat.add_assoc]
      · rw [List.length_append]
        simp only at spentRest
        omega
    · refine Or.inr (Or.inl ⟨answer, after, ?_, ended, same, ?_⟩)
      · rw [bind_run_ok ran, ranRest]
      · rw [List.length_append]
        simp only at spentRest
        omega
    · refine Or.inr (Or.inr ⟨trap, after, ?_,
        Or.inr ⟨value, consumed, rest, rfl, spelled, refused⟩, declared, ?_⟩)
      · rw [bind_run_ok ran, ranRest]
      · rw [List.length_append]
        simp only at spentRest
        omega
  · rcases stopped value after ended with
      ⟨answer, later, ranRest, endedRest, sameRest, spentRest⟩
    refine Or.inr (Or.inl ⟨answer, later, ?_, endedRest, sameRest.trans same, ?_⟩)
    · rw [bind_run_ok ran, ranRest]
    · omega
  · exact Or.inr (Or.inr ⟨trap, after, bind_run_error ran, Or.inl refused, declared, by omega⟩)

theorem Reads.relax {spells' : α → List UInt8 → Prop} {hostile' : List UInt8 → Prop}
    {spare' fee' : Nat} (reads : Reads operation spells hostile spare fee)
    (spelled : ∀ value bytes, spells value bytes → spells' value bytes)
    (refused : ∀ bytes, hostile bytes → hostile' bytes) (less : spare' ≤ spare)
    (more : fee ≤ fee') : Reads operation spells' hostile' spare' fee' := by
  intro reader bytes stands
  rcases reads reader bytes stands with
    ⟨value, consumed, rest, work, whole, was, ran, spent⟩ |
    ⟨value, after, ran, ended, same, spent⟩ | ⟨trap, after, ran, was, declared, spent⟩
  · exact Or.inl ⟨value, consumed, rest, work, whole, spelled value consumed was, ran, by omega⟩
  · exact Or.inr (Or.inl ⟨value, after, ran, ended, same, by omega⟩)
  · exact Or.inr (Or.inr ⟨trap, after, ran, refused bytes was, declared, by omega⟩)

theorem Reads.imp {spells' : α → List UInt8 → Prop} {hostile' : List UInt8 → Prop}
    (reads : Reads operation spells hostile spare fee)
    (spelled : ∀ value bytes, spells value bytes → spells' value bytes)
    (refused : ∀ bytes, hostile bytes → hostile' bytes) :
    Reads operation spells' hostile' spare fee :=
  reads.relax spelled refused (Nat.le_refl spare) (Nat.le_refl fee)

theorem Reads.weaken (reads : Reads operation spells hostile spare fee)
    {spare' fee' : Nat} (less : spare' ≤ spare) (more : fee ≤ fee') :
    Reads operation spells hostile spare' fee' :=
  reads.relax (fun _ _ spelled => spelled) (fun _ refused => refused) less more

/-- A read whose result is only wrapped. -/
theorem Reads.map {spells' : β → List UInt8 → Prop} {hostile' : List UInt8 → Prop}
    (reads : Reads operation spells hostile spare fee) (wrap : α → β)
    (spelled : ∀ value bytes, spells value bytes → spells' (wrap value) bytes)
    (refused : ∀ bytes, hostile bytes → hostile' bytes) :
    Reads (operation >>= fun value => Pure.pure (wrap value)) spells' hostile' spare fee := by
  apply (reads.bind (fun value => Reads.pure (wrap value)) (fun value => Idles.pure (wrap value))
    fee (Nat.le_refl fee) (Nat.zero_le _)).imp
  · rintro answer bytes ⟨value, consumed, rest, rfl, was, rfl, rfl⟩
    rw [List.append_nil]
    exact spelled value consumed was
  · rintro bytes (was | ⟨value, consumed, rest, rfl, -, impossible⟩)
    · exact refused bytes was
    · exact impossible.elim

end Rules

variable {frames : Nat}

/-! ## Bytes and words -/

variable {reader : KtenReader} {bytes : List UInt8}

theorem takeByte_ended (ended : reader.bytes.length ≤ reader.cursor) :
    takeByte (frames + 2) reader = .ok 0 reader.worked.failedNow := by
  have endedWorked : reader.worked.bytes.length ≤ reader.worked.cursor := ended
  rw [takeByte, bind_run_ok (countWork_run reader), bind_run_ok (get_run reader.worked),
    if_pos endedWorked]
  rfl

theorem Stopped.ended (stopped : Stopped reader) : reader.bytes.length ≤ reader.cursor :=
  Nat.le_of_eq stopped.2.symm

theorem reads_byte :
    Reads (takeByte (frames + 1)) (fun byte consumed => consumed = [byte])
      (fun bytes => frames = 0 ∧ bytes = []) 1 1 := by
  intro reader bytes stands
  cases bytes with
  | nil =>
    rcases frames with _ | frames
    · rcases takeByte_stuck (Nat.le_refl 1) reader stands with ⟨after, ran, spent⟩
      exact Or.inr (Or.inr ⟨_, after, ran, ⟨rfl, rfl⟩, Or.inr (Or.inr rfl), spent⟩)
    · exact Or.inr (Or.inl ⟨0, reader.worked.failedNow, takeByte_ended stands.ended,
        ⟨rfl, rfl⟩, rfl, Nat.le_refl _⟩)
  | cons byte bytes =>
    exact Or.inl ⟨byte, [byte], bytes, reader.work + 1, rfl, rfl, takeByte_run stands,
      Nat.le_refl _⟩

theorem takeVarUIntFrom_ended (result : UInt64) {shift : Nat} (inRange : shift < 64)
    (ended : reader.bytes.length ≤ reader.cursor) :
    takeVarUIntFrom (frames + 2) result shift reader = .ok 0 reader.worked.failedNow := by
  unfold takeVarUIntFrom
  rw [if_neg (by omega), bind_run_ok (takeByte_ended ended), bind_run_ok (get_run _)]
  rfl

/-- The loop takes a varint, fails with nothing, or has no frame to fail in. -/
theorem takeVarUIntFrom_fate (room : Nat) (result : UInt64) (shift : Nat)
    (turns : shift + 7 * room = 70) (reader : KtenReader) (bytes : List UInt8)
    (stands : Stands reader bytes) :
    (∃ groups rest word, bytes = groups ++ rest ∧ Varint room groups ∧
        takeVarUIntFrom (frames + 1) result shift reader = .ok word
          { reader with
            cursor := reader.cursor + groups.length, work := reader.work + groups.length }) ∨
      (∃ after, takeVarUIntFrom (frames + 1) result shift reader = .ok 0 after ∧ Stopped after ∧
        after.bytes = reader.bytes ∧ after.work ≤ reader.work + bytes.length + 1) ∨
      (frames = 0 ∧ EndsWithin room bytes) := by
  induction room generalizing result shift reader bytes with
  | zero =>
    refine Or.inr (Or.inl ⟨reader.failedNow, ?_, ⟨rfl, rfl⟩, rfl, ?_⟩)
    · unfold takeVarUIntFrom
      rw [if_pos (by omega)]
      rfl
    · exact Nat.le_trans (Nat.le_add_right _ _) (Nat.le_add_right _ _)
  | succ room ih =>
    have inRange : shift < 64 := by
      omega
    cases bytes with
    | nil =>
      rcases frames with _ | frames
      · exact Or.inr (Or.inr ⟨rfl, Nat.succ_pos _, fun _ among => absurd among List.not_mem_nil⟩)
      · exact Or.inr (Or.inl ⟨_, takeVarUIntFrom_ended result inRange stands.ended, ⟨rfl, rfl⟩,
          rfl, Nat.le_refl _⟩)
    | cons byte bytes =>
      rw [takeVarUIntFrom_run inRange stands]
      by_cases goesOn : byte &&& 128 ≠ 0
      · rw [if_pos goesOn]
        have more := (and128_iff byte).mp goesOn
        rcases ih _ (shift + 7) (by omega) _ bytes stands.step with
          ⟨groups, rest, word, rfl, varint, ran⟩ | ⟨after, ran, stopped, same, spent⟩ |
          ⟨few, ends⟩
        · refine Or.inl ⟨byte :: groups, rest, word, rfl, Varint.more more varint, ?_⟩
          rw [ran]
          simp only [KtenReader.moved, KtenReader.worked, List.length_cons]
          rw [Nat.add_assoc, Nat.add_assoc, Nat.add_comm 1]
        · refine Or.inr (Or.inl ⟨after, ran, stopped, same, ?_⟩)
          simp only [KtenReader.moved, KtenReader.worked] at spent
          rw [List.length_cons]
          omega
        · exact Or.inr (Or.inr ⟨few, Nat.succ_lt_succ ends.1,
            List.forall_mem_cons.mpr ⟨more, ends.2⟩⟩)
      · rw [if_neg goesOn]
        have last : byte.toNat < 128 := Nat.not_le.mp (mt (and128_iff byte).mpr goesOn)
        exact Or.inl ⟨[byte], bytes, _, rfl, Varint.last last, rfl⟩

/-- The length or the count that bytes declare. -/
def takeDeclared (frames : Nat) : OnReader Int := do
  let declared ← takeVarUInt frames
  orTrap (intOfU64 declared)

/-- What stops a reader of a length or a count. -/
def Balks (frames : Nat) (bytes : List UInt8) : Prop :=
  Oversized bytes ∨ frames ≤ 2 ∧ EndsWithin 10 bytes

theorem takeVarUInt_stopped (stopped : Stopped reader) :
    takeVarUInt (frames + 3) reader = .ok 0 reader.worked.failedNow :=
  takeVarUIntFrom_ended 0 (by decide) stopped.ended

theorem idles_declared : Idles (takeDeclared (frames + 3)) 1 := by
  intro reader stopped
  refine ⟨0, reader.worked.failedNow, ?_, ⟨rfl, rfl⟩, rfl, Nat.le_refl _⟩
  rw [takeDeclared, bind_run_ok (takeVarUInt_stopped stopped)]
  rfl

theorem takeDeclared_fate (stands : Stands reader bytes) :
    (∃ groups rest count, bytes = groups ++ rest ∧ SpellsCount groups count ∧
        takeDeclared (frames + 2) reader = .ok (count : Int)
          { reader with
            cursor := reader.cursor + groups.length, work := reader.work + groups.length }) ∨
      (∃ after, takeDeclared (frames + 2) reader = .ok 0 after ∧ Stopped after ∧
        after.bytes = reader.bytes ∧ after.work ≤ reader.work + bytes.length + 1) ∨
      ∃ trap after, takeDeclared (frames + 2) reader = .error trap after ∧
        Balks (frames + 2) bytes ∧ IsDeclaredTrap trap ∧
        after.work ≤ reader.work + bytes.length + 1 := by
  unfold takeDeclared
  rcases @takeVarUIntFrom_fate frames 10 0 0 rfl reader bytes stands with
    ⟨groups, rest, word, rfl, varint, ran⟩ | ⟨after, ran, stopped, same, spent⟩ | ⟨few, ends⟩
  · rcases @takes_varint _ frames varint reader rest stands with ⟨work, taken⟩
    have isNumber : word = UInt64.ofNat (varintNumber groups) := by
      rw [takeVarUInt, ran] at taken
      injection taken
    have ranWhole : takeVarUInt (frames + 2) reader = .ok word _ := ran
    have declares : Declares groups (varintNumber groups % 2 ^ 64) := ⟨varint, rfl⟩
    rw [bind_run_ok ranWhole, isNumber]
    by_cases small : varintNumber groups % 2 ^ 64 < 2 ^ 63
    · rw [intOfU64_declared ⟨declares, small⟩]
      exact Or.inl ⟨groups, rest, _, rfl, ⟨declares, small⟩, rfl⟩
    · have refused : intOfU64 (UInt64.ofNat (varintNumber groups)) = .error .integerRange := by
        unfold intOfU64
        rw [ofNat_declared declares, if_neg small]
      rw [refused]
      refine Or.inr (Or.inr ⟨_, _, rfl, Or.inl ⟨groups, rest, _, rfl, declares,
        Nat.not_lt.mp small⟩, Or.inl rfl, ?_⟩)
      rw [List.length_append]
      simp only
      omega
  · have ranWhole : takeVarUInt (frames + 2) reader = .ok 0 after := ran
    rw [bind_run_ok ranWhole]
    exact Or.inr (Or.inl ⟨after, rfl, stopped, same, spent⟩)
  · have little : frames + 2 ≤ 2 := Nat.add_le_add_right (Nat.le_of_eq few) 2
    rcases (takeVarUInt_stuck little ends).bind reader stands with ⟨after, ran, spent⟩
    exact Or.inr (Or.inr ⟨_, after, ran, Or.inr ⟨little, ends⟩, Or.inr (Or.inr rfl), spent⟩)

theorem reads_declared :
    Reads (takeDeclared (frames + 2)) (fun length consumed => ∃ count : Nat, length = count ∧
      SpellsCount consumed count) (Balks (frames + 2)) 0 1 := by
  intro reader bytes stands
  rcases @takeDeclared_fate frames _ _ stands with ⟨groups, rest, count, whole, counted, ran⟩ |
    ⟨after, ran, stopped, same, spent⟩ | ⟨trap, after, ran, balks, declared, spent⟩
  · exact Or.inl ⟨count, groups, rest, _, whole, ⟨count, rfl, counted⟩, ran, by omega⟩
  · exact Or.inr (Or.inl ⟨0, after, ran, stopped, same, by omega⟩)
  · exact Or.inr (Or.inr ⟨trap, after, ran, balks, declared, by omega⟩)

theorem takeCount_eq (frames : Nat) :
    takeCount frames = takeDeclared frames >>= fun length => pure length.toNat := by
  simp only [takeCount, takeDeclared, bind_assoc]

theorem reads_count :
    Reads (takeCount (frames + 2)) (fun count consumed => SpellsCount consumed count)
      (Balks (frames + 2)) 0 1 := by
  rw [takeCount_eq]
  apply reads_declared.map
  · rintro length bytes ⟨count, rfl, counted⟩
    exact counted
  · exact fun _ balks => balks

theorem idles_count : Idles (takeCount (frames + 3)) 1 := by
  rw [takeCount_eq]
  exact idles_declared.bind fun length => Idles.pure length.toNat

/-! ## Raw bytes and texts -/

theorem takeRaw_fate {length : Nat} {reader : KtenReader} {bytes : List UInt8}
    (stands : Stands reader bytes) :
    (∃ raw rest, bytes = raw ++ rest ∧ raw.length = length ∧ raw = bytes.take length ∧
        takeRaw (frames + 2) length reader = .ok raw
          { reader with cursor := reader.cursor + raw.length, work := reader.work + raw.length }) ∨
      ∃ after, takeRaw (frames + 2) length reader = .ok (bytes.take length) after ∧
        Stopped after ∧ after.bytes = reader.bytes ∧
        after.work ≤ reader.work + bytes.length + 1 := by
  rw [takeRaw, if_neg (by omega), Int.toNat_natCast]
  by_cases fewer : bytes.length < length
  · rcases @takeRawFrom_cut frames _ _ _ stands fewer with ⟨after, ran, stopped, same, spent⟩
    rw [List.take_of_length_le (Nat.le_of_lt fewer)]
    exact Or.inr ⟨after, ran, stopped, same, Nat.le_of_eq spent⟩
  · have whole := List.take_append_drop length bytes
    have exactly := List.length_take_of_le (Nat.not_lt.mp fewer)
    rw [← whole] at stands
    have taken := @takeRawFrom_run _ _ (frames + 1) _ stands
    rw [exactly] at taken
    refine Or.inl ⟨bytes.take length, bytes.drop length, whole.symm, exactly, rfl, ?_⟩
    rw [exactly]
    exact taken

theorem idles_raw (length : Int) : Idles (takeRaw (frames + 2) length) 1 := by
  intro reader stopped
  rw [takeRaw]
  by_cases negative : length < 0
  · rw [if_pos negative]
    exact ⟨[], reader.failedNow, rfl, ⟨rfl, rfl⟩, rfl, Nat.le_add_right _ _⟩
  · rw [if_neg negative]
    cases length.toNat with
    | zero => exact ⟨[], reader, rfl, stopped, rfl, Nat.le_add_right _ _⟩
    | succ turns =>
      have ended : reader.worked.bytes.length ≤ reader.worked.cursor := stopped.ended
      refine ⟨[], reader.worked.failedNow, ?_, ⟨rfl, rfl⟩, rfl, Nat.le_refl _⟩
      rw [takeRawFrom, bind_run_ok (countWork_run reader), bind_run_ok (get_run reader.worked),
        if_pos ended]
      rfl

theorem reads_raw (length : Int) :
    Reads (takeRaw (frames + 2) length)
      (fun raw consumed => consumed = raw ∧ (raw.length : Int) = length) (fun _ => False) 0 1 := by
  intro reader bytes stands
  by_cases negative : length < 0
  · refine Or.inr (Or.inl ⟨[], reader.failedNow, ?_, ⟨rfl, rfl⟩, rfl, ?_⟩)
    · rw [takeRaw, if_pos negative]
      rfl
    · exact Nat.le_trans (Nat.le_add_right _ _) (Nat.le_add_right _ _)
  · rcases Int.eq_ofNat_of_zero_le (Int.not_lt.mp negative) with ⟨count, rfl⟩
    rcases @takeRaw_fate frames count _ _ stands with ⟨raw, rest, whole, exactly, -, taken⟩ |
      ⟨after, taken, stopped, same, spent⟩
    · exact Or.inl ⟨raw, raw, rest, _, whole, ⟨rfl, congrArg Int.ofNat exactly⟩, taken, by omega⟩
    · exact Or.inr (Or.inl ⟨_, after, taken, stopped, same, by omega⟩)

theorem reads_bytes :
    Reads (do
      let declared ← takeVarUInt (frames + 2)
      let length ← orTrap (intOfU64 declared)
      let raw ← takeRaw (frames + 2) length
      pure (Kten.bytes raw)) (fun _ consumed => ∃ raw, SpellsRaw consumed raw)
      (Balks (frames + 2)) 0 2 := by
  have same : (do
      let declared ← takeVarUInt (frames + 2)
      let length ← orTrap (intOfU64 declared)
      let raw ← takeRaw (frames + 2) length
      pure (Kten.bytes raw)) = takeDeclared (frames + 2) >>= fun length =>
        takeRaw (frames + 2) length >>= fun raw => pure (Kten.bytes raw) := by
    simp only [takeDeclared, bind_assoc]
  have each (length : Int) : Reads (takeRaw (frames + 2) length >>= fun raw => pure (Kten.bytes raw))
      (fun _ consumed => (consumed.length : Int) = length) (fun _ => False) 0 1 := by
    apply (reads_raw length).map
    · rintro raw bytes ⟨rfl, exactly⟩
      exact exactly
    · exact fun _ impossible => impossible
  rw [same]
  apply (reads_declared.bind each
    (fun length => (idles_raw length).bind fun raw => Idles.pure (Kten.bytes raw)) 2
      (by decide) (by decide)).imp
  · rintro value bytes ⟨length, groups, rest, rfl, ⟨count, rfl, counted⟩, exactly⟩
    have sameCount : rest.length = count := Int.ofNat.inj exactly
    rw [← sameCount] at counted
    exact ⟨rest, groups, rfl, counted.1, counted.2⟩
  · rintro bytes (balks | ⟨_, _, _, _, _, impossible⟩)
    · exact balks
    · exact impossible.elim

theorem takeString_fate (stands : Stands reader bytes) :
    (∃ spelled rest raw text work, bytes = spelled ++ rest ∧ SpellsRaw spelled raw ∧
        ktenBytesToString raw = .ok text ∧
        takeString (frames + 3) reader = .ok text
          { reader with cursor := reader.cursor + spelled.length, work := work } ∧
        work ≤ reader.work + spelled.length ∧
        (IsHostileRaw raw → HostileNumber bytes)) ∨
      (∃ text after, takeString (frames + 3) reader = .ok text after ∧ Stopped after ∧
        after.bytes = reader.bytes ∧ after.work ≤ reader.work + bytes.length + 1 ∧
        (IsHostileNumber (textBytes text) → HostileNumber bytes)) ∨
      ∃ trap after, takeString (frames + 3) reader = .error trap after ∧
        Balks (frames + 2) bytes ∧ IsDeclaredTrap trap ∧
        after.work ≤ reader.work + bytes.length + 1 := by
  have whole : takeString (frames + 3) = takeDeclared (frames + 2) >>= fun length => (do
      let reader ← get
      if reader.failed then pure ""
      else do
        let raw ← takeRaw (frames + 2) length
        orTrap (ktenBytesToString raw)) := by
    simp only [takeString, takeDeclared, bind_assoc]
  rw [whole]
  rcases @takeDeclared_fate frames _ _ stands with ⟨groups, rest, count, rfl, counted, ran⟩ |
    ⟨after, ran, stopped, same, spent⟩ | ⟨trap, after, ran, balks, declared, spent⟩
  · have onward := stands.advance (reader.work + groups.length)
    have goesOn : ¬ reader.failed = true := by
      rw [stands.1]
      decide
    rcases ktenBytesToString_total (rest.take count) with ⟨text, rebuilt⟩
    have hostile : IsHostileRaw (rest.take count) → HostileNumber (groups ++ rest) :=
      fun hostile => ⟨groups, rest, count, rfl, counted, hostile⟩
    rcases @takeRaw_fate frames count _ _ onward with ⟨raw, later, rfl, exactly, isFront, taken⟩ |
      ⟨after, taken, stopped, same, spent⟩
    · rw [← isFront] at rebuilt hostile
      refine Or.inl ⟨groups ++ raw, later, raw, text, reader.work + groups.length + raw.length,
        by rw [List.append_assoc], ⟨groups, rfl, ?_, ?_⟩, rebuilt, ?_, ?_, hostile⟩
      · rw [exactly]
        exact counted.1
      · rw [exactly]
        exact counted.2
      · rw [bind_run_ok ran, bind_run_ok (get_run _), if_neg goesOn, bind_run_ok taken, rebuilt]
        simp [orTrap, pure_run, Nat.add_assoc]
      · rw [List.length_append]
        omega
    · refine Or.inr (Or.inl ⟨text, after, ?_, stopped, same, ?_, ?_⟩)
      · rw [bind_run_ok ran, bind_run_ok (get_run _), if_neg goesOn, bind_run_ok taken, rebuilt]
        rfl
      · rw [List.length_append]
        simp only at spent
        omega
      · exact fun dips => hostile ⟨text, rebuilt, dips⟩
  · refine Or.inr (Or.inl ⟨"", after, ?_, stopped, same, spent, ?_⟩)
    · rw [bind_run_ok ran, bind_run_ok (get_run _), if_pos stopped.1]
      rfl
    · exact fun dips => absurd dips (not_dips_nil 0)
  · exact Or.inr (Or.inr ⟨trap, after, bind_run_error ran, balks, declared, spent⟩)

theorem reads_string :
    Reads (takeString (frames + 3)) (fun text consumed => ∃ raw, SpellsRaw consumed raw ∧
      ktenBytesToString raw = .ok text) (Balks (frames + 2)) 0 1 := by
  intro reader bytes stands
  rcases @takeString_fate frames _ _ stands with
    ⟨spelled, rest, raw, text, work, whole, isRaw, rebuilt, ran, spent, -⟩ |
    ⟨text, after, ran, stopped, same, spent, -⟩ | ⟨trap, after, ran, balks, declared, spent⟩
  · exact Or.inl ⟨text, spelled, rest, work, whole, ⟨raw, isRaw, rebuilt⟩, ran, by omega⟩
  · exact Or.inr (Or.inl ⟨text, after, ran, stopped, same, by omega⟩)
  · exact Or.inr (Or.inr ⟨trap, after, ran, balks, declared, by omega⟩)

/-- A `Float` is the text of its digits. -/
def takeNumber (frames : Nat) : OnReader Kten := do
  let text ← takeString frames
  let number ← orTrap (ktenParseFloat text)
  pure (.float number)

section Number

variable {reader after : KtenReader} {text : String}

theorem takeNumber_error {trap : KiraTrap} (ran : takeString frames reader = .ok text after)
    (trapped : ktenParseFloat text = .error trap) :
    takeNumber frames reader = .error trap after := by
  unfold takeNumber
  rw [bind_run_ok ran, trapped]
  rfl

theorem takeNumber_ok {number : Float} (ran : takeString frames reader = .ok text after)
    (parsed : ktenParseFloat text = .ok number) :
    takeNumber frames reader = .ok (.float number) after := by
  unfold takeNumber
  rw [bind_run_ok ran, parsed]
  rfl

end Number

theorem reads_number :
    Reads (takeNumber (frames + 3))
      (fun _ consumed => ∃ raw, SpellsRaw consumed raw ∧ ¬ IsHostileRaw raw)
      (fun bytes => Balks (frames + 2) bytes ∨ HostileNumber bytes) 0 1 := by
  intro reader bytes stands
  rcases @takeString_fate frames _ _ stands with
    ⟨spelled, rest, raw, text, work, whole, isRaw, rebuilt, ran, spent, hostile⟩ |
    ⟨text, after, ran, stopped, same, spent, hostile⟩ |
    ⟨trap, after, ran, balks, declared, spent⟩
  · rcases ktenParseFloat_spec text with ⟨dips, trapped⟩ | ⟨level, number, parsed⟩
    · refine Or.inr (Or.inr ⟨_, _, takeNumber_error ran trapped,
        Or.inr (hostile ⟨text, rebuilt, dips⟩), Or.inr (Or.inl rfl), ?_⟩)
      rw [whole, List.length_append]
      simp only
      omega
    · refine Or.inl ⟨_, spelled, rest, work, whole, ⟨raw, isRaw, ?_⟩,
        takeNumber_ok ran parsed, by omega⟩
      rintro ⟨other, rebuiltOther, dips⟩
      rw [rebuilt] at rebuiltOther
      injection rebuiltOther with sameText
      rw [← sameText] at dips
      exact level dips
  · rcases ktenParseFloat_spec text with ⟨dips, trapped⟩ | ⟨level, number, parsed⟩
    · exact Or.inr (Or.inr ⟨_, after, takeNumber_error ran trapped, Or.inr (hostile dips),
        Or.inr (Or.inl rfl), by omega⟩)
    · exact Or.inr (Or.inl ⟨_, after, takeNumber_ok ran parsed, stopped, same, by omega⟩)
  · exact Or.inr (Or.inr ⟨trap, after, bind_run_error ran, Or.inl balks, declared, by omega⟩)

theorem reads_signed :
    Reads (takeVarInt (frames + 3)) (fun _ consumed => Varint 10 consumed)
      (fun bytes => frames + 3 ≤ 3 ∧ EndsWithin 10 bytes) 0 1 := by
  intro reader bytes stands
  rcases @takeVarUIntFrom_fate frames 10 0 0 rfl reader bytes stands with
    ⟨groups, rest, word, whole, varint, ran⟩ | ⟨after, ran, stopped, same, spent⟩ | ⟨few, ends⟩
  · exact Or.inl ⟨_, groups, rest, _, whole, varint, takeVarInt_run ran, by omega⟩
  · exact Or.inr (Or.inl ⟨_, after, takeVarInt_run ran, stopped, same, by omega⟩)
  · have little : frames + 3 ≤ 3 := Nat.add_le_add_right (Nat.le_of_eq few) 3
    rcases takeVarInt_stuck little ends reader stands with ⟨after, ran, spent⟩
    exact Or.inr (Or.inr ⟨_, after, ran, ⟨little, ends⟩, Or.inr (Or.inr rfl), by omega⟩)

/-! ## Sequences and values -/

theorem takeEach_ended {α : Type} {take : OnReader α} {count : Nat} (stopped : Stopped reader) :
    takeEach take count reader = .ok [] reader := by
  cases count with
  | zero => rfl
  | succ count =>
    rw [takeEach, bind_run_ok (get_run reader), if_pos stopped.1]
    rfl

theorem idles_each {α : Type} {take : OnReader α} {count : Nat} : Idles (takeEach take count) 0 :=
  fun reader stopped => ⟨[], reader, takeEach_ended stopped, stopped, rfl, Nat.le_refl _⟩

theorem reads_each {α : Type} {take : OnReader α} {spells : α → List UInt8 → Prop}
    {hostile : List UInt8 → Prop} {fee : Nat} {sequence refused : Nat → List UInt8 → Prop}
    (reads : Reads take spells hostile 1 fee) (none : sequence 0 [])
    (more : ∀ count value item rest, spells value item → sequence count rest →
      sequence (count + 1) (item ++ rest))
    (first : ∀ count bytes, hostile bytes → refused (count + 1) bytes)
    (later : ∀ count value item rest, spells value item → refused count rest →
      refused (count + 1) (item ++ rest)) (count : Nat) :
    Reads (takeEach take count) (fun _ consumed => sequence count consumed) (refused count)
      0 (fee + 1) := by
  induction count with
  | zero =>
    apply ((Reads.pure []).weaken (Nat.le_refl 0) (Nat.zero_le _)).imp
    · rintro value bytes ⟨-, rfl⟩
      exact none
    · exact fun _ impossible => impossible.elim
  | succ count ih =>
    have behind (item : α) : Reads (takeEach take count >>= fun rest => pure (item :: rest))
        (fun _ consumed => sequence count consumed) (refused count) 0 (fee + 1) :=
      ih.map (List.cons item) (fun _ _ spelled => spelled) fun _ was => was
    have turn := reads.bind behind
      (fun item => idles_each.bind fun rest => Idles.pure (item :: rest)) fee (Nat.le_refl _)
      (Nat.le_refl _)
    intro reader bytes stands
    have goesOn : ¬ reader.failed = true := by
      rw [stands.1]
      decide
    have standsWorked : Stands reader.worked bytes := stands
    have fate := turn reader.worked bytes standsWorked
    have run : takeEach take (count + 1) reader = (do
        let item ← take
        let rest ← takeEach take count
        pure (item :: rest)) reader.worked := by
      rw [takeEach, bind_run_ok (get_run reader), if_neg goesOn,
        bind_run_ok (countWork_run reader)]
    unfold Fate
    rw [run]
    rcases fate with ⟨value, consumed, rest, work, whole, spelled, ran, spent⟩ |
      ⟨value, after, ran, stopped, same, spent⟩ | ⟨trap, after, ran, was, declared, spent⟩
    · rcases spelled with ⟨item, front, tail, rfl, isItem, isRest⟩
      refine Or.inl ⟨value, _, rest, work, whole, more count item front tail isItem isRest, ran, ?_⟩
      simp only [KtenReader.worked] at spent
      omega
    · refine Or.inr (Or.inl ⟨value, after, ran, stopped, same, ?_⟩)
      simp only [KtenReader.worked] at spent
      omega
    · refine Or.inr (Or.inr ⟨trap, after, ran, ?_, declared, ?_⟩)
      · rcases was with here | ⟨item, front, tail, rfl, isItem, there⟩
        · exact first count bytes here
        · exact later count item front tail isItem there
      · simp only [KtenReader.worked] at spent
        omega

/-- A read in a value whose tag has been taken. -/
def ReadsBehind (frames : Nat) (tag : UInt8) (operation : OnReader Kten) : Prop :=
  Reads operation (fun _ bytes => Spells (frames + 1) .value (tag :: bytes))
    (fun bytes => Hostile (frames + 1) .value (tag :: bytes)) 0 3

def ReadsValue (frames : Nat) : Prop :=
  Reads (takeValue frames) (fun _ bytes => Spells frames .value bytes) (Hostile frames .value) 1 2

theorem balks_hostile {tag : UInt8} {inner : Nat} (declares : tag ∈ declaringTags)
    (balks : Balks (inner + 2) bytes) : Hostile (inner + callsBehind tag + 1) .value (tag :: bytes) := by
  rcases balks with oversized | ⟨few, ends⟩
  · exact Hostile.declared declares oversized
  · have none : inner = 0 := Nat.le_zero.mp (Nat.le_of_add_le_add_right few)
    have notBool : tag ≠ ktenTagBool := by
      rintro rfl
      exact absurd declares (by decide)
    refine Hostile.cut (by rw [none, Nat.zero_add]) ?_
    rw [EndsBehind, if_neg notBool]
    exact ⟨Or.inr declares, ends⟩

section Nodes

theorem reads_values (inner : ReadsValue frames) (count : Nat) :
    Reads (takeEach (takeValue frames) count)
      (fun _ bytes => Spells frames (.values count) bytes) (Hostile frames (.values count)) 0 3 :=
  @reads_each _ _ _ _ _ (fun count => Spells frames (.values count))
    (fun count => Hostile frames (.values count)) inner Spells.noValues
    (fun _ _ _ _ first rest => Spells.values first rest)
    (fun _ _ first => Hostile.firstValue first)
    (fun _ _ _ _ first later => Hostile.laterValue first later) count

theorem idles_value : Idles (takeValue (frames + 3)) 1 := by
  intro reader stopped
  refine ⟨.null, reader.worked.failedNow, ?_, ⟨rfl, rfl⟩, rfl, Nat.le_refl _⟩
  rw [takeValue_succ, bind_run_ok (takeByte_ended stopped.ended), bind_run_ok (get_run _)]
  rfl

theorem reads_field (inner : ReadsValue (frames + 3)) :
    Reads (takeField (frames + 3) (takeValue (frames + 3)))
      (fun _ bytes => ∃ name raw value, bytes = name ++ value ∧ SpellsRaw name raw ∧
        Spells (frames + 3) .value value)
      (fun bytes => Balks (frames + 2) bytes ∨ ∃ name raw value, bytes = name ++ value ∧
        SpellsRaw name raw ∧ Hostile (frames + 3) .value value) 1 2 := by
  have each (name : String) : Reads (takeValue (frames + 3) >>= fun value => pure (.mk name value))
      (fun (_ : KtenField) bytes => Spells (frames + 3) .value bytes)
      (Hostile (frames + 3) .value) 1 2 :=
    inner.map (KtenField.mk name) (fun _ _ spelled => spelled) fun _ was => was
  apply (reads_string.bind each
    (fun name => idles_value.bind fun value => Idles.pure (KtenField.mk name value)) 2
      (by decide) (by decide)).imp
  · rintro field bytes ⟨name, front, rest, rfl, ⟨raw, isRaw, -⟩, isValue⟩
    exact ⟨front, raw, rest, rfl, isRaw, isValue⟩
  · rintro bytes (balks | ⟨name, front, rest, rfl, ⟨raw, isRaw, -⟩, inside⟩)
    · exact Or.inl balks
    · exact Or.inr ⟨front, raw, rest, rfl, isRaw, inside⟩

theorem reads_fields (inner : ReadsValue (frames + 3)) (count : Nat) :
    Reads (takeEach (takeField (frames + 3) (takeValue (frames + 3))) count)
      (fun _ bytes => Spells (frames + 3) (.fields count) bytes)
      (Hostile (frames + 3) (.fields count)) 0 3 := by
  apply @reads_each _ _ _ _ _ (fun count => Spells (frames + 3) (.fields count))
    (fun count => Hostile (frames + 3) (.fields count)) (reads_field inner) Spells.noFields
  · rintro count field item rest ⟨name, raw, value, rfl, isRaw, first⟩ more
    rw [List.append_assoc]
    exact Spells.fields isRaw first more
  · rintro count bytes ((oversized | ⟨few, ends⟩) | ⟨name, raw, value, rfl, isRaw, first⟩)
    · exact Hostile.fieldName oversized
    · exact Hostile.fieldCut (Nat.succ_le_succ few) ends
    · exact Hostile.fieldValue isRaw first
  · rintro count field item rest ⟨name, raw, value, rfl, isRaw, first⟩ later
    rw [List.append_assoc]
    exact Hostile.laterField isRaw first later

theorem reads_fail (tag : UInt8) :
    ReadsBehind (frames + 1) tag (do
      fail (frames + 1)
      pure Kten.null) := by
  intro reader bytes _
  refine Or.inr (Or.inl ⟨.null, reader.failedNow, rfl, ⟨rfl, rfl⟩, rfl, ?_⟩)
  exact Nat.le_trans (Nat.le_add_right _ _) (Nat.le_add_right _ _)

theorem reads_list (inner : ReadsValue (frames + 2)) :
    ReadsBehind (frames + 2) ktenTagList (do
      let count ← takeCount (frames + 2)
      let items ← takeEach (takeValue (frames + 2)) count
      pure (Kten.list items)) := by
  have each (count : Nat) : Reads (takeEach (takeValue (frames + 2)) count >>= fun items =>
      pure (Kten.list items)) (fun _ bytes => Spells (frames + 2) (.values count) bytes)
      (Hostile (frames + 2) (.values count)) 0 3 :=
    (reads_values inner count).map Kten.list (fun _ _ spelled => spelled) fun _ was => was
  apply (reads_count.bind each (fun count => idles_each.bind fun items => Idles.pure (Kten.list items))
    3 (by decide) (by decide)).imp
  · rintro value bytes ⟨count, groups, rest, rfl, counted, each⟩
    exact Spells.list counted each
  · rintro bytes (balks | ⟨count, groups, rest, rfl, counted, inside⟩)
    · exact @balks_hostile _ ktenTagList frames (by decide) balks
    · exact Hostile.listItem counted inside

/-- A text, a count and a sequence behind a tag. -/
theorem reads_named {α : Type} {tag : UInt8} {take : OnReader α} {item : Nat → Item}
    {wrap : String → List α → Kten} (deep : callsBehind tag = 3) (declares : tag ∈ declaringTags)
    (each : ∀ count, Reads (takeEach take count)
      (fun _ bytes => Spells (frames + 3) (item count) bytes) (Hostile (frames + 3) (item count)) 0 3)
    (spells : ∀ {name raw groups bytes count}, SpellsRaw name raw → SpellsCount groups count →
      Spells (frames + 3) (item count) bytes →
      Spells (frames + 4) .value (tag :: (name ++ (groups ++ bytes))))
    (counts : ∀ {name raw bytes}, SpellsRaw name raw → Oversized bytes →
      Hostile (frames + 4) .value (tag :: (name ++ bytes)))
    (inside : ∀ {name raw groups bytes count}, SpellsRaw name raw → SpellsCount groups count →
      Hostile (frames + 3) (item count) bytes →
      Hostile (frames + 4) .value (tag :: (name ++ (groups ++ bytes)))) :
    ReadsBehind (frames + 3) tag (do
      let name ← takeString (frames + 3)
      let count ← takeCount (frames + 3)
      let items ← takeEach take count
      pure (wrap name items)) := by
  have behind (name : String) (count : Nat) : Reads (takeEach take count >>= fun items =>
      pure (wrap name items)) (fun _ bytes => Spells (frames + 3) (item count) bytes)
      (Hostile (frames + 3) (item count)) 0 3 :=
    (each count).map (wrap name) (fun _ _ spelled => spelled) fun _ was => was
  have idle (name : String) (count : Nat) : Idles (takeEach take count >>= fun items =>
      pure (wrap name items)) 0 :=
    idles_each.bind fun items => Idles.pure (wrap name items)
  have counted (name : String) := (@reads_count (frames + 1)).bind (behind name) (idle name) 3
    (by decide) (by decide)
  apply (reads_string.bind counted (fun name => idles_count.bind (idle name)) 3 (by decide)
    (by decide)).imp
  · rintro value bytes ⟨name, front, rest, rfl, ⟨raw, isRaw, -⟩, count, groups, later, rfl,
      isCount, each⟩
    exact spells isRaw isCount each
  · rintro bytes (balks | ⟨name, front, rest, rfl, ⟨raw, isRaw, -⟩, there⟩)
    · have hostile := @balks_hostile bytes tag frames declares balks
      rw [deep] at hostile
      exact hostile
    · rcases there with (oversized | ⟨few, -⟩) | ⟨count, groups, later, rfl, isCount, there⟩
      · exact counts isRaw oversized
      · exact absurd few (by omega)
      · exact inside isRaw isCount there

theorem reads_object (inner : ReadsValue (frames + 3)) :
    ReadsBehind (frames + 3) ktenTagObject (do
      let objectTag ← takeString (frames + 3)
      let count ← takeCount (frames + 3)
      let fields ← takeEach (takeField (frames + 3) (takeValue (frames + 3))) count
      pure (Kten.object objectTag fields)) :=
  reads_named rfl (by decide) (reads_fields inner) Spells.object Hostile.objectCount
    Hostile.objectField

theorem reads_case (inner : ReadsValue (frames + 3)) :
    ReadsBehind (frames + 3) ktenTagCase (do
      let name ← takeString (frames + 3)
      let count ← takeCount (frames + 3)
      let payload ← takeEach (takeValue (frames + 3)) count
      pure (Kten.case name payload)) :=
  reads_named rfl (by decide) (reads_values inner) Spells.case Hostile.caseCount
    Hostile.casePayload

theorem reads_tagged (inner : ReadsValue frames) {tag : UInt8} (enough : callsBehind tag ≤ frames) :
    ReadsBehind frames tag (takeTagged frames tag) := by
  unfold takeTagged
  by_cases isNull : tag = ktenTagNull
  · subst isNull
    rcases Nat.exists_eq_add_of_le' enough with ⟨frames, rfl⟩
    rw [if_pos rfl]
    apply ((Reads.pure Kten.null).weaken (Nat.le_refl 0) (Nat.zero_le 3)).imp
    · rintro value bytes ⟨-, rfl⟩
      exact Spells.null
    · exact fun _ impossible => impossible.elim
  rw [if_neg isNull]
  by_cases isBool : tag = ktenTagBool
  · subst isBool
    rcases Nat.exists_eq_add_of_le' enough with ⟨frames, rfl⟩
    rw [if_pos rfl]
    apply (reads_byte.weaken (Nat.zero_le 1) (show 1 ≤ 3 by decide)).map
    · rintro flag bytes rfl
      exact Spells.bool flag
    · rintro bytes ⟨few, none⟩
      refine Hostile.cut ?_ none
      rw [few]
      decide
  rw [if_neg isBool]
  by_cases isInt : tag = ktenTagInt
  · subst isInt
    rcases Nat.exists_eq_add_of_le' enough with ⟨frames, rfl⟩
    rw [if_pos rfl]
    apply (reads_signed.weaken (Nat.le_refl 0) (show 1 ≤ 3 by decide)).map
    · exact fun _ _ number => Spells.int number
    · rintro bytes ⟨few, ends⟩
      exact Hostile.cut (Nat.succ_le_succ few) ⟨Or.inl rfl, ends⟩
  rw [if_neg isInt]
  by_cases isFloat : tag = ktenTagFloat
  · subst isFloat
    rcases Nat.exists_eq_add_of_le' enough with ⟨frames, rfl⟩
    rw [if_pos rfl]
    apply (reads_number.weaken (Nat.le_refl 0) (show 1 ≤ 3 by decide)).imp
    · rintro value bytes ⟨raw, isRaw, level⟩
      exact Spells.float isRaw level
    · rintro bytes (balks | dips)
      · exact @balks_hostile _ ktenTagFloat frames (by decide) balks
      · exact Hostile.number dips
  rw [if_neg isFloat]
  by_cases isText : tag = ktenTagText
  · subst isText
    rcases Nat.exists_eq_add_of_le' enough with ⟨frames, rfl⟩
    rw [if_pos rfl]
    apply (reads_string.weaken (Nat.le_refl 0) (show 1 ≤ 3 by decide)).map
    · rintro text bytes ⟨raw, isRaw, -⟩
      exact Spells.text isRaw
    · exact fun _ balks => @balks_hostile _ ktenTagText frames (by decide) balks
  rw [if_neg isText]
  by_cases isBytes : tag = ktenTagBytes
  · subst isBytes
    rcases Nat.exists_eq_add_of_le' enough with ⟨frames, rfl⟩
    rw [if_pos rfl]
    apply (reads_bytes.weaken (Nat.le_refl 0) (show 2 ≤ 3 by decide)).imp
    · rintro value bytes ⟨raw, isRaw⟩
      exact Spells.bytes isRaw
    · exact fun _ balks => @balks_hostile _ ktenTagBytes frames (by decide) balks
  rw [if_neg isBytes]
  by_cases isList : tag = ktenTagList
  · subst isList
    rcases Nat.exists_eq_add_of_le' enough with ⟨frames, rfl⟩
    rw [if_pos rfl]
    exact reads_list inner
  rw [if_neg isList]
  by_cases isObject : tag = ktenTagObject
  · subst isObject
    rcases Nat.exists_eq_add_of_le' enough with ⟨frames, rfl⟩
    rw [if_pos rfl]
    exact reads_object inner
  rw [if_neg isObject]
  by_cases isCase : tag = ktenTagCase
  · subst isCase
    rcases Nat.exists_eq_add_of_le' enough with ⟨frames, rfl⟩
    rw [if_pos rfl]
    exact reads_case inner
  · rcases Nat.exists_eq_add_of_le' (Nat.le_trans (callsBehind_pos tag) enough) with ⟨frames, rfl⟩
    rw [if_neg isCase]
    exact reads_fail tag

end Nodes

theorem takeValue_ended (stands : Stands reader []) :
    Fate (takeValue frames) (fun _ bytes => Spells frames .value bytes) (Hostile frames .value) 1 2
      reader [] := by
  rcases Nat.lt_or_ge 2 frames with enough | few
  · rcases Nat.exists_eq_add_of_le' enough with ⟨frames, rfl⟩
    refine Or.inr (Or.inl ⟨.null, reader.worked.failedNow, ?_, ⟨rfl, rfl⟩, rfl, Nat.le_succ _⟩)
    rw [takeValue_succ, bind_run_ok (takeByte_ended stands.ended), bind_run_ok (get_run _)]
    rfl
  · have hostile : Hostile frames .value [] := Hostile.ended few
    refine Or.inr (Or.inr ?_)
    rcases frames with _ | frames
    · exact ⟨_, reader, rfl, hostile, Or.inr (Or.inr rfl), by omega⟩
    · rcases takeByte_stuck (Nat.le_of_succ_le_succ few) reader stands with ⟨after, ran, spent⟩
      exact ⟨_, after, bind_run_error ran, hostile, Or.inr (Or.inr rfl), Nat.le_succ_of_le spent⟩

theorem takeValue_turn {tag : UInt8} (stands : Stands reader (tag :: bytes))
    (reads : ReadsBehind (frames + 1) tag (takeTagged (frames + 1) tag)) :
    Fate (takeValue (frames + 2)) (fun _ bytes => Spells (frames + 2) .value bytes)
      (Hostile (frames + 2) .value) 1 2 reader (tag :: bytes) := by
  have goesOn : ¬ reader.worked.moved.failed = true := by
    rw [stands.step.1]
    decide
  have run : takeValue (frames + 2) reader = takeTagged (frames + 1) tag reader.worked.moved := by
    rw [takeValue_succ, bind_run_ok (takeByte_run stands), bind_run_ok (get_run _), if_neg goesOn]
  have fate := reads _ bytes stands.step
  unfold Fate
  rw [run, List.length_cons]
  rcases fate with ⟨value, consumed, rest, work, rfl, spelled, ran, spent⟩ |
    ⟨value, after, ran, stopped, same, spent⟩ | ⟨trap, after, ran, was, declared, spent⟩
  · refine Or.inl ⟨value, tag :: consumed, rest, work, rfl, spelled, ?_, ?_⟩
    · rw [ran]
      simp only [KtenReader.moved, KtenReader.worked, List.length_cons]
      rw [Nat.add_assoc, Nat.add_comm 1]
    · simp only [KtenReader.moved, KtenReader.worked] at spent
      rw [List.length_cons]
      omega
  · refine Or.inr (Or.inl ⟨value, after, ran, stopped, same, ?_⟩)
    simp only [KtenReader.moved, KtenReader.worked] at spent
    omega
  · refine Or.inr (Or.inr ⟨trap, after, ran, was, declared, ?_⟩)
    simp only [KtenReader.moved, KtenReader.worked] at spent
    omega

theorem takeValue_shallow {tag : UInt8} (few : frames ≤ callsBehind tag)
    (stands : Stands reader (tag :: bytes)) :
    Fate (takeValue frames) (fun _ bytes => Spells frames .value bytes) (Hostile frames .value) 1 2
      reader (tag :: bytes) := by
  have hostile : Hostile frames .value (tag :: bytes) := Hostile.shallow few
  rcases shallow_stuck few reader stands with ⟨after, ran, spent⟩
  exact Or.inr (Or.inr ⟨_, after, ran, hostile, Or.inr (Or.inr rfl), by omega⟩)

theorem reads_value (frames : Nat) : ReadsValue frames := by
  induction frames with
  | zero =>
    intro reader bytes stands
    cases bytes with
    | nil => exact takeValue_ended stands
    | cons tag bytes => exact takeValue_shallow (Nat.zero_le _) stands
  | succ frames inner =>
    intro reader bytes stands
    cases bytes with
    | nil => exact takeValue_ended stands
    | cons tag bytes =>
      rcases Nat.lt_or_ge frames (callsBehind tag) with few | enough
      · exact takeValue_shallow few stands
      · rcases Nat.exists_eq_add_of_le' (Nat.le_trans (callsBehind_pos tag) enough) with
          ⟨frames, rfl⟩
        exact takeValue_turn stands (reads_tagged inner enough)

/-! ## Documents -/

/-- The bytes taken and the turns of the counted loops while a document is read. -/
def ktenDecodeWork (frames : Nat) (bytes : List UInt8) : Nat :=
  match takeValue frames (readerOf bytes) with
  | .ok _ reader => reader.work
  | .error _ reader => reader.work

theorem ktenDecode_fate (frames : Nat) (bytes : List UInt8) :
    Fate (takeValue frames) (fun _ bytes => Spells frames .value bytes) (Hostile frames .value) 1 2
      (readerOf bytes) bytes :=
  reads_value frames _ bytes (readerOf_stands bytes)

/-- However large the counts are that the bytes declare. -/
theorem ktenDecodeWork_le (frames : Nat) (bytes : List UInt8) :
    ktenDecodeWork frames bytes ≤ 2 * bytes.length + 2 := by
  unfold ktenDecodeWork
  rcases ktenDecode_fate frames bytes with ⟨value, consumed, rest, work, whole, -, ran, spent⟩ |
    ⟨value, after, ran, -, -, spent⟩ | ⟨trap, after, ran, -, -, spent⟩
  · have shorter : consumed.length ≤ bytes.length := by
      rw [whole, List.length_append]
      exact Nat.le_add_right _ _
    simp only [readerOf] at spent
    rw [ran]
    simp only
    omega
  · simp only [readerOf] at spent
    rw [ran]
    simp only
    omega
  · simp only [readerOf] at spent
    rw [ran]
    simp only
    omega

theorem hostile_stops (hostile : Hostile frames .value bytes) :
    ∃ trap, ktenDecodeWithin frames bytes = .error trap := by
  rcases hostile_trapped hostile (readerOf bytes) (readerOf_stands bytes) with ⟨trap, after, ran⟩
  refine ⟨trap, ?_⟩
  rw [ktenDecodeWithin, ran]

/-- What stops the program is a conversion, an operator or a call, never an index. -/
theorem stopped_hostile {trap : KiraTrap} (stopped : ktenDecodeWithin frames bytes = .error trap) :
    Hostile frames .value bytes ∧ IsDeclaredTrap trap := by
  unfold ktenDecodeWithin at stopped
  rcases ktenDecode_fate frames bytes with ⟨value, consumed, rest, work, -, -, ran, -⟩ |
    ⟨value, after, ran, -, -, -⟩ | ⟨other, after, ran, hostile, declared, -⟩
  · rw [ran] at stopped
    simp only at stopped
    split at stopped <;> cases stopped
  · rw [ran] at stopped
    simp only at stopped
    split at stopped <;> cases stopped
  · rw [ran] at stopped
    injection stopped with same
    rw [← same]
    exact ⟨hostile, declared⟩

/-- Reading a document does not stop the program exactly when its bytes are not hostile to the
frames that are left; its work is bounded by their number in any case. -/
theorem kten_answers_iff (frames : Nat) (bytes : List UInt8) :
    ((∃ answer, ktenDecodeWithin frames bytes = .ok answer) ∧
        ktenDecodeWork frames bytes ≤ 2 * bytes.length + 2 ↔ ¬ Hostile frames .value bytes) ∧
      ktenDecodeWork frames bytes ≤ 2 * bytes.length + 2 := by
  refine ⟨⟨?_, ?_⟩, ktenDecodeWork_le frames bytes⟩
  · rintro ⟨⟨answer, answered⟩, -⟩ hostile
    rcases hostile_stops hostile with ⟨trap, stopped⟩
    rw [answered] at stopped
    cases stopped
  · intro friendly
    refine ⟨?_, ktenDecodeWork_le frames bytes⟩
    cases result : ktenDecodeWithin frames bytes with
    | ok answer => exact ⟨answer, rfl⟩
    | error trap => exact absurd (stopped_hostile result).1 friendly

/-- The bytes of lists inside of lists. -/
def nestedLists : Nat → List UInt8
  | 0 => [ktenTagNull]
  | depth + 1 => ktenTagList :: 1 :: nestedLists depth

/-- Every list takes a frame. -/
theorem nestedLists_hostile (depth : Nat) (few : frames ≤ depth + 1) :
    Hostile frames .value (nestedLists depth) := by
  induction depth generalizing frames with
  | zero => exact Hostile.shallow few
  | succ depth ih =>
    cases frames with
    | zero => exact Hostile.shallow (Nat.zero_le _)
    | succ frames =>
      have one : SpellsCount [1] 1 := ⟨⟨Varint.last (by decide), by decide⟩, by decide⟩
      have inside := ih (Nat.le_of_succ_le_succ few)
      exact Hostile.listItem one (Hostile.firstValue inside)

/-- A length of all ones, a `Float` whose text is a blank, and 65536 lists in each other. -/
theorem hostile_documents_stop :
    (∃ trap, ktenDecodeWithin 65534 [4, 255, 255, 255, 255, 255, 255, 255, 255, 255, 1] =
        .error trap) ∧
      (∃ trap, ktenDecodeWithin 65534 [3, 1, 32] = .error trap) ∧
      ∃ trap, ktenDecodeWithin 65534 (nestedLists 65536) = .error trap := by
  refine ⟨?_, ?_, hostile_stops (nestedLists_hostile _ (by decide))⟩
  · have varint : Varint 10 [255, 255, 255, 255, 255, 255, 255, 255, 255, 1] := by
      repeat' first
        | exact Varint.last (by decide)
        | refine Varint.more (by decide) ?_
    exact hostile_stops (Hostile.declared (by decide)
      ⟨_, [], 2 ^ 64 - 1, (List.append_nil _).symm, ⟨varint, by decide⟩, by decide⟩)
  · have rebuilt : ktenBytesToString [32] = .ok " " := ktenBytesToString_textBytes " "
    exact hostile_stops (Hostile.number ⟨[1], [32], 1, rfl,
      ⟨⟨Varint.last (by decide), by decide⟩, by decide⟩, " ", rebuilt,
      dips_low (by decide) (by decide) (by decide) []⟩)

end Foundation

end KiraVm
