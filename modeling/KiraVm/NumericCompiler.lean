import KiraVm.IntegerSpellings
import KiraVm.Interpreter
import KiraVm.StateLogic

/-!
# Compiling integer operators

The compiler appends the instructions of an operator after its operands.  An
integer is a 64-bit word whatever its spelling, so arithmetic in a narrower
spelling is a 64-bit instruction and a check, and the two 64-bit spellings have
instructions of their own.
-/

namespace KiraVm

open StateLogic

/-- The operators of the intermediate language, with their operand types. -/
inductive IrBinOp
  | addInt | subInt | mulInt | wrappingAddInt | wrappingSubInt | wrappingMulInt
  | divInt | remInt | divUInt | remUInt
  | addFloat | subFloat | mulFloat | divFloat | remFloat
  | concatStr
  | eqInt | neInt | ltInt | leInt | gtInt | geInt | ltUInt | leUInt | gtUInt | geUInt
  | eqFloat | neFloat | ltFloat | leFloat | gtFloat | geFloat
  | eqBool | neBool | eqStr | neStr | eqAny | neAny | eqValue | neValue | cmpValue
  | eqType | neType
  | bitAnd | bitOr | bitXor | shl | shrInt | shrUInt
  | and | or
  deriving DecidableEq, Repr

inductive IrUnOp
  | negInt | negFloat | not | bitNot
  deriving DecidableEq, Repr

inductive ConvertKind
  | intToInt | intToRawPtr | rawPtrToInt | floatToFloat | intToFloat | floatToInt
  | floatToBits | bitsToFloat | bits32ToFloat | floatToBits32
  deriving DecidableEq, Repr

inductive CompileError
  | shortCircuitOpcode
  deriving DecidableEq, Repr

/-- A one-byte code of a spelling. -/
def IntWidth.code : IntWidth → UInt8
  | .plain => 0
  | .i8 => 1
  | .i16 => 2
  | .i32 => 3
  | .u8 => 4
  | .u16 => 5
  | .u32 => 6
  | .u64 => 7

/-- Whether a conversion needs no check. -/
def IntWidth.widensInto (source target : IntWidth) : Bool :=
  target.holds source.range.1 && target.holds source.range.2

def unaryInstruction : IrUnOp → Instruction
  | .negInt => .negIntChecked
  | .negFloat => .negFloat
  | .not => .not
  | .bitNot => .bitNot

def binaryInstruction : IrBinOp → Except CompileError Instruction
  | .wrappingAddInt => .ok .addInt
  | .wrappingSubInt => .ok .subInt
  | .wrappingMulInt => .ok .mulInt
  | .addInt => .ok .addIntChecked
  | .subInt => .ok .subIntChecked
  | .mulInt => .ok .mulIntChecked
  | .divInt => .ok .divIntChecked
  | .remInt => .ok .remInt
  | .divUInt => .ok .divUInt
  | .remUInt => .ok .remUInt
  | .addFloat => .ok .addFloat
  | .subFloat => .ok .subFloat
  | .mulFloat => .ok .mulFloat
  | .divFloat => .ok .divFloat
  | .remFloat => .ok .remFloat
  | .concatStr => .ok .concatStr
  | .eqInt => .ok .eqInt
  | .neInt => .ok .neInt
  | .ltInt => .ok .ltInt
  | .leInt => .ok .leInt
  | .gtInt => .ok .gtInt
  | .geInt => .ok .geInt
  | .ltUInt => .ok .ltUInt
  | .leUInt => .ok .leUInt
  | .gtUInt => .ok .gtUInt
  | .geUInt => .ok .geUInt
  | .eqFloat => .ok .eqFloat
  | .neFloat => .ok .neFloat
  | .ltFloat => .ok .ltFloat
  | .leFloat => .ok .leFloat
  | .gtFloat => .ok .gtFloat
  | .geFloat => .ok .geFloat
  | .eqBool => .ok .eqBool
  | .neBool => .ok .neBool
  | .eqStr => .ok .eqStr
  | .neStr => .ok .neStr
  | .eqAny => .ok .eqAny
  | .neAny => .ok .neAny
  | .eqValue => .ok .eqValue
  | .neValue => .ok .neValue
  | .cmpValue => .ok .cmpValue
  | .eqType => .ok .eqType
  | .neType => .ok .neType
  | .bitAnd => .ok .bitAnd
  | .bitOr => .ok .bitOr
  | .bitXor => .ok .bitXor
  | .shl => .ok .shl
  | .shrInt => .ok .shrInt
  | .shrUInt => .ok .shrUInt
  | .and | .or => .error .shortCircuitOpcode

/-! ## Emitting an operator

A type is given by its integer spelling, if it is an integer type. -/

def checkWidth : Option IntWidth → List Instruction
  | some spelling => if spelling.bits < 64 then [.checkInt spelling.code] else []
  | none => []

def wrapWidth : Option IntWidth → List Instruction
  | some spelling => if spelling.bits < 64 then [.wrapInt spelling.code] else []
  | none => []

def compileIntOperator (op : IrBinOp) :
    Option IntWidth → Except CompileError (List Instruction)
  | none => do
    let instruction ← binaryInstruction op
    pure [instruction]
  | some spelling =>
    match op with
    | .addInt | .subInt | .mulInt => do
      let instruction ←
        match op, spelling with
        | .addInt, .u64 => pure .addUIntChecked
        | .subInt, .u64 => pure .subUIntChecked
        | .mulInt, .u64 => pure .mulUIntChecked
        | _, _ => binaryInstruction op
      pure (instruction :: checkWidth (some spelling))
    | .divInt => pure (.divIntChecked :: checkWidth (some spelling))
    | .shl | .shrInt | .shrUInt => do
      let instruction ← binaryInstruction op
      pure (.checkShift spelling.bits.toUInt8 :: instruction ::
        if op = .shl then wrapWidth (some spelling) else [])
    | .wrappingAddInt | .wrappingSubInt | .wrappingMulInt => do
      let instruction ← binaryInstruction op
      pure (instruction :: wrapWidth (some spelling))
    | _ => do
      let instruction ← binaryInstruction op
      pure [instruction]

def unaryResultType (op : IrUnOp) (ty : Option IntWidth) : Option IntWidth :=
  match op with
  | .negInt => ty
  | .negFloat | .not => none
  | .bitNot => some .plain

/-- The instructions of a unary operator whose operand is on the stack. -/
def compileUnary (op : IrUnOp) (ty : Option IntWidth) : List Instruction :=
  unaryInstruction op :: checkWidth (unaryResultType op ty)

/-- The instructions of a conversion of the value on the stack. -/
def compileConvert (kind : ConvertKind) (source target : Option IntWidth) : List Instruction :=
  let sourceSpelling := source.getD .plain
  match kind with
  | .intToInt =>
    match target with
    | some targetSpelling =>
      if sourceSpelling.widensInto targetSpelling then []
      else [.convertInt sourceSpelling.code targetSpelling.code]
    | none => []
  | .floatToFloat => []
  | .intToRawPtr => [.convertIntToRawPtr]
  | .rawPtrToInt => [.convertRawPtrToInt]
  | .intToFloat =>
    if sourceSpelling = .u64 then [.convertUIntToFloat] else [.convertIntToFloat]
  | .floatToInt =>
    if target = some .u64 then [.convertFloatToUInt]
    else .convertFloatToInt ::
      match target with
      | some targetSpelling =>
        if targetSpelling = .plain then []
        else [.convertInt IntWidth.plain.code targetSpelling.code]
      | none => []
  | .floatToBits => [.convertFloatToBits]
  | .bitsToFloat => [.convertBitsToFloat]
  | .bits32ToFloat => [.convertBits32ToFloat]
  | .floatToBits32 => [.convertFloatToBits32]

/-! ## Written operators -/

/-- The integer operators and the wrapping builtins, as they are written. -/
inductive IntOperator
  | add | sub | mul | div | rem | shl | shr | wrappingAdd | wrappingSub | wrappingMul
  deriving DecidableEq, Repr

/-- The typed operator of a written one; division, remainder and the right shift
go by signedness. -/
def IntOperator.resolve (op : IntOperator) (spelling : IntWidth) : IrBinOp :=
  match op with
  | .add => .addInt
  | .sub => .subInt
  | .mul => .mulInt
  | .div => if spelling.isSigned then .divInt else .divUInt
  | .rem => if spelling.isSigned then .remInt else .remUInt
  | .shl => .shl
  | .shr => if spelling.isSigned then .shrInt else .shrUInt
  | .wrappingAdd => .wrappingAddInt
  | .wrappingSub => .wrappingSubInt
  | .wrappingMul => .wrappingMulInt

/-! ## Running what was emitted -/

namespace Vm

variable {world : World}

/-- Carry out instructions in order. -/
def performAll (program : Module) : List Instruction → Vm world Unit
  | [] => pure ()
  | instruction :: code => do
    perform program instruction
    performAll program code

def loaded (machine : Machine world) (words : List Int64) : Machine world :=
  { machine with stack := words.reverse.map Value.int ++ machine.stack }

/-- A run that leaves the given words for its operands, or traps. -/
def Yields (run : Vm world Unit) (machine : Machine world) (operands : List Int64)
    (result : Option (List Int64)) : Prop :=
  match result with
  | some words => run (loaded machine operands) = .ok () (loaded machine words)
  | none => ∃ error after, run (loaded machine operands) = .error (.trap error) after

variable {machine : Machine world} {operands : List Int64} {lhs rhs word : Int64}

theorem Yields.andThen {first second : Vm world Unit} {middle : Option Int64}
    {result : Int64 → Option (List Int64)}
    (before : Yields first machine operands (middle.map fun word => [word]))
    (later : ∀ word, Yields second machine [word] (result word)) :
    Yields (do first; second) machine operands (middle.bind result) := by
  cases middle with
  | none =>
    rcases before with ⟨error, after, ran⟩
    exact ⟨error, after, by simp only [bind, EStateM.bind, ran]⟩
  | some word =>
    have rest := later word
    have ran : first (loaded machine operands) = .ok () (loaded machine [word]) := before
    rw [Option.bind_some]
    unfold Yields at rest ⊢
    simp only [bind, EStateM.bind, ran]
    exact rest

theorem Yields.last {run : Vm world Unit} {result : Option (List Int64)}
    (yields : Yields run machine operands result) (program : Module) :
    Yields (do run; performAll program []) machine operands result := by
  cases result with
  | none =>
    rcases yields with ⟨error, after, ran⟩
    exact ⟨error, after, by simp only [bind, EStateM.bind, ran]⟩
  | some words =>
    have ran : run (loaded machine operands) = .ok () (loaded machine words) := yields
    unfold Yields
    simp only [bind, EStateM.bind, ran, performAll, pure_run]

theorem popInt_loaded (machine : Machine world) (words : List Int64) (word : Int64) :
    popInt (loaded machine (words ++ [word])) = .ok word (loaded machine words) := by
  simp only [popInt, pop, loaded, List.reverse_append, List.reverse_singleton, List.map_cons,
    List.nil_append, List.cons_append, bind, EStateM.bind, get_run, set_run, pure_run]

theorem push_loaded (machine : Machine world) (words : List Int64) (word : Int64) :
    push (.int word) (loaded machine words) = .ok () (loaded machine (words ++ [word])) := by
  simp only [push, loaded, modify_run, List.reverse_append, List.reverse_singleton, List.map_cons,
    List.nil_append, List.cons_append]

section Instructions

theorem pop_second : popInt (loaded machine [lhs, rhs]) = .ok rhs (loaded machine [lhs]) :=
  popInt_loaded machine [lhs] rhs

theorem pop_only : popInt (loaded machine [word]) = .ok word (loaded machine []) :=
  popInt_loaded machine [] word

theorem push_only : push (.int word) (loaded machine []) = .ok () (loaded machine [word]) :=
  push_loaded machine [] word

theorem push_second : push (.int rhs) (loaded machine [lhs]) = .ok () (loaded machine [lhs, rhs]) :=
  push_loaded machine [lhs] rhs

theorem intBinary_yields (combine : Int64 → Int64 → Int64) :
    Yields (intBinary combine) machine [lhs, rhs] (some [combine lhs rhs]) := by
  unfold Yields
  simp only [intBinary, bind, EStateM.bind, pop_second, pop_only, push_only]

theorem intDivide_yields (combine : Int64 → Int64 → Int64) :
    Yields (intDivide combine) machine [lhs, rhs]
      (if rhs = 0 then none else some [combine lhs rhs]) := by
  by_cases zero : rhs = 0
  · rw [if_pos zero]
    refine ⟨.divideByZero, loaded machine [], ?_⟩
    simp only [intDivide, bind, EStateM.bind, pop_second, pop_only, zero, if_true, trap, throw_run]
  · rw [if_neg zero]
    unfold Yields
    simp only [intDivide, bind, EStateM.bind, pop_second, pop_only, zero, if_false, push_only]

theorem checkedIntArith_yields (combine : Int64 → Int64 → Option Int64) (spelling : IntWidth) :
    Yields (checkedIntArith combine spelling) machine [lhs, rhs]
      ((combine lhs rhs).map fun word => [word]) := by
  cases combined : combine lhs rhs with
  | none =>
    refine ⟨.integerOverflow spelling, loaded machine [], ?_⟩
    simp only [checkedIntArith, bind, EStateM.bind, pop_second, pop_only, combined, orTrap, trap,
      throw_run]
  | some word =>
    unfold Yields
    simp only [checkedIntArith, bind, EStateM.bind, pop_second, pop_only, combined, orTrap,
      pure_run, push_only, Option.map_some]

theorem divIntChecked_yields :
    Yields (divIntChecked : Vm world Unit) machine [lhs, rhs]
      (if rhs = 0 then none
        else (checkedInt (lhs.toInt.tdiv rhs.toInt)).map fun word => [word]) := by
  by_cases zero : rhs = 0
  · rw [if_pos zero]
    refine ⟨.divideByZero, loaded machine [], ?_⟩
    simp only [divIntChecked, bind, EStateM.bind, pop_second, pop_only, zero, if_true, trap,
      throw_run]
  · rw [if_neg zero]
    cases combined : checkedInt (lhs.toInt.tdiv rhs.toInt) with
    | none =>
      refine ⟨.integerOverflow .plain, loaded machine [], ?_⟩
      simp only [divIntChecked, bind, EStateM.bind, pop_second, pop_only, zero, if_false,
        combined, orTrap, trap, throw_run]
    | some word =>
      unfold Yields
      simp only [divIntChecked, bind, EStateM.bind, pop_second, pop_only, zero, if_false,
        pure_run, combined, orTrap, push_only, Option.map_some]

theorem negIntChecked_yields :
    Yields (negIntChecked : Vm world Unit) machine [word]
      ((checkedInt (-word.toInt)).map fun word => [word]) := by
  cases negated : checkedInt (-word.toInt) with
  | none =>
    refine ⟨.integerOverflow .plain, loaded machine [], ?_⟩
    simp only [negIntChecked, bind, EStateM.bind, pop_only, negated, orTrap, trap, throw_run]
  | some result =>
    unfold Yields
    simp only [negIntChecked, bind, EStateM.bind, pop_only, negated, orTrap, pure_run, push_only,
      Option.map_some]

theorem fromCode_code (width : IntWidth) : IntWidth.fromCode width.code = some width := by
  cases width <;> rfl

theorem spelling_run (width : IntWidth) :
    (spelling width.code : Vm world IntWidth) machine = .ok width machine := by
  simp only [spelling, fromCode_code, orTrap, pure_run]

theorem checkInt_yields (width : IntWidth) :
    Yields (checkInt width.code : Vm world Unit) machine [word]
      (if width.holds word.toInt then some [word] else none) := by
  cases held : width.holds word.toInt with
  | false =>
    refine ⟨.integerOverflow width, loaded machine [], ?_⟩
    simp only [checkInt, bind, EStateM.bind, spelling_run, pop_only, held, Bool.not_false,
      if_true, trap, throw_run]
  | true =>
    rw [if_pos rfl]
    unfold Yields
    simp only [checkInt, bind, EStateM.bind, spelling_run, pop_only, held, Bool.not_true,
      Bool.false_eq_true, if_false, push_only]

theorem wrapInt_yields (width : IntWidth) :
    Yields (wrapInt width.code : Vm world Unit) machine [word] (some [width.wrap word]) := by
  unfold Yields
  simp only [wrapInt, bind, EStateM.bind, spelling_run, pop_only, push_only]

theorem convertInt_yields (source target : IntWidth) :
    Yields (convertInt source.code target.code : Vm world Unit) machine [word]
      ((target.exactly (source.valueOf word)).map fun word => [word]) := by
  unfold IntWidth.exactly
  cases held : target.holds (source.valueOf word) with
  | false =>
    refine ⟨.narrowingOutOfRange (source.valueOf word) target, loaded machine [], ?_⟩
    simp only [convertInt, bind, EStateM.bind, spelling_run, pop_only, held, Bool.not_false,
      if_true, trap, throw_run]
  | true =>
    unfold Yields
    simp only [convertInt, bind, EStateM.bind, spelling_run, pop_only, held, Bool.not_true,
      Bool.false_eq_true, if_true, if_false, push_only, Option.map_some]

theorem checkShift_yields (bits : UInt8) :
    Yields (checkShift bits : Vm world Unit) machine [lhs, rhs]
      (if rhs < 0 ∨ bits.toNat ≤ rhs.toNatClampNeg then none else some [lhs, rhs]) := by
  by_cases outside : rhs < 0 ∨ bits.toNat ≤ rhs.toNatClampNeg
  · rw [if_pos outside]
    refine ⟨.shiftOutOfRange rhs bits.toNat, loaded machine [lhs], ?_⟩
    simp only [checkShift, bind, EStateM.bind, pop_second, outside, if_true, trap, throw_run]
  · rw [if_neg outside]
    unfold Yields
    simp only [checkShift, bind, EStateM.bind, pop_second, outside, if_false, push_second]

end Instructions

/-! ## What an operator means -/

/-- The exact result of an operator, if it has one: a divisor is not zero, and a
shift count is below the width. -/
def exactResult (op : IntOperator) (bits : Nat) (lhs rhs : Int) : Option Int :=
  match op with
  | .add | .wrappingAdd => some (lhs + rhs)
  | .sub | .wrappingSub => some (lhs - rhs)
  | .mul | .wrappingMul => some (lhs * rhs)
  | .div => if rhs = 0 then none else some (lhs.tdiv rhs)
  | .rem => if rhs = 0 then none else some (lhs.tmod rhs)
  | .shl => if 0 ≤ rhs ∧ rhs < bits then some (lhs * 2 ^ rhs.toNat) else none
  | .shr => if 0 ≤ rhs ∧ rhs < bits then some (lhs / 2 ^ rhs.toNat) else none

/-- The operators whose results are reduced modulo two to the width: the wrapping
builtins, and the left shift, which discards the bits it pushed out. -/
def reduces : IntOperator → Bool
  | .wrappingAdd | .wrappingSub | .wrappingMul | .shl => true
  | _ => false

/-- The word an operator answers, or none when it traps; `reducing` says which
operators reduce their exact result where the others refuse one out of range. -/
def answer (reducing : IntOperator → Bool) (op : IntOperator) (width : IntWidth)
    (lhs rhs : Int) : Option (List Int64) :=
  (exactResult op width.bits lhs rhs).bind fun exact =>
    if reducing op then some [width.wordOf (width.reduce exact)]
    else (width.exactly exact).map fun word => [word]

variable {width other : IntWidth}

/-! ## The checks -/

variable {run : Vm world Unit} {exact : Int} {program : Module} {instruction : Instruction}
  {combine : Int64 → Int64 → Int64} {count : other.Word}

/-- A 64-bit result and its check answer the exact result or trap. -/
theorem checked_yields (notU64 : width ≠ .u64)
    (yields : Yields run machine operands ((checkedInt exact).map fun word => [word]))
    (program : Module) :
    Yields (do run; performAll program (checkWidth (some width))) machine operands
      ((width.exactly exact).map fun word => [word]) := by
  by_cases narrow : width.bits < 64
  · have check : ∀ word, Yields (performAll program (checkWidth (some width)) : Vm world Unit)
        machine [word] (if width.holds word.toInt then some [word] else none) := by
      intro word
      simp only [checkWidth, narrow, if_true, performAll]
      exact (checkInt_yields width).last program
    have both := yields.andThen check
    rw [← IntWidth.checkedInt_narrow narrow exact, Option.map_bind]
    have same : (fun word : Int64 => if width.holds word.toInt = true then some [word] else none) =
        (Option.map fun word => [word]) ∘
          fun word => if width.holds word.toInt then some word else none := by
      funext word
      dsimp only [Function.comp]
      split <;> rfl
    rw [← same]
    exact both
  · have plain : width = .plain := by
      cases width <;> simp [IntWidth.bits] at narrow notU64 ⊢
    subst plain
    exact yields.last program

/-- A 64-bit result and its reduction. -/
theorem reduced_yields (congruent : word = Int64.ofInt exact)
    (yields : Yields run machine operands (some [word])) (program : Module) :
    Yields (do run; performAll program (wrapWidth (some width))) machine operands
      (some [width.wordOf (width.reduce exact)]) := by
  rw [← IntWidth.wrap_ofInt, ← congruent]
  by_cases narrow : width.bits < 64
  · have wrap : ∀ word, Yields (performAll program (wrapWidth (some width)) : Vm world Unit)
        machine [word] (some [width.wrap word]) := by
      intro word
      simp only [wrapWidth, narrow, if_true, performAll]
      exact (wrapInt_yields width).last program
    exact @Yields.andThen world machine operands run _ (some word) _ yields wrap
  · rw [IntWidth.wrap_of_wide narrow]
    simp only [wrapWidth, narrow, if_false]
    exact yields.last program

/-! ## The operators -/

/-- What the emitted instructions of an operator do with its operands. -/
def Emits (program : Module) (machine : Machine world) (op : IrBinOp) (width : IntWidth)
    (operands : List Int64) (result : Option (List Int64)) : Prop :=
  ∃ code, compileIntOperator op (some width) = .ok code ∧
    Yields (performAll program code) machine operands result

theorem arithmetic_emits {op : IrBinOp} (signed unsigned : Instruction)
    (combine : Int → Int → Int) (emits : ∀ width, compileIntOperator op (some width) =
      .ok (if width = .u64 then [unsigned] else signed :: checkWidth (some width)))
    (performSigned : (perform program signed : Vm world Unit) =
      checkedIntArith (fun lhs rhs => checkedInt (combine lhs.toInt rhs.toInt)) .plain)
    (performUnsigned : (perform program unsigned : Vm world Unit) =
      checkedIntArith (fun lhs rhs =>
        checkedUInt (combine (IntWidth.u64.valueOf lhs) (IntWidth.u64.valueOf rhs))) .u64)
    (lhs rhs : Int64) :
    Emits program machine op width [lhs, rhs]
      ((width.exactly (combine (width.valueOf lhs) (width.valueOf rhs))).map
        fun word => [word]) := by
  refine ⟨_, emits width, ?_⟩
  by_cases u64 : width = .u64
  · subst u64
    rw [if_pos rfl]
    simp only [performAll, performUnsigned]
    exact (checkedIntArith_yields _ _).last program
  · rw [if_neg u64, IntWidth.valueOf_of_not_u64 u64, IntWidth.valueOf_of_not_u64 u64]
    simp only [performAll, performSigned]
    exact checked_yields u64 (checkedIntArith_yields _ _) program

theorem wrapping_emits {op : IrBinOp}
    (emits : compileIntOperator op (some width) = .ok (instruction :: wrapWidth (some width)))
    (performs : (perform program instruction : Vm world Unit) = intBinary combine)
    (congruent : combine lhs rhs = Int64.ofInt exact) :
    Emits program machine op width [lhs, rhs] (some [width.wordOf (width.reduce exact)]) := by
  refine ⟨_, emits, ?_⟩
  simp only [performAll, performs]
  exact reduced_yields congruent (intBinary_yields combine) program

/-- Division of signed words; only the smallest value by minus one is out of
range. -/
theorem divInt_emits (notU64 : width ≠ .u64) (lhs rhs : Int64) :
    Emits program machine .divInt width [lhs, rhs]
      (answer reduces .div width (width.valueOf lhs) (width.valueOf rhs)) := by
  refine ⟨.divIntChecked :: checkWidth (some width), rfl, ?_⟩
  simp only [answer, exactResult, reduces, IntWidth.valueOf_eq_zero_iff, Bool.false_eq_true,
    if_false]
  rw [IntWidth.valueOf_of_not_u64 notU64, IntWidth.valueOf_of_not_u64 notU64]
  have divides := @divIntChecked_yields world machine lhs rhs
  by_cases zero : rhs = 0
  · rw [if_pos zero] at divides ⊢
    rcases divides with ⟨error, after, ran⟩
    refine ⟨error, after, ?_⟩
    simp only [performAll, perform, bind, EStateM.bind, ran]
  · rw [if_neg zero] at divides ⊢
    exact checked_yields notU64 divides program

/-- A result in range is not refused. -/
theorem exactly_of_holds (held : width.holds exact = true) :
    width.exactly exact = some (width.wordOf exact) := by
  rw [IntWidth.exactly, if_pos held]

/-- Division and remainder whose result is always in range. -/
theorem divide_emits {op : IntOperator} {typed : IrBinOp}
    (emits : compileIntOperator typed (some width) = .ok [instruction])
    (performs : (perform program instruction : Vm world Unit) = intDivide combine)
    (meaning : exactResult op width.bits (width.valueOf lhs) (width.valueOf rhs) =
      if width.valueOf rhs = 0 then none else some exact) (exactOp : reduces op = false)
    (held : width.holds exact = true) (same : width.wordOf exact = combine lhs rhs) :
    Emits program machine typed width [lhs, rhs]
      (answer reduces op width (width.valueOf lhs) (width.valueOf rhs)) := by
  refine ⟨_, emits, ?_⟩
  simp only [answer, meaning, exactOp, IntWidth.valueOf_eq_zero_iff, Bool.false_eq_true, if_false]
  have divides := @intDivide_yields world machine lhs rhs combine
  simp only [performAll, performs]
  by_cases zero : rhs = 0
  · rw [if_pos zero] at divides ⊢
    exact divides.last program
  · rw [if_neg zero] at divides ⊢
    rw [Option.bind_some, exactly_of_holds held, same]
    exact divides.last program

theorem remInt_emits (notU64 : width ≠ .u64) (lhs : width.Word) (rhs : Int64) :
    Emits program machine .remInt width [lhs.val, rhs]
      (answer reduces .rem width lhs.value (width.valueOf rhs)) := by
  apply divide_emits rfl rfl rfl rfl (IntWidth.tmod_holds lhs.property _)
  rw [IntWidth.valueOf_of_not_u64 notU64, IntWidth.valueOf_of_not_u64 notU64, IntWidth.wordOf,
    ← Int64.toInt_mod, Int64.ofInt_toInt]

theorem divUInt_emits (unsignedWidth : width.isSigned = false) (lhs rhs : width.Word) :
    Emits program machine .divUInt width [lhs.val, rhs.val]
      (answer reduces .div width lhs.value rhs.value) := by
  have left := IntWidth.valueOf_unsigned unsignedWidth lhs.property
  have right := IntWidth.valueOf_unsigned unsignedWidth rhs.property
  apply divide_emits rfl rfl rfl rfl
  · apply IntWidth.tdiv_holds lhs.property
    · rw [left]
      exact Int.natCast_nonneg _
    · rw [right]
      exact Int.natCast_nonneg _
  · rw [left, right, ← Int.ofNat_tdiv, ← UInt64.toNat_div, IntWidth.wordOf_toNat]
    rfl

theorem remUInt_emits (unsignedWidth : width.isSigned = false) (lhs rhs : width.Word) :
    Emits program machine .remUInt width [lhs.val, rhs.val]
      (answer reduces .rem width lhs.value rhs.value) := by
  have left := IntWidth.valueOf_unsigned unsignedWidth lhs.property
  have right := IntWidth.valueOf_unsigned unsignedWidth rhs.property
  apply divide_emits rfl rfl rfl rfl (IntWidth.tmod_holds lhs.property _)
  rw [left, right, ← Int.ofNat_tmod, ← UInt64.toNat_mod, IntWidth.wordOf_toNat]
  rfl

/-! ## Shifts -/

theorem count_outside_iff (width : IntWidth) (count : other.Word) :
    (count.val < 0 ∨ width.bits.toUInt8.toNat ≤ count.val.toNatClampNeg) ↔
      ¬ (0 ≤ count.value ∧ count.value < width.bits) := by
  have size : width.bits.toUInt8.toNat = width.bits := by cases width <;> rfl
  have small : width.bits ≤ 64 := by cases width <;> simp [IntWidth.bits]
  have sign : count.val < 0 ↔ count.val.toInt < 0 := Int64.lt_iff_toInt_lt
  rw [size, sign]
  have clamped : count.val.toNatClampNeg = count.val.toInt.toNat := rfl
  rw [clamped]
  by_cases u64 : other = .u64
  · subst u64
    have same : count.value = count.val.toUInt64.toNat := rfl
    rcases IntWidth.toInt_cases count.val with ⟨nonneg, readings⟩ | ⟨negative, large⟩
    · omega
    · omega
  · have same : count.value = count.val.toInt := IntWidth.valueOf_of_not_u64 u64
    omega

theorem count_toInt (inside : 0 ≤ count.value ∧ count.value < width.bits) :
    count.value = count.val.toInt := by
  have small : width.bits ≤ 64 := by cases width <;> simp [IntWidth.bits]
  by_cases u64 : other = .u64
  · subst u64
    have same : count.value = count.val.toUInt64.toNat := rfl
    rcases IntWidth.toInt_cases count.val with ⟨nonneg, readings⟩ | ⟨negative, large⟩
    · omega
    · omega
  · exact IntWidth.valueOf_of_not_u64 u64

theorem shift_yields {result : List Int64} (shifts : 0 ≤ count.value ∧ count.value < width.bits →
      Yields run machine [lhs, count.val] (some result)) :
    Yields (do perform program (.checkShift width.bits.toUInt8); run) machine [lhs, count.val]
      (if 0 ≤ count.value ∧ count.value < width.bits then some result else none) := by
  have checks := @checkShift_yields world machine lhs count.val width.bits.toUInt8
  by_cases inside : 0 ≤ count.value ∧ count.value < width.bits
  · have passes := fun outside => (count_outside_iff width count).mp outside inside
    rw [if_neg passes] at checks
    rw [if_pos inside]
    have ran : perform program (.checkShift width.bits.toUInt8)
        (loaded machine [lhs, count.val]) = .ok () (loaded machine [lhs, count.val]) := checks
    have yields := shifts inside
    unfold Yields at yields ⊢
    simp only [bind, EStateM.bind, ran]
    exact yields
  · rw [if_pos ((count_outside_iff width count).mpr inside)] at checks
    rw [if_neg inside]
    rcases checks with ⟨error, after, ran⟩
    refine ⟨error, after, ?_⟩
    simp only [perform, bind, EStateM.bind, ran]

theorem shl_emits (program : Module) (lhs : width.Word) (count : other.Word) :
    Emits program machine .shl width [lhs.val, count.val]
      (answer reduces .shl width lhs.value count.value) := by
  refine ⟨.checkShift width.bits.toUInt8 :: .shl :: wrapWidth (some width), rfl, ?_⟩
  have small : width.bits ≤ 64 := by cases width <;> simp [IntWidth.bits]
  have result : answer reduces .shl width lhs.value count.value =
      if 0 ≤ count.value ∧ count.value < width.bits then
        some [width.wordOf (width.reduce (lhs.value * 2 ^ count.value.toNat))]
      else none := by
    simp only [answer, exactResult, reduces, if_true]
    split <;> rfl
  rw [result]
  apply shift_yields
  intro inside
  have same := count_toInt inside
  have shifted := @IntWidth.wordOf_shiftLeft width count.val (by omega) (by omega) lhs.val
  rw [← same] at shifted
  exact reduced_yields shifted (intBinary_yields _) program

theorem shr_yields {lhs : width.Word}
    (performs : (perform program instruction : Vm world Unit) = intBinary combine)
    (same : 0 ≤ count.val.toInt → count.val.toInt < 64 →
      combine lhs.val count.val = width.wordOf (lhs.value / 2 ^ count.val.toInt.toNat)) :
    Yields (performAll program [.checkShift width.bits.toUInt8, instruction]) machine
      [lhs.val, count.val] (answer reduces .shr width lhs.value count.value) := by
  have small : width.bits ≤ 64 := by cases width <;> simp [IntWidth.bits]
  have result : answer reduces .shr width lhs.value count.value =
      if 0 ≤ count.value ∧ count.value < width.bits then
        some [width.wordOf (lhs.value / 2 ^ count.value.toNat)]
      else none := by
    simp only [answer, exactResult, reduces, Bool.false_eq_true, if_false]
    split
    · have held : width.holds (lhs.value / 2 ^ count.value.toNat) = true :=
        IntWidth.shiftRight_holds lhs.property _
      rw [Option.bind_some, exactly_of_holds held]
      rfl
    · rfl
  rw [result]
  apply shift_yields
  intro inside
  have counted := count_toInt inside
  rw [counted, ← same (by omega) (by omega)]
  simp only [performAll, performs]
  exact (intBinary_yields combine).last program

theorem shrInt_emits (program : Module) (notU64 : width ≠ .u64) (lhs : width.Word)
    (count : other.Word) :
    Emits program machine .shrInt width [lhs.val, count.val]
      (answer reduces .shr width lhs.value count.value) := by
  refine ⟨_, rfl, shr_yields rfl ?_⟩
  intro low high
  have value : lhs.value = lhs.val.toInt := IntWidth.valueOf_of_not_u64 notU64
  rw [value, ← IntWidth.toInt_shiftRight low high, IntWidth.wordOf, Int64.ofInt_toInt]

theorem shrUInt_emits (program : Module) (unsignedWidth : width.isSigned = false)
    (lhs : width.Word) (count : other.Word) :
    Emits program machine .shrUInt width [lhs.val, count.val]
      (answer reduces .shr width lhs.value count.value) := by
  refine ⟨_, rfl, shr_yields rfl ?_⟩
  intro low high
  have value : lhs.value = lhs.val.toUInt64.toNat :=
    IntWidth.valueOf_unsigned unsignedWidth lhs.property
  have read := IntWidth.toNat_eq_toInt low
  have below : count.val.toUInt64.toNat < 64 := by omega
  have shifted : ((lhs.val.toUInt64 >>> count.val.toUInt64).toNat : Int) =
      lhs.val.toUInt64.toNat / 2 ^ count.val.toInt.toNat := by
    rw [UInt64.toNat_shiftRight, Nat.mod_eq_of_lt below, Nat.shiftRight_eq_div_pow]
    have exponent : count.val.toUInt64.toNat = count.val.toInt.toNat := by omega
    rw [exponent]
    norm_cast
  rw [value, ← shifted, IntWidth.wordOf_toNat]
  rfl

/-! ## Every operator -/

theorem isSigned_of_ne (signed : width.isSigned = true) : width ≠ .u64 := by
  rintro rfl
  cases signed

theorem shift_emits (program : Module) {op : IntOperator} (shift : op = .shl ∨ op = .shr)
    (lhs : width.Word) (count : other.Word) :
    Emits program machine (op.resolve width) width [lhs.val, count.val]
      (answer reduces op width lhs.value count.value) := by
  rcases shift with rfl | rfl
  · exact shl_emits program lhs count
  · cases signed : width.isSigned with
    | true =>
      simp only [IntOperator.resolve, signed, if_true]
      exact shrInt_emits program (isSigned_of_ne signed) lhs count
    | false =>
      simp only [IntOperator.resolve, signed, Bool.false_eq_true, if_false]
      exact shrUInt_emits program signed lhs count

theorem operator_emits (program : Module) (op : IntOperator) (lhs rhs : width.Word) :
    Emits program machine (op.resolve width) width [lhs.val, rhs.val]
      (answer reduces op width lhs.value rhs.value) := by
  cases op with
  | add =>
    refine arithmetic_emits .addIntChecked .addUIntChecked (fun left right => left + right) ?_
      rfl rfl lhs.val rhs.val
    intro width
    cases width <;> rfl
  | sub =>
    refine arithmetic_emits .subIntChecked .subUIntChecked (fun left right => left - right) ?_
      rfl rfl lhs.val rhs.val
    intro width
    cases width <;> rfl
  | mul =>
    refine arithmetic_emits .mulIntChecked .mulUIntChecked (fun left right => left * right) ?_
      rfl rfl lhs.val rhs.val
    intro width
    cases width <;> rfl
  | div =>
    cases signed : width.isSigned with
    | true =>
      simp only [IntOperator.resolve, signed, if_true]
      exact divInt_emits (isSigned_of_ne signed) lhs.val rhs.val
    | false =>
      simp only [IntOperator.resolve, signed, Bool.false_eq_true, if_false]
      exact divUInt_emits signed lhs rhs
  | rem =>
    cases signed : width.isSigned with
    | true =>
      simp only [IntOperator.resolve, signed, if_true]
      exact remInt_emits (isSigned_of_ne signed) lhs rhs.val
    | false =>
      simp only [IntOperator.resolve, signed, Bool.false_eq_true, if_false]
      exact remUInt_emits signed lhs rhs
  | shl => exact shift_emits program (Or.inl rfl) lhs rhs
  | shr => exact shift_emits program (Or.inr rfl) lhs rhs
  | wrappingAdd => exact wrapping_emits rfl rfl (IntWidth.wordOf_add lhs.val rhs.val)
  | wrappingSub => exact wrapping_emits rfl rfl (IntWidth.wordOf_sub lhs.val rhs.val)
  | wrappingMul => exact wrapping_emits rfl rfl (IntWidth.wordOf_mul lhs.val rhs.val)

/-- Negation in every spelling but the unsigned 64-bit one. -/
theorem negate_yields (program : Module) (notU64 : width ≠ .u64) (value : width.Word) :
    Yields (performAll program (compileUnary .negInt (some width)) : Vm world Unit) machine
      [value.val] ((width.exactly (-value.value)).map fun word => [word]) := by
  have same : value.value = value.val.toInt := IntWidth.valueOf_of_not_u64 notU64
  rw [same]
  exact checked_yields notU64 negIntChecked_yields program

/-- Negation of an unsigned 64-bit word goes by its signed reading: it wraps, and
only the word of `2 ^ 63` is refused. -/
theorem negate_u64_yields (program : Module) (word : Int64) :
    Yields (performAll program (compileUnary .negInt (some .u64)) : Vm world Unit) machine [word]
      ((checkedInt (-word.toInt)).map fun negated => [negated]) :=
  negIntChecked_yields.last program

/-- A conversion that needs no check changes no value. -/
theorem holds_of_widensInto {source target : IntWidth} (widens : source.widensInto target = true)
    {value : Int} (held : source.holds value = true) : target.holds value = true := by
  unfold IntWidth.widensInto at widens
  rw [Bool.and_eq_true] at widens
  rcases widens with ⟨low, high⟩
  simp only [IntWidth.holds, decide_eq_true_eq] at low high held ⊢
  omega

theorem convert_yields (program : Module) (target : IntWidth) (value : width.Word) :
    Yields (performAll program (compileConvert .intToInt (some width) (some target)) :
      Vm world Unit) machine [value.val]
      ((target.exactly value.value).map fun word => [word]) := by
  cases widens : width.widensInto target with
  | true =>
    have held : target.holds value.value = true := holds_of_widensInto widens value.property
    have kept : target.wordOf value.value = value.val := IntWidth.wordOf_valueOf width value.val
    rw [exactly_of_holds held, kept]
    simp only [compileConvert, Option.getD_some, widens, if_true]
    rfl
  | false =>
    simp only [compileConvert, Option.getD_some, widens, Bool.false_eq_true, if_false]
    exact (convertInt_yields width target).last program

/-- The instructions the compiler emits for integers, run on words of the spelling.
A checked operator answers the word of its exact result or traps when there is none
in range; a shift traps on a count that is no bit of the width; the wrapping
builtins and the left shift answer the exact result modulo two to the width;
negation is exact in every spelling but the unsigned 64-bit one; and a conversion
keeps the value or traps when it does not fit. -/
theorem integer_operators_are_exact (program : Module) (machine : Machine world)
    (width : IntWidth) :
    (∀ (op : IntOperator) (lhs rhs : width.Word),
      Emits program machine (op.resolve width) width [lhs.val, rhs.val]
        (answer reduces op width lhs.value rhs.value)) ∧
    (∀ (op : IntOperator) (other : IntWidth) (lhs : width.Word) (count : other.Word),
      op = .shl ∨ op = .shr →
      Emits program machine (op.resolve width) width [lhs.val, count.val]
        (answer reduces op width lhs.value count.value)) ∧
    (∀ value : width.Word, width ≠ .u64 →
      Yields (performAll program (compileUnary .negInt (some width))) machine [value.val]
        ((width.exactly (-value.value)).map fun word => [word])) ∧
    (∀ (target : IntWidth) (value : width.Word),
      Yields (performAll program (compileConvert .intToInt (some width) (some target))) machine
        [value.val] ((target.exactly value.value).map fun word => [word])) := by
  refine ⟨?_, ?_, ?_, ?_⟩
  · intro op lhs rhs
    exact operator_emits program op lhs rhs
  · intro op other lhs count shift
    exact shift_emits program shift lhs count
  · intro value notU64
    exact negate_yields program notU64 value
  · intro target value
    exact convert_yields program target value

def wraps : IntOperator → Bool
  | .wrappingAdd | .wrappingSub | .wrappingMul => true
  | _ => false

theorem Yields.not_trap {words : List Int64} (yields : Yields run machine operands (some words)) :
    ¬ Yields run machine operands none := by
  rintro ⟨error, after, trapped⟩
  have ran : run (loaded machine operands) = .ok () (loaded machine words) := yields
  rw [ran] at trapped
  cases trapped

/-- A left shift of 64 by one in 8 bits does not trap although 128 is out of range,
and neither does the negation of an unsigned 64-bit one. -/
theorem left_shift_discards_bits :
    (¬ ∀ (world : World) (program : Module) (machine : Machine world) (width : IntWidth)
        (op : IntOperator) (lhs rhs : width.Word),
      Emits program machine (op.resolve width) width [lhs.val, rhs.val]
        (answer wraps op width lhs.value rhs.value)) ∧
    (¬ ∀ (world : World) (program : Module) (machine : Machine world) (width : IntWidth)
        (value : width.Word),
      Yields (performAll program (compileUnary .negInt (some width))) machine [value.val]
        ((width.exactly (-value.value)).map fun word => [word])) := by
  have program : Module := ⟨[], none, [], .default, [], .empty, [], [], []⟩
  have machine : Machine World.bare := freshMachine (Heap.new fun _ => 0) []
  constructor
  · intro exact
    rcases exact World.bare program machine .i8 .shl ⟨64, rfl⟩ ⟨1, rfl⟩ with
      ⟨code, emitted, traps⟩
    rcases @operator_emits World.bare machine .i8 program .shl ⟨64, rfl⟩ ⟨1, rfl⟩ with
      ⟨other, again, shifts⟩
    rw [emitted] at again
    cases again
    exact shifts.not_trap traps
  · intro exact
    have traps := exact World.bare program machine .u64 ⟨1, rfl⟩
    exact (@negate_u64_yields World.bare machine program 1).not_trap traps

end Vm

end KiraVm
