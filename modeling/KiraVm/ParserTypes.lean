import KiraVm.ParserDescent
import KiraVm.StepLimits

/-!
# Written types read back

A type is written token by token, and `parse_type_ref` reads it back as long as what
follows cannot go on with it: after a bare name, a `<` does.
-/

namespace KiraVm

namespace Parsing

open Lexing (TokenKind)
open StepLimits (Settles)

/-! ## The tokens of a type -/

def word (text : String) : Token := ⟨.identifier, text⟩

def pathTokens : List String → List Token
  | [] => []
  | name :: segments =>
    word name :: segments.flatMap fun segment => [⟨.dot, "."⟩, word segment]

def OwnershipMode.tokens : OwnershipMode → List Token
  | .owned => []
  | .borrowRead => [word "borrow"]
  | .borrowMut => [word "borrow", word "mut"]
  | .move => [word "move"]
  | .copy => [word "copy"]

mutual

def TypeRef.tokens : TypeRef → List Token
  | .named name => pathTokens name
  | .array element => ⟨.lBracket, "["⟩ :: (element.tokens ++ [⟨.rBracket, "]"⟩])
  | .someConstruct family => word "some" :: pathTokens family
  | .generic name args =>
    pathTokens name ++
      ⟨.lt, "<"⟩ :: (typesTokens args (args.map fun _ => .owned) ++ [⟨.gt, ">"⟩])
  | .function params modes result =>
    ⟨.lParen, "("⟩ ::
      (typesTokens params modes ++ ⟨.rParen, ")"⟩ :: ⟨.arrow, "->"⟩ :: result.tokens)
  | .tuple elements =>
    ⟨.lParen, "("⟩ ::
      (typesTokens elements (elements.map fun _ => .owned) ++ [⟨.rParen, ")"⟩])
  | .error => []

def typesTokens : List TypeRef → List OwnershipMode → List Token
  | [], _ => []
  | [ty], modes => (modes.headD .owned).tokens ++ ty.tokens
  | ty :: others, modes =>
    (modes.headD .owned).tokens ++ ty.tokens ++ ⟨.comma, ","⟩ :: typesTokens others modes.tail

end

mutual

def TypeRef.Written : TypeRef → Prop
  | .named name => name ≠ []
  | .array element => element.Written
  | .someConstruct family => family ≠ []
  | .generic name args => name ≠ [] ∧ args ≠ [] ∧ AllWritten args
  | .function params modes result =>
    params.length = modes.length ∧ AllWritten params ∧ result.Written
  | .tuple elements => (2 ≤ elements.length ∧ elements.length ≤ 4) ∧ AllWritten elements
  | .error => False

def AllWritten : List TypeRef → Prop
  | [] => True
  | ty :: others => ty.Written ∧ AllWritten others

end

mutual

/-- How many levels of nesting the type takes. -/
def TypeRef.need : TypeRef → Nat
  | .named _ | .someConstruct _ | .error => 1
  | .array element => element.need + 1
  | .generic _ args => typesNeed args + 1
  | .function params _ result => max (typesNeed params) result.need + 1
  | .tuple elements => typesNeed elements + 1

def typesNeed : List TypeRef → Nat
  | [] => 0
  | ty :: others => max ty.need (typesNeed others)

end

/-- Whether the last token of the type is one of a name that may take arguments. -/
def TypeRef.endsInName : TypeRef → Bool
  | .named _ => true
  | .function _ _ result => result.endsInName
  | _ => false

theorem TypeRef.listInduction {motive : TypeRef → Prop}
    (named : ∀ name, motive (.named name))
    (array : ∀ element, motive element → motive (.array element))
    (someConstruct : ∀ family, motive (.someConstruct family))
    (generic : ∀ name args, (∀ arg ∈ args, motive arg) → motive (.generic name args))
    (function : ∀ params modes result, (∀ param ∈ params, motive param) → motive result →
      motive (.function params modes result))
    (tuple : ∀ elements, (∀ element ∈ elements, motive element) → motive (.tuple elements))
    (error : motive .error) : ∀ ty, motive ty
  | .named name => named name
  | .array element =>
    array element
      (listInduction named array someConstruct generic function tuple error element)
  | .someConstruct family => someConstruct family
  | .generic name args =>
    generic name args fun arg _ =>
      listInduction named array someConstruct generic function tuple error arg
  | .function params modes result =>
    function params modes result
      (fun param _ =>
        listInduction named array someConstruct generic function tuple error param)
      (listInduction named array someConstruct generic function tuple error result)
  | .tuple elements =>
    tuple elements fun element _ =>
      listInduction named array someConstruct generic function tuple error element
  | .error => error

theorem allWritten_iff {types : List TypeRef} :
    AllWritten types ↔ ∀ ty ∈ types, ty.Written := by
  induction types with
  | nil => simp [AllWritten]
  | cons ty others ih => simp [AllWritten, ih]

/-! ## Looking ahead -/

def firstKind (tokens : List Token) : TokenKind :=
  (tokens.headD endOfInput).kind

@[simp]
theorem firstKind_cons (token : Token) (tokens : List Token) :
    firstKind (token :: tokens) = token.kind := rfl

section Lookahead

variable {tokens : List Token} {depth : Nat} {reports : List Diagnostic}

@[simp]
theorem State.currentKind_mk :
    State.currentKind ⟨tokens, depth, reports⟩ = firstKind tokens := by
  cases tokens <;> rfl

theorem State.peek_one {token : Token} :
    (State.peek ⟨token :: tokens, depth, reports⟩ 1).kind = firstKind tokens := by
  cases tokens <;> rfl

end Lookahead

def startsType : TokenKind → Bool
  | .identifier | .lBracket | .lParen => true
  | _ => false

/-- Whether a type goes on at a token of the kind, arguments left out. -/
def continuesType : TokenKind → Bool
  | .dot | .arrow | .identifier | .lBracket | .lParen => true
  | _ => false

theorem not_startsType {kind : TokenKind} (stops : continuesType kind = false) :
    startsType kind = false := by
  cases kind <;> first | rfl | cases stops

/-- What the lookahead after an ownership word needs to know of a type: where it begins
with a name, that name is the word `some`, or no type begins after it. -/
def BeginsType : List Token → Prop
  | [] => False
  | first :: rest =>
    startsType first.kind = true ∧
      (first.kind = .identifier → first.text = "some" ∨ startsType (firstKind rest) = false)

theorem beginsType_path {name : List String} (named : name ≠ []) {after : List Token}
    (stops : startsType (firstKind after) = false) : BeginsType (pathTokens name ++ after) := by
  cases name with
  | nil => exact absurd rfl named
  | cons first segments =>
    constructor
    · rfl
    · intro _
      apply Or.inr
      cases segments with
      | nil => exact stops
      | cons segment segments => rfl

theorem TypeRef.beginsType {ty : TypeRef} (written : ty.Written) {after : List Token}
    (stops : continuesType (firstKind after) = false) : BeginsType (ty.tokens ++ after) := by
  have plain := not_startsType stops
  cases ty with
  | named name => exact beginsType_path written plain
  | array element => exact ⟨rfl, nofun⟩
  | someConstruct family => exact ⟨rfl, fun _ => Or.inl rfl⟩
  | generic name args =>
    rw [TypeRef.tokens, List.append_assoc]
    exact beginsType_path written.1 rfl
  | function params modes result => exact ⟨rfl, nofun⟩
  | tuple elements => exact ⟨rfl, nofun⟩
  | error => exact written.elim

variable {first : Token} {rest : List Token} {depth : Nat} {reports : List Diagnostic}

theorem BeginsType.notMode (begins : BeginsType (first :: rest)) (mode : String)
    (other : mode ≠ "some") :
    (first.kind == .identifier && first.text == mode && startsType (firstKind rest)) = false := by
  rcases hnamed : first.kind == .identifier
  · rfl
  · rcases begins.2 (eq_of_beq hnamed) with some | plain
    · have differs : (first.text == mode) = false := by
        rw [some, beq_eq_false_iff_ne]
        exact other.symm
      rw [differs]
      rfl
    · rw [plain, Bool.and_false]

theorem peekStartsType_two {second : Token} :
    State.peekStartsType ⟨first :: second :: rest, depth, reports⟩ 2 =
      startsType (firstKind rest) := by
  cases rest <;> rfl

theorem peekStartsType_one :
    State.peekStartsType ⟨first :: rest, depth, reports⟩ 1 = startsType (firstKind rest) := by
  cases rest <;> rfl

theorem TypeRef.length_pos {ty : TypeRef} (written : ty.Written) : 0 < ty.tokens.length := by
  have begins := @TypeRef.beginsType ty written [] rfl
  rw [List.append_nil] at begins
  apply List.length_pos_of_ne_nil
  intro empty
  rw [empty] at begins
  exact begins.elim

theorem parseOwnershipPrefix_tokens (mode : OwnershipMode) {tokens : List Token}
    (begins : BeginsType tokens) :
    parseOwnershipPrefix ⟨mode.tokens ++ tokens, depth, reports⟩ =
      (mode, ⟨tokens, depth, reports⟩) := by
  cases tokens with
  | nil => exact begins.elim
  | cons first rest =>
    have noBorrow := begins.notMode "borrow" (by decide)
    have noMut := begins.notMode "mut" (by decide)
    have noMove := begins.notMode "move" (by decide)
    have noCopy := begins.notMode "copy" (by decide)
    have starts : ∀ tokens, startsType (firstKind (first :: tokens)) = true := fun _ => begins.1
    cases mode with
    | owned =>
      have here : ∀ word, State.atWord ⟨first :: rest, depth, reports⟩ word =
          (first.kind == .identifier && first.text == word) := fun _ => rfl
      have notMutable : (first.kind == .identifier && first.text == "borrow" &&
          State.peekIsWord ⟨first :: rest, depth, reports⟩ 1 "mut") = false := by
        rcases plain : startsType (firstKind rest)
        · have other : ((State.peek ⟨first :: rest, depth, reports⟩ 1).kind ==
              TokenKind.identifier) = false := by
            rw [State.peek_one, beq_eq_false_iff_ne]
            intro same
            rw [same] at plain
            cases plain
          rw [State.peekIsWord, other, Bool.false_and, Bool.and_false]
        · rw [plain, Bool.and_true] at noBorrow
          rw [noBorrow, Bool.false_and]
      simp only [OwnershipMode.tokens, List.nil_append, parseOwnershipPrefix, here,
        notMutable, peekStartsType_one, noBorrow, noMove, noCopy, Bool.false_and,
        Bool.false_eq_true, if_false]
    | borrowRead =>
      have mutable : State.peekIsWord ⟨word "borrow" :: first :: rest, depth, reports⟩ 1 "mut" =
          (first.kind == .identifier && first.text == "mut") := rfl
      have notBoth :
          (State.atWord ⟨word "borrow" :: first :: rest, depth, reports⟩ "borrow" &&
            (first.kind == .identifier && first.text == "mut") &&
            startsType (firstKind rest)) = false := by
        rw [Bool.and_assoc, noMut, Bool.and_false]
      simp only [OwnershipMode.tokens, List.cons_append, List.nil_append,
        parseOwnershipPrefix, mutable, peekStartsType_two, notBoth, peekStartsType_one, starts]
      rfl
    | borrowMut =>
      simp only [OwnershipMode.tokens, List.cons_append, List.nil_append,
        parseOwnershipPrefix, peekStartsType_two, starts]
      rfl
    | move =>
      simp only [OwnershipMode.tokens, List.cons_append, List.nil_append,
        parseOwnershipPrefix, peekStartsType_one, starts]
      rfl
    | copy =>
      simp only [OwnershipMode.tokens, List.cons_append, List.nil_append,
        parseOwnershipPrefix, peekStartsType_one, starts]
      rfl

/-! ## Names -/

theorem qualifiedTail_path (segments : List String) {after : List Token}
    (stops : firstKind after ≠ .dot) :
    qualifiedTail
        (segments.flatMap (fun segment => [⟨.dot, "."⟩, word segment]) ++ after) =
      (segments, after) := by
  induction segments with
  | nil =>
    rcases after with _ | ⟨first, _ | ⟨second, after⟩⟩
    · rfl
    · rfl
    · exact if_neg fun both => stops both.1
  | cons segment segments ih =>
    simp only [List.flatMap_cons, List.cons_append, List.nil_append]
    rw [qualifiedTail, if_pos ⟨rfl, rfl⟩]
    simp only [ih]
    rfl

section Reading

variable {F : Type} {floats : FloatReading F} {after : List Token} {depth : Nat}
  {reports : List Diagnostic}

theorem parseQualifiedName_path {name : List String} (named : name ≠ [])
    (stops : firstKind after ≠ .dot) :
    parseQualifiedName ⟨pathTokens name ++ after, depth, reports⟩ =
      (name, ⟨after, depth, reports⟩) := by
  cases name with
  | nil => exact absurd rfl named
  | cons first segments =>
    have tail := qualifiedTail_path segments stops
    simp only [parseQualifiedName, pathTokens, State.bump, List.cons_append, List.tail_cons,
      tail]
    rfl

theorem not_existential {name : List String} (named : name ≠ [])
    (plain : firstKind after ≠ .identifier) :
    (State.atSomeConstruct ⟨pathTokens name ++ after, depth, reports⟩ ||
      State.atAnyConstruct ⟨pathTokens name ++ after, depth, reports⟩) = false := by
  cases name with
  | nil => exact absurd rfl named
  | cons first segments =>
    have other : ((State.peek ⟨pathTokens (first :: segments) ++ after, depth, reports⟩ 1).kind ==
        TokenKind.identifier) = false := by
      rw [pathTokens, List.cons_append, State.peek_one, beq_eq_false_iff_ne]
      cases segments with
      | nil => exact plain
      | cons segment segments => nofun
    rw [State.atSomeConstruct, State.atAnyConstruct, other, Bool.and_false, Bool.and_false,
      Bool.or_false]

theorem parseTypeRefInner_path (deeper : Descent F) {name : List String} (named : name ≠ [])
    (noDot : firstKind after ≠ .dot) (noName : firstKind after ≠ .identifier) :
    parseTypeRefInner deeper ⟨pathTokens name ++ after, depth, reports⟩ =
      if firstKind after = .lt then parseGenericArgs deeper name ⟨after, depth, reports⟩
      else some (.named name, ⟨after, depth, reports⟩) := by
  have kind : firstKind (pathTokens name ++ after) = .identifier := by
    cases name with
    | nil => exact absurd rfl named
    | cons first segments => rfl
  simp only [parseTypeRefInner, State.currentKind_mk, kind, not_existential named noName,
    parseQualifiedName_path named noDot, Bool.false_eq_true, if_false]

/-! ## Whole types -/

/-- The type is read back wherever what follows does not go on with it. -/
def ReadsType (floats : FloatReading F) (ty : TypeRef) : Prop :=
  ∀ (after : List Token) (depth : Nat) (reports : List Diagnostic),
    continuesType (firstKind after) = false →
    (ty.endsInName = true → firstKind after ≠ .lt) →
    depth + ty.need ≤ maxNestingDepth →
    Settles (descent floats) (fun deeper => deeper.typeRef ⟨ty.tokens ++ after, depth, reports⟩)
      (ty, ⟨after, depth, reports⟩)

variable {tokens : List Token} {modes : List OwnershipMode} {left : List Token}

theorem settles_typeRef {ty : TypeRef} (allowed : depth < maxNestingDepth)
    (inner : Settles (descent floats)
      (fun deeper => parseTypeRefInner deeper ⟨tokens, depth + 1, reports⟩)
      (ty, ⟨after, depth + 1, reports⟩)) :
    Settles (descent floats) (fun deeper => deeper.typeRef ⟨tokens, depth, reports⟩)
      (ty, ⟨after, depth, reports⟩) := by
  have outer : Settles (descent floats)
      (fun deeper => parseTypeRef deeper ⟨tokens, depth, reports⟩)
      (ty, ⟨after, depth, reports⟩) := by
    filter_upwards [inner] with steps inner
    simp only [parseTypeRef, State.enterNesting, if_neg allowed.ne, allowed, decide_true, if_true]
    rw [inner]
    rfl
  exact outer.next fun _ => rfl

/-! ## Lists of types -/

/-- What stands after the first of the types. -/
def moreTokens : List TypeRef → List OwnershipMode → List Token
  | [], _ => []
  | others, modes => ⟨.comma, ","⟩ :: typesTokens others modes

theorem typesTokens_cons (ty : TypeRef) (others : List TypeRef) (modes : List OwnershipMode) :
    typesTokens (ty :: others) modes =
      (modes.headD .owned).tokens ++ ty.tokens ++ moreTokens others modes.tail := by
  cases others with
  | nil => rw [typesTokens, moreTokens, List.append_nil]
  | cons other others =>
    rw [typesTokens, moreTokens]
    · nofun
    · nofun

theorem eat_more (others : List TypeRef) (modes : List OwnershipMode)
    (noComma : firstKind after ≠ .comma) :
    State.eat ⟨moreTokens others modes ++ after, depth, reports⟩ .comma =
      (!others.isEmpty, ⟨typesTokens others modes ++ after, depth, reports⟩) := by
  cases others with
  | nil =>
    rw [moreTokens, List.nil_append, State.eat, State.currentKind_mk, if_neg noComma]
    rfl
  | cons other others => rfl

theorem more_stops {others : List TypeRef} {kind : TokenKind} (noComma : kind ≠ .comma)
    (here : firstKind (moreTokens others modes ++ after) = kind) : firstKind after = kind := by
  cases others with
  | nil => exact here
  | cons other others => exact absurd here.symm noComma

theorem more_plain (others : List TypeRef) (modes : List OwnershipMode)
    (stops : continuesType (firstKind after) = false) :
    continuesType (firstKind (moreTokens others modes ++ after)) = false := by
  cases others with
  | nil => exact stops
  | cons other others => rfl

/-- Something was consumed where fewer tokens are left. -/
theorem forceProgress_of_lt {state before : State} (fewer : state.rest.length < before.rest.length) :
    state.forceProgress before = state := by
  apply if_neg
  intro same
  rw [same] at fewer
  exact fewer.false

theorem length_moreTokens (others : List TypeRef) (modes : List OwnershipMode) :
    (typesTokens others modes).length ≤ (moreTokens others modes).length := by
  cases others with
  | nil => exact Nat.zero_le _
  | cons other others => exact Nat.le_succ _

theorem BeginsType.nonempty (begins : BeginsType tokens) :
    startsType (firstKind tokens) = true := by
  cases tokens with
  | nil => exact begins.elim
  | cons first rest => exact begins.1

theorem list_goesOn (begins : startsType (firstKind tokens) = true) :
    firstKind tokens ≠ .gt ∧ firstKind tokens ≠ .gtGt ∧ firstKind tokens ≠ .rParen ∧
      firstKind tokens ≠ .eof := by
  revert begins
  generalize firstKind tokens = kind
  cases kind <;> decide

theorem parseTypeArgsLoop_step {deeper : Descent F} {before : List TypeRef}
    {next : List Token} {arg : TypeRef} {comma : Bool}
    (begins : startsType (firstKind tokens) = true)
    (first : deeper.typeRef ⟨tokens, depth, reports⟩ = some (arg, ⟨left, depth, reports⟩))
    (eaten : State.eat ⟨left, depth, reports⟩ .comma = (comma, ⟨next, depth, reports⟩))
    (fewer : next.length < tokens.length) :
    parseTypeArgsLoop deeper before ⟨tokens, depth, reports⟩ =
      deeper.typeArgs (before ++ [arg]) ⟨next, depth, reports⟩ := by
  rcases list_goesOn begins with ⟨noClose, noHalf, -, noEnd⟩
  have goesOn : (State.atGenericClose ⟨tokens, depth, reports⟩ ||
      State.currentKind ⟨tokens, depth, reports⟩ == TokenKind.eof) = false := by
    simp [State.atGenericClose, noClose, noHalf, noEnd]
  simp only [parseTypeArgsLoop, goesOn, Bool.false_eq_true, if_false, first, Option.bind_eq_bind,
    Option.bind_some, eaten]
  rw [forceProgress_of_lt fewer]

theorem settles_typeArgs {args : List TypeRef}
    (reads : ∀ arg ∈ args, arg.Written ∧ ReadsType floats arg)
    (within : depth + typesNeed args ≤ maxNestingDepth) (before : List TypeRef) :
    Settles (descent floats)
      (fun deeper => deeper.typeArgs before
        ⟨typesTokens args (args.map fun _ => .owned) ++ ⟨.gt, ">"⟩ :: after, depth, reports⟩)
      (before ++ args, ⟨⟨.gt, ">"⟩ :: after, depth, reports⟩) := by
  induction args generalizing before with
  | nil =>
    have settled : Settles (descent floats)
        (fun deeper => parseTypeArgsLoop deeper before
          ⟨⟨.gt, ">"⟩ :: after, depth, reports⟩)
        (before, ⟨⟨.gt, ">"⟩ :: after, depth, reports⟩) :=
      Settles.of_forall fun _ => rfl
    rw [List.append_nil]
    exact settled.next fun _ => rfl
  | cons arg others ih =>
    rcases reads arg List.mem_cons_self with ⟨written, readsArg⟩
    rw [typesNeed] at within
    have later := ih (fun other member => reads other (List.mem_cons_of_mem _ member))
      (by omega) (before ++ [arg])
    have plain : continuesType (firstKind (moreTokens others (others.map fun _ => .owned) ++
        ⟨.gt, ">"⟩ :: after)) = false := more_plain _ _ rfl
    have begins := TypeRef.beginsType written plain
    have first := readsArg _ depth reports plain
      (fun _ here => by cases more_stops (by decide) here) (by omega)
    have eaten := @eat_more (⟨.gt, ">"⟩ :: after) depth reports others
      (others.map fun _ => .owned) nofun
    have tokens : typesTokens (arg :: others) ((arg :: others).map fun _ => .owned) ++
          ⟨.gt, ">"⟩ :: after =
        arg.tokens ++
          (moreTokens others (others.map fun _ => .owned) ++ ⟨.gt, ">"⟩ :: after) := by
      rw [typesTokens_cons, List.append_assoc]
      rfl
    have shorter := length_moreTokens others (others.map fun _ => .owned)
    have nonempty := TypeRef.length_pos written
    rw [tokens]
    have round : Settles (descent floats)
        (fun deeper => parseTypeArgsLoop deeper before
          ⟨arg.tokens ++ (moreTokens others (others.map fun _ => .owned) ++
            ⟨.gt, ">"⟩ :: after), depth, reports⟩)
        (before ++ arg :: others, ⟨⟨.gt, ">"⟩ :: after, depth, reports⟩) := by
      filter_upwards [first, later] with steps first later
      rw [parseTypeArgsLoop_step begins.nonempty first eaten, later, List.append_assoc]
      · rfl
      · simp only [List.length_append]
        omega
    exact round.next fun _ => rfl

theorem parseFunctionTypeParamsLoop_step {deeper : Descent F} {params : List TypeRef}
    {next : List Token} {param : TypeRef} {mode : OwnershipMode} (begins : BeginsType tokens)
    (first : deeper.typeRef ⟨tokens, depth, reports⟩ = some (param, ⟨left, depth, reports⟩))
    {comma : Bool}
    (eaten : State.eat ⟨left, depth, reports⟩ .comma = (comma, ⟨next, depth, reports⟩))
    (fewer : next.length < tokens.length) :
    parseFunctionTypeParamsLoop deeper params modes
        ⟨mode.tokens ++ tokens, depth, reports⟩ =
      if comma then
        (deeper.functionTypeParams (params ++ [param]) (modes ++ [mode])
          ⟨next, depth, reports⟩).bind fun answer =>
            some ((answer.1.1, answer.1.2.1, true), answer.2)
      else some ((params ++ [param], modes ++ [mode], false), ⟨next, depth, reports⟩) := by
  have starts : startsType (firstKind (mode.tokens ++ tokens)) = true := by
    cases mode with
    | owned => exact begins.nonempty
    | borrowRead => rfl
    | borrowMut => rfl
    | move => rfl
    | copy => rfl
  rcases list_goesOn starts with ⟨-, -, noClose, noEnd⟩
  have goesOn : ¬ (State.currentKind ⟨mode.tokens ++ tokens, depth, reports⟩ = .rParen ∨
      State.currentKind ⟨mode.tokens ++ tokens, depth, reports⟩ = .eof) := by
    simp [noClose, noEnd]
  have progress : State.forceProgress ⟨next, depth, reports⟩
      ⟨mode.tokens ++ tokens, depth, reports⟩ = ⟨next, depth, reports⟩ :=
    forceProgress_of_lt (by simp only [List.length_append]; omega)
  rw [parseFunctionTypeParamsLoop, if_neg goesOn]
  simp only [parseOwnershipPrefix_tokens mode begins, first, Option.bind_eq_bind,
    Option.bind_some, eaten, progress]
  cases comma with
  | false => rfl
  | true => rfl

theorem settles_params {args : List TypeRef} {given : List OwnershipMode}
    (same : args.length = given.length)
    (reads : ∀ arg ∈ args, arg.Written ∧ ReadsType floats arg)
    (within : depth + typesNeed args ≤ maxNestingDepth) (params : List TypeRef)
    (modes : List OwnershipMode) :
    Settles (descent floats)
      (fun deeper => deeper.functionTypeParams params modes
        ⟨typesTokens args given ++ ⟨.rParen, ")"⟩ :: after, depth, reports⟩)
      ((params ++ args, modes ++ given, decide (1 < args.length)),
        ⟨⟨.rParen, ")"⟩ :: after, depth, reports⟩) := by
  induction args generalizing given params modes with
  | nil =>
    cases given with
    | cons mode given => cases same
    | nil =>
      have settled : Settles (descent floats)
          (fun deeper => parseFunctionTypeParamsLoop deeper params modes
            ⟨⟨.rParen, ")"⟩ :: after, depth, reports⟩)
          ((params, modes, false), ⟨⟨.rParen, ")"⟩ :: after, depth, reports⟩) :=
        Settles.of_forall fun _ => rfl
      rw [List.append_nil, List.append_nil]
      exact settled.next fun _ => rfl
  | cons arg others ih =>
    cases given with
    | nil => cases same
    | cons mode given =>
      rcases reads arg List.mem_cons_self with ⟨written, readsArg⟩
      rw [typesNeed] at within
      have later := ih (Nat.succ.inj same)
        (fun other member => reads other (List.mem_cons_of_mem _ member)) (by omega)
        (params ++ [arg]) (modes ++ [mode])
      have plain : continuesType (firstKind (moreTokens others given ++
          ⟨.rParen, ")"⟩ :: after)) = false := more_plain _ _ rfl
      have begins := TypeRef.beginsType written plain
      have first := readsArg _ depth reports plain
        (fun _ here => by cases more_stops (by decide) here) (by omega)
      have eaten := @eat_more (⟨.rParen, ")"⟩ :: after) depth reports others given nofun
      have shorter := length_moreTokens others given
      have nonempty := TypeRef.length_pos written
      have tokens : typesTokens (arg :: others) (mode :: given) ++ ⟨.rParen, ")"⟩ :: after =
          mode.tokens ++
            (arg.tokens ++ (moreTokens others given ++ ⟨.rParen, ")"⟩ :: after)) := by
        rw [typesTokens_cons, List.append_assoc, List.append_assoc]
        rfl
      rw [tokens]
      have round : Settles (descent floats)
          (fun deeper => parseFunctionTypeParamsLoop deeper params modes
            ⟨mode.tokens ++ (arg.tokens ++ (moreTokens others given ++
              ⟨.rParen, ")"⟩ :: after)), depth, reports⟩)
          ((params ++ arg :: others, modes ++ mode :: given,
            decide (1 < (arg :: others).length)),
            ⟨⟨.rParen, ")"⟩ :: after, depth, reports⟩) := by
        filter_upwards [first, later] with steps first later
        rw [parseFunctionTypeParamsLoop_step begins first eaten
          (by simp only [List.length_append]; omega)]
        cases others with
        | nil =>
          cases given with
          | nil => rfl
          | cons other given => cases same
        | cons other others =>
          rw [if_pos (by rfl), later, List.append_assoc, List.append_assoc]
          simp
      exact round.next fun _ => rfl

/-! ## Every type -/

theorem typeRef_plain (stops : continuesType (firstKind after) = false) :
    firstKind after ≠ .dot ∧ firstKind after ≠ .identifier ∧ firstKind after ≠ .arrow := by
  revert stops
  generalize firstKind after = kind
  cases kind <;> decide

theorem settles_functionType {params : List TypeRef} (same : params.length = modes.length)
    (reads : ∀ param ∈ params, param.Written ∧ ReadsType floats param)
    (within : depth + typesNeed params ≤ maxNestingDepth) {answer : TypeRef × State}
    (ends : Settles (descent floats)
      (fun deeper => parseFunctionTypeEnd deeper params modes (decide (1 < params.length))
        ⟨left, depth, reports⟩) answer) :
    Settles (descent floats)
      (fun deeper => parseTypeRefInner deeper
        ⟨⟨.lParen, "("⟩ :: (typesTokens params modes ++ ⟨.rParen, ")"⟩ :: left), depth, reports⟩)
      answer := by
  have listed := @settles_params F floats left depth reports params modes same reads within [] []
  filter_upwards [listed, ends] with steps listed ends
  simp only [parseTypeRefInner, State.currentKind_mk, firstKind_cons, parseFunctionType,
    State.bump, List.tail_cons, listed, Option.bind_eq_bind, Option.bind_some, List.nil_append]
  exact ends

end Reading

theorem TypeRef.reads {F : Type} (floats : FloatReading F) (ty : TypeRef) :
    ty.Written → ReadsType floats ty := by
  induction ty using TypeRef.listInduction with
  | named name =>
    intro written after depth reports stops noArgs within
    rcases typeRef_plain stops with ⟨noDot, noName, -⟩
    rw [TypeRef.need] at within
    apply settles_typeRef (by omega)
    apply Settles.of_forall
    intro deeper
    rw [TypeRef.tokens, parseTypeRefInner_path deeper written noDot noName,
      if_neg (noArgs rfl)]
  | array element ih =>
    intro written after depth reports stops noArgs within
    rw [TypeRef.need] at within
    have inner := ih written (⟨.rBracket, "]"⟩ :: after) (depth + 1) reports rfl
      (fun _ => nofun) (by omega)
    apply settles_typeRef (by omega)
    filter_upwards [inner] with steps inner
    rw [TypeRef.tokens, List.cons_append, List.append_assoc]
    simp only [parseTypeRefInner, State.currentKind_mk, firstKind_cons, State.bump,
      List.tail_cons, List.singleton_append, inner, Option.bind_eq_bind, Option.bind_some]
    rfl
  | someConstruct family =>
    intro written after depth reports stops noArgs within
    rcases typeRef_plain stops with ⟨noDot, -, -⟩
    rw [TypeRef.need] at within
    apply settles_typeRef (by omega)
    apply Settles.of_forall
    intro deeper
    have existential : State.atSomeConstruct
        ⟨(TypeRef.someConstruct family).tokens ++ after, depth + 1, reports⟩ = true := by
      cases family with
      | nil => exact absurd rfl written
      | cons first segments => rfl
    have path := @parseQualifiedName_path after (depth + 1) reports family written noDot
    rw [parseTypeRefInner, State.currentKind_mk]
    simp only [existential, Bool.true_or, if_true]
    simp only [TypeRef.tokens, List.cons_append, firstKind_cons, word, State.bump,
      List.tail_cons, path]
  | generic name args ih =>
    intro written after depth reports stops noArgs within
    rcases written with ⟨named, nonempty, all⟩
    rw [TypeRef.need] at within
    have each := allWritten_iff.mp all
    have listed := @settles_typeArgs F floats after (depth + 1) reports args
      (fun arg member => ⟨each arg member, ih arg member (each arg member)⟩) (by omega) []
    apply settles_typeRef (by omega)
    filter_upwards [listed] with steps listed
    have some : args.isEmpty = false := by
      cases args with
      | nil => exact absurd rfl nonempty
      | cons arg others => rfl
    have path := @parseTypeRefInner_path F
      (⟨.lt, "<"⟩ :: (typesTokens args (args.map fun _ => .owned) ++ ⟨.gt, ">"⟩ :: after))
      (depth + 1) reports (descent floats steps) name named nofun nofun
    rw [TypeRef.tokens, List.append_assoc, List.cons_append, List.append_assoc,
      List.singleton_append, path, firstKind_cons, if_pos rfl]
    simp only [parseGenericArgs, State.bump, List.tail_cons, listed, Option.bind_eq_bind,
      Option.bind_some, List.nil_append, State.eatGenericClose, some]
    rfl
  | function params modes result ih resultIh =>
    intro written after depth reports stops noArgs within
    rcases written with ⟨same, all, writtenResult⟩
    rw [TypeRef.need] at within
    have each := allWritten_iff.mp all
    have answers := resultIh writtenResult after (depth + 1) reports stops noArgs (by omega)
    apply settles_typeRef (by omega)
    rw [TypeRef.tokens, List.cons_append, List.append_assoc, List.cons_append,
      List.cons_append]
    apply settles_functionType same
      (fun param member => ⟨each param member, ih param member (each param member)⟩) (by omega)
    filter_upwards [answers] with steps answers
    have arrow : State.eat ⟨⟨.arrow, "->"⟩ :: (result.tokens ++ after), depth + 1, reports⟩
        .arrow = (true, ⟨result.tokens ++ after, depth + 1, reports⟩) := rfl
    simp only [parseFunctionTypeEnd, arrow, if_true, answers, Option.bind_eq_bind,
      Option.bind_some]
  | tuple elements ih =>
    intro written after depth reports stops noArgs within
    rcases written with ⟨⟨two, four⟩, all⟩
    rw [TypeRef.need] at within
    have each := allWritten_iff.mp all
    rcases typeRef_plain stops with ⟨-, -, noArrow⟩
    apply settles_typeRef (by omega)
    rw [TypeRef.tokens, List.cons_append, List.append_assoc, List.singleton_append]
    apply settles_functionType (List.length_map _).symm
      (fun element member => ⟨each element member, ih element member (each element member)⟩)
      (by omega)
    apply Settles.of_forall
    intro deeper
    have arrow : State.eat ⟨after, depth + 1, reports⟩ .arrow =
        (false, ⟨after, depth + 1, reports⟩) := by
      rw [State.eat, State.currentKind_mk, if_neg noArrow]
    have inRange : ¬ (elements.length < 2 ∨ 4 < elements.length) := by omega
    have owned : ((elements.map fun _ => OwnershipMode.owned).any (· ≠ .owned)) = false := by
      simp
    simp only [parseFunctionTypeEnd, arrow, Bool.false_eq_true, if_false, inRange, owned]
    rcases elements with _ | ⟨first, _ | ⟨second, others⟩⟩
    · rfl
    · cases two with
      | step impossible => cases impossible
    · rfl
  | error => exact fun written => written.elim

end Parsing

end KiraVm
