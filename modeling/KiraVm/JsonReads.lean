import KiraVm.JsonLiterals

/-!
# Reading documents

Blanks, words and what stands between brackets: the reader takes each to its end.
-/

namespace KiraVm

namespace Foundation

open StateLogic

open Json

namespace JsonReader

/-! ## Blanks -/

theorem isBlank_iff (byte : UInt8) : isBlank byte = true ↔ IsBlank byte := by
  simp [isBlank, IsBlank, or_assoc]

/-- No blank stands at the front. -/
def NoBlank (bytes : List UInt8) : Prop :=
  ∀ byte ∈ bytes.head?, ¬ IsBlank byte

section Cursor

variable {reader : JsonReader} {rest left : List UInt8}

theorem skipWhitespace_takes {blanks : List UInt8} (blank : Blanks blanks) (stops : NoBlank left)
    (stands : Stands reader (blanks ++ left)) :
    skipWhitespace reader = .ok () (reader.advance blanks.length) := by
  have all : ∀ byte ∈ blanks, isBlank byte = true :=
    fun byte among => (isBlank_iff byte).mpr (blank byte among)
  have empty : left.takeWhile isBlank = [] := by
    cases left with
    | nil => rfl
    | cons byte left =>
      exact List.takeWhile_cons_of_neg (mt (isBlank_iff byte).mp (stops byte rfl))
  rw [skipWhitespace_run stands, List.takeWhile_append_of_pos all, empty, List.append_nil]

/-! ## Words -/

theorem readKeywordFrom_takes {word : List UInt8} (stands : Stands reader (word ++ left))
    (done todo : List UInt8) (split : word = done ++ todo) :
    readKeywordFrom word done.length todo reader = .ok true (reader.advance word.length) := by
  induction todo generalizing done with
  | nil => rfl
  | cons expected todo ih =>
    have here : (word ++ left)[done.length]? = some expected := by
      rw [split, List.append_assoc, List.getElem?_append_right (Nat.le_refl _), Nat.sub_self]
      rfl
    have onward := ih (done ++ [expected]) (by rw [split]; simp)
    rw [List.length_append, List.length_singleton] at onward
    simp only [readKeywordFrom]
    rw [bind_run_ok (get_run reader), bind_run_ok (charAt_run stands _ here), if_neg (by simp)]
    exact onward

theorem readKeyword_takes {word : String} (stands : Stands reader (textBytes word ++ left)) :
    readKeyword word reader = .ok true (reader.advance (textBytes word).length) := by
  have counted := stands.length
  rw [List.length_append] at counted
  simp only [readKeyword]
  rw [bind_run_ok (get_run reader), if_neg (by omega)]
  exact readKeywordFrom_takes stands [] (textBytes word) rfl

/-! ## What stands between brackets -/

def closed (reader : JsonReader) (count : Nat) : JsonReader :=
  (reader.advance count).shallower

variable {α : Type} {close : UInt8} {answer : List α → JsonValue} {readElement : OnJson α}
  {before bytes after : List UInt8} {element : α}

theorem readElementsFrom_turn (blankBefore : Blanks before) (opens : NoBlank (bytes ++ left))
    (stands : Stands reader (before ++ (bytes ++ left))) (split : left = after ++ rest)
    (ran : readElement (reader.advance before.length) =
      .ok element (reader.advance (before.length + bytes.length)))
    (blankAfter : Blanks after) (stops : NoBlank rest) (elements : List α) (turns : Nat) :
    readElementsFrom close answer readElement elements (turns + 1) reader =
      (if rest.head? = some 44 then do
        moveBy 1
        readElementsFrom close answer readElement (elements ++ [element]) turns
      else if rest.head? = some close then do
        moveBy 1
        modify shallower
        pure (answer (elements ++ [element]))
      else refuseHere rest.head? .null)
        (reader.advance (before.length + (bytes.length + after.length))) := by
  have behind := stands.advance.advance
  rw [advance_advance, split] at behind
  have goesOn : (reader.advance (before.length + bytes.length)).stopped = false := behind.goesOn
  conv => lhs; simp only [readElementsFrom]
  rw [bind_run_ok (skipWhitespace_takes blankBefore opens stands), bind_run_ok ran,
    bind_run_ok (get_run _), goesOn, if_neg (by decide),
    bind_run_ok (skipWhitespace_takes blankAfter stops behind),
    bind_run_ok (peek_run behind.advance), advance_advance, Nat.add_assoc]

theorem readElementsFrom_last (blankBefore : Blanks before) (opens : NoBlank (bytes ++ left))
    (stands : Stands reader (before ++ (bytes ++ left))) (split : left = after ++ close :: rest)
    (ran : readElement (reader.advance before.length) =
      .ok element (reader.advance (before.length + bytes.length)))
    (blankAfter : Blanks after) (closing : ¬ IsBlank close) (notComma : close ≠ 44)
    (elements : List α) (turns : Nat) :
    readElementsFrom close answer readElement elements (turns + 1) reader =
      .ok (answer (elements ++ [element]))
        (reader.closed (before.length + (bytes.length + after.length) + 1)) := by
  have shut : NoBlank (close :: rest) := by
    intro byte first
    cases first
    exact closing
  rw [readElementsFrom_turn blankBefore opens stands split ran blankAfter shut, List.head?_cons,
    if_neg (fun same => notComma (Option.some.inj same)), if_pos rfl,
    bind_run_ok (moveBy_run _ _), advance_advance]
  rfl

theorem readElementsFrom_more (blankBefore : Blanks before) (opens : NoBlank (bytes ++ left))
    (stands : Stands reader (before ++ (bytes ++ left))) (split : left = after ++ 44 :: rest)
    (ran : readElement (reader.advance before.length) =
      .ok element (reader.advance (before.length + bytes.length)))
    (blankAfter : Blanks after) (elements : List α) (turns : Nat) :
    readElementsFrom close answer readElement elements (turns + 1) reader =
      readElementsFrom close answer readElement (elements ++ [element]) turns
        (reader.advance (before.length + (bytes.length + after.length) + 1)) := by
  have comma : NoBlank (44 :: rest) := by
    intro byte first
    cases first
    decide
  rw [readElementsFrom_turn blankBefore opens stands split ran blankAfter comma, List.head?_cons,
    if_pos rfl, bind_run_ok (moveBy_run _ _), advance_advance]

theorem readElementsFrom_skipped (blank : Blanks before) (opens : NoBlank left)
    (stands : Stands reader (before ++ left)) (elements : List α) (turns : Nat) :
    readElementsFrom close answer readElement elements (turns + 1)
        (reader.advance before.length) =
      readElementsFrom close answer readElement elements (turns + 1) reader := by
  have again : skipWhitespace (reader.advance before.length) =
      .ok () (reader.advance before.length) :=
    @skipWhitespace_takes _ left [] (List.forall_mem_nil _) opens stands.advance
  simp only [readElementsFrom]
  rw [bind_run_ok again, bind_run_ok (skipWhitespace_takes blank opens stands)]

end Cursor

end JsonReader

end Foundation

end KiraVm
