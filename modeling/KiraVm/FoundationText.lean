import KiraVm.ModuleCodec
import KiraVm.StateLogic

/-!
# Texts and integers of Kira

What programs of the language share: an operation that cannot answer stops the
program, an `Int` has 64 bits, and a text is the bytes of its characters, which
are read one at a time and never written.
-/

namespace KiraVm

namespace Foundation

/-- Why a program stops.  No program stops as `endless`: a loop that is still going when the
turns that the model gives it are used up would never end. -/
inductive KiraTrap
  | integerOverflow
  | integerRange
  | indexOutOfBounds
  | substringBounds
  | callDepth
  | endless
  deriving DecidableEq, Repr

/-- A result that stops the program when there is none. -/
def orTrap {σ α : Type} : Except KiraTrap α → EStateM KiraTrap σ α
  | .ok value => pure value
  | .error trap => throw trap

/-! ## Integers -/

def intMax : Int := 2 ^ 63 - 1

def intMin : Int := -2 ^ 63

/-- The result of an operator on `Int`, when it is one. -/
def checkedInt (value : Int) : Except KiraTrap Int :=
  if intMin ≤ value ∧ value ≤ intMax then .ok value else .error .integerOverflow

def intOfU64 (word : UInt64) : Except KiraTrap Int :=
  if word.toNat < 2 ^ 63 then .ok word.toNat else .error .integerRange

theorem checkedInt_ok {value : Int} (low : intMin ≤ value) (high : value ≤ intMax) :
    checkedInt value = .ok value := by
  unfold checkedInt
  rw [if_pos ⟨low, high⟩]

theorem checkedInt_error {value : Int} (outside : ¬ (intMin ≤ value ∧ value ≤ intMax)) :
    checkedInt value = .error .integerOverflow := by
  unfold checkedInt
  rw [if_neg outside]

/-! ## Bytes and texts -/

def byteAt (bytes : List UInt8) (index : Nat) : Except KiraTrap UInt8 :=
  match bytes[index]? with
  | some byte => .ok byte
  | none => .error .indexOutOfBounds

theorem byteAt_ok {bytes : List UInt8} {index : Nat} {byte : UInt8}
    (here : bytes[index]? = some byte) : byteAt bytes index = .ok byte := by
  unfold byteAt
  rw [here]

theorem byteAt_inside {bytes : List UInt8} {index : Nat} (inside : index < bytes.length) :
    byteAt bytes index = .ok bytes[index] :=
  byteAt_ok (List.getElem?_eq_getElem inside)

theorem ok_bind {ε α β : Type} {value : α} {next : α → Except ε β} :
    (Except.ok value >>= next) = next value :=
  rfl

def scalarText (code : Nat) : String :=
  if code.isValidChar then String.singleton (Char.ofNat code) else ""

theorem scalarText_toNat (c : Char) : scalarText c.toNat = String.singleton c := by
  have valid : c.toNat.isValidChar := c.valid
  unfold scalarText
  rw [if_pos valid, Char.ofNat_toNat]

theorem textBytes_toList (text : String) :
    textBytes text = text.toList.flatMap String.utf8EncodeChar := by
  have same := congrArg ByteArray.data (@String.utf8Encode_toList text)
  unfold textBytes
  rw [← same]
  simp [List.utf8Encode, List.data_toByteArray]

end Foundation

end KiraVm
