import KiraVm.FoundationText

/-!
# Digits and numbers

The functions of `Json/Number.kira`.  A text is read as its bytes.  The counters
of a loop over a text stay below its length, which is far from the ends of `Int`;
the sums and products of digits are checked.
-/

namespace KiraVm

namespace Foundation

/-- The largest `Int` that a run of digits can reach before the next one overflows. -/
def jsonIntCeiling : Int := 922337203685477580

def jsonExactPowerLimit : Nat := 22

def jsonHexValue (byte : UInt8) : Option Nat :=
  if 48 ≤ byte ∧ byte ≤ 57 then some (byte.toNat - 48)
  else if 97 ≤ byte ∧ byte ≤ 102 then some (byte.toNat - 87)
  else if 65 ≤ byte ∧ byte ≤ 70 then some (byte.toNat - 55)
  else none

def digitOf (byte : UInt8) : Int :=
  byte.toNat - 48

/-- The digits between two indexes as an `Int`, cut off at a million. -/
def jsonDigitsToIntFrom (bytes : List UInt8) (stop : Nat) (value : Int) (index : Nat) :
    Except KiraTrap Int :=
  if index < stop then
    if 100000 < value then .ok 1000000
    else do
      let byte ← byteAt bytes index
      let scaled ← checkedInt (value * 10)
      let sum ← checkedInt (scaled + digitOf byte)
      jsonDigitsToIntFrom bytes stop sum (index + 1)
  else .ok value
termination_by stop - index

def jsonDigitsToInt (bytes : List UInt8) (start stop : Nat) : Except KiraTrap Int :=
  jsonDigitsToIntFrom bytes stop 0 start

/-- The digits from an index on, accumulated downwards. -/
def jsonWholeFrom (bytes : List UInt8) (value : Int) (index : Nat) :
    Except KiraTrap (Option Int) :=
  if index < bytes.length then do
    let byte ← byteAt bytes index
    if value < -jsonIntCeiling then .ok none
    else do
      let scaled ← checkedInt (value * 10)
      let limit ← checkedInt (intMin + digitOf byte)
      if scaled < limit then .ok none
      else do
        let next ← checkedInt (scaled - digitOf byte)
        jsonWholeFrom bytes next (index + 1)
  else .ok (some value)
termination_by bytes.length - index

/-- A literal without fraction and exponent as an `Int`, when it fits one. -/
def jsonWholeNumber (bytes : List UInt8) : Except KiraTrap (Option Int) := do
  let sign ← byteAt bytes 0
  let negative := sign = 45
  let whole ← jsonWholeFrom bytes 0 (if negative then 1 else 0)
  match whole with
  | none => .ok none
  | some value =>
    if negative then .ok (some value)
    else if value = intMin then .ok none
    else do
      let positive ← checkedInt (0 - value)
      .ok (some positive)

def jsonPowerOfTenFrom (result : Float) : Nat → Float
  | 0 => result
  | exponent + 1 => jsonPowerOfTenFrom (result * 10.0) exponent

def jsonPowerOfTen (exponent : Nat) : Float :=
  jsonPowerOfTenFrom 1.0 exponent

/-- The digits of a literal as a mantissa, with how many it could not take. -/
def jsonMantissaFrom (bytes : List UInt8) (mantissa : Int) (overflowed : Bool) (dropped : Nat)
    (index : Nat) : Except KiraTrap (Int × Nat) :=
  if index < bytes.length then do
    let byte ← byteAt bytes index
    if byte = 46 then jsonMantissaFrom bytes mantissa overflowed dropped (index + 1)
    else if byte = 101 ∨ byte = 69 then .ok (mantissa, dropped)
    else if overflowed then jsonMantissaFrom bytes mantissa overflowed (dropped + 1) (index + 1)
    else do
      let room ← checkedInt (intMax - digitOf byte)
      if room.tdiv 10 < mantissa then jsonMantissaFrom bytes mantissa true (dropped + 1) (index + 1)
      else do
        let scaled ← checkedInt (mantissa * 10)
        let sum ← checkedInt (scaled + digitOf byte)
        jsonMantissaFrom bytes sum false dropped (index + 1)
  else .ok (mantissa, dropped)
termination_by bytes.length - index

/-- Scale up as an integer for as long as it stays exact. -/
def jsonScaleWhole : Nat → Int → Except KiraTrap (Int × Nat)
  | 0, mantissa => .ok (mantissa, 0)
  | scale + 1, mantissa =>
    if mantissa ≠ 0 ∧ mantissa ≤ jsonIntCeiling then do
      let scaled ← checkedInt (mantissa * 10)
      jsonScaleWhole scale scaled
    else .ok (mantissa, scale + 1)

/-- Apply a power of ten step by step. -/
def jsonScaleFloat (apply : Float → Float → Float) (scale : Nat) (value : Float) : Float :=
  if scale = 0 then value
  else
    let step := min scale jsonExactPowerLimit
    jsonScaleFloat apply (scale - step) (apply value (jsonPowerOfTen step))
termination_by scale
decreasing_by
  simp only [jsonExactPowerLimit]
  omega

/-- The bound past which a `Float` no longer changes. -/
def scaleBound : Int := 400

def jsonDecimalToFloat (bytes : List UInt8) (negative : Bool) (fractionDigits : Nat)
    (exponent : Int) : Except KiraTrap Float := do
  let (mantissa, dropped) ← jsonMantissaFrom bytes 0 false 0 (if negative then 1 else 0)
  let scale := max (-scaleBound) (min scaleBound (exponent - fractionDigits + dropped))
  let (mantissa, rising) ← jsonScaleWhole scale.toNat mantissa
  let risen := jsonScaleFloat (· * ·) rising (Float.ofInt mantissa)
  let value := jsonScaleFloat (· / ·) (-scale).toNat risen
  .ok (if negative then 0.0 - value else value)

end Foundation

end KiraVm
