import KiraVm.HostModel

/-!
# Exact decimals

The functions of `number.rs`.  A decimal is a 64-bit mantissa at a decimal scale.
Integers of 128 bits are integers here: the steps that the code checks answer
nothing out of range, and the steps that it does not check answer a fault.

A floating-point quotient is only ever a hint of an integer, and the hint is left
open: nothing when the estimate is not finite, or the integer that it rounds to.
-/

namespace KiraVm

/-- An unchecked step of 128-bit arithmetic that leaves its range, or a division
by zero. -/
inductive WideFault
  | overflow
  | divisionByZero
  deriving DecidableEq, Repr

namespace Decimal

/-- The largest number of fractional digits that a decimal keeps. -/
def maxScale : Nat := 18

/-! ## Arithmetic of 128 bits -/

def FitsI128 (value : Int) : Prop :=
  -2 ^ 127 ≤ value ∧ value < 2 ^ 127

def FitsI64 (value : Int) : Prop :=
  -2 ^ 63 ≤ value ∧ value < 2 ^ 63

instance (value : Int) : Decidable (FitsI128 value) :=
  inferInstanceAs (Decidable (_ ∧ _))

instance (value : Int) : Decidable (FitsI64 value) :=
  inferInstanceAs (Decidable (_ ∧ _))

/-- The result of a checked step. -/
def checked (value : Int) : Option Int :=
  if FitsI128 value then some value else none

/-- The result of an unchecked step. -/
def unchecked (value : Int) : Except WideFault Int :=
  if FitsI128 value then .ok value else .error .overflow

/-- `/` and `%` of 128 bits truncate.  The least integer has no quotient by
minus one, and `%` fails where `/` does. -/
def wideQuotient (numerator denominator : Int) : Except WideFault Int :=
  if denominator = 0 then .error .divisionByZero
  else unchecked (numerator.tdiv denominator)

def wideRemainder (numerator denominator : Int) : Except WideFault Int := do
  let _ ← wideQuotient numerator denominator
  pure (numerator.tmod denominator)

def toI64 (value : Int) : Option Int64 :=
  if FitsI64 value then some (Int64.ofInt value) else none

/-- Ten to a power, when it fits. -/
def pow10 : Nat → Option Int
  | 0 => some 1
  | power + 1 => (pow10 power).bind fun value => checked (value * 10)

def narrow (mantissa : Int) (scale : Nat) : Except DecimalError Decimal :=
  match toI64 mantissa with
  | some mantissa => .ok ⟨mantissa, UInt32.ofNat scale⟩
  | none => .error .overflow

/-- Shed trailing fractional zeros. -/
def shed (mantissa : Int) : Nat → Int × Nat
  | 0 => (mantissa, 0)
  | scale + 1 =>
    if mantissa.tmod 10 = 0 then shed (mantissa.tdiv 10) scale else (mantissa, scale + 1)

def narrowReduced (mantissa : Int) (scale : Nat) : Except DecimalError Decimal :=
  let (mantissa, scale) := shed mantissa scale
  narrow mantissa scale

/-! ## Rounded division -/

def roundQuotientHalfEven (quotient remainder numerator denominator : Int) :
    Except DecimalError Int :=
  if remainder = 0 then .ok quotient
  else
    -- magnitudes are unsigned, so doubling has one bit more
    let twice := 2 * remainder.natAbs
    if 2 ^ 128 ≤ twice then .error .overflow
    else
      let roundAway :=
        match compare twice denominator.natAbs with
        | .gt => true
        | .lt => false
        | .eq => quotient.tmod 2 ≠ 0
      if roundAway then
        let sign : Int := if (decide (numerator < 0) ^^ decide (denominator < 0)) then -1 else 1
        match checked (quotient + sign) with
        | some rounded => .ok rounded
        | none => .error .overflow
      else .ok quotient

/-- The rounded quotient by exact division. -/
def divideRoundHalfEven (numerator denominator : Int) :
    Except WideFault (Except DecimalError Int) := do
  let quotient ← wideQuotient numerator denominator
  let remainder ← wideRemainder numerator denominator
  pure (roundQuotientHalfEven quotient remainder numerator denominator)

/-- Whether the pair is the truncated division. -/
def validDivision (numerator denominator remainder : Int) : Bool :=
  remainder.natAbs < denominator.natAbs &&
    (remainder == 0 || decide (remainder < 0) == decide (numerator < 0))

/-- Unit steps of a quotient toward the truncated division, within the budget. -/
def correctQuotient (numerator denominator : Int) :
    Nat → Int → Int → Except WideFault (Option (Int × Int))
  | budget, quotient, remainder =>
    if validDivision numerator denominator remainder then pure (some (quotient, remainder))
    else
      match budget with
      | 0 => pure none
      | budget + 1 =>
        if decide (0 < remainder) == decide (0 < denominator) then
          match checked (quotient + 1) with
          | none => pure none
          | some quotient => do
            let remainder ← unchecked (remainder - denominator)
            correctQuotient numerator denominator budget quotient remainder
        else
          match checked (quotient - 1) with
          | none => pure none
          | some quotient => do
            let remainder ← unchecked (remainder + denominator)
            correctQuotient numerator denominator budget quotient remainder

/-- From here on the low digits of an estimate are noise. -/
def hintBound : Int := 9007000000000000

/-- The rounded quotient from an estimate; nothing asks for the exact division. -/
def divideRoundHalfEvenHinted (estimate : Option Int) (numerator denominator : Int) :
    Except WideFault (Option Int) :=
  match estimate with
  | none => pure none
  | some quotient =>
    if hintBound ≤ |quotient| then pure none
    else
      match (checked (quotient * denominator)).bind fun product =>
          checked (numerator - product) with
      | none => pure none
      | some remainder => do
        match ← correctQuotient numerator denominator 4 quotient remainder with
        | none => pure none
        | some (quotient, remainder) =>
          pure (roundQuotientHalfEven quotient remainder numerator denominator).toOption

def roundI128ToScale (mantissa : Int) (scale target : Nat) : Except DecimalError Int :=
  if scale ≤ target then
    match (pow10 (target - scale)).bind fun factor => checked (mantissa * factor) with
    | some raised => .ok raised
    | none => .error .overflow
  else
    match pow10 (scale - target) with
    | none => .error .overflow
    | some divisor =>
      let quotient := mantissa.tdiv divisor
      let remainder := |mantissa.tmod divisor|
      let half := divisor.tdiv 2
      let roundUp :=
        match compare remainder half with
        | .gt => true
        | .lt => false
        | .eq => quotient.tmod 2 ≠ 0
      if roundUp then
        let sign : Int := if mantissa < 0 then -1 else 1
        match checked (quotient + sign) with
        | some rounded => .ok rounded
        | none => .error .overflow
      else .ok quotient

/-! ## Operations -/

/-- The mantissa restated at a scale that is not smaller. -/
def wideAt (self : Decimal) (target : Nat) : Option Int :=
  (pow10 (target - self.scale.toNat)).bind fun factor => checked (self.mantissa.toInt * factor)

/-- Both mantissas at one scale. -/
def align (self other : Decimal) : Except DecimalError (Int × Int × Nat) :=
  let scale := max self.scale.toNat other.scale.toNat
  match self.wideAt scale, other.wideAt scale with
  | some left, some right => .ok (left, right, scale)
  | _, _ => .error .overflow

/-- Join two mantissas by a sum or a difference: in 64 bits where the scales
agree, else through 128 bits. -/
def combine (join : Int → Int → Int) (self other : Decimal) : Except DecimalError Decimal :=
  if self.scale = other.scale then
    match toI64 (join self.mantissa.toInt other.mantissa.toInt) with
    | some mantissa => .ok ⟨mantissa, self.scale⟩
    | none => .error .overflow
  else do
    let (left, right, scale) ← align self other
    match checked (join left right) with
    | some mantissa => narrowReduced mantissa scale
    | none => .error .overflow

def add (self other : Decimal) : Except DecimalError Decimal :=
  combine (fun left right => left + right) self other

def subtract (self other : Decimal) : Except DecimalError Decimal :=
  combine (fun left right => left - right) self other

/-- The sum of two scales is not checked. -/
def multiply (self other : Decimal) : Except WideFault (Except DecimalError Decimal) :=
  let scale := self.scale.toNat + other.scale.toNat
  let product := self.mantissa.toInt * other.mantissa.toInt
  if 2 ^ 32 ≤ scale then .error .overflow
  else
    match (if scale ≤ maxScale then toI64 product else none) with
    | some mantissa => .ok (.ok ⟨mantissa, UInt32.ofNat scale⟩)
    | none =>
      let target := min scale maxScale
      .ok (do
        let rounded ← roundI128ToScale product scale target
        narrow rounded target)

def liftedOperands (selfMantissa otherMantissa power : Int) : Option (Int × Int) :=
  if 0 ≤ power then
    (pow10 power.toNat).bind fun factor =>
      (checked (selfMantissa * factor)).map fun numerator => (numerator, otherMantissa)
  else
    (pow10 (-power).toNat).bind fun factor =>
      (checked (otherMantissa * factor)).map fun denominator => (selfMantissa, denominator)

/-- The quotient rounded once to a scale; nothing asks for a smaller scale. -/
def quotientAtScale (estimate : Int → Int → Option Int)
    (selfMantissa otherMantissa power : Int) (scale : Nat) : Except WideFault (Option Decimal) :=
  match liftedOperands selfMantissa otherMantissa power with
  | none => pure none
  | some (numerator, denominator) => do
    let hinted ← divideRoundHalfEvenHinted (estimate numerator denominator) numerator denominator
    let mantissa ←
      match hinted with
      | some mantissa => pure (some mantissa)
      | none => do
        let exact ← divideRoundHalfEven numerator denominator
        pure exact.toOption
    pure (mantissa.bind fun mantissa =>
      (toI64 mantissa).map fun mantissa => ⟨mantissa, UInt32.ofNat scale⟩)

def candidate (estimate : Int → Int → Option Int) (self other : Decimal) (scale : Nat) :
    Except WideFault (Option Decimal) :=
  let shift : Int := other.scale.toNat - self.scale.toNat
  quotientAtScale estimate self.mantissa.toInt other.mantissa.toInt (shift + scale) scale

/-- The largest scale, from the given one down, at which the quotient fits. -/
def divideFrom (estimate : Int → Int → Option Int) (self other : Decimal) :
    Nat → Except WideFault (Except DecimalError Decimal)
  | 0 => do
    match ← candidate estimate self other 0 with
    | some decimal => pure (.ok decimal)
    | none => pure (.error .overflow)
  | scale + 1 => do
    match ← candidate estimate self other (scale + 1) with
    | some decimal => pure (.ok decimal)
    | none => divideFrom estimate self other scale

def divide (estimate : Int → Int → Option Int) (self other : Decimal) :
    Except WideFault (Except DecimalError Decimal) :=
  if other.mantissa = 0 then pure (.error .divideByZero)
  else divideFrom estimate self other maxScale

/-- The numeric order. -/
def compare (self other : Decimal) : Except DecimalError Ordering := do
  let (left, right, _) ← align self other
  pure (Ord.compare left right)

def equals (self other : Decimal) : Except DecimalError Bool := do
  let order ← self.compare other
  pure (order == .eq)

/-! ## Texts -/

/-- The characters that `str::trim` takes off. -/
def isWhitespace (character : Char) : Bool :=
  let code := character.toNat
  (9 ≤ code && code ≤ 13) || code == 0x20 || code == 0x85 || code == 0xa0 || code == 0x1680 ||
    (0x2000 ≤ code && code ≤ 0x200a) || code == 0x2028 || code == 0x2029 || code == 0x202f ||
    code == 0x205f || code == 0x3000

def trim (text : List Char) : List Char :=
  ((text.dropWhile isWhitespace).reverse.dropWhile isWhitespace).reverse

/-- Whether the text is negative, and the text after its sign. -/
def stripSign : List Char → Bool × List Char
  | '-' :: rest => (true, rest)
  | '+' :: rest => (false, rest)
  | rest => (false, rest)

def accumulate : Int → List Char → Except DecimalError Int
  | mantissa, [] => .ok mantissa
  | mantissa, character :: rest =>
    if character.isDigit then
      match (checked (mantissa * 10)).bind fun scaled =>
          checked (scaled + (character.toNat - '0'.toNat : Nat)) with
      | some next => accumulate next rest
      | none => .error .overflow
    else .error .parse

/-- The digits before and after the point.  The magnitude takes its sign before it is
narrowed.  The length of the fraction is read when all its characters are digits, of
one byte each. -/
def parseDigits (negative : Bool) (integer fraction : List Char) : Except DecimalError Decimal := do
  let mantissa ← accumulate 0 (integer ++ fraction)
  if 2 ^ 32 ≤ fraction.length then .error .overflow
  else if maxScale < fraction.length then .error .parse
  else
    match toI64 (if negative then -mantissa else mantissa) with
    | some mantissa => .ok ⟨mantissa, UInt32.ofNat fraction.length⟩
    | none => .error .overflow

/-- An optional sign, digits, an optional point and more digits. -/
def parse (text : String) : Except DecimalError Decimal :=
  let (negative, rest) := stripSign (trim text.toList)
  let integer := rest.takeWhile (· ≠ '.')
  let fraction := (rest.dropWhile (· ≠ '.')).drop 1
  if rest.isEmpty then .error .parse
  else if integer.isEmpty && fraction.isEmpty then .error .parse
  else parseDigits negative integer fraction

def withoutTrailingZeros (self : Decimal) : Int × Nat :=
  shed self.mantissa.toInt self.scale.toNat

/-- The sign, the integer digits, and the point and the fraction when there are any. -/
def toDecimalString (self : Decimal) : String :=
  let (mantissa, scale) := self.withoutTrailingZeros
  let sign := if mantissa < 0 then ['-'] else []
  let digits := Nat.toDigits 10 mantissa.natAbs
  if scale = 0 then String.ofList (sign ++ digits)
  else if scale < digits.length then
    let point := digits.length - scale
    String.ofList (sign ++ digits.take point ++ '.' :: digits.drop point)
  else
    String.ofList (sign ++ '0' :: '.' :: List.replicate (scale - digits.length) '0' ++ digits)

end Decimal

end KiraVm
