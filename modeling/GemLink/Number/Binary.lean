/-!
Binary floating-point numbers as bit patterns, with their exact values and rounding to nearest in
natural-number arithmetic. A finite number of a format is a whole number of that format's least
positive number, here called its unit.
-/

namespace GemLink

/-- A binary floating-point format: the widths of its fraction and exponent fields. -/
structure FloatFormat where
  /-- Bits of the fraction field. -/
  fractionBits : Nat
  /-- Bits of the exponent field. -/
  exponentBits : Nat
  deriving DecidableEq, Repr

/-- What a bit pattern stands for. -/
inductive FloatClass where
  /-- Not a number, with the contents of the fraction field. -/
  | nan (negative : Bool) (payload : Nat)
  /-- An infinity. -/
  | infinite (negative : Bool)
  /-- The number of `significand * 2 ^ shift` units. -/
  | finite (negative : Bool) (significand shift : Nat)
  deriving DecidableEq, Repr

/-- The quotient rounded to the nearest whole number, a half going to the even neighbour. -/
def roundHalfEven (num den : Nat) : Nat :=
  let q := num / den
  let r := num % den
  if 2 * r < den then q else if den < 2 * r then q + 1 else q + q % 2

namespace FloatFormat

/-- Double precision. -/
def double : FloatFormat := ⟨52, 11⟩

/-- Single precision. -/
def single : FloatFormat := ⟨23, 8⟩

/-- The number of values of the fraction field, and the least significand of a number whose
exponent field is not zero. -/
def fractions (F : FloatFormat) : Nat :=
  1 <<< F.fractionBits

/-- A unit is `2 ^ -unitExponent`. -/
def unitExponent (F : FloatFormat) : Nat :=
  1 <<< (F.exponentBits - 1) - 2 + F.fractionBits

/-- The exponent field of infinities and of what is not a number. -/
def topExponent (F : FloatFormat) : Nat :=
  1 <<< F.exponentBits - 1

/-- The bits of positive infinity. -/
def infinityBits (F : FloatFormat) : Nat :=
  F.topExponent * F.fractions

/-- The fraction bit that marks a quiet NaN. -/
def quietBit (F : FloatFormat) : Nat :=
  1 <<< (F.fractionBits - 1)

/-- The sign bit. -/
def signBit (F : FloatFormat) (negative : Bool) : Nat :=
  if negative then 1 <<< (F.fractionBits + F.exponentBits) else 0

/-- What a bit pattern stands for. -/
def unpack (F : FloatFormat) (bits : Nat) : FloatClass :=
  let fraction := bits % F.fractions
  let exponent := bits / F.fractions % 1 <<< F.exponentBits
  let negative := bits >>> (F.fractionBits + F.exponentBits) % 2 == 1
  if exponent = F.topExponent then
    if fraction = 0 then .infinite negative else .nan negative fraction
  else if exponent = 0 then .finite negative fraction 0
  else .finite negative (F.fractions + fraction) (exponent - 1)

/-- The bits of the positive number nearest to `num / den` units, ties going to the even
significand and what is too large becoming infinite. -/
def round (F : FloatFormat) (num den : Nat) : Nat :=
  let whole := num / den
  let shift := if whole < 2 * F.fractions then 0 else whole.log2 - F.fractionBits
  min (shift * F.fractions + roundHalfEven num (den <<< shift)) F.infinityBits

/-- The bits of a quiet NaN with the given fraction field. -/
def quietNaN (F : FloatFormat) (negative : Bool) (payload : Nat) : Nat :=
  F.signBit negative + F.infinityBits +
    (if payload < F.quietBit then payload + F.quietBit else payload)

/-- The bits of the number of format `G` nearest to a number of format `F`; a NaN keeps its sign
and the leading bits of its fraction field. -/
def convert (F G : FloatFormat) (bits : Nat) : Nat :=
  match F.unpack bits with
  | .nan negative payload =>
    G.quietNaN negative (payload * G.fractions / F.fractions)
  | .infinite negative => G.signBit negative + G.infinityBits
  | .finite negative significand shift =>
    G.signBit negative +
      G.round (significand <<< shift <<< G.unitExponent) (1 <<< F.unitExponent)

end FloatFormat

/-- A double-precision number, by its bits. -/
structure Double where
  /-- Sign, exponent and fraction fields, from the most significant bit. -/
  bits : UInt64
  deriving DecidableEq, Repr, Inhabited

/-- A single-precision number, by its bits. -/
structure Single where
  /-- Sign, exponent and fraction fields, from the most significant bit. -/
  bits : UInt32
  deriving DecidableEq, Repr, Inhabited

namespace Double

/-- What the bits stand for. -/
def unpack (x : Double) : FloatClass :=
  FloatFormat.double.unpack x.bits.toNat

/-- Whether the number is not a number. -/
def isNaN (x : Double) : Bool :=
  match x.unpack with
  | .nan _ _ => true
  | _ => false

/-- Whether the number is one of the two zeros. -/
def isZero (x : Double) : Bool :=
  match x.unpack with
  | .finite _ 0 _ => true
  | _ => false

/-- The whole number that a number without fractional part equals. -/
def toInt? (x : Double) : Option Int :=
  match x.unpack with
  | .finite negative significand shift =>
    let units := significand <<< shift
    let unit := 1 <<< FloatFormat.double.unitExponent
    if units % unit = 0 then
      some (if negative then -((units / unit : Nat) : Int) else ((units / unit : Nat) : Int))
    else none
  | _ => none

/-- The number nearest to `num / den`, with a sign. -/
def ofRatio (negative : Bool) (num den : Nat) : Double :=
  let F := FloatFormat.double
  ⟨UInt64.ofNat (F.signBit negative + F.round (num <<< F.unitExponent) den)⟩

/-- The number nearest to a whole number. -/
def ofInt (i : Int) : Double :=
  ofRatio (i < 0) i.natAbs 1

/-- An infinity. -/
def infinity (negative : Bool) : Double :=
  ⟨UInt64.ofNat (FloatFormat.double.signBit negative + FloatFormat.double.infinityBits)⟩

/-- The quiet NaN with an otherwise empty fraction field. -/
def nan (negative : Bool) : Double :=
  ⟨UInt64.ofNat (FloatFormat.double.quietNaN negative 0)⟩

/-- The nearest single-precision number. -/
def toSingle (x : Double) : Single :=
  ⟨UInt32.ofNat (FloatFormat.double.convert .single x.bits.toNat)⟩

end Double

/-- The double-precision number that equals a single-precision one. -/
def Single.toDouble (x : Single) : Double :=
  ⟨UInt64.ofNat (FloatFormat.single.convert .double x.bits.toNat)⟩

/-- Whether a single-precision number is not a number. -/
def Single.isNaN (x : Single) : Bool :=
  match FloatFormat.single.unpack x.bits.toNat with
  | .nan _ _ => true
  | _ => false

end GemLink
