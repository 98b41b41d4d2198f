import GemLink.Number.Binary
import GemLink.Text.Numeral

/-!
Decimal text of double-precision numbers. Written are the fewest digits that read back as the same
number, in a layout that the caller chooses; read are decimal fractions with an optional exponent,
infinities and NaN.
-/

namespace GemLink

/-- The number `digits * 10 ^ exponent`. -/
structure Decimal where
  /-- The digits, as one natural number. -/
  digits : Nat
  /-- The place of the last digit. -/
  exponent : Int
  deriving DecidableEq, Repr

/-- What is done when a number lies halfway between the two decimals that could stand for it. -/
inductive Tie where
  /-- The larger one is taken. -/
  | up
  /-- The one with an even last digit is taken. -/
  | even
  deriving DecidableEq, Repr

/-- How a finite number is laid out. -/
structure DecimalLayout where
  /-- The choice between two equally near decimals. -/
  tie : Tie
  /-- Whether a decimal whose first digit stands at this place is written without exponent. -/
  positional : Int → Bool
  /-- Whether a whole number written without exponent ends in a point and a zero. -/
  fractionAlways : Bool

/-- The powers of ten. -/
def tenPow (n : Nat) : Nat :=
  Nat.pow 10 n

namespace Decimal

/-- The multiple of `10 ^ place` that reads back as the number of `significand * 2 ^ shift` units:
the nearer one if both neighbours do. Distances are counted in quarters of a unit; the numbers that
read back reach half a step up and half a step down, and down only a quarter of one from a power of
two, unless it is so small that the step below it is no shorter. -/
def atPlace? (F : FloatFormat) (tie : Tie) (significand shift : Nat) (place : Int) : Option Nat :=
  let up := tenPow (-place).toNat
  let number := 4 * (significand <<< shift) * up
  let grid := tenPow place.toNat <<< (F.unitExponent + 2)
  let stepUp := 2 * up <<< shift
  let stepDown :=
    if significand = F.fractions ∧ 0 < shift then up <<< shift else stepUp
  let below := number / grid
  let rest := number % grid
  let inclusive := significand % 2 = 0
  let lowHit := rest < stepDown ∨ (inclusive ∧ rest = stepDown)
  let highHit := grid - rest < stepUp ∨ (inclusive ∧ grid - rest = stepUp)
  if lowHit ∧ highHit then
    if 2 * rest < grid then some below
    else if grid < 2 * rest then some (below + 1)
    else match tie with
      | .up => some (below + 1)
      | .even => some (below + below % 2)
  else if lowHit then some below
  else if highHit then some (below + 1)
  else none

/-- The places that are tried for the last digit of a double, the greatest first. -/
def places : List Int :=
  (List.range 640).map fun (k : Nat) => 310 - (k : Int)

/-- The decimal with the fewest digits that reads back as a positive number. -/
def shortest (tie : Tie) (significand shift : Nat) : Decimal :=
  (places.findSome? fun place =>
    (atPlace? .double tie significand shift place).map fun digits => ⟨digits, place⟩).getD ⟨0, 0⟩

/-- Lays a decimal out. -/
def layout (L : DecimalLayout) (d : Decimal) : List Char :=
  let ds := Numeral.ofNat d.digits
  let point := (ds.length : Int) + d.exponent
  if L.positional (point - 1) then
    if point ≤ 0 then '0' :: '.' :: (List.replicate (-point).toNat '0' ++ ds)
    else if 0 ≤ d.exponent then
      ds ++ List.replicate d.exponent.toNat '0' ++ (if L.fractionAlways then ['.', '0'] else [])
    else ds.take point.toNat ++ '.' :: ds.drop point.toNat
  else
    let power := point - 1
    let mantissa := match ds with
      | [d] => [d]
      | d :: rest => d :: '.' :: rest
      | [] => []
    mantissa ++ 'e' :: (if power < 0 then '-' else '+') :: Numeral.ofNat power.natAbs

end Decimal

namespace Double

/-- The text of a finite number; `none` for infinities and NaN. -/
def finiteText? (L : DecimalLayout) (x : Double) : Option (List Char) :=
  match x.unpack with
  | .finite negative significand shift =>
    let text := if significand = 0 then Decimal.layout L ⟨0, 0⟩
      else Decimal.layout L (Decimal.shortest L.tie significand shift)
    some (if negative then '-' :: text else text)
  | _ => none

/-- The number nearest to the decimal with the given digits, the last of them at place `exponent`.
Digits far above or below every double decide the answer without arithmetic. -/
def ofDigits (negative : Bool) (ds : List Char) (exponent : Int) : Double :=
  let ds := ds.dropWhile (· == '0')
  let top := (ds.length : Int) + exponent
  if ds.isEmpty ∨ top < -400 then ofRatio negative 0 1
  else if 400 < top then infinity negative
  else
    let n := Numeral.value ds
    if 0 ≤ exponent then ofRatio negative (n * tenPow exponent.toNat) 1
    else ofRatio negative n (tenPow (-exponent).toNat)

/-- Reads the words for what is not finite, in any mixture of cases. -/
def special? (negative : Bool) (cs : List Char) : Option Double :=
  match String.ofList (cs.map Char.toLower) with
  | "inf" | "infinity" => some (infinity negative)
  | "nan" => some (nan negative)
  | _ => none

/-- Reads the exponent that may end a decimal. -/
def exponent? : List Char → Option Int
  | [] => some 0
  | c :: cs => if c = 'e' ∨ c = 'E' then Numeral.signed? cs else none

/-- Reads a number without its sign. -/
def ofUnsigned? (negative : Bool) (cs : List Char) : Option Double :=
  let whole := cs.takeWhile Char.isDigit
  let afterWhole := cs.dropWhile Char.isDigit
  let (fraction, rest) := match afterWhole with
    | '.' :: r => (r.takeWhile Char.isDigit, r.dropWhile Char.isDigit)
    | _ => ([], afterWhole)
  if whole.isEmpty && fraction.isEmpty then special? negative cs
  else (exponent? rest).map fun e => ofDigits negative (whole ++ fraction) (e - fraction.length)

/-- Reads a number: an optional sign, then digits with an optional point among or beside them and
an optional exponent, or a word for infinity or NaN. -/
def ofText? : List Char → Option Double
  | '-' :: cs => ofUnsigned? true cs
  | '+' :: cs => ofUnsigned? false cs
  | cs => ofUnsigned? false cs

end Double

end GemLink
