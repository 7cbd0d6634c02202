/-!
Numbers of a document. An integer is kept as it is. A number with a fraction or an exponent is the
nearest binary number of 53 significant bits, kept as the shortest decimal that reads back to it.
-/

namespace RubySchema

/-- The number `digits * 10 ^ exponent`, or its negative. -/
structure Decimal where
  isNegative : Bool
  digits : Nat
  exponent : Int
  deriving DecidableEq, Repr, Inhabited

inductive Number where
  | integer (value : Int)
  | decimal (value : Decimal)
  | infinity (isNegative : Bool)
  | undefined
  deriving DecidableEq, Repr, Inhabited

namespace Decimal

/-- Quotient of two naturals to the nearest integer; a half goes to the even neighbour. -/
def roundDiv (num den : Nat) : Nat :=
  let floor := num / den
  let twice := 2 * (num % den)
  if twice < den then floor
  else if den < twice then floor + 1
  else if floor % 2 == 0 then floor else floor + 1

/-- A fraction `num * b ^ power / den` as numerator and denominator. -/
def scaled (num den b : Nat) (power : Int) : Nat × Nat :=
  if 0 ≤ power then (num * b.pow power.toNat, den) else (num, den * b.pow (-power).toNat)

/-- The binary number nearest to a positive fraction: a mantissa below `2 ^ 53` and the power of two
that scales it.
-/
def nearestBinary (num den : Nat) : Nat × Int :=
  let guess : Int := (num.log2 : Int) - (den.log2 : Int) - 53
  let start := max guess (-1074)
  let at_ (power : Int) : Nat :=
    let (n, d) := scaled num den 2 (-power)
    roundDiv n d
  let low := at_ start
  if low < 1 <<< 53 then (low, start)
  else
    let high := at_ (start + 1)
    if high < 1 <<< 53 then (high, start + 1) else (1 <<< 52, start + 2)

/-- The decimal of `count` digits, or fewer, that stands for the binary number `mantissa * 2 ^
power` when it is read back; none when `count` is too small.
-/
def ofDigits? (mantissa : Nat) (power : Int) (scale : Int) : Option Nat :=
  -- everything is measured in quarters of the last binary place
  let (n, d) := scaled 1 1 2 (power - 2)
  let (gn, gd) := scaled 1 1 10 scale
  -- a grid point `k` lies at `k * gn / gd`, the number at `4 * mantissa * n / d`
  let value := 4 * mantissa * n * gd
  let grid := gn * d
  let half := 2 * n * gd
  let below := if mantissa == 1 <<< 52 && power != -1074 then n * gd else half
  let fits (k : Nat) : Bool :=
    let point := k * grid
    if mantissa % 2 == 0 then value ≤ point + below && point ≤ value + half
    else value < point + below && point < value + half
  let lo := value / grid
  let nearest := roundDiv value grid
  if fits nearest then some nearest
  else if fits lo then some lo
  else if fits (lo + 1) then some (lo + 1)
  else none

/-- Digits without the zeros at their end, which go into the exponent. -/
def dropZeros (fuel : Nat) (digits : Nat) (exponent : Int) : Nat × Int :=
  match fuel with
  | 0 => (digits, exponent)
  | fuel + 1 =>
      if digits != 0 && digits % 10 == 0 then dropZeros fuel (digits / 10) (exponent + 1)
      else (digits, exponent)

/-- Number of decimal digits of a positive natural. -/
def digitCount (n : Nat) : Nat :=
  (Nat.toDigits 10 n).length

/-- The shortest decimal that reads back as a binary number: coarser grids are tried first. -/
def shortest (fuel : Nat) (mantissa : Nat) (power : Int) (scale : Int) : Nat × Int :=
  match fuel with
  | 0 => (0, 0)
  | fuel + 1 =>
      match ofDigits? mantissa power scale with
      | some digits =>
          if digits == 0 then shortest fuel mantissa power (scale - 1)
          else dropZeros 20 digits scale
      | none => shortest fuel mantissa power (scale - 1)

end Decimal

/-- The number that a text with a fraction or an exponent stands for. -/
def Number.ofDecimal (isNegative : Bool) (digits : Nat) (exponent : Int) : Number :=
  if digits == 0 then .decimal ⟨isNegative, 0, 0⟩
  else
    let magnitude : Int := (Decimal.digitCount digits : Int) + exponent
    if 310 < magnitude then .infinity isNegative
    else if magnitude < -330 then .decimal ⟨isNegative, 0, 0⟩
    else
      let (num, den) := Decimal.scaled digits 1 10 exponent
      let (mantissa, power) := Decimal.nearestBinary num den
      if 971 < power then .infinity isNegative
      else if mantissa == 0 then .decimal ⟨isNegative, 0, 0⟩
      else
        let (short, scale) := Decimal.shortest 20 mantissa power magnitude
        .decimal ⟨isNegative, short, scale⟩

/-- The integer that the binary number behind a decimal is; none when that number has a fraction. -/
def Decimal.integer? (d : Decimal) : Option Int :=
  let (num, den) := Decimal.scaled d.digits 1 10 d.exponent
  let (mantissa, power) := Decimal.nearestBinary num den
  let (size, parts) := Decimal.scaled mantissa 1 2 power
  if size % parts == 0 then
    let size : Int := (size / parts : Nat)
    some (if d.isNegative then -size else size)
  else none

/-- Text of a decimal: positional while the first digit stands between `10 ^ -4` and `10 ^ 15`, with
an exponent of two digits or more otherwise.
-/
def Decimal.text (d : Decimal) : String :=
  let sign := if d.isNegative then "-" else ""
  if d.digits == 0 then sign ++ "0.0"
  else
    let digits := toString d.digits
    let count : Int := digits.length
    let point := count + d.exponent
    if point ≤ -4 || 16 < point then
      let exponent := point - 1
      let size := toString exponent.natAbs
      let padded := if size.length < 2 then "0" ++ size else size
      let tail := "e" ++ (if exponent < 0 then "-" else "+") ++ padded
      let fraction := String.ofList (digits.toList.drop 1)
      sign ++ String.ofList (digits.toList.take 1)
        ++ (if fraction.isEmpty then "" else "." ++ fraction) ++ tail
    else if point ≤ 0 then
      sign ++ "0." ++ String.ofList (List.replicate (-point).toNat '0') ++ digits
    else if count ≤ point then
      sign ++ digits ++ String.ofList (List.replicate (point - count).toNat '0') ++ ".0"
    else
      sign ++ String.ofList (digits.toList.take point.toNat) ++ "."
        ++ String.ofList (digits.toList.drop point.toNat)

end RubySchema
