import AmosBasic.Float.Shortest
import AmosBasic.Numeral

namespace AmosBasic.Binary32

def firstPositional : Nat := 0x38D1B717

def firstExponential : Nat := 0x5A0E1BCA

def positional (digits : List Char) (point : Int) : String :=
  if point ≤ 0 then "0." ++ String.ofList (List.replicate (-point).toNat '0' ++ digits)
  else
    let whole := digits.take point.toNat
    let zeros := List.replicate (point.toNat - digits.length) '0'
    let part := digits.drop point.toNat
    String.ofList (whole ++ zeros) ++ "." ++ String.ofList (if part.isEmpty then ['0'] else part)

def exponential (digits : List Char) (point : Int) : String :=
  let part := digits.drop 1
  String.ofList (digits.take 1) ++ (if part.isEmpty then "" else "." ++ String.ofList part) ++ "e" ++
    toString (point - 1)

def magnitudeText (x : Binary32) : String :=
  if x.magnitude = 0 then "0.0"
  else
    let decimal := x.shortest
    let digits := Nat.toDigits 10 decimal.digits
    let point := digits.length + decimal.exponent
    if firstPositional ≤ x.magnitudeBits ∧ x.magnitudeBits < firstExponential then positional digits point
    else exponential digits point

def text (x : Binary32) : String :=
  if x.isNaN then "NaN"
  else
    let sign := if x.negative then "-" else ""
    sign ++ (if x.isInfinite then "inf" else x.magnitudeText)

end AmosBasic.Binary32
