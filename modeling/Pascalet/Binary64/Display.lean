import Pascalet.Binary64.Shortest

namespace Pascalet.Binary64

structure Layout where
  leastPositional : Int
  mostPositional : Int
  exponentWidth : Nat

def layout : Layout :=
  { leastPositional := -4, mostPositional := 15, exponentWidth := 2 }

def zeros (count : Nat) : List Char :=
  List.replicate count '0'

def dropTrailingZeros (digits : List Char) : List Char :=
  (digits.reverse.dropWhile (· == '0')).reverse

def positional (digits : List Char) (point : Int) : List Char :=
  match point with
  | .ofNat whole =>
    if whole = 0 then '0' :: '.' :: digits
    else if digits.length ≤ whole then digits ++ zeros (whole - digits.length) ++ ['.', '0']
    else digits.take whole ++ '.' :: digits.drop whole
  | .negSucc gap => '0' :: '.' :: zeros (gap + 1) ++ digits

def exponential (width : Nat) (digits : List Char) (exponent : Int) : List Char :=
  let size := Nat.toDigits 10 exponent.natAbs
  let sign := if exponent < 0 then '-' else '+'
  let fraction := match digits.drop 1 with
    | [] => []
    | rest => '.' :: rest
  digits.take 1 ++ fraction ++ 'e' :: sign :: zeros (width - size.length) ++ size

def decimalText (layout : Layout) (significand : Nat) (exponent : Int) : List Char :=
  let all := Nat.toDigits 10 significand
  let digits := dropTrailingZeros all
  let point : Int := all.length + exponent
  if digits.isEmpty then ['0', '.', '0']
  else if layout.leastPositional ≤ point - 1 ∧ point - 1 ≤ layout.mostPositional then
    positional digits point
  else exponential layout.exponentWidth digits (point - 1)

def signed (negative : Bool) (text : List Char) : String :=
  String.ofList (if negative then '-' :: text else text)

def text : Binary64 → String
  | nan => "nan"
  | infinite negative => signed negative ['i', 'n', 'f']
  | finite negative magnitude =>
    let (significand, exponent) := shortestDecimal magnitude.units
    signed negative (decimalText layout significand exponent)

def integral? : Binary64 → Option Int
  | finite negative magnitude =>
    if magnitude.units % unitsPerOne = 0 then
      let size : Int := magnitude.units / unitsPerOne
      some (if negative then -size else size)
    else none
  | _ => none

/-- Both zeros print as `0`. -/
def printed (a : Binary64) : String :=
  match a.integral? with
  | some value => toString value
  | none => a.text

end Pascalet.Binary64
