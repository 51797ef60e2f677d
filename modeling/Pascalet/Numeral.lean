import Pascalet.Binary64.Basic
import Pascalet.Text.Lines

namespace Pascalet.Numeral

open Text

/-- ASCII stands for itself; beyond it a blank is a space and a digit of any script its ASCII form. -/
def narrow? (c : Char) : Option Char :=
  if c.toNat < 127 then some c
  else if isBlank c then some ' '
  else (digitValue? c).map fun value => Char.ofNat ('0'.toNat + value)

def isMargin (c : Char) : Bool :=
  c == ' ' || (0x9 ≤ c.toNat && c.toNat ≤ 0xD)

def trimMargin (text : List Char) : List Char :=
  ((text.dropWhile isMargin).reverse.dropWhile isMargin).reverse

/-- Removes underscores that stand between two digits and refuses all others. -/
def joinDigits? : (previous : Option Char) → List Char → Option (List Char)
  | _, [] => some []
  | previous, '_' :: rest =>
    if previous.any isAsciiDigit && rest.head?.any isAsciiDigit then joinDigits? (some '_') rest
    else none
  | _, c :: rest => (joinDigits? (some c) rest).map (c :: ·)

def plain? (text : List Char) : Option (List Char) := do
  joinDigits? none (trimMargin (← text.mapM narrow?))

def splitSign : List Char → Bool × List Char
  | '-' :: rest => (true, rest)
  | '+' :: rest => (false, rest)
  | rest => (false, rest)

def digitsValue (digits : List Char) : Nat :=
  digits.foldl (fun value c => value * 10 + (c.toNat - '0'.toNat)) 0

/-- Longer integers are refused, leading zeros included. -/
def integerDigitLimit : Nat := 4300

def isWritable (value : Int) : Bool :=
  value.natAbs < 10 ^ integerDigitLimit

def integer? (text : List Char) : Option Int := do
  let (negative, digits) := splitSign (← plain? text)
  if digits.isEmpty || !digits.all isAsciiDigit || integerDigitLimit < digits.length then none
  else
    let value : Int := digitsValue digits
    some (if negative then -value else value)

def exponent? : List Char → Option Int
  | [] => some 0
  | mark :: rest =>
    let (negative, digits) := splitSign rest
    if (mark == 'e' || mark == 'E') && !digits.isEmpty && digits.all isAsciiDigit then
      let value : Int := digitsValue digits
      some (if negative then -value else value)
    else none

def decimal? (negative : Bool) (text : List Char) : Option Binary64 :=
  let whole := text.takeWhile isAsciiDigit
  let (fraction, rest) := match text.dropWhile isAsciiDigit with
    | '.' :: rest => (rest.takeWhile isAsciiDigit, rest.dropWhile isAsciiDigit)
    | rest => ([], rest)
  if whole.isEmpty && fraction.isEmpty then none
  else (exponent? rest).map fun exponent =>
    Binary64.ofDecimal negative (digitsValue (whole ++ fraction)) (exponent - fraction.length)

def real? (text : List Char) : Option Binary64 := do
  let (negative, unsigned) := splitSign (← plain? text)
  match String.ofList (unsigned.map Char.toLower) with
  | "inf" | "infinity" => some (.infinite negative)
  | "nan" => some .nan
  | _ => decimal? negative unsigned

end Pascalet.Numeral
