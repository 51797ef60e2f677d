import Pascalet.Binary64.Basic

namespace Pascalet.Binary64

def ofUnits (zeroSign : Bool) (units : Int) : Binary64 :=
  if units = 0 then finite zeroSign Magnitude.zero
  else ofRatio (decide (units < 0)) units.natAbs 1

def signedUnits (negative : Bool) (magnitude : Magnitude) : Int :=
  if negative then -(magnitude.units : Int) else magnitude.units

def neg : Binary64 → Binary64
  | nan => nan
  | infinite negative => infinite (!negative)
  | finite negative magnitude => finite (!negative) magnitude

def add : Binary64 → Binary64 → Binary64
  | nan, _ | _, nan => nan
  | infinite a, infinite b => if a = b then infinite a else nan
  | infinite a, finite _ _ => infinite a
  | finite _ _, infinite b => infinite b
  | finite a m, finite b n => ofUnits (a && b) (signedUnits a m + signedUnits b n)

def sub (a b : Binary64) : Binary64 :=
  add a (neg b)

def mul : Binary64 → Binary64 → Binary64
  | nan, _ | _, nan => nan
  | infinite a, infinite b => infinite (a ^^ b)
  | infinite a, finite b m | finite b m, infinite a =>
    if m.units = 0 then nan else infinite (a ^^ b)
  | finite a m, finite b n => ofRatio (a ^^ b) (m.units * n.units) unitsPerOne

def div : Binary64 → Binary64 → Binary64
  | nan, _ | _, nan => nan
  | infinite _, infinite _ => nan
  | infinite a, finite b _ => infinite (a ^^ b)
  | finite a _, infinite b => finite (a ^^ b) Magnitude.zero
  | finite a m, finite b n =>
    if n.units = 0 then
      if m.units = 0 then nan else infinite (a ^^ b)
    else ofRatio (a ^^ b) (m.units * unitsPerOne) n.units

instance : Neg Binary64 := ⟨neg⟩
instance : Add Binary64 := ⟨add⟩
instance : Sub Binary64 := ⟨sub⟩
instance : Mul Binary64 := ⟨mul⟩
instance : Div Binary64 := ⟨div⟩

/-- The place of a number on the line of units; the infinities stand just beyond the finite numbers. -/
def position? : Binary64 → Option Int
  | nan => none
  | infinite negative => some (if negative then -(unitLimit : Int) else unitLimit)
  | finite negative magnitude => some (signedUnits negative magnitude)

def compare? (a b : Binary64) : Option Ordering :=
  match a.position?, b.position? with
  | some p, some q => some (compare p q)
  | _, _ => none

def isZero (a : Binary64) : Bool :=
  a.position? == some 0

def one : Binary64 :=
  ofDecimal false 1 0

end Pascalet.Binary64
