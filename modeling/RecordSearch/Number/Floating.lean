import RecordSearch.Text.Ascii
import RecordSearch.Number.Binary

/-!
Floating-point numbers of a binary format, with signed zeros, infinities and one value that is
no number: conversion, order, whole part and text.
-/

namespace RecordSearch

inductive Floating (f : BinaryFormat) where
  | nan
  | infinity (negative : Bool)
  | finite (negative : Bool) (magnitude : Magnitude f)
deriving DecidableEq

abbrev Single := Floating .binary32

abbrev Double := Floating .binary64

namespace Floating

variable {f : BinaryFormat}

def ofMagnitude (negative : Bool) : Option (Magnitude f) → Floating f
  | some m => finite negative m
  | none => infinity negative

def ofRatio (negative : Bool) (r : Ratio) : Floating f :=
  ofMagnitude negative (Magnitude.nearest? f r)

def ofInt (n : Int) : Floating f := ofRatio (n < 0) (Ratio.ofNat n.natAbs)

def ofNumeral (negative : Bool) (x : Numeral) : Floating f :=
  ofMagnitude negative (Magnitude.nearestNumeral? f x)

/-- The nearest number of another format; beyond the greatest one it is an infinity. -/
def convert (g : BinaryFormat) : Floating f → Floating g
  | nan => nan
  | infinity negative => infinity negative
  | finite negative m => ofRatio negative m.ratio

def isFinite : Floating f → Bool
  | finite _ _ => true
  | _ => false

def signed (negative : Bool) (n : Nat) : Int := if negative then -(n : Int) else n

theorem signed_mul (negative : Bool) (m n : Nat) :
    signed negative (m * n) = signed negative m * n := by
  cases negative with
  | false => exact Int.natCast_mul m n
  | true => simp only [signed, if_true, Int.natCast_mul, Int.neg_mul]

theorem signed_natAbs (n : Int) : signed (n < 0) n.natAbs = n := by
  rw [signed]
  split
  · next h =>
    rw [decide_eq_true_eq] at h
    omega
  · next h =>
    rw [decide_eq_true_eq] at h
    omega

/-- The order of values: the two zeros are equal, and what is no number compares with nothing. -/
def compare? : Floating f → Floating f → Option Ordering
  | nan, _ => none
  | _, nan => none
  | infinity a, infinity b => some (compare (signed a 1) (signed b 1))
  | infinity a, finite _ _ => some (if a then .lt else .gt)
  | finite _ _, infinity b => some (if b then .gt else .lt)
  | finite a x, finite b y => some (compare (signed a x.units) (signed b y.units))

/-- The whole part, rounded toward zero, of a finite number. -/
def trunc? : Floating f → Option Int
  | finite negative m => some (signed negative m.ratio.floor)
  | _ => none

/-- Shortest digits, the greater of two equally near, never with a power of ten; negative zero
keeps its sign. -/
def text : Floating f → String
  | nan => "NaN"
  | infinity negative => if negative then "-inf" else "inf"
  | finite negative m =>
    String.ofList ((if negative then ['-'] else []) ++ (m.shortest Ratio.nearestUp).plain)

def readUnsigned? (negative : Bool) (cs : List Char) : Option (Floating f) :=
  let name := Ascii.lower (String.ofList cs)
  if name == "inf" || name == "infinity" then some (infinity negative)
  else if name == "nan" then some nan
  else (Numeral.read? cs).map (ofNumeral negative)

/-- A numeral, an infinity or `nan`, after at most one sign. -/
def ofText? (s : String) : Option (Floating f) :=
  match s.toList with
  | '-' :: cs => readUnsigned? true cs
  | '+' :: cs => readUnsigned? false cs
  | cs => readUnsigned? false cs

end Floating

end RecordSearch
