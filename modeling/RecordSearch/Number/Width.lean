import RecordSearch.Number.Basic

/-!
The widths in which number fields are stored. Coercion brings a number into a width: whole widths
drop the fraction and refuse what lies outside their range, floating-point widths round.
-/

namespace RecordSearch

inductive Width where
  | i8 | i16 | i32 | i64
  | u8 | u16 | u32 | u64
  | f32 | f64
  | decimal
deriving DecidableEq

namespace Width

def name : Width → String
  | i8 => "i8"
  | i16 => "i16"
  | i32 => "i32"
  | i64 => "i64"
  | u8 => "u8"
  | u16 => "u16"
  | u32 => "u32"
  | u64 => "u64"
  | f32 => "f32"
  | f64 => "f64"
  | decimal => "decimal"

def all : List Width := [i8, i16, i32, i64, u8, u16, u32, u64, f32, f64, decimal]

def ofName? (s : String) : Option Width := all.find? (·.name == s)

/-- Whole parts from `-2 ^ (bits - 1)` up to but not including `2 ^ (bits - 1)`. -/
def fitSigned (bits : Nat) (n : Int) : Option Number :=
  let bound : Int := Nat.pow 2 (bits - 1)
  if -bound ≤ n ∧ n < bound then some (.int (Int64.ofInt n)) else none

/-- Whole parts from zero up to but not including `2 ^ bits`. -/
def fitUnsigned (bits : Nat) (n : Int) : Option Number :=
  if 0 ≤ n ∧ n < (Nat.pow 2 bits : Int) then some (.uint (UInt64.ofNat n.toNat)) else none

/-- Through the 32 bit format and back. -/
def throughSingle (x : Double) : Double := (x.convert .binary32).convert .binary64

def coerce? (w : Width) (n : Number) : Option Number :=
  match w with
  | f32 => some (.float (throughSingle n.toDouble))
  | f64 => some (.float n.toDouble)
  | decimal => n.toDecimal?.map .decimal
  | i8 => n.whole?.bind (fitSigned 8)
  | i16 => n.whole?.bind (fitSigned 16)
  | i32 => n.whole?.bind (fitSigned 32)
  | i64 => n.whole?.bind (fitSigned 64)
  | u8 => n.whole?.bind (fitUnsigned 8)
  | u16 => n.whole?.bind (fitUnsigned 16)
  | u32 => n.whole?.bind (fitUnsigned 32)
  | u64 => n.whole?.bind (fitUnsigned 64)

/-- Digits of a number held in the width. In the 32 bit format fewer digits read back, so its
numbers are written there. -/
def text (w : Width) (n : Number) : String :=
  match w, n with
  | f32, .float x => (x.convert .binary32).text
  | _, n => n.text

end Width

end RecordSearch
