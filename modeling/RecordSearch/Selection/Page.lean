/-!
Pages of a result, numbered from zero. Number and size have 64 bits, and so has the position of
the first item, which stays at the greatest value where the product is beyond it.
-/

namespace RecordSearch

structure Page where
  number : UInt64
  size : UInt64
deriving DecidableEq

namespace Page

def offset (p : Page) : Nat := min (p.number.toNat * p.size.toNat) (Nat.pow 2 64 - 1)

def limit (p : Page) : Nat := p.size.toNat

def slice {α : Type} (p : Page) (items : List α) : List α := (items.drop p.offset).take p.limit

end Page

end RecordSearch
