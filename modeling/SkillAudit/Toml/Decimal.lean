/-!
# Decimal numbers

Numbers as they are written in decimal, and which of them have a neighbour among the binary
fractions of 64 bits.
-/

namespace SkillAudit

/-- The size of a number with a fraction or an exponent: `digits · 10 ^ exponent`. -/
structure Decimal where
  digits : Nat
  exponent : Int
  deriving DecidableEq, Repr

namespace Decimal

/-- The least size that rounds to no binary fraction of 64 bits. -/
def bound : Nat := Nat.pow 2 1024 - Nat.pow 2 970

/-- The number of decimal digits. -/
def size (d : Decimal) : Nat :=
  (toString d.digits).length

/-- Whether the number rounds to a binary fraction of 64 bits.  A number whose exponent alone
decides is never written out. -/
def isRepresentable (d : Decimal) : Bool :=
  if d.digits = 0 then true
  else if 400 < d.exponent + d.size then false
  else if 0 ≤ d.exponent then d.digits * Nat.pow 10 d.exponent.toNat < bound
  else if d.exponent + d.size < 0 then true
  else d.digits < bound * Nat.pow 10 (-d.exponent).toNat

end Decimal
end SkillAudit
