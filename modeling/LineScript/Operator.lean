/-!
The operators of the language on 64-bit words. Sums, differences, products and powers wrap around;
quotients truncate toward zero and remainders take the sign of the dividend.
-/

namespace LineScript

inductive Comparison
  | lt
  | gt
  | le
  | ge
  | eq
  | ne
deriving DecidableEq, Repr

namespace Comparison

def spelling : Comparison → String
  | .lt => "<"
  | .gt => ">"
  | .le => "<="
  | .ge => ">="
  | .eq => "=="
  | .ne => "!="

def eval : Comparison → Int64 → Int64 → Bool
  | .lt, lhs, rhs => decide (lhs < rhs)
  | .gt, lhs, rhs => decide (rhs < lhs)
  | .le, lhs, rhs => decide (lhs ≤ rhs)
  | .ge, lhs, rhs => decide (rhs ≤ lhs)
  | .eq, lhs, rhs => decide (lhs = rhs)
  | .ne, lhs, rhs => decide (lhs ≠ rhs)

end Comparison

inductive Arithmetic
  | add
  | sub
  | mul
  | div
  | mod
  | pow
deriving DecidableEq, Repr

inductive ArithmeticFault
  | divisionByZero
  | invalidExponent (exponent : Int64)
deriving DecidableEq, Repr

namespace Arithmetic

def spelling : Arithmetic → String
  | .add => "+"
  | .sub => "-"
  | .mul => "*"
  | .div => "/"
  | .mod => "%"
  | .pow => "^"

/-- Exponentiation by repeated squaring. -/
def power (base : Int64) (exponent : Nat) : Int64 :=
  if exponent = 0 then 1
  else
    let half := power (base * base) (exponent / 2)
    if exponent % 2 = 0 then half else base * half
termination_by exponent

def eval : Arithmetic → Int64 → Int64 → Except ArithmeticFault Int64
  | .add, lhs, rhs => .ok (lhs + rhs)
  | .sub, lhs, rhs => .ok (lhs - rhs)
  | .mul, lhs, rhs => .ok (lhs * rhs)
  | .div, lhs, rhs => if rhs = 0 then .error .divisionByZero else .ok (lhs / rhs)
  | .mod, lhs, rhs => if rhs = 0 then .error .divisionByZero else .ok (lhs % rhs)
  | .pow, lhs, rhs =>
      if 0 ≤ rhs.toInt ∧ rhs.toInt < UInt32.size then .ok (power lhs rhs.toInt.toNat)
      else .error (.invalidExponent rhs)

end Arithmetic
end LineScript
