/-!
# Binary floating-point numbers

Floating-point numbers by value: a sign, a whole mantissa and a power of two. Nothing
here depends on machine floats; every rounding is one exact comparison of natural
numbers, to the nearest representable value with ties to the even mantissa.

Zero is written with mantissa 0 and keeps its sign.
-/

namespace Deckwright

/-- A floating-point number; `finite s m e` is `m * 2 ^ e`, negated if `s`. -/
inductive Floating where
  | finite (negative : Bool) (mantissa : Nat) (exponent : Int)
  | infinite (negative : Bool)
  | undefined
  deriving DecidableEq, Inhabited

namespace Floating

/--
A binary format: the number of significant bits, and the least and the greatest weight
(as a power of two) of the last of them.
-/
structure Format where
  precision : Nat
  least : Int
  greatest : Int

/-- The 64-bit format. -/
def Format.double : Format := ⟨53, -1074, 971⟩

/-- The 32-bit format. -/
def Format.single : Format := ⟨24, -149, 104⟩

/-- `2 ^ e` for a nonnegative `e`, and 1 for a negative one. -/
def pow2 (e : Int) : Nat :=
  Nat.pow 2 e.toNat

/-- `10 ^ e` for a nonnegative `e`, and 1 for a negative one. -/
def pow10 (e : Int) : Nat :=
  Nat.pow 10 e.toNat

/-- The quotient of two natural numbers, rounded to the nearest one; a tie goes to the even one. -/
def roundQuotient (num den : Nat) : Nat :=
  let quotient := num / den
  let twice := 2 * (num % den)
  if twice < den then quotient
  else if den < twice then quotient + 1
  else if quotient % 2 = 0 then quotient
  else quotient + 1

/-- The greatest `k` with `2 ^ k ≤ num / den`, for positive `num` and `den`. -/
def log2Quotient (num den : Nat) : Int :=
  let k : Int := (num.log2 : Int) - (den.log2 : Int)
  if den * pow2 k ≤ num * pow2 (-k) then k else k - 1

/-- The number of the format nearest to `num / den`, negated if asked; beyond the greatest, infinity. -/
def round (format : Format) (negative : Bool) (num den : Nat) : Floating :=
  if num = 0 then .finite negative 0 format.least
  else
    let weight := max format.least (log2Quotient num den - (format.precision - 1 : Int))
    let mantissa := roundQuotient (num * pow2 (-weight)) (den * pow2 weight)
    let (mantissa, weight) :=
      if mantissa = pow2 format.precision then (pow2 (format.precision - 1), weight + 1)
      else (mantissa, weight)
    if format.greatest < weight then .infinite negative
    else .finite negative mantissa weight

/-- A number in another format, rounded if it has more digits than fit. -/
def convert (format : Format) : Floating → Floating
  | .finite negative mantissa exponent =>
    round format negative (mantissa * pow2 exponent) (pow2 (-exponent))
  | other => other

/-- The number nearest to an integer. -/
def ofInt (format : Format) (i : Int) : Floating :=
  round format (decide (i < 0)) i.natAbs 1

/-- The number nearest to `digits * 10 ^ exponent`. -/
def ofDecimal (format : Format) (negative : Bool) (digits : Nat) (exponent : Int) : Floating :=
  round format negative (digits * pow10 exponent) (pow10 (-exponent))

/-- The product of two finite numbers, rounded once. -/
def times (format : Format) : Floating → Floating → Floating
  | .finite s m e, .finite s' m' e' =>
    round format (s != s') (m * m' * pow2 (e + e')) (pow2 (-(e + e')))
  | _, _ => .undefined

/-- The quotient of two finite numbers, rounded once. -/
def dividedBy (format : Format) : Floating → Floating → Floating
  | .finite s m e, .finite s' m' e' =>
    if m' = 0 then .undefined
    else round format (s != s') (m * pow2 (e - e')) (m' * pow2 (e' - e))
  | _, _ => .undefined

/-- Whether the number is zero. -/
def isZero : Floating → Bool
  | .finite _ mantissa _ => mantissa == 0
  | _ => false

/-- Whether the number is finite. -/
def isFinite : Floating → Bool
  | .finite .. => true
  | _ => false

/-- The same magnitude with the given sign. -/
def withSign (negative : Bool) : Floating → Floating
  | .finite _ mantissa exponent => .finite negative mantissa exponent
  | .infinite _ => .infinite negative
  | .undefined => .undefined

/-- Whether the number is at least zero and at most the natural number `bound`. -/
def isBetweenZeroAnd (bound : Nat) : Floating → Bool
  | .finite negative mantissa exponent =>
    (!negative || mantissa == 0) && mantissa * pow2 exponent ≤ bound * pow2 (-exponent)
  | _ => false

end Floating

end Deckwright
