/-!
# Times of modification

A file carries the time of its last change in seconds and nanoseconds. Times are
compared as binary numbers of double precision, computed as the seconds plus a
billionth times the nanoseconds, with a rounding after each of the two
operations. Two times that differ by less than that precision are the same.

A billionth is itself rounded: it is `4835703278458517 / 2 ^ 82`. All numbers
that occur are multiples of `2 ^ -82`, so they are kept as integers in that unit
and rounding is exact arithmetic: `roundToPrecision` keeps the 53 leading binary
digits, and of two equally near numbers the one whose last digit is even.
-/

namespace MessageTables

/-- A time of modification. -/
structure Timestamp where
  seconds : Int
  nanoseconds : Nat
  deriving DecidableEq, Repr

/-- The number of binary digits of a number in double precision. -/
def precision : Nat := 53

/-- The nearest multiple of a power of two; of two the even multiple. -/
def roundToMultiple (exponent value : Nat) : Nat :=
  let unit : Nat := 1 <<< exponent
  let quotient := value / unit
  let remainder := value % unit
  if 2 * remainder < unit then quotient * unit
  else if unit < 2 * remainder then (quotient + 1) * unit
  else if quotient % 2 = 0 then quotient * unit
  else (quotient + 1) * unit

/-- The nearest number of double precision. -/
def roundNatural (value : Nat) : Nat :=
  roundToMultiple (value.log2 + 1 - precision) value

/-- The nearest number of double precision, the sign aside. -/
def roundToPrecision (value : Int) : Int :=
  if value < 0 then -(roundNatural value.natAbs : Int) else roundNatural value.natAbs

namespace Timestamp

/-- The exponent of the unit that times are counted in, `2 ^ -82` seconds. -/
def unitExponent : Nat := 82

/-- A billionth of a second in units. -/
def nanosecond : Nat := 4835703278458517

/-- The time in units, in double precision. -/
def value (time : Timestamp) : Int :=
  roundToPrecision
    (time.seconds * (1 <<< unitExponent : Nat) + roundNatural (nanosecond * time.nanoseconds))

/-- Whether a time is later than another, as double precision sees them. -/
def isLater (time other : Timestamp) : Bool :=
  other.value < time.value

/-- The difference between the exponent field of a double and the exponent of its value. -/
def exponentBias : Nat := 1023

/--
The bits of a positive number of units in double precision: the exponent and 52 digits
behind the first.
-/
def magnitudeBits (value : Nat) : Nat :=
  let exponent := value.log2 + exponentBias - unitExponent
  let digits :=
    if value.log2 < precision then value <<< (precision - 1 - value.log2)
    else value >>> (value.log2 + 1 - precision)
  exponent <<< (precision - 1) + digits % (1 <<< (precision - 1))

/-- The 64 bits of the time in double precision. -/
def bits (time : Timestamp) : Nat :=
  let value := time.value
  if value = 0 then 0
  else if value < 0 then 0x8000000000000000 + magnitudeBits value.natAbs
  else magnitudeBits value.natAbs

end Timestamp

end MessageTables
