import Lox.ShortestDecimal

/-!
# Numbers as text

A number literal is written with the fewest digits that read back to it.  How
the digits are laid out is a style: plain text is positional throughout, while
inspected text marks whole numbers and turns to scientific form far from one.
-/

namespace Lox

/-- What the bits of a double stand for. -/
inductive NumberShape
  | notANumber
  | infinite (negative : Bool)
  | zero (negative : Bool)
  | finite (negative : Bool) (magnitude : BinaryFraction)
  deriving DecidableEq

namespace NumberShape

/-- Read the sign bit, the eleven exponent bits and the fifty-two fraction bits
of a double.  A normal number has a leading bit that is not stored.  The
neighbour below is nearer than the one above at a power of two, except at the
least normal number, below which the spacing stays. -/
def ofBits (bits : UInt64) : NumberShape :=
  let negative := bits >>> 63 == 1
  let exponentField := ((bits >>> 52) &&& 0x7ff).toNat
  let fractionField := (bits &&& 0xfffffffffffff).toNat
  if exponentField = 0x7ff then
    if fractionField = 0 then .infinite negative else .notANumber
  else if exponentField = 0 then
    if fractionField = 0 then .zero negative
    else .finite negative ⟨fractionField, -1074, false⟩
  else
    .finite negative
      ⟨0x10000000000000 + fractionField, (exponentField : Int) - 1075,
        fractionField = 0 && 1 < exponentField⟩

end NumberShape

/-- The layout decisions for a number. -/
structure NumberStyle where
  /-- What follows the digits of a whole number. -/
  wholeMark : List Char
  /-- The powers of ten of a leading digit between which a number is written
  positionally, both included.  Without them every number is. -/
  positionalRange : Option (Int × Int)

namespace NumberStyle

/-- Positional throughout, whole numbers without a point. -/
def plain : NumberStyle := ⟨[], none⟩

/-- Whole numbers end in a point and a zero, and numbers below `10 ^ -4` or from
`10 ^ 16` on are in scientific form. -/
def inspected : NumberStyle := ⟨['.', '0'], some (-4, 15)⟩

/-- Whether a number is written positionally, by the power of ten of its leading
digit. -/
def isPositional (style : NumberStyle) (leading : Int) : Bool :=
  match style.positionalRange with
  | none => true
  | some (least, greatest) => least ≤ leading && leading ≤ greatest

/-- Place the digits of a decimal around its point, with zeros where it has no
digits of its own. -/
def positional (style : NumberStyle) (digits : List Char) (exponent : Int) :
    List Char :=
  if 0 ≤ exponent then
    digits ++ List.replicate exponent.toNat '0' ++ style.wholeMark
  else
    let places := (-exponent).toNat
    if places < digits.length then
      digits.take (digits.length - places) ++
        '.' :: digits.drop (digits.length - places)
    else
      '0' :: '.' :: (List.replicate (places - digits.length) '0' ++ digits)

/-- Digits of an integer, behind a minus sign when it is negative. -/
def signedDigits : Int → List Char
  | .ofNat magnitude => Nat.toDigits 10 magnitude
  | .negSucc predecessor => '-' :: Nat.toDigits 10 (predecessor + 1)

/-- One digit, the others behind a point, and the power of ten of the leading
digit. -/
def scientific (digits : List Char) (leading : Int) : List Char :=
  let mantissa :=
    match digits with
    | first :: second :: others => first :: '.' :: second :: others
    | _ => digits
  mantissa ++ 'e' :: signedDigits leading

/-- Lay out a decimal. -/
def layOut (style : NumberStyle) (decimal : Decimal) : List Char :=
  let digits := Nat.toDigits 10 decimal.coefficient
  let leading := decimal.exponent + digits.length - 1
  if style.isPositional leading then
    style.positional digits decimal.exponent
  else
    scientific digits leading

/-- Text of a number.  Zero keeps its sign, and what is not a number has
none. -/
def text (style : NumberStyle) (number : Float) : String :=
  let signed (negative : Bool) (unsigned : List Char) : List Char :=
    if negative then '-' :: unsigned else unsigned
  String.ofList <|
    match NumberShape.ofBits number.toBits with
    | .notANumber => ['N', 'a', 'N']
    | .infinite negative => signed negative ['i', 'n', 'f']
    | .zero negative => signed negative (style.positional ['0'] 0)
    | .finite negative magnitude =>
        signed negative (style.layOut magnitude.shortestDecimal)

end NumberStyle
end Lox
