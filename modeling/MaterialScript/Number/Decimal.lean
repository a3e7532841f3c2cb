/-!
# Decimal numbers and binary formats

A binary format stores a magnitude as a natural number, its *code*: the pattern of exponent and
fraction bits, without the sign. Codes grow with the magnitudes they stand for, and the code after
the greatest finite one is that of infinity.

* `digitOf?`, `natural?` : the value of a digit and of digits, to a base;
* `Format` : the widths of a format; `Format.binary32`, `Format.binary64`;
* `Format.significand`, `Format.shift` : code `c` stands for
  `significand c * 2 ^ shift c` units of `2 ^ -lowest`;
* `nearestQuotient` : a quotient rounded to the nearest natural number, ties to even;
* `Format.nearest` : the code nearest to a fraction;
* `Decimal` : a significand scaled by a power of ten;
* `Decimal.read?` : reads an optional sign, digits with an optional point and at least one digit,
  and an optional exponent;
* `Format.ofDecimal` : the code nearest to a decimal.
-/

namespace MaterialScript.Number

/-! ## Natural numbers to a base -/

/-- The value of a digit to a base of at most sixteen. -/
def digitOf? (base : Nat) (c : Char) : Option Nat :=
  let n :=
    if c.isDigit then c.toNat - '0'.toNat
    else if 'a' ≤ c ∧ c ≤ 'f' then c.toNat - 'a'.toNat + 10
    else if 'A' ≤ c ∧ c ≤ 'F' then c.toNat - 'A'.toNat + 10
    else base
  if n < base then some n else none

/-- The natural number written to a base, with at least one digit. -/
def natural? (base : Nat) (cs : List Char) : Option Nat :=
  if cs.isEmpty then none
  else cs.foldl (fun n c => do return (← n) * base + (← digitOf? base c)) (some 0)

/-! ## Binary formats -/

/-- A binary format. Its fraction has `fraction` bits, its least positive magnitude is
`2 ^ -lowest`, and `infinity` is the code after the greatest finite one. -/
structure Format where
  fraction : Nat
  lowest : Nat
  infinity : Nat
deriving DecidableEq, Repr

/-- The 32-bit format: 23 fraction bits, magnitudes from `2 ^ -149` to below `2 ^ 128`. -/
def Format.binary32 : Format := ⟨23, 149, 0x7F800000⟩

/-- The 64-bit format: 52 fraction bits, magnitudes from `2 ^ -1074` to below `2 ^ 1024`. -/
def Format.binary64 : Format := ⟨52, 1074, 0x7FF0000000000000⟩

/-- The whole number that a code stores, with the hidden bit of normal magnitudes. -/
def Format.significand (f : Format) (code : Nat) : Nat :=
  if code < Nat.pow 2 f.fraction then code
  else Nat.pow 2 f.fraction + code % Nat.pow 2 f.fraction

/-- The power of two that scales the significand of a code. -/
def Format.shift (f : Format) (code : Nat) : Nat := code / Nat.pow 2 f.fraction - 1

/-- The magnitude of a code, in units of `2 ^ -lowest`. -/
def Format.units (f : Format) (code : Nat) : Nat := f.significand code * Nat.pow 2 (f.shift code)

/-! ## Rounding -/

/-- The natural number nearest to `num / den`; halfway between two, the even one. -/
def nearestQuotient (num den : Nat) : Nat :=
  let q := num / den
  let r := num % den
  if 2 * r < den then q else if den < 2 * r then q + 1 else q + q % 2

/-- The code of the magnitude nearest to `num / den`; halfway between two, the one with the even
significand. What lies beyond the finite magnitudes gets the code of infinity. -/
def Format.nearest (f : Format) (num den : Nat) : Nat :=
  let scaled := num * Nat.pow 2 f.lowest
  let shift := (scaled / den).log2 - f.fraction
  min (shift * Nat.pow 2 f.fraction + nearestQuotient scaled (den * Nat.pow 2 shift)) f.infinity

theorem Format.nearest_le (f : Format) (num den : Nat) : f.nearest num den ≤ f.infinity :=
  Nat.min_le_right ..

/-! ## Decimals -/

/-- The number `significand * 10 ^ exponent`. -/
structure Decimal where
  significand : Nat
  exponent : Int
deriving DecidableEq, Repr

/-! ## Reading -/

def digitValue (c : Char) : Nat := c.toNat - '0'.toNat

/-- The value of a row of decimal digits, the first being the most significant. -/
def digitsValue (ds : List Char) : Nat := ds.foldl (fun n c => 10 * n + digitValue c) 0

/-- Reads an optional sign; the flag tells whether it is a minus. -/
def readSign : List Char → Bool × List Char
  | '-' :: rest => (true, rest)
  | '+' :: rest => (false, rest)
  | rest => (false, rest)

/-- Reads what may follow the digits of a number: nothing, or `e` with a signed whole number. -/
def readExponent? : List Char → Option Int
  | [] => some 0
  | e :: rest =>
    if e = 'e' ∨ e = 'E' then
      let (negative, ds) := readSign rest
      if ds.isEmpty || !ds.all Char.isDigit then none
      else some (if negative then -(digitsValue ds : Int) else digitsValue ds)
    else none

/-- Splits a point and the digits after it off the front of a text. -/
def splitFraction : List Char → List Char × List Char
  | '.' :: rest => (rest.takeWhile Char.isDigit, rest.dropWhile Char.isDigit)
  | rest => ([], rest)

/-- Reads a whole text as a decimal number; the flag tells whether it has a minus sign. -/
def Decimal.read? (text : List Char) : Option (Bool × Decimal) := do
  let (negative, body) := readSign text
  let whole := body.takeWhile Char.isDigit
  let (part, rest) := splitFraction (body.dropWhile Char.isDigit)
  if whole.isEmpty && part.isEmpty then none
  else
    let exponent ← readExponent? rest
    some (negative, ⟨digitsValue (whole ++ part), exponent - part.length⟩)

/-! ## Rounding to a binary format -/

/-- The code nearest to a decimal. Decimals whose exponent alone puts them beyond the finite
magnitudes, or below half of the least one, are not expanded. -/
def Format.ofDecimal (f : Format) (d : Decimal) : Nat :=
  if d.significand = 0 then 0
  else if (f.lowest : Int) < d.exponent then f.infinity
  else if d.exponent + f.lowest + d.significand.log2 + 2 ≤ 0 then 0
  else if 0 ≤ d.exponent then f.nearest (d.significand * Nat.pow 10 d.exponent.toNat) 1
  else f.nearest d.significand (Nat.pow 10 (-d.exponent).toNat)

theorem Format.ofDecimal_le (f : Format) (d : Decimal) : f.ofDecimal d ≤ f.infinity := by
  unfold Format.ofDecimal
  split
  · exact Nat.zero_le _
  split
  · exact Nat.le_refl _
  split
  · exact Nat.zero_le _
  split <;> exact f.nearest_le _ _

end MaterialScript.Number
