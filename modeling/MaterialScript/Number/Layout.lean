import MaterialScript.Number.Decimal

/-!
# Numbers in decimal digits

The shortest decimal of a magnitude lies on the coarsest grid of multiples of a power of ten that
has a point reading back as the magnitude. Among the multiples of `10 ^ g` only the two neighbours
of the magnitude need to be tried, the nearer one first. Its digits are a row `d₁ … dₙ` with a point
position `k`, for `0.d₁ … dₙ * 10 ^ k`.

* `Tie` : which neighbour is tried first when both are equally near;
* `neighbours` : the two multiples of `10 ^ g` around a fraction;
* `Format.shortest` : the shortest decimal that reads back as a code;
* `Digits`, `Decimal.digits` : rows of digits;
* `Digits.plain` : positional notation at any size, whole numbers without a point;
* `Digits.scaled` : positional notation for middling sizes, whole numbers with `.0`, and an exponent
  for the others;
* `Format.plainText` : the text of a number of a binary format in the plain layout.
-/

namespace MaterialScript.Number

/-! ## The shortest decimal -/

/-- The choice between two equally near neighbours. -/
inductive Tie where
  /-- The greater one. -/
  | up
  /-- The one whose significand is even. -/
  | even
deriving DecidableEq, Repr

/-- Whether the greater neighbour is the first choice, for a quotient `q` with remainder `r`
of a division by `den`. -/
def Tie.prefersUpper (tie : Tie) (q r den : Nat) : Bool :=
  den < 2 * r || (2 * r == den && (tie == .up || q % 2 == 1))

/-- The multiples of `10 ^ g` next to `num / den`, the first choice first; only the number itself
if it is such a multiple. -/
def neighbours (tie : Tie) (num den : Nat) (g : Int) : List Decimal :=
  let n := num * Nat.pow 10 (-g).toNat
  let d := den * Nat.pow 10 g.toNat
  let q := n / d
  let r := n % d
  if r = 0 then [⟨q, g⟩]
  else if tie.prefersUpper q r d then [⟨q + 1, g⟩, ⟨q, g⟩]
  else [⟨q, g⟩, ⟨q + 1, g⟩]

/-- Searches the grids of `10 ^ (n - lowest)`, `10 ^ (n - 1 - lowest)`, … for a decimal that reads
back as `code`. The last of them, of multiples of `10 ^ -lowest`, holds the magnitude itself. -/
def Format.search (f : Format) (tie : Tie) (code : Nat) : Nat → Decimal
  | 0 => ⟨f.units code * Nat.pow 5 f.lowest, -(f.lowest : Int)⟩
  | n + 1 =>
    let grid := neighbours tie (f.units code) (Nat.pow 2 f.lowest) ((n : Int) + 1 - f.lowest)
    match grid.find? (fun d => f.ofDecimal d == code) with
    | some d => d
    | none => f.search tie code n

/-- The shortest decimal that reads back as `code`, and of those the nearest one. The search
starts at a power of ten above the magnitude. -/
def Format.shortest (f : Format) (tie : Tie) (code : Nat) : Decimal :=
  f.search tie code (f.lowest + (f.units code / Nat.pow 2 f.lowest).log2 / 3 + 1)

/-- A decimal found by the search before its last grid reads back as the code. -/
theorem Format.ofDecimal_search (f : Format) (tie : Tie) (code n : Nat)
    (h : f.ofDecimal (f.search tie code 0) = code) :
    f.ofDecimal (f.search tie code n) = code := by
  induction n with
  | zero => exact h
  | succ n ih =>
    rw [Format.search]
    split
    · next found => simpa using List.find?_some found
    · exact ih

/-! ## Layouts -/

/-- The digits of the number `0.d₁ … dₙ * 10 ^ point`. -/
structure Digits where
  row : List Char
  point : Int
deriving DecidableEq, Repr

/-- The digits of a decimal, as many as its significand has. -/
def Decimal.digits (d : Decimal) : Digits :=
  let row := Nat.toDigits 10 d.significand
  ⟨row, row.length + d.exponent⟩

def zeros (n : Nat) : List Char := List.replicate n '0'

/-- Positional notation. A whole number has no point. -/
def Digits.plain (d : Digits) : List Char :=
  if d.point ≤ 0 then '0' :: '.' :: zeros (-d.point).toNat ++ d.row
  else
    let k := d.point.toNat
    if k < d.row.length then d.row.take k ++ '.' :: d.row.drop k
    else d.row ++ zeros (k - d.row.length)

/-- The decisions of a scaled layout. -/
structure ScaledStyle where
  /-- What stands between the mark `e` and an exponent that is not negative. -/
  plus : String
deriving DecidableEq, Repr

/-- The greatest number of digits before the point in a scaled layout without an exponent. -/
def widestWhole : Int := 13

/-- The point position from which down a scaled layout has an exponent. -/
def smallestPoint : Int := -6

/-- An exponent, marked with `e`. -/
def ScaledStyle.exponent (style : ScaledStyle) (n : Int) : List Char :=
  if n < 0 then 'e' :: '-' :: Nat.toDigits 10 n.natAbs
  else 'e' :: style.plus.toList ++ Nat.toDigits 10 n.natAbs

/-- Positional notation with at least one place after the point, or one digit, the others after
the point, and an exponent. -/
def Digits.scaled (style : ScaledStyle) (d : Digits) : List Char :=
  let n : Int := d.row.length
  if n ≤ d.point ∧ d.point ≤ widestWhole then d.row ++ zeros (d.point - n).toNat ++ ['.', '0']
  else if 0 < d.point ∧ d.point < n then d.plain
  else if smallestPoint < d.point ∧ d.point ≤ 0 then d.plain
  else
    let places := d.row.drop 1
    d.row.take 1 ++ (if places.isEmpty then [] else '.' :: places) ++ style.exponent (d.point - 1)

def signed (negative : Bool) (text : List Char) : List Char :=
  if negative then '-' :: text else text

/-- The text of a number of a format in the plain layout: the fewest digits that read back. -/
def Format.plainText (f : Format) (negative : Bool) (code : Nat) : String :=
  if f.infinity < code then "NaN"
  else if code = f.infinity then String.ofList (signed negative "inf".toList)
  else if code = 0 then String.ofList (signed negative ['0'])
  else String.ofList (signed negative (f.shortest .up code).digits.plain)

end MaterialScript.Number
