import MaterialScript.Number.Layout

/-!
# 32-bit floating-point numbers

* `Binary32` : a number given by its 32-bit pattern; `Binary32.ofCode` builds one from a sign and
  the code of its magnitude;
* `Binary32.decode?` : the number nearest to a decimal text, refused when it is out of range;
* `Binary32.text` : the plain text; `Binary32.scaledText` : the text in data formats;
* `Binary32.equal` : numerical equality, which differs from equality of patterns.
-/

namespace MaterialScript

open Number

/-- A 32-bit floating-point number, by its bit pattern. -/
structure Binary32 where
  bits : UInt32
deriving DecidableEq, Repr

namespace Binary32

def signBit : Nat := 0x80000000

/-- The number with the given sign and magnitude code. -/
def ofCode (negative : Bool) (code : Nat) : Binary32 :=
  ⟨UInt32.ofNat (code + if negative then signBit else 0)⟩

def negative (x : Binary32) : Bool := signBit ≤ x.bits.toNat

/-- The code of the magnitude: all bits but the sign. -/
def code (x : Binary32) : Nat := x.bits.toNat % signBit

/-- Whether the number is neither infinite nor undefined. -/
def isFinite (x : Binary32) : Bool := x.code < Format.binary32.infinity

/-- Whether the pattern stands for no number. -/
def isNaN (x : Binary32) : Bool := Format.binary32.infinity < x.code

@[simp] theorem ofCode_code (x : Binary32) : ofCode x.negative x.code = x := by
  cases x with
  | mk bits =>
    have hb := bits.toNat_lt
    unfold ofCode negative code signBit
    congr 1
    apply UInt32.toNat_inj.1
    by_cases h : 0x80000000 ≤ bits.toNat
    · simp only [h, decide_true, if_true, UInt32.toNat_ofNat']; omega
    · simp only [h, decide_false, if_false, UInt32.toNat_ofNat', Bool.false_eq_true]; omega

theorem code_ofCode {b : Bool} {c : Nat} (h : c < signBit) : (ofCode b c).code = c := by
  unfold signBit at h
  cases b <;> simp [ofCode, code, signBit] <;> omega

theorem negative_ofCode {b : Bool} {c : Nat} (h : c < signBit) : (ofCode b c).negative = b := by
  unfold signBit at h
  cases b <;> simp [ofCode, negative, signBit] <;> omega

/-! ## Reading -/

/-- The number nearest to a decimal text, ties to the even significand. Nothing when the text is no
decimal number, when the number would be infinite, or when it would be zero though the text has a
digit that is not. -/
def decode? (text : String) : Option Binary32 :=
  match Decimal.read? text.toList with
  | none => none
  | some (negative, d) =>
    let code := Format.binary32.ofDecimal d
    if d.significand = 0 then some (ofCode negative 0)
    else if code = 0 ∨ code = Format.binary32.infinity then none
    else some (ofCode negative code)

/-! ## Writing -/

/-- The plain text: the fewest digits that read back, without an exponent. -/
def text (x : Binary32) : String := Format.binary32.plainText x.negative x.code

/-- The text of a finite number in data formats: the fewest digits that read back, with a point or
an exponent. -/
def scaledText (style : ScaledStyle) (x : Binary32) : String :=
  if x.code = 0 then String.ofList (signed x.negative ['0', '.', '0'])
  else String.ofList
    (signed x.negative ((Format.binary32.shortest .even x.code).digits.scaled style))

/-! ## Comparing -/

/-- Numerical equality: the two zeros are equal, and an undefined number equals nothing. -/
def equal (x y : Binary32) : Bool :=
  !x.isNaN && !y.isNaN && (x.bits == y.bits || (x.code == 0 && y.code == 0))

end Binary32

end MaterialScript
