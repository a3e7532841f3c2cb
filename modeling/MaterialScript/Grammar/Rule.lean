import MaterialScript.Token.Basic

/-!
# Grammar rules

A rule takes lexemes from the front of a list, or fails. A failure is known by the lexemes from the
failing one on, so the fewer are left, the further it got; no lexemes are left when the end of the
input is what fails. A rule that matches also tells which failure got furthest while it tried what
did not match, because that failure is the one to report if the text after the match fails no further
on.

* `Reason` : why a rule does not match; `Failure` : where and why; `Failure.message` : its wording;
* `Failure.furthest`, `furthest?` : the failure that got further, the first one of equals;
* `Reply`, `Rule` : the answer of a rule, and rules, which are put in sequence as a monad;
* `satisfy`, `classify` : rules for one lexeme; `optional`, `orElse`, `choice`, `many`, `finish` :
  rules made of rules;
* `Rule.run` : what a rule makes of a list of lexemes.
-/

namespace MaterialScript.Grammar

/-! ## Failures -/

/-- Why a rule does not match at a lexeme. -/
inductive Reason where
  /-- Something else has to stand here. -/
  | unexpected
  | identifierExpected
  | switchExpected
  | numberExpected
  | numberOutOfRange
  | stringExpected
  | unknownCullFace
  | unknownBlendFactor
deriving DecidableEq, Repr

/-- The wording of a reason for a lexeme shown as `found`, unless anything could stand here. -/
def Reason.explain? (found : String) : Reason → Option String
  | unexpected => none
  | identifierExpected => some ("expected identifier, found `" ++ found ++ "`")
  | switchExpected => some ("expected `On` or `Off`, found `" ++ found ++ "`")
  | numberExpected => some ("expected number, found `" ++ found ++ "`")
  | numberOutOfRange => some (outOfRangeMessage found)
  | stringExpected => some ("expected string literal, found `" ++ found ++ "`")
  | unknownCullFace => some ("unknown cull face `" ++ found ++ "`")
  | unknownBlendFactor => some ("unknown blend function `" ++ found ++ "`")

/-- A failure: the lexemes from the failing one on, and the reason. -/
structure Failure where
  rest : List Lexeme
  reason : Reason
deriving DecidableEq, Repr

namespace Failure

/-- The lexeme that fails, or nothing at the end of the input. -/
def found? (e : Failure) : Option Lexeme := e.rest.head?

/-- The number of lexemes before the failing one, in an input of `total` lexemes. -/
def index (e : Failure) (total : Nat) : Nat := total - e.rest.length

/-- The wording that belongs to the failing rule, if it has one. -/
def explain? (e : Failure) : Option String :=
  match e.found? with
  | some l => e.reason.explain? l.token.display
  | none => none

def message (e : Failure) : String :=
  match e.explain?, e.found? with
  | some text, _ => text
  | none, some l => "unexpected `" ++ l.token.display ++ "`"
  | none, none => "unexpected end of input"

/-- The failure that got further; the first one if both got equally far. -/
def furthest (a b : Failure) : Failure := if b.rest.length < a.rest.length then b else a

theorem furthest_rest_le_left (a b : Failure) :
    (furthest a b).rest.length ≤ a.rest.length := by
  unfold furthest; split <;> omega

theorem furthest_assoc (a b c : Failure) :
    furthest (furthest a b) c = furthest a (furthest b c) := by
  unfold furthest
  repeat' split
  all_goals first | rfl | (exfalso; omega)

end Failure

/-- The failure that got further of two that need not be there. -/
def furthest? : Option Failure → Option Failure → Option Failure
  | some a, some b => some (a.furthest b)
  | some a, none => some a
  | none, b => b

@[simp] theorem furthest?_none_right (a : Option Failure) : furthest? a none = a := by
  cases a <;> rfl

theorem furthest?_assoc (a b c : Option Failure) :
    furthest? (furthest? a b) c = furthest? a (furthest? b c) := by
  cases a <;> cases b <;> cases c <;> simp [furthest?, Failure.furthest_assoc]

/-! ## Rules -/

/-- The answer of a rule: a value, the lexemes after the match and the furthest failure on the way,
or the failure of the rule. -/
inductive Reply (α : Type) where
  | ok (value : α) (rest : List Lexeme) (alt : Option Failure)
  | fail (failure : Failure)
deriving Repr

/-- A rule matches the front of a list of lexemes. -/
def Rule (α : Type) : Type := List Lexeme → Reply α

namespace Rule

variable {α β : Type}

/-- Matches nothing. -/
def pure (a : α) : Rule α := fun ls => .ok a ls none

/-- One rule after the other. A failure of the second counts against the furthest failure of the
first. -/
def bind (x : Rule α) (f : α → Rule β) : Rule β := fun ls =>
  match x ls with
  | .fail e => .fail e
  | .ok a rest alt =>
    match f a rest with
    | .fail e => .fail ((alt.map e.furthest).getD e)
    | .ok b rest' alt' => .ok b rest' (furthest? alt' alt)

instance : Monad Rule where
  pure := Rule.pure
  bind := Rule.bind

/-- The value that a rule reads at the front of the lexemes, or why it does not match. -/
def run (x : Rule α) (ls : List Lexeme) : Except Failure α :=
  match x ls with
  | .ok a _ _ => .ok a
  | .fail e => .error e

end Rule

/-! ## One lexeme -/

/-- A lexeme of which `read` makes a value; otherwise the rule fails with the reason that `read`
gives. At the end of the input the rule fails without a reason of its own. -/
def classify {α : Type} (read : Lexeme → Except Reason α) : Rule α
  | [] => .fail ⟨[], .unexpected⟩
  | l :: ls =>
    match read l with
    | .ok a => .ok a ls none
    | .error reason => .fail ⟨l :: ls, reason⟩

/-- A lexeme whose token has a property; the value is its span. -/
def satisfy (p : Token → Bool) : Rule Span :=
  classify fun l => if p l.token then .ok l.span else .error .unexpected

def finish : Rule Unit
  | [] => .ok () [] none
  | l :: ls => .fail ⟨l :: ls, .unexpected⟩

/-! ## Rules made of rules -/

def optional {α : Type} (x : Rule α) : Rule (Option α) := fun ls =>
  match x ls with
  | .ok a rest alt => .ok (some a) rest alt
  | .fail e => .ok none ls (some e)

/-- The first rule that matches. If neither does and both get equally far, the first one's failure
is reported. -/
def orElse {α : Type} (x y : Rule α) : Rule α := fun ls =>
  match x ls with
  | .ok a rest alt => .ok a rest alt
  | .fail e =>
    match y ls with
    | .ok a rest alt => .ok a rest alt
    | .fail e' => .fail (e.furthest e')

/-- The first rule that matches, after the failure `e` of the rules before. -/
def choiceFrom {α : Type} (e : Failure) : List (Rule α) → Rule α
  | [], _ => .fail e
  | x :: xs, ls =>
    match x ls with
    | .ok a rest alt => .ok a rest alt
    | .fail e' => choiceFrom (e'.furthest e) xs ls

/-- The first of several rules that matches. If none does and some get equally far, the failure of
the last of them is reported. -/
def choice {α : Type} (x : Rule α) (xs : List (Rule α)) : Rule α := fun ls =>
  match x ls with
  | .ok a rest alt => .ok a rest alt
  | .fail e => choiceFrom e xs ls

/-- What a repeated rule reads: the values, the lexemes after them, and the furthest failure. -/
structure Repeated (α : Type) where
  values : List α
  rest : List Lexeme
  alt : Option Failure

/-- Matches a rule as often as it does, each time taking at least one lexeme. -/
def manyFrom {α : Type} (x : Rule α) (ls : List Lexeme) : Repeated α :=
  match x ls with
  | .fail e => ⟨[], ls, some e⟩
  | .ok a rest alt =>
    if rest.length < ls.length then
      let more := manyFrom x rest
      ⟨a :: more.values, more.rest, furthest? more.alt alt⟩
    else ⟨[], ls, alt⟩
termination_by ls.length

def many {α : Type} (x : Rule α) : Rule (List α) := fun ls =>
  let r := manyFrom x ls
  .ok r.values r.rest r.alt

end MaterialScript.Grammar
