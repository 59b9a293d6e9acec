import Lengua.Proofs.Eval.Outcome
import Lengua.Proofs.Reader.Soundness
import Lengua.Proofs.RoundTrip
import Mathlib.Algebra.Group.Int.Defs
import Mathlib.Algebra.Group.Nat.Defs

/-!
# Arithmetic

What an expression of numerals and the signs of arithmetic comes to. A `Formula` is such an
expression apart from how it is read and evaluated, and it has two meanings: `exact` computes with
all integers, and `wrapped?` wraps around at 64 bits after every operation and has no value where a
division by zero is met. Without divisions the two differ by a multiple of the number of 64-bit
integers only, because sums, differences, products and opposites do not notice such multiples; a
division does.

Evaluation follows `wrapped?`, and where that has no value it ends at the first division by zero
from the left (`Expr.eval_computes`).
-/

namespace Lengua

/-! ## Numerals -/

namespace Text

/-- The number that decimal digits stand for, behind digits that stand for another. -/
def naturalFrom (value : Nat) (digits : Text) : Nat :=
  digits.foldl (fun value digit => value * 10 + (digit.toNat - 0x30)) value

/-- The number that decimal digits stand for. -/
def natural (digits : Text) : Nat := naturalFrom 0 digits

/-- Digits are read to the number they stand for. -/
theorem naturalFrom_of_digitsFrom {digits : Text} (decimal : ∀ byte ∈ digits, isDigit byte)
    {value result : Nat} (read : digitsFrom 10 false value digits = .ok result) :
    result = naturalFrom value digits := by
  induction digits generalizing value with
  | nil => exact (Except.ok.inj read).symm
  | cons digit rest ih =>
    have isDigit := decimal digit List.mem_cons_self
    simp only [digitsFrom, Bool.false_and, Bool.false_eq_true, if_false, digitValue?, isDigit,
      if_true] at read
    split at read
    · cases read
    split at read
    · cases read
    · exact ih (fun other member => decimal other (List.mem_cons_of_mem digit member)) read

/-- A numeral of digits alone that fits is read to the number they stand for. -/
theorem natural_of_plainInteger {digits : Text} (decimal : ∀ byte ∈ digits, isDigit byte)
    {value : Int64} (read : plainInteger? digits = some value) :
    value.toInt = natural digits := by
  rw [plainInteger?, readSigned, signOf_digits decimal] at read
  dsimp only at read
  cases unsigned : readUnsigned false digits with
  | error fault => simp [unsigned] at read
  | ok magnitude =>
    have same : magnitude = natural digits := by
      unfold readUnsigned at unsigned
      split at unsigned
      · cases unsigned
      · exact naturalFrom_of_digitsFrom decimal unsigned
    rw [unsigned] at read
    dsimp only [withSign] at read
    rw [if_neg Bool.false_ne_true] at read
    by_cases large : signedLimit ≤ magnitude
    · simp [large] at read
    · have small : (magnitude : Int) < 2 ^ 63 := by
        unfold signedLimit at large
        omega
      rw [if_neg large] at read
      rw [← Option.some.inj read, Int64.toInt_ofInt_of_le (by omega) small, same]

end Text

/-! ## Formulas -/

/-- The signs between two operands that do not notice multiples of the number of integers. -/
inductive RingSign where
  /-- Sum. -/
  | plus
  /-- Difference. -/
  | minus
  /-- Product. -/
  | times

namespace RingSign

/-- The sign that tokens of a kind stand for. -/
def ofKind? : Kind → Option RingSign
  | .plus => some plus
  | .minus => some minus
  | .times => some times
  | _ => none

/-- The operation on all integers. -/
def apply : RingSign → Int → Int → Int
  | plus, left, right => left + right
  | minus, left, right => left - right
  | times, left, right => left * right

end RingSign

/-- An expression of arithmetic. -/
inductive Formula where
  /-- A numeral, by its value. -/
  | number (magnitude : Nat)
  /-- The opposite of an operand. -/
  | opposite (operand : Formula)
  /-- A sum, a difference or a product. -/
  | combined (sign : RingSign) (left right : Formula)
  /-- A quotient, with the token of its sign. -/
  | quotient (sign : Token) (left right : Formula)

/-- The formula that an expression is, if it has no other parts than numerals and the signs of
arithmetic. -/
def Expr.formula? : Expr → Option Formula
  | .int token _ => some (.number (Text.natural token.literal))
  | .unary token _ operand =>
    if token.kind = .minus then operand.formula?.map .opposite else none
  | .binary token _ left right => do
    let first ← left.formula?
    let second ← right.formula?
    if token.kind = .divide then some (.quotient token first second)
    else (RingSign.ofKind? token.kind).map fun sign => .combined sign first second
  | _ => none

/-- A sign before an operand in a formula is that of the opposite. -/
theorem Expr.formula_unary {token : Token} {sign : Text} {operand : Expr} {formula : Formula}
    (written : (Expr.unary token sign operand).formula? = some formula) :
    token.kind = .minus ∧ ∃ inner, operand.formula? = some inner ∧ formula = .opposite inner := by
  rw [Expr.formula?] at written
  split at written
  case isFalse => cases written
  case isTrue kind =>
    obtain ⟨inner, found, same⟩ := Option.map_eq_some_iff.mp written
    exact ⟨kind, inner, found, same.symm⟩

/-- A sign between operands in a formula is that of a quotient or one of the others. -/
theorem Expr.formula_binary {token : Token} {sign : Text} {left right : Expr} {formula : Formula}
    (written : (Expr.binary token sign left right).formula? = some formula) :
    ∃ first second, left.formula? = some first ∧ right.formula? = some second ∧
      (token.kind = .divide ∧ formula = .quotient token first second ∨
        token.kind ≠ .divide ∧ ∃ ring, RingSign.ofKind? token.kind = some ring ∧
          formula = .combined ring first second) := by
  simp only [Expr.formula?, Option.bind_eq_bind, Option.bind_eq_some_iff] at written
  obtain ⟨first, foundLeft, second, foundRight, written⟩ := written
  refine ⟨first, second, foundLeft, foundRight, ?_⟩
  split at written
  case isTrue kind => exact .inl ⟨kind, (Option.some.inj written).symm⟩
  case isFalse other =>
    obtain ⟨ring, kind, same⟩ := Option.map_eq_some_iff.mp written
    exact .inr ⟨other, ring, kind, same.symm⟩

namespace Formula

/-- The value over all integers, a quotient truncated toward zero. -/
def exact : Formula → Int
  | number magnitude => magnitude
  | opposite operand => -operand.exact
  | combined sign left right => sign.apply left.exact right.exact
  | quotient _ left right => left.exact.tdiv right.exact

/-- The 64-bit integer that differs from an integer by a multiple of their number. -/
def wrap (value : Int) : Int := value.bmod (2 ^ 64)

/-- The value with every operation wrapped around at 64 bits, if no division by zero is met. -/
def wrapped? : Formula → Option Int
  | number magnitude => some (wrap magnitude)
  | opposite operand => do
    let value ← operand.wrapped?
    some (wrap (-value))
  | combined sign left right => do
    let first ← left.wrapped?
    let second ← right.wrapped?
    some (wrap (sign.apply first second))
  | quotient _ left right => do
    let first ← left.wrapped?
    let second ← right.wrapped?
    if second = 0 then none else some (wrap (first.tdiv second))

/-- The signs of the quotients, from left to right. -/
def divisions : Formula → List Token
  | number _ => []
  | opposite operand => operand.divisions
  | combined _ left right => left.divisions ++ right.divisions
  | quotient sign left right => left.divisions ++ sign :: right.divisions

/-- The signs of the quotients whose right operand has the wrapped value zero, from left to
right. -/
def zeroDivisions : Formula → List Token
  | number _ => []
  | opposite operand => operand.zeroDivisions
  | combined _ left right => left.zeroDivisions ++ right.zeroDivisions
  | quotient sign left right =>
    left.zeroDivisions ++ (if right.wrapped? = some 0 then [sign] else []) ++ right.zeroDivisions

/-- Divisions by zero are divisions. -/
theorem zeroDivisions_sublist (formula : Formula) :
    formula.zeroDivisions.Sublist formula.divisions := by
  induction formula with
  | number magnitude => exact .slnil
  | opposite operand ih => exact ih
  | combined sign left right ihLeft ihRight => exact ihLeft.append ihRight
  | quotient sign left right ihLeft ihRight =>
    rw [zeroDivisions, divisions, List.append_assoc]
    refine ihLeft.append ?_
    split
    · exact ihRight.cons_cons sign
    · exact ihRight.cons sign

/-! ## Exact values -/

/-- Sums, differences and products of wrapped operands are those of the operands, wrapped. -/
theorem wrap_apply (sign : RingSign) (left right : Int) :
    wrap (sign.apply (wrap left) (wrap right)) = wrap (sign.apply left right) := by
  cases sign with
  | plus => simp only [wrap, RingSign.apply, Int.bmod_add_bmod, Int.add_bmod_bmod]
  | minus => simp only [wrap, RingSign.apply, Int.bmod_sub_bmod, Int.sub_bmod_bmod]
  | times => simp only [wrap, RingSign.apply, Int.bmod_mul_bmod, Int.mul_bmod_bmod]

/-- Without divisions the wrapped value is the exact one, wrapped once at the end. -/
theorem wrapped_of_whole (formula : Formula) (whole : formula.divisions = []) :
    formula.wrapped? = some (wrap formula.exact) := by
  induction formula with
  | number magnitude => rfl
  | opposite operand ih =>
    simp only [wrapped?, ih whole, exact, Option.bind_eq_bind, Option.bind_some, wrap,
      Int.bmod_neg_bmod]
  | combined sign left right ihLeft ihRight =>
    obtain ⟨wholeLeft, wholeRight⟩ := List.append_eq_nil_iff.mp whole
    simp only [wrapped?, ihLeft wholeLeft, ihRight wholeRight, exact, Option.bind_eq_bind,
      Option.bind_some, wrap_apply]
  | quotient sign left right ihLeft ihRight => simp [divisions] at whole

/-! ## What a formula comes to -/

/-- What a formula comes to: its wrapped value, or the fault of its first division by zero. -/
inductive Settles (formula : Formula) : Value → Prop where
  /-- No division by zero is met. -/
  | integer {number : Int64} (fine : formula.zeroDivisions = [])
    (value : formula.wrapped? = some number.toInt) : Settles formula (.int number)
  /-- A division by zero is met. -/
  | fault {first : Token} {others : List Token} (found : formula.zeroDivisions = first :: others)
    (undefined : formula.wrapped? = none) :
    Settles formula (.error .divisionByZero first.line)

/-- How the meaning of an operation on two operands is put together: the divisions by zero of the
operation itself stand between those of the operands and need a value of the right one. -/
structure Operates (whole left right : Formula) (own : List Token)
    (operate : Int → Int → Option Int) : Prop where
  /-- The divisions by zero. -/
  divisions : whole.zeroDivisions = left.zeroDivisions ++ own ++ right.zeroDivisions
  /-- The wrapped value. -/
  values : whole.wrapped? = left.wrapped?.bind fun first => right.wrapped?.bind (operate first)
  /-- Without a value of the right operand the operation itself is not met. -/
  quiet : right.wrapped? = none → own = []

/-- A sum, a difference or a product has no division of its own. -/
theorem operates_combined (sign : RingSign) (left right : Formula) :
    (combined sign left right).Operates left right []
      fun first second => some (wrap (sign.apply first second)) where
  divisions := by rw [zeroDivisions, List.append_nil]
  values := rfl
  quiet _ := rfl

/-- A quotient is a division itself. -/
theorem operates_quotient (sign : Token) (left right : Formula) :
    (quotient sign left right).Operates left right
      (if right.wrapped? = some 0 then [sign] else [])
      fun first second => if second = 0 then none else some (wrap (first.tdiv second)) where
  divisions := rfl
  values := rfl
  quiet missing := by simp [missing]

end Formula

/-! ## Evaluation -/

section

variable {Tally : Type} {machine : Machine Tally} {invoke : Invoke Tally} {scope : ScopeId}

/-- A step that comes to what a formula does and changes nothing. -/
def Run.Computes (run : Run Tally Value) (formula : Formula) : Prop :=
  ∀ world, ∃ value, formula.Settles value ∧ run world = some (value, world)

/-- Visiting a node changes nothing if the meter lets every visit pass free of charge. -/
theorem Run.Computes.visit {run : Run Tally Value} {formula : Formula}
    (free : ∀ line forest tally, machine.meter.visit line forest tally = some tally)
    (computes : run.Computes formula) (line : Int) :
    (machine.visit line run).Computes formula := by
  intro world
  obtain ⟨value, settles, ran⟩ := computes world
  exact ⟨value, settles, Machine.visit_eq_some_iff.mpr (.inr ⟨world.tally, free _ _ _, ran⟩)⟩

/-- A numeral comes to its value. -/
theorem Run.Computes.number {magnitude : Nat} {number : Int64}
    (same : number.toInt = magnitude) :
    (Run.done (.int number) : Run Tally Value).Computes (.number magnitude) := by
  intro world
  refine ⟨.int number, .integer rfl ?_, rfl⟩
  rw [Formula.wrapped?, ← same, Formula.wrap]
  exact congrArg some (Int64.toInt_bmod number)

/-- The opposite of what an operand comes to. -/
theorem Run.Computes.opposite {run : Run Tally Value} {operand : Formula}
    (computes : run.Computes operand) (line : Int) :
    (run.unlessSignal fun value => .done (value.unary (utf8 "-") line)).Computes
      (.opposite operand) := by
  intro world
  obtain ⟨value, settles, ran⟩ := computes world
  cases settles with
  | @integer number fine wrapped =>
    refine ⟨.int (-number), .integer fine ?_,
      Run.unlessSignal_eq_some_iff.mpr ⟨_, world, ran, .inr ⟨rfl, rfl⟩⟩⟩
    rw [Formula.wrapped?, wrapped, Int64.toInt_neg]
    rfl
  | fault found undefined =>
    refine ⟨_, .fault found ?_,
      Run.unlessSignal_eq_some_iff.mpr ⟨_, world, ran, .inl ⟨rfl, rfl, rfl⟩⟩⟩
    rw [Formula.wrapped?, undefined]
    rfl

/-- An operation on what two operands come to. A fault of the left one comes first. -/
theorem Run.Computes.operation {first second : Run Tally Value} {whole left right : Formula}
    {own : List Token} {operate : Int → Int → Option Int} {sign : Text} {line : Int}
    (operates : whole.Operates left right own operate) (before : first.Computes left)
    (after : second.Computes right)
    (finishes : ∀ a b : Int64, left.zeroDivisions = [] → left.wrapped? = some a.toInt →
      right.zeroDivisions = [] → right.wrapped? = some b.toInt →
      whole.Settles (.binary sign (.int a) (.int b) line)) :
    (first.unlessSignal fun a =>
      second.unlessSignal fun b => .done (.binary sign a b line)).Computes whole := by
  intro world
  obtain ⟨value, settles, ran⟩ := before world
  obtain ⟨other, settlesOther, ranOther⟩ := after world
  cases settles with
  | @fault token others found undefined =>
    have leads : whole.zeroDivisions = token :: (others ++ own ++ right.zeroDivisions) := by
      rw [operates.divisions, found, List.cons_append, List.cons_append]
    have missing : whole.wrapped? = none := by rw [operates.values, undefined, Option.bind_none]
    exact ⟨_, .fault leads missing,
      Run.unlessSignal_eq_some_iff.mpr ⟨_, world, ran, .inl ⟨rfl, rfl, rfl⟩⟩⟩
  | @integer a fine wrapped =>
    cases settlesOther with
    | @fault token others found undefined =>
      have leads : whole.zeroDivisions = token :: others := by
        rw [operates.divisions, fine, operates.quiet undefined, found]
        rfl
      have missing : whole.wrapped? = none := by
        rw [operates.values, wrapped, Option.bind_some, undefined, Option.bind_none]
      exact ⟨_, .fault leads missing,
        Run.unlessSignal_eq_some_iff.mpr ⟨_, world, ran, .inr ⟨rfl,
          Run.unlessSignal_eq_some_iff.mpr ⟨_, world, ranOther, .inl ⟨rfl, rfl, rfl⟩⟩⟩⟩⟩
    | @integer b fineOther wrappedOther =>
      exact ⟨_, finishes a b fine wrapped fineOther wrappedOther,
        Run.unlessSignal_eq_some_iff.mpr ⟨_, world, ran, .inr ⟨rfl,
          Run.unlessSignal_eq_some_iff.mpr ⟨_, world, ranOther, .inr ⟨rfl, rfl⟩⟩⟩⟩⟩

/-- A sum, a difference or a product of integers wraps around. -/
theorem Formula.settles_combined {token : Token} {sign : RingSign} {left right : Formula}
    {a b : Int64} {line : Int} (genuine : token.Genuine)
    (found : RingSign.ofKind? token.kind = some sign) (fine : left.zeroDivisions = [])
    (wrapped : left.wrapped? = some a.toInt) (fineRight : right.zeroDivisions = [])
    (wrappedRight : right.wrapped? = some b.toInt) :
    (combined sign left right).Settles (.binary token.literal (.int a) (.int b) line) := by
  have divisions : (combined sign left right).zeroDivisions = [] := by
    rw [zeroDivisions, fine, fineRight, List.append_nil]
  have value : (combined sign left right).wrapped? = some (wrap (sign.apply a.toInt b.toInt)) := by
    rw [wrapped?, wrapped, wrappedRight]
    rfl
  cases kind : token.kind <;> rw [kind] at found <;> cases found <;>
    rw [genuine.literal_of_kind kind (by decide)]
  · rw [RingSign.apply, wrap, ← Int64.toInt_add] at value
    exact .integer divisions value
  · rw [RingSign.apply, wrap, ← Int64.toInt_sub] at value
    exact .integer divisions value
  · rw [RingSign.apply, wrap, ← Int64.toInt_mul] at value
    exact .integer divisions value

/-- A quotient of integers is truncated and wraps around, unless the divisor is zero. -/
theorem Formula.settles_quotient {token : Token} {left right : Formula} {a b : Int64}
    (genuine : token.Genuine) (kind : token.kind = .divide) (fine : left.zeroDivisions = [])
    (wrapped : left.wrapped? = some a.toInt) (fineRight : right.zeroDivisions = [])
    (wrappedRight : right.wrapped? = some b.toInt) :
    (quotient token left right).Settles (.binary token.literal (.int a) (.int b) token.line) := by
  have divides : Value.binary token.literal (.int a) (.int b) token.line =
      if b = 0 then .error .divisionByZero token.line else .int (a / b) := by
    rw [genuine.literal_of_kind kind (by decide)]
    rfl
  rw [divides]
  by_cases zero : b = 0
  · have divisor : right.wrapped? = some 0 := by rw [wrappedRight, zero, Int64.toInt_zero]
    have divisions : (quotient token left right).zeroDivisions = [token] := by
      rw [zeroDivisions, fine, fineRight, if_pos divisor]
      rfl
    have missing : (quotient token left right).wrapped? = none := by
      rw [wrapped?, wrapped, divisor]
      rfl
    rw [if_pos zero]
    exact .fault divisions missing
  · have nonzero : b.toInt ≠ 0 := fun same => zero (Int64.toInt_inj.mp same)
    have divisions : (quotient token left right).zeroDivisions = [] := by
      rw [zeroDivisions, fine, fineRight, wrappedRight, if_neg (by simpa using nonzero)]
      rfl
    have value : (quotient token left right).wrapped? = some (a / b).toInt := by
      rw [wrapped?, wrapped, wrappedRight, Int64.toInt_div]
      exact if_neg nonzero
    rw [if_neg zero]
    exact .integer divisions value

/-- An expression that is a formula comes to what the formula does, if the meter lets every visit
pass free of charge. -/
theorem Expr.eval_computes
    (free : ∀ line forest tally, machine.meter.visit line forest tally = some tally)
    {expr : Expr} {formula : Formula} (made : expr.MadeOf Token.Genuine)
    (written : expr.formula? = some formula) :
    (expr.eval machine invoke scope).Computes formula := by
  induction expr using Expr.formula?.induct generalizing formula with
  | case1 token value =>
    obtain ⟨genuine, kind, read⟩ := made
    obtain rfl := Option.some.inj written
    rw [Token.Genuine, kind] at genuine
    exact (Run.Computes.number (Text.natural_of_plainInteger genuine.2 read)).visit free token.line
  | case2 token sign operand minus ih =>
    obtain ⟨genuine, -, same, made⟩ := made
    obtain ⟨-, inner, found, rfl⟩ := Expr.formula_unary written
    rw [genuine.literal_of_kind minus (by decide)] at same
    rw [same]
    exact ((ih made found).opposite token.line).visit free token.line
  | case3 token sign operand other => exact absurd (Expr.formula_unary written).1 other
  | case4 token sign left right ihLeft ihRight =>
    obtain ⟨genuine, -, same, madeLeft, madeRight⟩ := made
    obtain ⟨first, second, foundLeft, foundRight, form⟩ := Expr.formula_binary written
    have before := ihLeft madeLeft foundLeft
    have after := ihRight madeRight foundRight
    rw [same]
    rcases form with ⟨kind, rfl⟩ | ⟨-, ring, kind, rfl⟩
    · refine (before.operation (Formula.operates_quotient token first second) after ?_).visit free _
      intro a b fine wrapped fineRight wrappedRight
      exact Formula.settles_quotient genuine kind fine wrapped fineRight wrappedRight
    · refine (before.operation (Formula.operates_combined ring first second) after ?_).visit free _
      intro a b fine wrapped fineRight wrappedRight
      exact Formula.settles_combined genuine kind fine wrapped fineRight wrappedRight
  | case5 other noNumeral noUnary noBinary =>
    cases other with
    | int token value => exact (noNumeral token value rfl).elim
    | unary token sign operand => exact (noUnary token sign operand rfl).elim
    | binary token sign left right => exact (noBinary token sign left right rfl).elim
    | _ => cases written

/-- A program that is one formula comes to what the formula does. -/
theorem Program.eval_computes
    (free : ∀ line forest tally, machine.meter.visit line forest tally = some tally)
    {program : Program} {token : Token} {expr : Expr} {formula : Formula}
    (made : program.MadeOf Token.Genuine) (single : program.stmts = [.expr token expr])
    (written : expr.formula? = some formula) :
    (program.eval machine invoke scope).Computes formula := by
  rw [Program.MadeOf, single] at made
  have computes : (Expr.eval machine invoke scope expr).Computes formula :=
    Expr.eval_computes free made.1.2 written
  refine Run.Computes.visit free ?_ _
  intro world
  obtain ⟨value, settles, ran⟩ := computes.visit free token.line world
  -- Whether or not it is a signal, the value of the only statement is that of the program.
  have kept : Stmt.evalAll machine invoke scope .null program.stmts world = some (value, world) := by
    rw [single]
    refine Run.unlessSignal_eq_some_iff.mpr ⟨value, world, ran, ?_⟩
    cases signal : value.isSignal with
    | true => exact .inl ⟨rfl, rfl, rfl⟩
    | false => exact .inr ⟨rfl, rfl⟩
  refine ⟨value, settles, Run.unwrapped_eq_some_iff.mpr ⟨value, kept, ?_⟩⟩
  cases settles <;> rfl

end

/-! ## Divisions in a text -/

/-- The signs of divisions among tokens. -/
def Token.slashes (tokens : List Token) : List Token := tokens.filter (·.kind = .divide)

/-- A token that is no sign of a division does not count among the others. -/
theorem Token.slashes_cons_of_ne {token : Token} (other : token.kind ≠ .divide)
    (tokens : List Token) : Token.slashes (token :: tokens) = Token.slashes tokens :=
  List.filter_cons_of_neg (by simpa using other)

/-- A sign of a division counts. -/
theorem Token.slashes_cons_of_eq {token : Token} (sign : token.kind = .divide)
    (tokens : List Token) : Token.slashes (token :: tokens) = token :: Token.slashes tokens :=
  List.filter_cons_of_pos (by simpa using sign)

/-- The signs of divisions in two token lists put together. -/
theorem Token.slashes_append (first second : List Token) :
    Token.slashes (first ++ second) = Token.slashes first ++ Token.slashes second :=
  List.filter_append first second

/-- Where a phrase is a formula, its divisions are those of its spelling. -/
def Phrase.Divides : Phrase → List Token → Prop
  | .bare expr, tokens | .operand _ expr, tokens =>
    ∀ formula, expr.formula? = some formula → formula.divisions = Token.slashes tokens
  | _, _ => True

/-- The divisions of a formula are those of any spelling of it, in the same order. -/
theorem Phrase.Spelled.divides {phrase : Phrase} {tokens : List Token}
    (spelled : phrase.Spelled tokens) : phrase.Divides tokens := by
  induction spelled with
  | @int token value kind fits =>
    intro formula written
    obtain rfl := Option.some.inj written
    rw [Token.slashes_cons_of_ne (by simp [kind])]
    rfl
  | @unary sign operand tokens kind inner ih =>
    intro formula written
    obtain ⟨minus, inside, found, rfl⟩ := Expr.formula_unary written
    rw [Token.slashes_cons_of_ne (by simp [minus])]
    exact ih inside found
  | @binary sign rank left right before after kind first second ihLeft ihRight =>
    intro formula written
    obtain ⟨one, two, foundLeft, foundRight, form⟩ := Expr.formula_binary written
    have front := ihLeft one foundLeft
    have back := ihRight two foundRight
    rw [Token.slashes_append, ← front]
    rcases form with ⟨divide, rfl⟩ | ⟨other, ring, -, rfl⟩
    · rw [Token.slashes_cons_of_eq divide, ← back]
      rfl
    · rw [Token.slashes_cons_of_ne other, ← back]
      rfl
  | plain tight bare ih => exact ih
  | @group least expr tokens paren close opened inner closed ih =>
    intro formula written
    have last : Token.slashes [close] = [] := Token.slashes_cons_of_ne (by simp [closed]) []
    rw [List.cons_append, Token.slashes_cons_of_ne (by simp [opened]), Token.slashes_append, last,
      List.append_nil]
    exact ih formula written
  | ident | str | trueWord | falseWord | null | choice | alternative | procedure | call =>
    intro formula written
    cases written
  | _ => trivial

/-- The divisions of a formula that is a whole program are those of its text. -/
theorem Formula.divisions_eq_slashes {source : Text} {token : Token} {expr : Expr}
    {formula : Formula} (clean : (Program.ofText source).errors = [])
    (single : (Program.ofText source).program.stmts = [.expr token expr])
    (written : expr.formula? = some formula) :
    formula.divisions = Token.slashes (Token.scan source) := by
  obtain ⟨tokens, line, scanned, endless, -⟩ := Token.exists_scan_eq source
  rw [Program.ofText_eq, scanned] at clean single
  obtain ⟨missing, spelled⟩ := Program.spelled_of_clean line endless clean
  rw [single] at spelled
  -- Neither the end mark nor the braces that could be missing are signs of divisions.
  have braces : Token.slashes (List.replicate missing (Token.closing line)) = [] := by
    rw [Token.slashes, List.filter_replicate]
    rfl
  have same : Token.slashes (Token.scan source) =
      Token.slashes (tokens ++ List.replicate missing (Token.closing line)) := by
    rw [scanned, Token.slashes_append, Token.slashes_append, braces]
    rfl
  rw [same]
  generalize tokens ++ List.replicate missing (Token.closing line) = all at spelled
  cases spelled with
  | @ended _ _ _ _ semicolon first kind following =>
    cases following with
    | noStmts =>
      cases first with
      | expr given =>
        have last : Token.slashes [semicolon] = [] := Token.slashes_cons_of_ne (by simp [kind]) []
        rw [Token.slashes_append, last, List.append_nil]
        exact given.divides formula written
  | unended first apart following =>
    cases following with
    | noStmts =>
      cases first with
      | expr given =>
        rw [List.append_nil]
        exact given.divides formula written

/-! ## Programs -/

/-- The expression that is the only statement of a program, with the token of the statement. -/
def Program.single? (program : Program) : Option (Token × Expr) :=
  match program.stmts with
  | [.expr token expr] => some (token, expr)
  | _ => none

/-- A program with a single expression has no other statement. -/
theorem Program.stmts_of_single {program : Program} {token : Token} {expr : Expr}
    (found : program.single? = some (token, expr)) : program.stmts = [.expr token expr] := by
  unfold single? at found
  split at found
  · next only =>
    cases found
    exact only
  · cases found

/-- A text that is read without a fault to one expression of numerals and the signs of arithmetic
comes to a value, whatever the depth of calls may be, and changes no scope. Without divisions this
is the 64-bit integer that is congruent to the exact value. With divisions it is the value wrapped
around at every operation, or, if the right operand of some division is zero, the fault of the
first such division from the left. -/
theorem Limits.evaluate_arithmetic {source : Text} {token : Token} {expr : Expr}
    {formula : Formula} (clean : (Program.ofText source).errors = [])
    (single : (Program.ofText source).program.stmts = [.expr token expr])
    (written : expr.formula? = some formula) {limits : Limits} (endless : limits.gas = 0)
    (host : Host) (fallback : Nat) (scope : ScopeId) (forest : Forest) :
    ∃ value, limits.evaluate host fallback (.program (Program.ofText source).program) scope
        forest = some (value, forest) ∧
      formula.divisions = Token.slashes (Token.scan source) ∧
      formula.zeroDivisions.Sublist formula.divisions ∧
      (formula.divisions = [] → ∃ number : Int64, value = .int number ∧
        -2 ^ 63 ≤ number.toInt ∧ number.toInt < 2 ^ 63 ∧
        number.toInt % 2 ^ 64 = formula.exact % 2 ^ 64) ∧
      (formula.zeroDivisions = [] →
        ∃ number : Int64, value = .int number ∧ formula.wrapped? = some number.toInt) ∧
      ∀ first others, formula.zeroDivisions = first :: others →
        value = .error .divisionByZero first.line := by
  have free (line : Int) (forest : Forest) (budget : Budget) :
      limits.meter.visit line forest budget = some budget :=
    Limits.visit_eq_some_iff.mpr (.inl ⟨endless, rfl⟩)
  let machine : Machine Budget := ⟨limits.meter, host⟩
  have computes : ((Program.ofText source).program.eval machine
      (machine.invoke (limits.nesting fallback)) scope).Computes formula :=
    Program.eval_computes free (Program.ofText_genuine source) single written
  obtain ⟨value, settles, ran⟩ := computes ⟨forest, limits.budget⟩
  refine ⟨value, Limits.evaluate_eq_some_iff.mpr ⟨limits.budget, ran⟩,
    Formula.divisions_eq_slashes clean single written, formula.zeroDivisions_sublist, ?_⟩
  cases settles with
  | @integer number fine wrapped =>
    refine ⟨fun whole => ⟨number, rfl, number.le_toInt, number.toInt_lt, ?_⟩,
      fun _ => ⟨number, rfl, wrapped⟩, fun first others found => ?_⟩
    · have same : number.toInt = formula.exact.bmod (2 ^ 64) :=
        Option.some.inj (wrapped.symm.trans (formula.wrapped_of_whole whole))
      rw [same]
      exact Int.bmod_emod
    · rw [fine] at found
      cases found
  | fault found undefined =>
    refine ⟨fun whole => ?_, fun fine => ?_, fun first others same => ?_⟩
    · rw [formula.wrapped_of_whole whole] at undefined
      cases undefined
    · rw [fine] at found
      cases found
    · rw [found] at same
      rw [(List.cons.inj same).1]

/-- The smallest integer, divided by minus one, stays what it is. -/
example : ((Program.ofText (utf8 "(-9223372036854775807 - 1) / -1")).program.parts.head?.bind
    fun expr => expr.formula?.bind Formula.wrapped?) = some (-2 ^ 63) := by decide +kernel

/-- A quotient that overflows, and behind it divisions by zero on two lines. -/
theorem Limits.evaluate_arithmetic_overflow :
    let source := utf8 "(-9223372036854775807 - 1) / -1 *\n(7 / (3 - 3)) /\n(1 / 0)"
    (Program.ofText source).errors = [] ∧
      Limits.default.evaluate .empty 0 (.program (Program.ofText source).program) 0 .single =
        some (.error .divisionByZero 2, .single) := by
  intro source
  have clean : (Program.ofText source).errors = [] := List.isEmpty_iff.mp (by decide +kernel)
  have zeros : (Program.ofText source).program.single?.bind (fun only =>
      only.2.formula?.map fun formula => formula.zeroDivisions.map Token.line) = some [2, 3] := by
    decide +kernel
  obtain ⟨⟨token, expr⟩, only, inside⟩ := Option.bind_eq_some_iff.mp zeros
  obtain ⟨formula, written, lines⟩ := Option.map_eq_some_iff.mp inside
  obtain ⟨first, others, found, line, -⟩ := List.map_eq_cons_iff.mp lines
  obtain ⟨value, evaluated, -, -, -, -, fault⟩ :=
    Limits.evaluate_arithmetic clean (Program.stmts_of_single only) written
      (rfl : Limits.default.gas = 0) .empty 0 0 .single
  rw [fault first others found, line] at evaluated
  exact ⟨clean, evaluated⟩

end Lengua
