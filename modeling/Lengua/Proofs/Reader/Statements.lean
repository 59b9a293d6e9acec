import Lengua.Tree.Reader

/-!
# Counting statements

How many statements a tree has, at any depth, and how many the parts have that a reader holds. A
block counts as one besides the statements in it, and the statement that is being read counts as one
from its first token, so what is counted is never more than the tokens that it took.
-/

namespace Lengua

/-! ## The number of statements in a tree -/

mutual

/-- The number of statements in an expression. A block is one besides those in it. -/
def Expr.statements : Expr → Nat
  | .absent | .ident _ | .int _ _ | .bool _ _ | .str _ _ | .null _ => 0
  | .unary _ _ operand => operand.statements
  | .binary _ _ left right => left.statements + right.statements
  | .choice _ test yes no => test.statements + yes.statements + no.statements
  | .procedure _ _ body => body.statements
  | .call _ callee args => callee.statements + Expr.statementsAll args

/-- The number of statements in expressions. -/
def Expr.statementsAll : List Expr → Nat
  | [] => 0
  | expr :: rest => expr.statements + Expr.statementsAll rest

/-- The number of statements in a statement, itself included. -/
def Stmt.statements : Stmt → Nat
  | .absent => 0
  | .declare _ _ value | .assign _ _ value | .giveBack _ value | .expr _ value =>
    value.statements + 1
  | .block _ stmts => Stmt.statementsAll stmts + 1

/-- The number of statements in statements, themselves included. -/
def Stmt.statementsAll : List Stmt → Nat
  | [] => 0
  | stmt :: rest => stmt.statements + Stmt.statementsAll rest

/-- The number of statements in a block, itself included. -/
def Block.statements : Block → Nat
  | .absent => 0
  | .braces _ stmts => Stmt.statementsAll stmts + 1

end

/-- The number of statements in a program, at any depth. -/
def Program.statements (program : Program) : Nat := Stmt.statementsAll program.stmts

/-- The statements in expressions and in others are counted one after the other. -/
theorem Expr.statementsAll_append (first second : List Expr) :
    Expr.statementsAll (first ++ second) =
      Expr.statementsAll first + Expr.statementsAll second := by
  induction first with
  | nil => exact (Nat.zero_add _).symm
  | cons expr rest ih =>
    rw [List.cons_append, Expr.statementsAll, Expr.statementsAll, ih, Nat.add_assoc]

/-- The order of expressions does not matter for the number of statements. -/
theorem Expr.statementsAll_reverse (exprs : List Expr) :
    Expr.statementsAll exprs.reverse = Expr.statementsAll exprs := by
  induction exprs with
  | nil => rfl
  | cons expr rest ih =>
    simp only [List.reverse_cons, Expr.statementsAll_append, Expr.statementsAll, ih]
    omega

/-- The statements in statements and in others are counted one after the other. -/
theorem Stmt.statementsAll_append (first second : List Stmt) :
    Stmt.statementsAll (first ++ second) =
      Stmt.statementsAll first + Stmt.statementsAll second := by
  induction first with
  | nil => exact (Nat.zero_add _).symm
  | cons stmt rest ih =>
    rw [List.cons_append, Stmt.statementsAll, Stmt.statementsAll, ih, Nat.add_assoc]

/-- The order of statements does not matter for their number. -/
theorem Stmt.statementsAll_reverse (stmts : List Stmt) :
    Stmt.statementsAll stmts.reverse = Stmt.statementsAll stmts := by
  induction stmts with
  | nil => rfl
  | cons stmt rest ih =>
    simp only [List.reverse_cons, Stmt.statementsAll_append, Stmt.statementsAll, ih]
    omega

namespace Reader

/-! ## The number of statements in a reader -/

/-- A statement is one more than those in its expression. -/
@[simp] theorem Head.statements_stmt (head : Head) (value : Expr) :
    (head.stmt value).statements = value.statements + 1 := by
  cases head <;> simp [Head.stmt, Stmt.statements]

/-- The number of statements in a waiting part. -/
def Frame.statements : Frame → Nat
  | .unary _ | .group | .test _ => 0
  | .binary _ left => left.statements
  | .argument _ callee done => callee.statements + Expr.statementsAll done

/-- The number of statements in waiting parts. -/
def Frame.statementsAll : List Frame → Nat
  | [] => 0
  | frame :: rest => frame.statements + Frame.statementsAll rest

/-- The number of statements in the waiting parts of a statement. -/
def Pending.statements (pending : Pending) : Nat := Frame.statementsAll pending.frames

/-- The number of statements in what a block belongs to. -/
def Site.statements : Site → Nat
  | .yes _ test => test.statements
  | .no _ test first => test.statements + first.statements
  | .body _ _ => 0

/-- The number of statements in the current statement, which counts as one from its first
token. -/
def Mode.statements : Mode → Nat
  | .statement | .finished => 0
  | .named _ | .declareName _ | .declareSign _ _ => 1
  | .operand pending | .choiceParen pending _ | .procedureParen pending _ | .firstParam pending _
  | .nextParam pending _ _ | .moreParams pending _ _ | .bodyBrace pending _ _ =>
    pending.statements + 1
  | .after pending value | .yesBrace pending _ value | .firstArgument pending _ value =>
    pending.statements + value.statements + 1
  | .alternative pending _ test yes | .noBrace pending _ test yes =>
    pending.statements + test.statements + yes.statements + 1

/-- The number of statements in an interrupted list. The interrupted statement is one, and so is
the block. -/
def Level.statements (level : Level) : Nat :=
  Stmt.statementsAll level.stmts + level.pending.statements + level.site.statements + 2

/-- The number of statements in interrupted lists. -/
def Level.statementsAll : List Level → Nat
  | [] => 0
  | level :: rest => level.statements + Level.statementsAll rest

/-- An interrupted list has no more statements than all of them. -/
theorem Level.statements_le {level : Level} {levels : List Level} (member : level ∈ levels) :
    level.statements ≤ Level.statementsAll levels := by
  induction member with
  | head rest => exact Nat.le_add_right _ _
  | tail other _ ih => exact Nat.le_trans ih (Nat.le_add_left _ _)

/-- The statements in waiting parts are counted part by part. -/
theorem Pending.statements_cons (head : Head) (frame : Frame) (frames : List Frame) :
    (Pending.mk head (frame :: frames)).statements =
      frame.statements + (Pending.mk head frames).statements := rfl

/-- One more waiting part. -/
@[simp] theorem Pending.statements_push (pending : Pending) (frame : Frame) :
    (pending.push frame).statements = frame.statements + pending.statements := by
  rw [Pending.push, Pending.statements_cons]

end Reader

end Lengua
