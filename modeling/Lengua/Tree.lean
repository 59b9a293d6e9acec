import Lengua.Token

/-!
# Program trees

Expressions, statements and blocks, each with the token it was read from. A tree may
lack a part: `absent` stands where an expression, a statement or a block is missing,
and an alternative branch that was not written is an absent block. Trees that come
from reading a program lack nothing else; trees built elsewhere may.
-/

namespace Lengua

/-- A name where the program mentions it. -/
structure Ident where
  /-- The token it was read from. -/
  token : Token
  /-- The name itself. -/
  name : Text

mutual

/-- An expression, which yields a value. -/
inductive Expr where
  /-- No expression. -/
  | absent
  /-- The value of a name. -/
  | ident (id : Ident)
  /-- An integer. -/
  | int (token : Token) (value : Int64)
  /-- A truth value. -/
  | bool (token : Token) (value : Bool)
  /-- A string. -/
  | str (token : Token) (value : Text)
  /-- The null value. -/
  | null (token : Token)
  /-- A sign before an operand. -/
  | unary (token : Token) (sign : Text) (operand : Expr)
  /-- A sign between two operands, with the token of the sign. -/
  | binary (token : Token) (sign : Text) (left right : Expr)
  /-- A choice between two blocks. -/
  | choice (token : Token) (test : Expr) (yes no : Block)
  /-- A procedure. -/
  | procedure (token : Token) (params : List Ident) (body : Block)
  /-- A call, with the token of its opening parenthesis. -/
  | call (token : Token) (callee : Expr) (args : List Expr)

/-- A statement. -/
inductive Stmt where
  /-- No statement. -/
  | absent
  /-- A declaration of a variable. -/
  | declare (token : Token) (name : Option Ident) (value : Expr)
  /-- An assignment, with the token of its sign. -/
  | assign (token : Token) (name : Option Ident) (value : Expr)
  /-- The end of a procedure, with its value. -/
  | giveBack (token : Token) (value : Expr)
  /-- An expression on its own, with its first token. -/
  | expr (token : Token) (value : Expr)
  /-- Statements between braces, with the token of the opening one. -/
  | block (token : Token) (stmts : List Stmt)

/-- The statements between the braces of a branch or of a procedure. -/
inductive Block where
  /-- No block. -/
  | absent
  /-- Statements, with the token of the opening brace. -/
  | braces (token : Token) (stmts : List Stmt)

end

/-- A whole program. -/
structure Program where
  /-- Its statements in order. -/
  stmts : List Stmt

/-- Anything that can be evaluated on its own. -/
inductive Node where
  /-- A whole program. -/
  | program (program : Program)
  /-- A single statement. -/
  | stmt (stmt : Stmt)
  /-- A single expression. -/
  | expr (expr : Expr)

/-- The token an expression was read from. -/
def Expr.token? : Expr → Option Token
  | .absent => none
  | .ident id => some id.token
  | .int token _ | .bool token _ | .str token _ | .null token | .unary token _ _
  | .binary token _ _ _ | .choice token _ _ _ | .procedure token _ _ | .call token _ _ => some token

/-- The token a statement was read from. -/
def Stmt.token? : Stmt → Option Token
  | .absent => none
  | .declare token _ _ | .assign token _ _ | .giveBack token _ | .expr token _ | .block token _ =>
    some token

/-- The token a node was read from; of a program, that of its first statement. -/
def Node.token? : Node → Option Token
  | .program whole => whole.stmts.head?.bind Stmt.token?
  | .stmt single => single.token?
  | .expr single => single.token?

/-- The literal of the token a node was read from. -/
def Node.literal (node : Node) : Text := (node.token?.map (·.literal)).getD []

/-- The line an expression is reported at, zero when it is absent. -/
def Expr.line (expr : Expr) : Int := (expr.token?.map (·.line)).getD 0

/-- The line a statement is reported at, zero when it is absent. -/
def Stmt.line (stmt : Stmt) : Int := (stmt.token?.map (·.line)).getD 0

/-- The line a program is reported at: that of its first statement, or one if it has none. -/
def Program.line (program : Program) : Int := (program.stmts.head?.map Stmt.line).getD 1

/-- The line a node is reported at. -/
def Node.line : Node → Int
  | .program whole => whole.line
  | .stmt single => single.line
  | .expr single => single.line

end Lengua
