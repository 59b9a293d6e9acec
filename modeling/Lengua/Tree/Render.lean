import Lengua.Tree

/-!
# Trees as text

The canonical text of a tree. Every operation is parenthesised, a string takes the
quotation mark that does not occur in it, and statements are separated by a space. An
expression that is followed by another statement keeps its semicolon, since otherwise
the two could read as one: `1; (2)` is not the call `1(2)`. What is absent is written
as nothing.
-/

namespace Lengua

/-- A string between quotation marks: double ones, unless one occurs in it. -/
def Text.quotation (value : Text) : Text :=
  let quote := if value.contains Text.doubleQuote then Text.singleQuote else Text.doubleQuote
  quote :: value ++ [quote]

/-- The spelling of a truth value. -/
def Text.ofBool (value : Bool) : Text := if value then utf8 "verdadero" else utf8 "falso"

/-- Parts with a comma and a space between neighbours. -/
def Text.listed (parts : List Text) : Text := Text.joined (utf8 ", ") parts

/-- Whether a statement is an expression on its own. -/
def Stmt.isExpr : Stmt → Bool
  | .expr _ _ => true
  | _ => false

/-- What stands between a statement and those that follow it. -/
def Stmt.separator (stmt : Stmt) (rest : List Stmt) : Text :=
  if rest.isEmpty then [] else if stmt.isExpr then utf8 "; " else utf8 " "

/-- Whether there is no block. -/
def Block.isAbsent : Block → Bool
  | .absent => true
  | .braces _ _ => false

/-- The name of a statement's target, if it has one. -/
def Ident.renderOption : Option Ident → Text
  | none => []
  | some id => id.name

mutual

/-- The canonical text of an expression. -/
def Expr.render : Expr → Text
  | .absent => []
  | .ident id => id.name
  | .int _ value => Text.ofInt value.toInt
  | .bool _ value => Text.ofBool value
  | .str _ value => Text.quotation value
  | .null _ => utf8 "nulo"
  | .unary _ sign operand => utf8 "(" ++ sign ++ operand.render ++ utf8 ")"
  | .binary _ sign left right =>
    utf8 "(" ++ left.render ++ utf8 " " ++ sign ++ utf8 " " ++ right.render ++ utf8 ")"
  | .choice _ test yes no =>
    utf8 "si (" ++ test.render ++ utf8 ") \x7b " ++ yes.render ++ utf8 " \x7d" ++
      if no.isAbsent then [] else utf8 " si_no \x7b " ++ no.render ++ utf8 " \x7d"
  | .procedure token params body =>
    token.literal ++ utf8 "(" ++ Text.listed (params.map Ident.name) ++ utf8 ") \x7b " ++
      body.render ++ utf8 " \x7d"
  | .call _ callee args =>
    callee.render ++ utf8 "(" ++ Text.listed (Expr.renderAll args) ++ utf8 ")"

/-- The canonical texts of expressions in order. -/
def Expr.renderAll : List Expr → List Text
  | [] => []
  | expr :: rest => expr.render :: Expr.renderAll rest

/-- The canonical text of a statement. -/
def Stmt.render : Stmt → Text
  | .absent => []
  | .declare token name value =>
    token.literal ++ utf8 " " ++ Ident.renderOption name ++ utf8 " = " ++ value.render ++ utf8 ";"
  | .assign _ name value =>
    Ident.renderOption name ++ utf8 " = " ++ value.render ++ utf8 ";"
  | .giveBack token value => token.literal ++ utf8 " " ++ value.render ++ utf8 ";"
  | .expr _ value => value.render
  | .block _ stmts => Stmt.renderAll stmts

/-- The canonical text of statements in order. -/
def Stmt.renderAll : List Stmt → Text
  | [] => []
  | stmt :: rest =>
    stmt.render ++ stmt.separator rest ++ Stmt.renderAll rest

/-- The canonical text of the statements of a block. -/
def Block.render : Block → Text
  | .absent => []
  | .braces _ stmts => Stmt.renderAll stmts

end

/-- The canonical text of a program. -/
def Program.render (program : Program) : Text := Stmt.renderAll program.stmts

/-- The canonical text of a node. -/
def Node.render : Node → Text
  | .program whole => whole.render
  | .stmt single => single.render
  | .expr single => single.render

end Lengua
