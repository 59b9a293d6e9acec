import Lengua.Tree.Render

/-!
# Trees with other tokens

Two trees can differ only in the tokens they were read from. A recasting replaces the
tokens of a tree; the words whose literals are part of the canonical text, those of
declarations, of ends of procedures and of procedures, are replaced apart from the others.
With nothing in place of any token a tree is `erased`. With the literals of the words kept
it is an outline, all on one line, which has the canonical text of the tree it is made from.
-/

namespace Lengua

/-- A token that says nothing. -/
def Token.blank : Token := ⟨.eof, [], 0⟩

/-- What becomes of the tokens of a tree. -/
structure Recast where
  /-- What becomes of a word that the canonical text shows, by the kind it should have. -/
  word : Kind → Token → Token
  /-- What becomes of the other tokens. -/
  other : Token → Token
  /-- What becomes of their lines. -/
  line : Int → Int

namespace Recast

/-- Nothing is kept of any token. -/
def erase : Recast := ⟨fun _ _ => .blank, fun _ => .blank, fun _ => 0⟩

/-- Only the literals of the words are kept, and all of it stands on the first line. -/
def outline : Recast :=
  ⟨fun _ token => ⟨.eof, token.literal, 1⟩, fun _ => ⟨.eof, [], 1⟩, fun _ => 1⟩

/-- Everything is kept. -/
def keep : Recast := ⟨fun _ token => token, fun token => token, fun line => line⟩

@[simp] theorem erase_word (kind : Kind) (token : Token) : erase.word kind token = .blank := rfl

@[simp] theorem erase_other (token : Token) : erase.other token = .blank := rfl

end Recast

section

variable (change : Recast)

/-- A name with another token. -/
def Ident.recast (id : Ident) : Ident := ⟨change.other id.token, id.name⟩

mutual

/-- An expression with other tokens. -/
def Expr.recast : Expr → Expr
  | .absent => .absent
  | .ident id => .ident (id.recast change)
  | .int token value => .int (change.other token) value
  | .bool token value => .bool (change.other token) value
  | .str token value => .str (change.other token) value
  | .null token => .null (change.other token)
  | .unary token sign operand => .unary (change.other token) sign operand.recast
  | .binary token sign left right => .binary (change.other token) sign left.recast right.recast
  | .choice token test yes no => .choice (change.other token) test.recast yes.recast no.recast
  | .procedure token params body =>
    .procedure (change.word .procedureWord token) (params.map (Ident.recast change)) body.recast
  | .call token callee args => .call (change.other token) callee.recast (Expr.recastAll args)

/-- Expressions with other tokens. -/
def Expr.recastAll : List Expr → List Expr
  | [] => []
  | expr :: rest => expr.recast :: Expr.recastAll rest

/-- A statement with other tokens. -/
def Stmt.recast : Stmt → Stmt
  | .absent => .absent
  | .declare token name value =>
    .declare (change.word .variableWord token) (name.map (Ident.recast change)) value.recast
  | .assign token name value =>
    .assign (change.other token) (name.map (Ident.recast change)) value.recast
  | .giveBack token value => .giveBack (change.word .returnWord token) value.recast
  | .expr token value => .expr (change.other token) value.recast
  | .block token stmts => .block (change.other token) (Stmt.recastAll stmts)

/-- Statements with other tokens. -/
def Stmt.recastAll : List Stmt → List Stmt
  | [] => []
  | stmt :: rest => stmt.recast :: Stmt.recastAll rest

/-- A block with other tokens. -/
def Block.recast : Block → Block
  | .absent => .absent
  | .braces token stmts => .braces (change.other token) (Stmt.recastAll stmts)

end

/-- A program with other tokens. -/
def Program.recast (program : Program) : Program := ⟨Stmt.recastAll change program.stmts⟩

/-- A node with other tokens. -/
def Node.recast : Node → Node
  | .program whole => .program (whole.recast change)
  | .stmt single => .stmt (single.recast change)
  | .expr single => .expr (single.recast change)

end

attribute [simp] Expr.recast Expr.recastAll Stmt.recast Stmt.recastAll Block.recast

/-- A program with all its tokens erased. -/
def Program.erased (program : Program) : Program := program.recast .erase

/-- A program with nothing of its tokens but the words that its canonical text shows. -/
def Program.outline (program : Program) : Program := program.recast .outline

/-! ## Keeping everything -/

mutual

/-- An expression stays as it is. -/
theorem Expr.recast_keep : ∀ expr : Expr, expr.recast .keep = expr
  | .absent | .ident _ | .int _ _ | .bool _ _ | .str _ _ | .null _ => rfl
  | .unary _ _ operand => by
    rw [Expr.recast, operand.recast_keep]
    rfl
  | .binary _ _ left right => by
    rw [Expr.recast, left.recast_keep, right.recast_keep]
    rfl
  | .choice _ test yes no => by
    rw [Expr.recast, test.recast_keep, yes.recast_keep, no.recast_keep]
    rfl
  | .procedure _ params body => by
    have names : params.map (Ident.recast .keep) = params := List.map_id params
    rw [Expr.recast, names, body.recast_keep]
    rfl
  | .call _ callee args => by
    rw [Expr.recast, callee.recast_keep, Expr.recastAll_keep args]
    rfl

/-- Expressions stay as they are. -/
theorem Expr.recastAll_keep : ∀ exprs : List Expr, Expr.recastAll .keep exprs = exprs
  | [] => rfl
  | expr :: rest => by rw [Expr.recastAll, expr.recast_keep, Expr.recastAll_keep rest]

/-- A statement stays as it is. -/
theorem Stmt.recast_keep : ∀ stmt : Stmt, stmt.recast .keep = stmt
  | .absent => rfl
  | .declare _ name value | .assign _ name value => by
    have target : name.map (Ident.recast .keep) = name := Option.map_id_apply
    rw [Stmt.recast, target, value.recast_keep]
    rfl
  | .giveBack _ value | .expr _ value => by
    rw [Stmt.recast, value.recast_keep]
    rfl
  | .block _ stmts => by
    rw [Stmt.recast, Stmt.recastAll_keep stmts]
    rfl

/-- Statements stay as they are. -/
theorem Stmt.recastAll_keep : ∀ stmts : List Stmt, Stmt.recastAll .keep stmts = stmts
  | [] => rfl
  | stmt :: rest => by rw [Stmt.recastAll, stmt.recast_keep, Stmt.recastAll_keep rest]

/-- A block stays as it is. -/
theorem Block.recast_keep : ∀ block : Block, block.recast .keep = block
  | .absent => rfl
  | .braces _ stmts => by
    rw [Block.recast, Stmt.recastAll_keep stmts]
    rfl

end

/-! ## One change after another -/

/-- What becomes of tokens that are changed twice. -/
def Recast.followedBy (first second : Recast) : Recast :=
  ⟨fun kind token => second.word kind (first.word kind token),
    fun token => second.other (first.other token), fun line => second.line (first.line line)⟩

section

variable (first second : Recast)

/-- Names that are changed twice. -/
theorem Ident.recast_recast_all (names : List Ident) :
    (names.map (Ident.recast first)).map (Ident.recast second) =
      names.map (Ident.recast (first.followedBy second)) := by
  rw [List.map_map]
  rfl

/-- A target that is changed twice. -/
theorem Ident.recast_recast_option (name : Option Ident) :
    (name.map (Ident.recast first)).map (Ident.recast second) =
      name.map (Ident.recast (first.followedBy second)) := by
  rw [Option.map_map]
  rfl

mutual

/-- An expression that is changed twice. -/
theorem Expr.recast_recast : ∀ expr : Expr,
    (expr.recast first).recast second = expr.recast (first.followedBy second)
  | .absent | .ident _ | .int _ _ | .bool _ _ | .str _ _ | .null _ => rfl
  | .unary _ _ operand => by
    simp only [Expr.recast, operand.recast_recast]
    rfl
  | .binary _ _ left right => by
    simp only [Expr.recast, left.recast_recast, right.recast_recast]
    rfl
  | .choice _ test yes no => by
    simp only [Expr.recast, test.recast_recast, yes.recast_recast, no.recast_recast]
    rfl
  | .procedure _ params body => by
    simp only [Expr.recast, Ident.recast_recast_all, body.recast_recast]
    rfl
  | .call _ callee args => by
    simp only [Expr.recast, callee.recast_recast, Expr.recastAll_recastAll args]
    rfl

/-- Expressions that are changed twice. -/
theorem Expr.recastAll_recastAll : ∀ exprs : List Expr,
    Expr.recastAll second (Expr.recastAll first exprs) =
      Expr.recastAll (first.followedBy second) exprs
  | [] => rfl
  | expr :: rest => by
    simp only [Expr.recastAll, expr.recast_recast, Expr.recastAll_recastAll rest]

/-- A statement that is changed twice. -/
theorem Stmt.recast_recast : ∀ stmt : Stmt,
    (stmt.recast first).recast second = stmt.recast (first.followedBy second)
  | .absent => rfl
  | .declare _ name value | .assign _ name value => by
    simp only [Stmt.recast, Ident.recast_recast_option, value.recast_recast]
    rfl
  | .giveBack _ value | .expr _ value => by
    simp only [Stmt.recast, value.recast_recast]
    rfl
  | .block _ stmts => by
    simp only [Stmt.recast, Stmt.recastAll_recastAll stmts]
    rfl

/-- Statements that are changed twice. -/
theorem Stmt.recastAll_recastAll : ∀ stmts : List Stmt,
    Stmt.recastAll second (Stmt.recastAll first stmts) =
      Stmt.recastAll (first.followedBy second) stmts
  | [] => rfl
  | stmt :: rest => by
    simp only [Stmt.recastAll, stmt.recast_recast, Stmt.recastAll_recastAll rest]

/-- A block that is changed twice. -/
theorem Block.recast_recast : ∀ block : Block,
    (block.recast first).recast second = block.recast (first.followedBy second)
  | .absent => rfl
  | .braces _ stmts => by
    simp only [Block.recast, Stmt.recastAll_recastAll stmts]
    rfl

end

end

/-- Statements before others. -/
theorem Stmt.recastAll_append (change : Recast) : ∀ before after : List Stmt,
    Stmt.recastAll change (before ++ after) =
      Stmt.recastAll change before ++ Stmt.recastAll change after
  | [], _ => rfl
  | stmt :: before, after => congrArg (stmt.recast change :: ·)
    (Stmt.recastAll_append change before after)

/-- Statements with other tokens are as many. -/
theorem Stmt.length_recastAll (change : Recast) : ∀ stmts : List Stmt,
    (Stmt.recastAll change stmts).length = stmts.length
  | [] => rfl
  | _ :: rest => congrArg Nat.succ (Stmt.length_recastAll change rest)

/-! ## Keeping the canonical text -/

/-- The name of a target stays. -/
theorem Ident.renderOption_recast (change : Recast) (name : Option Ident) :
    Ident.renderOption (name.map (Ident.recast change)) = Ident.renderOption name := by
  cases name <;> rfl

/-- An expression on its own stays one. -/
theorem Stmt.isExpr_recast (change : Recast) (stmt : Stmt) :
    (stmt.recast change).isExpr = stmt.isExpr := by
  cases stmt <;> rfl

/-- A missing block stays missing. -/
theorem Block.isAbsent_recast (change : Recast) (block : Block) :
    (block.recast change).isAbsent = block.isAbsent := by
  cases block <;> rfl

/-- What stands between statements stays. -/
theorem Stmt.separator_recast (change : Recast) (stmt : Stmt) (rest : List Stmt) :
    (stmt.recast change).separator (Stmt.recastAll change rest) = stmt.separator rest := by
  unfold Stmt.separator
  rw [stmt.isExpr_recast]
  cases rest <;> rfl

mutual

/-- The outline of an expression has its canonical text. -/
theorem Expr.render_outline : ∀ expr : Expr, (expr.recast .outline).render = expr.render
  | .absent | .ident _ | .int _ _ | .bool _ _ | .str _ _ | .null _ => rfl
  | .unary _ _ operand => by rw [Expr.recast, Expr.render, Expr.render, operand.render_outline]
  | .binary _ _ left right => by
    rw [Expr.recast, Expr.render, Expr.render, left.render_outline, right.render_outline]
  | .choice _ test yes no => by
    rw [Expr.recast, Expr.render, Expr.render, test.render_outline, yes.render_outline,
      no.render_outline, no.isAbsent_recast]
  | .procedure _ params body => by
    have names : (params.map (Ident.recast .outline)).map Ident.name = params.map Ident.name := by
      rw [List.map_map]
      rfl
    rw [Expr.recast, Expr.render, Expr.render, names, body.render_outline]
    rfl
  | .call _ callee args => by
    rw [Expr.recast, Expr.render, Expr.render, callee.render_outline, Expr.renderAll_outline args]

/-- The outlines of expressions have their canonical texts. -/
theorem Expr.renderAll_outline : ∀ exprs : List Expr,
    Expr.renderAll (Expr.recastAll .outline exprs) = Expr.renderAll exprs
  | [] => rfl
  | expr :: rest => by
    rw [Expr.recastAll, Expr.renderAll, Expr.renderAll, expr.render_outline,
      Expr.renderAll_outline rest]

/-- The outline of a statement has its canonical text. -/
theorem Stmt.render_outline : ∀ stmt : Stmt, (stmt.recast .outline).render = stmt.render
  | .absent => rfl
  | .declare _ name value => by
    rw [Stmt.recast, Stmt.render, Stmt.render, Ident.renderOption_recast, value.render_outline]
    rfl
  | .assign _ name value => by
    rw [Stmt.recast, Stmt.render, Stmt.render, Ident.renderOption_recast, value.render_outline]
  | .giveBack _ value => by
    rw [Stmt.recast, Stmt.render, Stmt.render, value.render_outline]
    rfl
  | .expr _ value => by rw [Stmt.recast, Stmt.render, Stmt.render, value.render_outline]
  | .block _ stmts => by
    rw [Stmt.recast, Stmt.render, Stmt.render, Stmt.renderAll_outline stmts]

/-- The outlines of statements have their canonical text. -/
theorem Stmt.renderAll_outline : ∀ stmts : List Stmt,
    Stmt.renderAll (Stmt.recastAll .outline stmts) = Stmt.renderAll stmts
  | [] => rfl
  | stmt :: rest => by
    rw [Stmt.recastAll, Stmt.renderAll, Stmt.renderAll, stmt.render_outline, stmt.separator_recast,
      Stmt.renderAll_outline rest]

/-- The outline of a block has its canonical text. -/
theorem Block.render_outline : ∀ block : Block, (block.recast .outline).render = block.render
  | .absent => rfl
  | .braces _ stmts => by
    rw [Block.recast, Block.render, Block.render, Stmt.renderAll_outline stmts]

end

end Lengua
