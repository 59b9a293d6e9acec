import Lengua.Proofs.Grammar
import Lengua.Proofs.Numeral
import Lengua.Proofs.Reader.Completeness
import Lengua.Proofs.Recast
import Lengua.Proofs.Token

/-!
# Ways of writing a tree

A layout writes a tree as tokens. It has two choices: whether an expression that needs no
parentheses has some anyway, and whether a statement that needs no semicolon has one
anyway. The minimal layout never does either, and the canonical one is that of the
canonical text of a tree. Whatever a layout chooses, what it writes for a well-formed tree
is a spelling of the tree, up to the tokens the tree was read from.
-/

namespace Lengua

/-- The kinds of the signs between operands and before them. -/
def Kind.operators : List Kind :=
  [.equal, .notEqual, .less, .greater, .plus, .minus, .times, .divide, .negation]

/-- The kind of the operator with a given spelling. -/
def Kind.ofOperator (sign : Text) : Kind :=
  (Kind.operators.find? (·.spelling == sign)).getD .illegal

/-- An operation is found by its spelling. -/
theorem Kind.ofOperator_of_rank {kind : Kind} {rank : Nat} (ranked : kind.rank? = some rank) :
    Kind.ofOperator kind.spelling = kind := by
  cases kind <;> first | decide | simp [Kind.rank?] at ranked

/-- A sign before an operand is found by its spelling. -/
theorem Kind.ofOperator_of_sign {kind : Kind} (sign : kind.IsSign) :
    Kind.ofOperator kind.spelling = kind := by
  rcases sign with rfl | rfl <;> decide

/-- How tightly an expression binds, by the text of its sign. -/
def Expr.tightness : Expr → Nat
  | .binary _ sign _ _ => (Kind.ofOperator sign).rank?.getD 0
  | .unary _ _ _ => 4
  | .call _ _ _ => 5
  | _ => 6

/-! ## Well-formed trees -/

mutual

/-- An expression that lacks nothing and has the signs of the language; a number is written
without a sign, so it is not negative. -/
def Expr.WellFormed : Expr → Prop
  | .absent => False
  | .ident _ | .bool _ _ | .str _ _ | .null _ => True
  | .int _ value => 0 ≤ value.toInt
  | .unary _ sign operand =>
    (∃ kind : Kind, kind.IsSign ∧ sign = kind.spelling) ∧ operand.WellFormed
  | .binary _ sign left right =>
    (∃ (kind : Kind) (rank : Nat), kind.rank? = some rank ∧ sign = kind.spelling) ∧
      left.WellFormed ∧ right.WellFormed
  | .choice _ test yes no =>
    test.WellFormed ∧ yes.WellFormed ∧ (no.isAbsent = true ∨ no.WellFormed)
  | .procedure _ _ body => body.WellFormed
  | .call _ callee args => callee.WellFormed ∧ Expr.WellFormedAll args

/-- Expressions that are well-formed. -/
def Expr.WellFormedAll : List Expr → Prop
  | [] => True
  | expr :: rest => expr.WellFormed ∧ Expr.WellFormedAll rest

/-- A statement that lacks nothing. Braces do not make a statement. -/
def Stmt.WellFormed : Stmt → Prop
  | .absent | .block _ _ => False
  | .declare _ name value | .assign _ name value => name.isSome = true ∧ value.WellFormed
  | .giveBack _ value | .expr _ value => value.WellFormed

/-- Statements that are well-formed. -/
def Stmt.WellFormedAll : List Stmt → Prop
  | [] => True
  | stmt :: rest => stmt.WellFormed ∧ Stmt.WellFormedAll rest

/-- A block whose statements are well-formed. -/
def Block.WellFormed : Block → Prop
  | .absent => False
  | .braces _ stmts => Stmt.WellFormedAll stmts

end

/-- A program whose statements are well-formed. -/
def Program.WellFormed (program : Program) : Prop := Stmt.WellFormedAll program.stmts

/-! ## Layouts -/

/-- A way of writing trees. -/
structure Layout where
  /-- Whether an expression stands in parentheses where it needs none. -/
  wraps : Expr → Bool
  /-- Whether a statement that others follow has a semicolon where it needs none. -/
  ends : Stmt → List Stmt → Bool

namespace Layout

/-- Only the parentheses and semicolons that are needed. -/
def minimal : Layout := ⟨fun _ => false, fun _ _ => false⟩

/-- Parentheses around every operation and every sign with its operand, and a semicolon after
every statement but an expression that nothing follows. -/
def canonical : Layout where
  wraps
    | .unary _ _ _ | .binary _ _ _ _ => true
    | _ => false
  ends stmt rest := !stmt.isExpr || !rest.isEmpty

section

variable (layout : Layout)

/-- An expression where one has to bind at least as tightly as a rank. -/
def wrap (least : Nat) (expr : Expr) (inside : List Shape) : List Shape :=
  if layout.wraps expr || expr.tightness < least then
    Kind.shape .leftParen :: inside ++ [Kind.shape .rightParen]
  else inside

/-- The semicolon between a statement and what follows it, if there is one. -/
def ending (stmt : Stmt) (rest : List Stmt) (following : List Shape) : List Shape :=
  if layout.ends stmt rest || following.head?.any (·.1.Joins) then
    [Kind.shape .semicolon]
  else []

/-- The parameters of a procedure. -/
def params : List Ident → List Shape
  | [] => []
  | [last] => [(.ident, last.name)]
  | first :: next :: rest => (.ident, first.name) :: Kind.shape .comma :: params (next :: rest)

mutual

/-- An expression without parentheses around the whole of it. -/
def expr : Expr → List Shape
  | .absent => []
  | .ident id => [(.ident, id.name)]
  | .int _ value => [(.int, Text.ofInt value.toInt)]
  | .bool _ value => [Kind.shape (if value then .trueWord else .falseWord)]
  | .str _ value => [(.string, value)]
  | .null _ => [Kind.shape .nullWord]
  | .unary _ sign operand =>
    (Kind.ofOperator sign, sign) :: layout.wrap 4 operand (expr operand)
  | .binary _ sign left right =>
    layout.wrap ((Kind.ofOperator sign).rank?.getD 0) left (expr left) ++
      (Kind.ofOperator sign, sign) ::
        layout.wrap ((Kind.ofOperator sign).rank?.getD 0 + 1) right (expr right)
  | .choice _ test yes no =>
    Kind.shape .ifWord :: Kind.shape .leftParen :: layout.wrap 0 test (expr test) ++
      Kind.shape .rightParen :: block yes ++
        if no.isAbsent then [] else Kind.shape .elseWord :: block no
  | .procedure _ names body =>
    Kind.shape .procedureWord :: Kind.shape .leftParen :: params names ++
      Kind.shape .rightParen :: block body
  | .call _ callee values =>
    layout.wrap 5 callee (expr callee) ++ Kind.shape .leftParen :: args values ++
      [Kind.shape .rightParen]

/-- The arguments of a call. -/
def args : List Expr → List Shape
  | [] => []
  | [last] => layout.wrap 0 last (expr last)
  | first :: next :: rest =>
    layout.wrap 0 first (expr first) ++ Kind.shape .comma :: args (next :: rest)

/-- A statement without its semicolon. -/
def stmt : Stmt → List Shape
  | .absent | .block _ _ => []
  | .declare _ name value =>
    Kind.shape .variableWord :: (.ident, Ident.renderOption name) :: Kind.shape .assign ::
      layout.wrap 0 value (expr value)
  | .assign _ name value =>
    (.ident, Ident.renderOption name) :: Kind.shape .assign :: layout.wrap 0 value (expr value)
  | .giveBack _ value => Kind.shape .returnWord :: layout.wrap 0 value (expr value)
  | .expr _ value => layout.wrap 0 value (expr value)

/-- Statements in order. -/
def stmts : List Stmt → List Shape
  | [] => []
  | first :: rest => stmt first ++ layout.ending first rest (stmts rest) ++ stmts rest

/-- A block with its braces. -/
def block : Block → List Shape
  | .absent => []
  | .braces _ inside => Kind.shape .leftBrace :: stmts inside ++ [Kind.shape .rightBrace]

end

/-! ## What a layout writes is a spelling -/

/-- A token with the shape of a sign or of a reserved word has its kind. -/
theorem kind_of_shape {token : Token} {kind : Kind} (shaped : token.shape = kind.shape) :
    token.kind = kind := congrArg Prod.fst shaped

/-- Tokens spell an expression up to the tokens it was read from. -/
def Spells (expr : Expr) (tokens : List Token) : Prop :=
  ∃ same : Expr, same.recast .erase = expr.recast .erase ∧ same.rank = expr.tightness ∧
    (Phrase.bare same).Spelled tokens

/-- An expression is spelled in parentheses or without them, as the layout has it. -/
theorem wrap_spelled {least : Nat} {expr : Expr} {inside : List Shape} {tokens : List Token}
    (bare : ∀ tokens : List Token, tokens.map Token.shape = inside → Spells expr tokens)
    (shaped : tokens.map Token.shape = layout.wrap least expr inside) :
    ∃ same : Expr, same.recast .erase = expr.recast .erase ∧
      (Phrase.operand least same).Spelled tokens := by
  unfold wrap at shaped
  split at shaped
  · obtain ⟨paren, others, rfl, opened, behind⟩ := List.map_eq_cons_iff.mp shaped
    obtain ⟨middle, last, rfl, within, ended⟩ := List.map_eq_append_iff.mp behind
    obtain ⟨close, rfl, closed⟩ := List.map_eq_singleton_iff.mp ended
    obtain ⟨same, erased, -, spelled⟩ := bare middle within
    exact ⟨same, erased, .group (kind_of_shape opened) (.plain (Nat.zero_le _) spelled)
      (kind_of_shape closed)⟩
  · next free =>
    obtain ⟨same, erased, ranked, spelled⟩ := bare tokens shaped
    have tight : least ≤ same.rank := by
      rw [ranked]
      simp only [Bool.or_eq_true, decide_eq_true_eq, not_or, Nat.not_lt] at free
      exact free.2
    exact ⟨same, erased, .plain tight spelled⟩

/-- The parameters are spelled as the layout has them. -/
theorem params_spelled : ∀ (names : List Ident) {tokens : List Token},
    tokens.map Token.shape = params names →
    ∃ same : List Ident, same.map (Ident.recast .erase) = names.map (Ident.recast .erase) ∧
      (Phrase.params same).Spelled tokens
  | [], tokens, shaped => by
    obtain rfl := List.map_eq_nil_iff.mp shaped
    exact ⟨[], rfl, .noParams⟩
  | [last], tokens, shaped => by
    obtain ⟨token, rfl, shape⟩ := List.map_eq_singleton_iff.mp shaped
    obtain ⟨kind, literal⟩ := Prod.mk.inj shape
    refine ⟨[Reader.identOf token], ?_, .lastParam kind⟩
    simp [Reader.identOf, Ident.recast, literal]
  | first :: next :: rest, tokens, shaped => by
    obtain ⟨token, others, rfl, shape, behind⟩ := List.map_eq_cons_iff.mp shaped
    obtain ⟨comma, following, rfl, between, names⟩ := List.map_eq_cons_iff.mp behind
    obtain ⟨kind, literal⟩ := Prod.mk.inj shape
    obtain ⟨same, erased, spelled⟩ := params_spelled (next :: rest) names
    obtain ⟨second, last, rfl⟩ : ∃ second last, same = second :: last := by
      cases same with
      | nil => simp at erased
      | cons second last => exact ⟨second, last, rfl⟩
    refine ⟨Reader.identOf token :: second :: last, ?_,
      .moreParams kind (kind_of_shape between) spelled⟩
    rw [List.map_cons, erased, List.map_cons]
    simp [Reader.identOf, Ident.recast, literal]

mutual

/-- An expression is spelled as the layout has it. -/
theorem expr_spelled : ∀ (tree : Expr) {tokens : List Token}, tree.WellFormed →
    tokens.map Token.shape = layout.expr tree → Spells tree tokens
  | .absent, _, formed, _ => formed.elim
  | .ident id, tokens, _, shaped => by
    obtain ⟨token, rfl, shape⟩ := List.map_eq_singleton_iff.mp shaped
    obtain ⟨kind, literal⟩ := Prod.mk.inj shape
    refine ⟨.ident (Reader.identOf token), ?_, rfl, .ident kind⟩
    simp [Reader.identOf, Ident.recast, literal]
  | .int _ value, tokens, formed, shaped => by
    obtain ⟨token, rfl, shape⟩ := List.map_eq_singleton_iff.mp shaped
    obtain ⟨kind, literal⟩ := Prod.mk.inj shape
    refine ⟨.int token value, by simp, rfl, .int kind ?_⟩
    rw [literal]
    exact Text.plainInteger_ofInt formed
  | .bool _ true, tokens, _, shaped => by
    obtain ⟨token, rfl, shape⟩ := List.map_eq_singleton_iff.mp shaped
    exact ⟨.bool token true, by simp, rfl, .trueWord (kind_of_shape shape)⟩
  | .bool _ false, tokens, _, shaped => by
    obtain ⟨token, rfl, shape⟩ := List.map_eq_singleton_iff.mp shaped
    exact ⟨.bool token false, by simp, rfl, .falseWord (kind_of_shape shape)⟩
  | .str _ value, tokens, _, shaped => by
    obtain ⟨token, rfl, shape⟩ := List.map_eq_singleton_iff.mp shaped
    obtain ⟨kind, literal⟩ := Prod.mk.inj shape
    exact ⟨.str token token.literal, by simp [literal], rfl, .str kind⟩
  | .null _, tokens, _, shaped => by
    obtain ⟨token, rfl, shape⟩ := List.map_eq_singleton_iff.mp shaped
    exact ⟨.null token, by simp, rfl, .null (kind_of_shape shape)⟩
  | .unary _ sign operand, tokens, formed, shaped => by
    obtain ⟨⟨kind, isSign, rfl⟩, formed⟩ := formed
    rw [expr, Kind.ofOperator_of_sign isSign] at shaped
    obtain ⟨token, others, rfl, shape, behind⟩ := List.map_eq_cons_iff.mp shaped
    obtain ⟨same, literal⟩ := Prod.mk.inj shape
    obtain ⟨inner, erased, spelled⟩ :=
      layout.wrap_spelled (fun _ => expr_spelled operand formed) behind
    refine ⟨.unary token token.literal inner, ?_, rfl, .unary (same ▸ isSign) spelled⟩
    simp [erased, literal]
  | .binary _ sign left right, tokens, formed, shaped => by
    obtain ⟨⟨kind, rank, ranked, rfl⟩, formedLeft, formedRight⟩ := formed
    rw [expr, Kind.ofOperator_of_rank ranked, ranked, Option.getD_some] at shaped
    obtain ⟨before, others, rfl, shapedLeft, behind⟩ := List.map_eq_append_iff.mp shaped
    obtain ⟨token, after, rfl, shape, shapedRight⟩ := List.map_eq_cons_iff.mp behind
    obtain ⟨same, literal⟩ := Prod.mk.inj shape
    obtain ⟨first, erasedLeft, spelledLeft⟩ :=
      layout.wrap_spelled (fun _ => expr_spelled left formedLeft) shapedLeft
    obtain ⟨second, erasedRight, spelledRight⟩ :=
      layout.wrap_spelled (fun _ => expr_spelled right formedRight) shapedRight
    have own : token.kind.rank? = some rank := by rw [same, ranked]
    refine ⟨.binary token token.literal first second, ?_, ?_, .binary own spelledLeft spelledRight⟩
    · simp [erasedLeft, erasedRight, literal]
    · rw [Expr.rank, Expr.tightness, own, Kind.ofOperator_of_rank ranked, ranked]
  | .choice _ test yes no, tokens, formed, shaped => by
    obtain ⟨formedTest, formedYes, formedNo⟩ := formed
    rw [expr] at shaped
    obtain ⟨front, rest, rfl, shapedFront, shapedNo⟩ := List.map_eq_append_iff.mp shaped
    obtain ⟨head, branch, rfl, shapedHead, shapedBranch⟩ := List.map_eq_append_iff.mp shapedFront
    obtain ⟨word, others, rfl, kind, behind⟩ := List.map_eq_cons_iff.mp shapedHead
    obtain ⟨paren, tested, rfl, opened, shapedTest⟩ := List.map_eq_cons_iff.mp behind
    obtain ⟨close, taken, rfl, closed, shapedYes⟩ := List.map_eq_cons_iff.mp shapedBranch
    obtain ⟨condition, erasedTest, spelledTest⟩ :=
      layout.wrap_spelled (fun _ => expr_spelled test formedTest) shapedTest
    obtain ⟨first, erasedYes, spelledYes⟩ := block_spelled yes formedYes shapedYes
    cases absent : no.isAbsent with
    | true =>
      rw [absent, if_pos rfl] at shapedNo
      obtain rfl := List.map_eq_nil_iff.mp shapedNo
      cases no with
      | braces brace inside => simp [Block.isAbsent] at absent
      | absent =>
        rw [List.append_nil]
        refine ⟨.choice word condition first .absent, by simp [erasedTest, erasedYes], rfl, ?_⟩
        exact .choice (kind_of_shape kind) (kind_of_shape opened) spelledTest (kind_of_shape closed)
          spelledYes
    | false =>
      rw [absent, if_neg Bool.false_ne_true] at shapedNo
      obtain ⟨other, spared, rfl, otherwise, shapedBlock⟩ := List.map_eq_cons_iff.mp shapedNo
      have formedBlock : no.WellFormed := formedNo.resolve_left (by simp [absent])
      obtain ⟨second, erasedNo, spelledNo⟩ := block_spelled no formedBlock shapedBlock
      refine ⟨.choice word condition first second, ?_, rfl, ?_⟩
      · simp [erasedTest, erasedYes, erasedNo]
      exact .alternative (kind_of_shape kind) (kind_of_shape opened) spelledTest
        (kind_of_shape closed) spelledYes (kind_of_shape otherwise) spelledNo
  | .procedure _ names body, tokens, formed, shaped => by
    rw [expr] at shaped
    obtain ⟨head, rest, rfl, shapedHead, shapedRest⟩ := List.map_eq_append_iff.mp shaped
    obtain ⟨word, others, rfl, kind, behind⟩ := List.map_eq_cons_iff.mp shapedHead
    obtain ⟨paren, listed, rfl, opened, shapedNames⟩ := List.map_eq_cons_iff.mp behind
    obtain ⟨close, inside, rfl, closed, shapedBody⟩ := List.map_eq_cons_iff.mp shapedRest
    obtain ⟨given, erasedNames, spelledNames⟩ := params_spelled names shapedNames
    obtain ⟨block, erasedBody, spelledBody⟩ := block_spelled body formed shapedBody
    refine ⟨.procedure word given block, by simp [erasedNames, erasedBody], rfl, ?_⟩
    exact .procedure (kind_of_shape kind) (kind_of_shape opened) spelledNames (kind_of_shape closed)
      spelledBody
  | .call _ callee values, tokens, formed, shaped => by
    obtain ⟨formedCallee, formedArgs⟩ := formed
    rw [expr] at shaped
    obtain ⟨front, last, rfl, shapedFront, ended⟩ := List.map_eq_append_iff.mp shaped
    obtain ⟨before, rest, rfl, shapedCallee, behind⟩ := List.map_eq_append_iff.mp shapedFront
    obtain ⟨paren, listed, rfl, opened, shapedArgs⟩ := List.map_eq_cons_iff.mp behind
    obtain ⟨close, rfl, closed⟩ := List.map_eq_singleton_iff.mp ended
    obtain ⟨called, erasedCallee, spelledCallee⟩ :=
      layout.wrap_spelled (fun _ => expr_spelled callee formedCallee) shapedCallee
    obtain ⟨given, erasedArgs, spelledArgs⟩ := args_spelled values formedArgs shapedArgs
    refine ⟨.call paren called given, by simp [erasedCallee, erasedArgs], rfl, ?_⟩
    exact .call spelledCallee (kind_of_shape opened) spelledArgs (kind_of_shape closed)

/-- The arguments of a call are spelled as the layout has them. -/
theorem args_spelled : ∀ (values : List Expr) {tokens : List Token}, Expr.WellFormedAll values →
    tokens.map Token.shape = layout.args values →
    ∃ same : List Expr, Expr.recastAll .erase same = Expr.recastAll .erase values ∧
      (Phrase.args same).Spelled tokens
  | [], tokens, _, shaped => by
    obtain rfl := List.map_eq_nil_iff.mp shaped
    exact ⟨[], rfl, .noArgs⟩
  | [last], tokens, formed, shaped => by
    rw [args] at shaped
    obtain ⟨same, erased, spelled⟩ :=
      layout.wrap_spelled (fun _ => expr_spelled last formed.1) shaped
    exact ⟨[same], by simp [erased], .lastArg spelled⟩
  | first :: next :: rest, tokens, formed, shaped => by
    rw [args] at shaped
    obtain ⟨front, others, rfl, shapedFirst, behind⟩ := List.map_eq_append_iff.mp shaped
    obtain ⟨comma, following, rfl, between, shapedRest⟩ := List.map_eq_cons_iff.mp behind
    obtain ⟨same, erased, spelled⟩ :=
      layout.wrap_spelled (fun _ => expr_spelled first formed.1) shapedFirst
    obtain ⟨given, erasedRest, spelledRest⟩ := args_spelled (next :: rest) formed.2 shapedRest
    obtain ⟨second, last, rfl⟩ : ∃ second last, given = second :: last := by
      cases given with
      | nil => simp at erasedRest
      | cons second last => exact ⟨second, last, rfl⟩
    refine ⟨same :: second :: last, ?_, .moreArgs spelled (kind_of_shape between) spelledRest⟩
    rw [Expr.recastAll, erased, erasedRest]
    rfl

/-- A statement is spelled as the layout has it. -/
theorem stmt_spelled : ∀ (tree : Stmt) {tokens : List Token}, tree.WellFormed →
    tokens.map Token.shape = layout.stmt tree →
    ∃ same : Stmt, same.recast .erase = tree.recast .erase ∧
      (Phrase.stmt same).Spelled tokens
  | .absent, _, formed, _ | .block _ _, _, formed, _ => formed.elim
  | .declare _ name value, tokens, formed, shaped => by
    obtain ⟨named, formed⟩ := formed
    obtain ⟨id, rfl⟩ := Option.isSome_iff_exists.mp named
    rw [stmt] at shaped
    obtain ⟨word, others, rfl, kind, behind⟩ := List.map_eq_cons_iff.mp shaped
    obtain ⟨target, following, rfl, shape, signed⟩ := List.map_eq_cons_iff.mp behind
    obtain ⟨sign, given, rfl, assigned, shapedValue⟩ := List.map_eq_cons_iff.mp signed
    obtain ⟨ident, literal⟩ := Prod.mk.inj shape
    obtain ⟨same, erased, spelled⟩ :=
      layout.wrap_spelled (fun _ => expr_spelled value formed) shapedValue
    refine ⟨.declare word (some (Reader.identOf target)) same, ?_,
      .declare (kind_of_shape kind) ident (kind_of_shape assigned) spelled⟩
    simp [erased, Reader.identOf, Ident.recast, literal, Ident.renderOption]
  | .assign _ name value, tokens, formed, shaped => by
    obtain ⟨named, formed⟩ := formed
    obtain ⟨id, rfl⟩ := Option.isSome_iff_exists.mp named
    rw [stmt] at shaped
    obtain ⟨target, following, rfl, shape, signed⟩ := List.map_eq_cons_iff.mp shaped
    obtain ⟨sign, given, rfl, assigned, shapedValue⟩ := List.map_eq_cons_iff.mp signed
    obtain ⟨ident, literal⟩ := Prod.mk.inj shape
    obtain ⟨same, erased, spelled⟩ :=
      layout.wrap_spelled (fun _ => expr_spelled value formed) shapedValue
    refine ⟨.assign sign (some (Reader.identOf target)) same, ?_,
      .assign ident (kind_of_shape assigned) spelled⟩
    simp [erased, Reader.identOf, Ident.recast, literal, Ident.renderOption]
  | .giveBack _ value, tokens, formed, shaped => by
    rw [stmt] at shaped
    obtain ⟨word, given, rfl, kind, shapedValue⟩ := List.map_eq_cons_iff.mp shaped
    obtain ⟨same, erased, spelled⟩ :=
      layout.wrap_spelled (fun _ => expr_spelled value formed) shapedValue
    refine ⟨.giveBack word same, ?_, .giveBack (kind_of_shape kind) spelled⟩
    simp [erased]
  | .expr _ value, tokens, formed, shaped => by
    rw [stmt] at shaped
    obtain ⟨same, erased, spelled⟩ :=
      layout.wrap_spelled (fun _ => expr_spelled value formed) shaped
    obtain ⟨token, rest, rfl, -⟩ := spelled.leads
    exact ⟨.expr token same, by simp [erased], .expr spelled⟩

/-- Statements are spelled as the layout has them. -/
theorem stmts_spelled : ∀ (trees : List Stmt) {tokens : List Token}, Stmt.WellFormedAll trees →
    tokens.map Token.shape = layout.stmts trees →
    ∃ same : List Stmt, Stmt.recastAll .erase same = Stmt.recastAll .erase trees ∧
      (Phrase.stmts same).Spelled tokens
  | [], tokens, _, shaped => by
    obtain rfl := List.map_eq_nil_iff.mp shaped
    exact ⟨[], rfl, .noStmts⟩
  | tree :: rest, tokens, formed, shaped => by
    rw [stmts] at shaped
    obtain ⟨front, others, rfl, shapedFront, shapedRest⟩ := List.map_eq_append_iff.mp shaped
    obtain ⟨first, last, rfl, shapedFirst, ended⟩ := List.map_eq_append_iff.mp shapedFront
    obtain ⟨same, erased, spelled⟩ := stmt_spelled tree formed.1 shapedFirst
    obtain ⟨following, erasedRest, spelledRest⟩ := stmts_spelled rest formed.2 shapedRest
    have erasedAll : Stmt.recastAll .erase (same :: following) =
        Stmt.recastAll .erase (tree :: rest) := by simp [erased, erasedRest]
    rw [ending] at ended
    split at ended
    · obtain ⟨semicolon, rfl, kind⟩ := List.map_eq_singleton_iff.mp ended
      rw [List.append_assoc, List.singleton_append]
      exact ⟨same :: following, erasedAll, .ended spelled (kind_of_shape kind) spelledRest⟩
    · next free =>
      obtain rfl := List.map_eq_nil_iff.mp ended
      rw [List.append_nil]
      refine ⟨same :: following, erasedAll, .unended spelled ?_ spelledRest⟩
      intro token leads joins
      rw [← shapedRest, List.head?_map, Option.mem_def.mp leads] at free
      exact free (by simp [Token.shape, joins])

/-- A block is spelled as the layout has it. -/
theorem block_spelled : ∀ (tree : Block) {tokens : List Token}, tree.WellFormed →
    tokens.map Token.shape = layout.block tree →
    ∃ same : Block, same.recast .erase = tree.recast .erase ∧
      (Phrase.block same).Spelled tokens
  | .absent, _, formed, _ => formed.elim
  | .braces _ inside, tokens, formed, shaped => by
    rw [block] at shaped
    obtain ⟨front, last, rfl, shapedFront, ended⟩ := List.map_eq_append_iff.mp shaped
    obtain ⟨brace, middle, rfl, opened, shapedInside⟩ := List.map_eq_cons_iff.mp shapedFront
    obtain ⟨close, rfl, closed⟩ := List.map_eq_singleton_iff.mp ended
    obtain ⟨same, erased, spelled⟩ := stmts_spelled inside formed shapedInside
    refine ⟨.braces brace same, by simp [erased], ?_⟩
    exact .braces (kind_of_shape opened) spelled (kind_of_shape closed)

end

end

end Layout

/-! ## Programs -/

/-- The token lists that spell a program up to the tokens it was read from. -/
def Program.SpelledAlike (program : Program) (tokens : List Token) : Prop :=
  ∃ same : Program, same.erased = program.erased ∧ same.Spelled tokens

/-- What a layout writes for a well-formed program spells it. -/
theorem Layout.spelledAlike (layout : Layout) {program : Program} (formed : program.WellFormed)
    {tokens : List Token} (shaped : tokens.map Token.shape = layout.stmts program.stmts) :
    program.SpelledAlike tokens := by
  obtain ⟨same, erased, spelled⟩ := layout.stmts_spelled program.stmts formed shaped
  refine ⟨⟨same⟩, congrArg Program.mk erased, 0, 0, ?_⟩
  rwa [List.replicate_zero, List.append_nil]

/-- Each spelling of a program is read to it without a fault, up to tokens. -/
theorem Program.SpelledAlike.ofTokens_append {program : Program} {tokens : List Token}
    (spelled : program.SpelledAlike tokens) (marks : List Token)
    (ends : ∀ mark ∈ marks, mark.kind = .eof) :
    (Program.ofTokens (tokens ++ marks)).errors = [] ∧
      (Program.ofTokens (tokens ++ marks)).program.erased = program.erased := by
  obtain ⟨same, erased, spelled⟩ := spelled
  rw [spelled.ofTokens_append marks ends]
  exact ⟨rfl, erased⟩

/-- A well-formed program is read back, up to tokens and without a fault, from each of its
spellings, whether or not an end mark follows; whatever any layout writes for it, the minimal one
included, is one of its spellings; and no list spells another program as well. -/
theorem Program.ofTokens_spelling (program : Program) (formed : program.WellFormed) :
    (∀ tokens marks : List Token, program.SpelledAlike tokens →
      (∀ mark ∈ marks, mark.kind = .eof) →
      (Program.ofTokens (tokens ++ marks)).errors = [] ∧
        (Program.ofTokens (tokens ++ marks)).program.erased = program.erased) ∧
    (∀ (layout : Layout) (tokens : List Token),
      tokens.map Token.shape = layout.stmts program.stmts → program.SpelledAlike tokens) ∧
    ∀ (other : Program) (tokens : List Token),
      program.SpelledAlike tokens → other.SpelledAlike tokens → other.erased = program.erased := by
  refine ⟨fun tokens marks spelled => spelled.ofTokens_append marks,
    fun layout tokens => layout.spelledAlike formed, ?_⟩
  intro other tokens spelled also
  have first := (spelled.ofTokens_append [] (by simp)).2
  have second := (also.ofTokens_append [] (by simp)).2
  exact second.symm.trans first

/-- The program `(1 - 2) * -f(3); -4`, which needs all its parentheses and its semicolon. -/
def Program.crowded : Program :=
  ⟨[.expr .blank (.binary .blank (utf8 "*")
      (.binary .blank (utf8 "-") (.int .blank 1) (.int .blank 2))
      (.unary .blank (utf8 "-") (.call .blank (.ident ⟨.blank, utf8 "f"⟩) [.int .blank 3]))),
    .expr .blank (.unary .blank (utf8 "-") (.int .blank 4))]⟩

/-- The tokens of the minimal layout of `Program.crowded`, all on one line. -/
def Program.crowdedTokens : List Token :=
  (Layout.minimal.stmts Program.crowded.stmts).map fun shape => ⟨shape.1, shape.2, 1⟩

/-- The minimal layout keeps the parentheses around a looser operand and the semicolon before a
sign, and is read back. -/
theorem Program.ofTokens_crowded :
    Program.crowded.WellFormed ∧
      Program.crowdedTokens.map Token.literal =
        ["(", "1", "-", "2", ")", "*", "-", "f", "(", "3", ")", ";", "-", "4"].map utf8 ∧
      (Program.ofTokens (Program.crowdedTokens ++ [Token.eof 1])).errors = [] ∧
      (Program.ofTokens (Program.crowdedTokens ++ [Token.eof 1])).program.erased =
        Program.crowded.erased := by
  have number (value : Int64) (positive : 0 ≤ value.toInt) :
      (Expr.int .blank value).WellFormed := positive
  have formed : Program.crowded.WellFormed :=
    ⟨⟨⟨.times, 3, rfl, rfl⟩,
      ⟨⟨.minus, 2, rfl, rfl⟩, number 1 (by decide), number 2 (by decide)⟩,
      ⟨.minus, .inl rfl, rfl⟩, trivial, number 3 (by decide), trivial⟩,
      ⟨⟨.minus, .inl rfl, rfl⟩, number 4 (by decide)⟩, trivial⟩
  have shaped : Program.crowdedTokens.map Token.shape =
      Layout.minimal.stmts Program.crowded.stmts := by
    rw [Program.crowdedTokens, List.map_map]
    exact List.map_id _
  obtain ⟨reads, writes, -⟩ := Program.ofTokens_spelling Program.crowded formed
  exact ⟨formed, by rfl,
    reads Program.crowdedTokens [Token.eof 1] (writes .minimal _ shaped) (by simp [Token.eof])⟩

end Lengua
