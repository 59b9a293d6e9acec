import Lengua.Tree.Reader

/-!
# The grammar of programs

A grammar that says which token lists spell which trees, apart from how programs are
read. Operations are ranked by how tightly they bind: `==` and `!=` weakest, then `<` and
`>`, then `+` and `-`, then `*` and `/`; above them stand the signs before an operand,
then calls, then everything that is complete in itself. An operand stands bare where it
binds tightly enough and may stand in parentheses anywhere. Operations of one rank group
to the left: the left operand may have the rank of the operation, the right one has to
bind more tightly.

A semicolon may be left out after a statement unless the next one begins with a token
that would continue it, and closing braces may be missing where the input ends.
-/

namespace Lengua

/-- How tightly an operation on two operands binds, from the weakest up. -/
def Kind.rank? : Kind → Option Nat
  | .equal | .notEqual => some 0
  | .less | .greater => some 1
  | .plus | .minus => some 2
  | .times | .divide => some 3
  | _ => none

/-- How tightly the outermost construct of an expression binds: an operation by its sign, then
a sign before an operand, then a call, then whatever is complete in itself. -/
def Expr.rank : Expr → Nat
  | .binary token _ _ _ => token.kind.rank?.getD 0
  | .unary _ _ _ => 4
  | .call _ _ _ => 5
  | _ => 6

/-- The signs that may stand before an operand. -/
def Kind.IsSign (kind : Kind) : Prop := kind = .minus ∨ kind = .negation

/-- The kinds that can begin a statement and also continue an expression before it. -/
def Kind.Joins (kind : Kind) : Prop := kind = .minus ∨ kind = .leftParen

instance (kind : Kind) : Decidable kind.Joins :=
  inferInstanceAs (Decidable (kind = .minus ∨ kind = .leftParen))

/-- A part of a program, with its tree, that a token list may spell. -/
inductive Phrase where
  /-- An expression without parentheses around the whole of it. -/
  | bare (expr : Expr)
  /-- An expression where one has to bind at least as tightly as a rank. -/
  | operand (least : Nat) (expr : Expr)
  /-- The arguments of a call. -/
  | args (exprs : List Expr)
  /-- The parameters of a procedure. -/
  | params (names : List Ident)
  /-- A block with its braces. -/
  | block (block : Block)
  /-- A statement without its semicolon. -/
  | stmt (stmt : Stmt)
  /-- Statements in order. -/
  | stmts (stmts : List Stmt)

/-- The token lists that spell a phrase. The tokens of the tree are the ones in the list. -/
inductive Phrase.Spelled : Phrase → List Token → Prop where
  /-- A name. -/
  | ident {token : Token} (kind : token.kind = .ident) :
    Spelled (.bare (.ident (Reader.identOf token))) [token]
  /-- A number that fits 64 bits. -/
  | int {token : Token} {value : Int64} (kind : token.kind = .int)
    (fits : Text.plainInteger? token.literal = some value) :
    Spelled (.bare (.int token value)) [token]
  /-- A string. -/
  | str {token : Token} (kind : token.kind = .string) :
    Spelled (.bare (.str token token.literal)) [token]
  /-- The true truth value. -/
  | trueWord {token : Token} (kind : token.kind = .trueWord) :
    Spelled (.bare (.bool token true)) [token]
  /-- The false truth value. -/
  | falseWord {token : Token} (kind : token.kind = .falseWord) :
    Spelled (.bare (.bool token false)) [token]
  /-- The null value. -/
  | null {token : Token} (kind : token.kind = .nullWord) :
    Spelled (.bare (.null token)) [token]
  /-- A sign and its operand, which may be another sign with an operand. -/
  | unary {sign : Token} {operand : Expr} {tokens : List Token} (kind : sign.kind.IsSign)
    (inner : Spelled (.operand 4 operand) tokens) :
    Spelled (.bare (.unary sign sign.literal operand)) (sign :: tokens)
  /-- An operation and its operands. The right one binds more tightly. -/
  | binary {sign : Token} {rank : Nat} {left right : Expr} {before after : List Token}
    (kind : sign.kind.rank? = some rank) (first : Spelled (.operand rank left) before)
    (second : Spelled (.operand (rank + 1) right) after) :
    Spelled (.bare (.binary sign sign.literal left right)) (before ++ sign :: after)
  /-- A choice without an alternative. -/
  | choice {word paren close : Token} {test : Expr} {yes : Block} {tested taken : List Token}
    (kind : word.kind = .ifWord) (opened : paren.kind = .leftParen)
    (condition : Spelled (.operand 0 test) tested) (closed : close.kind = .rightParen)
    (branch : Spelled (.block yes) taken) :
    Spelled (.bare (.choice word test yes .absent)) (word :: paren :: tested ++ close :: taken)
  /-- A choice with an alternative. -/
  | alternative {word paren close other : Token} {test : Expr} {yes no : Block}
    {tested taken spared : List Token}
    (kind : word.kind = .ifWord) (opened : paren.kind = .leftParen)
    (condition : Spelled (.operand 0 test) tested) (closed : close.kind = .rightParen)
    (branch : Spelled (.block yes) taken) (otherwise : other.kind = .elseWord)
    (second : Spelled (.block no) spared) :
    Spelled (.bare (.choice word test yes no))
      (word :: paren :: tested ++ close :: taken ++ other :: spared)
  /-- A procedure. -/
  | procedure {word paren close : Token} {params : List Ident} {body : Block}
    {listed inside : List Token}
    (kind : word.kind = .procedureWord) (opened : paren.kind = .leftParen)
    (names : Spelled (.params params) listed) (closed : close.kind = .rightParen)
    (block : Spelled (.block body) inside) :
    Spelled (.bare (.procedure word params body)) (word :: paren :: listed ++ close :: inside)
  /-- A call. The callee is a call itself, or complete, or in parentheses. -/
  | call {paren close : Token} {callee : Expr} {args : List Expr} {before listed : List Token}
    (called : Spelled (.operand 5 callee) before) (opened : paren.kind = .leftParen)
    (values : Spelled (.args args) listed) (closed : close.kind = .rightParen) :
    Spelled (.bare (.call paren callee args)) (before ++ paren :: listed ++ [close])
  /-- An expression that binds tightly enough needs no parentheses. -/
  | plain {least : Nat} {expr : Expr} {tokens : List Token} (tight : least ≤ expr.rank)
    (bare : Spelled (.bare expr) tokens) : Spelled (.operand least expr) tokens
  /-- Any expression may stand in parentheses. -/
  | group {least : Nat} {expr : Expr} {tokens : List Token} {paren close : Token}
    (opened : paren.kind = .leftParen) (inner : Spelled (.operand 0 expr) tokens)
    (closed : close.kind = .rightParen) :
    Spelled (.operand least expr) (paren :: tokens ++ [close])
  /-- No argument. -/
  | noArgs : Spelled (.args []) []
  /-- The last argument. -/
  | lastArg {expr : Expr} {tokens : List Token} (value : Spelled (.operand 0 expr) tokens) :
    Spelled (.args [expr]) tokens
  /-- An argument before others. -/
  | moreArgs {expr next : Expr} {rest : List Expr} {tokens others : List Token} {comma : Token}
    (value : Spelled (.operand 0 expr) tokens) (between : comma.kind = .comma)
    (values : Spelled (.args (next :: rest)) others) :
    Spelled (.args (expr :: next :: rest)) (tokens ++ comma :: others)
  /-- No parameter. -/
  | noParams : Spelled (.params []) []
  /-- The last parameter. -/
  | lastParam {token : Token} (kind : token.kind = .ident) :
    Spelled (.params [Reader.identOf token]) [token]
  /-- A parameter before others. -/
  | moreParams {token comma : Token} {next : Ident} {rest : List Ident} {others : List Token}
    (kind : token.kind = .ident) (between : comma.kind = .comma)
    (names : Spelled (.params (next :: rest)) others) :
    Spelled (.params (Reader.identOf token :: next :: rest)) (token :: comma :: others)
  /-- Statements between braces. -/
  | braces {brace close : Token} {stmts : List Stmt} {tokens : List Token}
    (opened : brace.kind = .leftBrace) (inside : Spelled (.stmts stmts) tokens)
    (closed : close.kind = .rightBrace) :
    Spelled (.block (.braces brace stmts)) (brace :: tokens ++ [close])
  /-- A declaration. -/
  | declare {word name sign : Token} {value : Expr} {tokens : List Token}
    (kind : word.kind = .variableWord) (named : name.kind = .ident)
    (signed : sign.kind = .assign) (given : Spelled (.operand 0 value) tokens) :
    Spelled (.stmt (.declare word (some (Reader.identOf name)) value))
      (word :: name :: sign :: tokens)
  /-- An assignment. -/
  | assign {name sign : Token} {value : Expr} {tokens : List Token}
    (named : name.kind = .ident) (signed : sign.kind = .assign)
    (given : Spelled (.operand 0 value) tokens) :
    Spelled (.stmt (.assign sign (some (Reader.identOf name)) value)) (name :: sign :: tokens)
  /-- The end of a procedure. -/
  | giveBack {word : Token} {value : Expr} {tokens : List Token} (kind : word.kind = .returnWord)
    (given : Spelled (.operand 0 value) tokens) :
    Spelled (.stmt (.giveBack word value)) (word :: tokens)
  /-- An expression on its own. -/
  | expr {token : Token} {value : Expr} {tokens : List Token}
    (given : Spelled (.operand 0 value) (token :: tokens)) :
    Spelled (.stmt (.expr token value)) (token :: tokens)
  /-- No statement. -/
  | noStmts : Spelled (.stmts []) []
  /-- A statement with its semicolon, before others. -/
  | ended {stmt : Stmt} {rest : List Stmt} {tokens others : List Token} {semicolon : Token}
    (first : Spelled (.stmt stmt) tokens) (kind : semicolon.kind = .semicolon)
    (following : Spelled (.stmts rest) others) :
    Spelled (.stmts (stmt :: rest)) (tokens ++ semicolon :: others)
  /-- A statement without its semicolon, before others that do not continue it. -/
  | unended {stmt : Stmt} {rest : List Stmt} {tokens others : List Token}
    (first : Spelled (.stmt stmt) tokens)
    (apart : ∀ token ∈ others.head?, ¬ token.kind.Joins)
    (following : Spelled (.stmts rest) others) :
    Spelled (.stmts (stmt :: rest)) (tokens ++ others)

/-- A closing brace on a line. -/
def Token.closing (line : Int) : Token := ⟨.rightBrace, utf8 "\x7d", line⟩

/-- The token lists that spell a program. Closing braces may be missing where the input ends, so
that the list spells its statements once they are supplied. -/
def Program.Spelled (program : Program) (tokens : List Token) : Prop :=
  ∃ (missing : Nat) (line : Int), (Phrase.stmts program.stmts).Spelled
    (tokens ++ List.replicate missing (Token.closing line))

/-! ## First tokens -/

/-- The kinds that can begin an expression. -/
def Kind.BeginsExpr (kind : Kind) : Prop :=
  kind ∈ [.ident, .int, .string, .trueWord, .falseWord, .nullWord, .minus, .negation, .leftParen,
    .ifWord, .procedureWord]

/-- The kinds that can begin a statement. -/
def Kind.BeginsStmt (kind : Kind) : Prop :=
  kind = .variableWord ∨ kind = .returnWord ∨ kind.BeginsExpr

/-- How the spellings of a phrase begin. -/
def Phrase.Leads : Phrase → List Token → Prop
  | .bare _, tokens | .operand _ _, tokens =>
    ∃ token rest, tokens = token :: rest ∧ token.kind.BeginsExpr
  | .stmt _, tokens => ∃ token rest, tokens = token :: rest ∧ token.kind.BeginsStmt
  | .stmts _, tokens => ∀ token ∈ tokens.head?, token.kind.BeginsStmt
  | _, _ => True

/-- Every spelling begins as its phrase does. -/
theorem Phrase.Spelled.leads {phrase : Phrase} {tokens : List Token}
    (spelled : phrase.Spelled tokens) : phrase.Leads tokens := by
  induction spelled with
  | ident kind | str kind | trueWord kind | falseWord kind | null kind =>
    exact ⟨_, [], rfl, by simp [Kind.BeginsExpr, kind]⟩
  | int kind fits => exact ⟨_, [], rfl, by simp [Kind.BeginsExpr, kind]⟩
  | unary kind inner ih =>
    refine ⟨_, _, rfl, ?_⟩
    rcases kind with kind | kind <;> simp [Kind.BeginsExpr, kind]
  | binary kind first second ihFirst ihSecond =>
    obtain ⟨token, rest, rfl, begins⟩ := ihFirst
    exact ⟨token, _, rfl, begins⟩
  | choice kind => exact ⟨_, _, rfl, by simp [Kind.BeginsExpr, kind]⟩
  | alternative kind => exact ⟨_, _, rfl, by simp [Kind.BeginsExpr, kind]⟩
  | procedure kind => exact ⟨_, _, rfl, by simp [Kind.BeginsExpr, kind]⟩
  | call called opened values closed ihCallee ihArgs =>
    obtain ⟨token, rest, rfl, begins⟩ := ihCallee
    exact ⟨token, _, rfl, begins⟩
  | plain tight bare ih => exact ih
  | group opened => exact ⟨_, _, rfl, by simp [Kind.BeginsExpr, opened]⟩
  | noArgs | lastArg | moreArgs | noParams | lastParam | moreParams | braces => trivial
  | declare kind => exact ⟨_, _, rfl, .inl kind⟩
  | assign named => exact ⟨_, _, rfl, .inr (.inr (by simp [Kind.BeginsExpr, named]))⟩
  | giveBack kind => exact ⟨_, _, rfl, .inr (.inl kind)⟩
  | expr given ih =>
    obtain ⟨token, rest, same, begins⟩ := ih
    obtain ⟨rfl, rfl⟩ := List.cons.inj same
    exact ⟨_, _, rfl, .inr (.inr begins)⟩
  | noStmts => simp [Leads]
  | ended first kind following ihFirst ihRest =>
    obtain ⟨token, rest, rfl, begins⟩ := ihFirst
    simpa [Leads] using begins
  | unended first apart following ihFirst ihRest =>
    obtain ⟨token, rest, rfl, begins⟩ := ihFirst
    simpa [Leads] using begins

/-! ## Ranks and strengths -/

/-- An operand of a rank may stand where a lesser one is wanted. -/
theorem Phrase.Spelled.weaken {least less : Nat} {expr : Expr} {tokens : List Token}
    (spelled : (Phrase.operand least expr).Spelled tokens) (below : less ≤ least) :
    (Phrase.operand less expr).Spelled tokens := by
  cases spelled with
  | plain tight bare => exact .plain (Nat.le_trans below tight) bare
  | group opened inner closed => exact .group opened inner closed

/-- The strength of a parenthesis that opens a call. -/
theorem Kind.strength_of_leftParen {kind : Kind} (paren : kind = .leftParen) :
    kind.strength = 7 := by
  rw [paren]
  rfl

/-- The strength of an operation is given by its rank. -/
theorem Kind.strength_of_rank {kind : Kind} {rank : Nat} (ranked : kind.rank? = some rank) :
    kind.strength = rank + 2 ∧ rank ≤ 3 ∧ kind ≠ .leftParen ∧ kind ≠ .assign ∧
      kind ≠ .elseWord := by
  cases kind <;> simp_all [Kind.rank?, Kind.strength] <;> omega

/-- What continues an operand is an operation or the parenthesis of a call. -/
theorem Kind.rank_of_strength {kind : Kind} (strong : Kind.loosest < kind.strength)
    (other : kind ≠ .leftParen) : ∃ rank, kind.rank? = some rank := by
  cases kind <;> simp_all [Kind.rank?, Kind.strength, Kind.loosest]

/-! ## Parts -/

mutual

/-- An expression and all expressions inside it. -/
def Expr.parts : Expr → List Expr
  | .absent => []
  | .unary token sign operand => .unary token sign operand :: operand.parts
  | .binary token sign left right => .binary token sign left right :: (left.parts ++ right.parts)
  | .choice token test yes no => .choice token test yes no :: (test.parts ++ yes.parts ++ no.parts)
  | .procedure token params body => .procedure token params body :: body.parts
  | .call token callee args => .call token callee args :: (callee.parts ++ Expr.partsAll args)
  | leaf => [leaf]

/-- The expressions inside any of some expressions, these included. -/
def Expr.partsAll : List Expr → List Expr
  | [] => []
  | expr :: rest => expr.parts ++ Expr.partsAll rest

/-- The expressions inside a statement. -/
def Stmt.parts : Stmt → List Expr
  | .absent => []
  | .declare _ _ value | .assign _ _ value | .giveBack _ value | .expr _ value => value.parts
  | .block _ stmts => Stmt.partsAll stmts

/-- The expressions inside statements. -/
def Stmt.partsAll : List Stmt → List Expr
  | [] => []
  | stmt :: rest => stmt.parts ++ Stmt.partsAll rest

/-- The expressions inside a block. -/
def Block.parts : Block → List Expr
  | .absent => []
  | .braces _ stmts => Stmt.partsAll stmts

end

/-- The expressions inside a phrase. -/
def Phrase.parts : Phrase → List Expr
  | .bare expr | .operand _ expr => expr.parts
  | .args exprs => Expr.partsAll exprs
  | .params _ => []
  | .block inner => inner.parts
  | .stmt single => single.parts
  | .stmts several => Stmt.partsAll several

/-- The expressions inside a program. -/
def Program.parts (program : Program) : List Expr := Stmt.partsAll program.stmts

/-- An expression that stands in parentheses. -/
def Expr.Parenthesised (expr : Expr) (tokens : List Token) : Prop :=
  ∃ (paren close : Token) (inside : List Token), paren.kind = .leftParen ∧
    (Phrase.operand 0 expr).Spelled inside ∧ close.kind = .rightParen ∧
    tokens = paren :: inside ++ [close]

/-- An operand binds tightly enough, unless it stands in parentheses. -/
theorem Phrase.Spelled.tight_or_parenthesised {least : Nat} {expr : Expr} {tokens : List Token}
    (spelled : (Phrase.operand least expr).Spelled tokens) :
    least ≤ expr.rank ∨ expr.Parenthesised tokens := by
  cases spelled with
  | plain tight bare => exact .inl tight
  | group opened inner closed => exact .inr ⟨_, _, _, opened, inner, closed, rfl⟩

/-- What stands behind a token is part of the whole list. -/
theorem infix_behind (before : List Token) (token : Token) (rest : List Token) :
    rest <:+: before ++ token :: rest :=
  ((List.suffix_cons token rest).trans (List.suffix_append before _)).isInfix

/-- Every expression inside a phrase is spelled by a part of the tokens that spell the phrase. -/
theorem Phrase.Spelled.part {phrase : Phrase} {tokens : List Token}
    (spelled : phrase.Spelled tokens) {node : Expr} (inside : node ∈ phrase.parts) :
    ∃ segment, segment <:+: tokens ∧ (Phrase.bare node).Spelled segment := by
  -- A part of a component is a part of the whole; a phrase that is the node itself is all of it.
  have within {segment component whole : List Token} (smaller : component <:+: whole)
      (found : segment <:+: component ∧ (Phrase.bare node).Spelled segment) :
      ∃ segment, segment <:+: whole ∧ (Phrase.bare node).Spelled segment :=
    ⟨segment, found.1.trans smaller, found.2⟩
  induction spelled with
  | ident kind | str kind | trueWord kind | falseWord kind | null kind =>
    obtain rfl := List.mem_singleton.mp inside
    exact ⟨_, List.infix_refl _, by constructor; exact kind⟩
  | int kind fits =>
    obtain rfl := List.mem_singleton.mp inside
    exact ⟨_, List.infix_refl _, .int kind fits⟩
  | unary kind inner ih =>
    rcases List.mem_cons.mp inside with rfl | inside
    · exact ⟨_, List.infix_refl _, .unary kind inner⟩
    · obtain ⟨segment, found⟩ := ih inside
      exact within (List.suffix_cons _ _).isInfix found
  | binary kind first second ihFirst ihSecond =>
    rcases List.mem_cons.mp inside with rfl | inside
    · exact ⟨_, List.infix_refl _, .binary kind first second⟩
    rcases List.mem_append.mp inside with inside | inside
    · obtain ⟨segment, found⟩ := ihFirst inside
      exact within (List.prefix_append _ _).isInfix found
    · obtain ⟨segment, found⟩ := ihSecond inside
      exact within (infix_behind _ _ _) found
  | choice kind opened condition closed branch ihTest ihYes =>
    rcases List.mem_cons.mp inside with rfl | inside
    · exact ⟨_, List.infix_refl _, .choice kind opened condition closed branch⟩
    simp only [Block.parts, List.append_nil, List.mem_append] at inside
    rcases inside with inside | inside
    · obtain ⟨segment, found⟩ := ihTest inside
      exact within ⟨[_, _], _, rfl⟩ found
    · obtain ⟨segment, found⟩ := ihYes inside
      exact within (infix_behind _ _ _) found
  | alternative kind opened condition closed branch otherwise second ihTest ihYes ihNo =>
    rcases List.mem_cons.mp inside with rfl | inside
    · exact ⟨_, List.infix_refl _,
        .alternative kind opened condition closed branch otherwise second⟩
    simp only [List.mem_append] at inside
    rcases inside with (inside | inside) | inside
    · obtain ⟨segment, found⟩ := ihTest inside
      exact within (.trans ⟨[_, _], _, rfl⟩ (List.prefix_append _ _).isInfix) found
    · obtain ⟨segment, found⟩ := ihYes inside
      exact within ((infix_behind _ _ _).trans (List.prefix_append _ _).isInfix) found
    · obtain ⟨segment, found⟩ := ihNo inside
      exact within (infix_behind _ _ _) found
  | procedure kind opened names closed block ihNames ihBody =>
    rcases List.mem_cons.mp inside with rfl | inside
    · exact ⟨_, List.infix_refl _, .procedure kind opened names closed block⟩
    · obtain ⟨segment, found⟩ := ihBody inside
      exact within (infix_behind _ _ _) found
  | call called opened values closed ihCallee ihArgs =>
    rcases List.mem_cons.mp inside with rfl | inside
    · exact ⟨_, List.infix_refl _, .call called opened values closed⟩
    rcases List.mem_append.mp inside with inside | inside
    · obtain ⟨segment, found⟩ := ihCallee inside
      exact within ((List.prefix_append _ _).trans (List.prefix_append _ _)).isInfix found
    · obtain ⟨segment, found⟩ := ihArgs inside
      exact within ((infix_behind _ _ _).trans (List.prefix_append _ _).isInfix) found
  | plain tight bare ih => exact ih inside
  | group opened inner closed ih =>
    obtain ⟨segment, found⟩ := ih inside
    exact within ⟨[_], [_], rfl⟩ found
  | noArgs | noParams | noStmts => cases inside
  | lastArg value ih =>
    obtain ⟨segment, found⟩ := ih (by simpa [parts, Expr.partsAll] using inside)
    exact ⟨segment, found⟩
  | moreArgs value between values ihFirst ihRest =>
    rcases List.mem_append.mp inside with inside | inside
    · obtain ⟨segment, found⟩ := ihFirst inside
      exact within (List.prefix_append _ _).isInfix found
    · obtain ⟨segment, found⟩ := ihRest inside
      exact within (infix_behind _ _ _) found
  | lastParam | moreParams => cases inside
  | braces opened stmts closed ih =>
    obtain ⟨segment, found⟩ := ih inside
    exact within ⟨[_], [_], rfl⟩ found
  | declare kind named signed given ih =>
    obtain ⟨segment, found⟩ := ih inside
    exact within (List.suffix_append [_, _, _] _).isInfix found
  | assign named signed given ih =>
    obtain ⟨segment, found⟩ := ih inside
    exact within (List.suffix_append [_, _] _).isInfix found
  | giveBack kind given ih =>
    obtain ⟨segment, found⟩ := ih inside
    exact within (List.suffix_cons _ _).isInfix found
  | expr given ih => exact ih inside
  | ended first kind following ihFirst ihRest =>
    rcases List.mem_append.mp inside with inside | inside
    · obtain ⟨segment, found⟩ := ihFirst inside
      exact within (List.prefix_append _ _).isInfix found
    · obtain ⟨segment, found⟩ := ihRest inside
      exact within (infix_behind _ _ _) found
  | unended first apart following ihFirst ihRest =>
    rcases List.mem_append.mp inside with inside | inside
    · obtain ⟨segment, found⟩ := ihFirst inside
      exact within (List.prefix_append _ _).isInfix found
    · obtain ⟨segment, found⟩ := ihRest inside
      exact within (List.suffix_append _ _).isInfix found

/-- Every operation inside a program groups its operands by rank: unless it stands in parentheses,
the left operand binds at least as tightly as the operation, and the right one more tightly. -/
def Program.Grouped (program : Program) (tokens : List Token) : Prop :=
  ∀ sign text left right, Expr.binary sign text left right ∈ program.parts →
    ∃ (rank : Nat) (before after : List Token), sign.kind.rank? = some rank ∧
      before ++ sign :: after <:+: tokens ∧
      (Phrase.operand 0 left).Spelled before ∧ (Phrase.operand 0 right).Spelled after ∧
      (rank ≤ left.rank ∨ left.Parenthesised before) ∧
      (rank < right.rank ∨ right.Parenthesised after)

/-- Spellings group operands by rank. -/
theorem Phrase.Spelled.grouped {program : Program} {tokens : List Token}
    (spelled : (Phrase.stmts program.stmts).Spelled tokens) : program.Grouped tokens := by
  intro sign text left right inside
  obtain ⟨segment, smaller, bare⟩ := spelled.part inside
  cases bare with
  | binary kind first second =>
    exact ⟨_, _, _, kind, smaller, first.weaken (Nat.zero_le _), second.weaken (Nat.zero_le _),
      first.tight_or_parenthesised, second.tight_or_parenthesised⟩

end Lengua
