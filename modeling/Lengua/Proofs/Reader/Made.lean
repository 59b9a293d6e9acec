import Lengua.Proofs.Grammar
import Lengua.Proofs.Reader.Run
import Lengua.Tree.Render

/-!
# What trees are made of

Every tree that reading gives is complete, whether or not faults were found: each of its
nodes has the parts it needs, and was read from a token of the kind that belongs to it.
`MadeOf` says so of a tree, and of its tokens that they have some property besides. It is
an invariant of the reader: a fault drops all that waits for an operand, so nothing that
lacks a part ever becomes part of a tree.
-/

namespace Lengua

section

variable (p : Token → Prop)

/-- A name that was read from a token. -/
def Ident.MadeOf (id : Ident) : Prop :=
  p id.token ∧ id.token.kind = .ident ∧ id.name = id.token.literal

mutual

/-- A complete expression, read from tokens with a property. -/
def Expr.MadeOf : Expr → Prop
  | .absent => False
  | .ident id => id.MadeOf p
  | .int token value =>
    p token ∧ token.kind = .int ∧ Text.plainInteger? token.literal = some value
  | .bool token value => p token ∧ token.kind = if value then .trueWord else .falseWord
  | .str token value => p token ∧ token.kind = .string ∧ value = token.literal
  | .null token => p token ∧ token.kind = .nullWord
  | .unary token sign operand =>
    p token ∧ token.kind.IsSign ∧ sign = token.literal ∧ operand.MadeOf
  | .binary token sign left right =>
    p token ∧ (∃ rank, token.kind.rank? = some rank) ∧ sign = token.literal ∧ left.MadeOf ∧
      right.MadeOf
  | .choice token test yes no =>
    p token ∧ token.kind = .ifWord ∧ test.MadeOf ∧ yes.MadeOf ∧
      (no.isAbsent = true ∨ no.MadeOf)
  | .procedure token params body =>
    p token ∧ token.kind = .procedureWord ∧ (∀ id ∈ params, id.MadeOf p) ∧ body.MadeOf
  | .call token callee args =>
    p token ∧ token.kind = .leftParen ∧ callee.MadeOf ∧ Expr.MadeOfAll args

/-- Complete expressions, read from tokens with a property. -/
def Expr.MadeOfAll : List Expr → Prop
  | [] => True
  | expr :: rest => expr.MadeOf ∧ Expr.MadeOfAll rest

/-- A complete statement, read from tokens with a property. -/
def Stmt.MadeOf : Stmt → Prop
  | .absent | .block _ _ => False
  | .declare token name value =>
    p token ∧ token.kind = .variableWord ∧ (∃ id, name = some id ∧ id.MadeOf p) ∧ value.MadeOf
  | .assign token name value =>
    p token ∧ token.kind = .assign ∧ (∃ id, name = some id ∧ id.MadeOf p) ∧ value.MadeOf
  | .giveBack token value => p token ∧ token.kind = .returnWord ∧ value.MadeOf
  | .expr token value => p token ∧ value.MadeOf

/-- Complete statements, read from tokens with a property. -/
def Stmt.MadeOfAll : List Stmt → Prop
  | [] => True
  | stmt :: rest => stmt.MadeOf ∧ Stmt.MadeOfAll rest

/-- A block of complete statements, read from tokens with a property. -/
def Block.MadeOf : Block → Prop
  | .absent => False
  | .braces token stmts => p token ∧ token.kind = .leftBrace ∧ Stmt.MadeOfAll stmts

end

/-- A program of complete statements, read from tokens with a property. -/
def Program.MadeOf (program : Program) : Prop := Stmt.MadeOfAll p program.stmts

/-- Expressions are complete when each of them is. -/
theorem Expr.madeOfAll_iff {exprs : List Expr} :
    Expr.MadeOfAll p exprs ↔ ∀ expr ∈ exprs, expr.MadeOf p := by
  induction exprs with
  | nil => simp [Expr.MadeOfAll]
  | cons expr rest ih => simp [Expr.MadeOfAll, ih]

/-- Statements are complete when each of them is. -/
theorem Stmt.madeOfAll_iff {stmts : List Stmt} :
    Stmt.MadeOfAll p stmts ↔ ∀ stmt ∈ stmts, stmt.MadeOf p := by
  induction stmts with
  | nil => simp [Stmt.MadeOfAll]
  | cons stmt rest ih => simp [Stmt.MadeOfAll, ih]

namespace Reader

/-! ## The state of a reader -/

/-- What comes before an expression, read from tokens with a property. -/
def Head.MadeOf : Head → Prop
  | .declare token name => p token ∧ token.kind = .variableWord ∧ name.MadeOf p
  | .assign token name => p token ∧ token.kind = .assign ∧ name.MadeOf p
  | .giveBack token => p token ∧ token.kind = .returnWord
  | .expr token => p token

/-- What waits for an operand, read from tokens with a property. -/
def Frame.MadeOf : Frame → Prop
  | .unary token => p token ∧ token.kind.IsSign
  | .binary token left => p token ∧ (∃ rank, token.kind.rank? = some rank) ∧ left.MadeOf p
  | .group => True
  | .argument token callee done =>
    p token ∧ token.kind = .leftParen ∧ callee.MadeOf p ∧ ∀ expr ∈ done, expr.MadeOf p
  | .test token => p token ∧ token.kind = .ifWord

/-- The waiting parts of a statement, read from tokens with a property. -/
def Pending.MadeOf (pending : Pending) : Prop :=
  pending.head.MadeOf p ∧ ∀ frame ∈ pending.frames, frame.MadeOf p

/-- What a block belongs to, read from tokens with a property. -/
def Site.MadeOf : Site → Prop
  | .yes token test => p token ∧ token.kind = .ifWord ∧ test.MadeOf p
  | .no token test first => p token ∧ token.kind = .ifWord ∧ test.MadeOf p ∧ first.MadeOf p
  | .body token params => p token ∧ token.kind = .procedureWord ∧ ∀ id ∈ params, id.MadeOf p

/-- An interrupted statement list, read from tokens with a property. -/
structure Level.MadeOf (level : Level) : Prop where
  /-- The finished statements. -/
  stmts : ∀ stmt ∈ level.stmts, stmt.MadeOf p
  /-- The parts around the block. -/
  pending : level.pending.MadeOf p
  /-- What the block belongs to. -/
  site : level.site.MadeOf p
  /-- The brace of the block. -/
  brace : p level.brace ∧ level.brace.kind = .leftBrace

/-- A mode with parts that were read from tokens with a property. -/
def Mode.MadeOf : Mode → Prop
  | .statement | .finished => True
  | .named token => p token ∧ token.kind = .ident
  | .declareName token => p token ∧ token.kind = .variableWord
  | .declareSign token name => p token ∧ token.kind = .variableWord ∧ name.MadeOf p
  | .operand pending => pending.MadeOf p
  | .after pending value => pending.MadeOf p ∧ value.MadeOf p
  | .choiceParen pending token => pending.MadeOf p ∧ p token ∧ token.kind = .ifWord
  | .yesBrace pending token test => pending.MadeOf p ∧ (Site.yes token test).MadeOf p
  | .alternative pending token test first | .noBrace pending token test first =>
    pending.MadeOf p ∧ (Site.no token test first).MadeOf p
  | .procedureParen pending token | .firstParam pending token =>
    pending.MadeOf p ∧ p token ∧ token.kind = .procedureWord
  | .nextParam pending token params | .moreParams pending token params
  | .bodyBrace pending token params => pending.MadeOf p ∧ (Site.body token params).MadeOf p
  | .firstArgument pending token callee =>
    pending.MadeOf p ∧ p token ∧ token.kind = .leftParen ∧ callee.MadeOf p

/-- A reader all of whose parts were read from tokens with a property. -/
structure MadeOf (reader : Reader) : Prop where
  /-- The interrupted statement lists. -/
  levels : ∀ level ∈ reader.levels, level.MadeOf p
  /-- The finished statements. -/
  stmts : ∀ stmt ∈ reader.stmts, stmt.MadeOf p
  /-- The current statement. -/
  mode : reader.mode.MadeOf p

end Reader

end

namespace Reader

variable {p : Token → Prop} {reader : Reader} {token : Token}

/-! ## One token -/

/-- A name that has just been read. -/
theorem identOf_madeOf (fits : p token) (kind : token.kind = .ident) :
    (identOf token).MadeOf p := ⟨fits, kind, rfl⟩

/-- One more waiting part. -/
theorem Pending.MadeOf.push {pending : Pending} {frame : Frame} (waits : pending.MadeOf p)
    (framed : frame.MadeOf p) : (pending.push frame).MadeOf p :=
  ⟨waits.1, List.forall_mem_cons.mpr ⟨framed, waits.2⟩⟩

/-- The statement of a head and its expression. -/
theorem Head.MadeOf.stmt {head : Head} {value : Expr} (headed : head.MadeOf p)
    (given : value.MadeOf p) : (head.stmt value).MadeOf p := by
  cases head with
  | declare word name => exact ⟨headed.1, headed.2.1, ⟨name, rfl, headed.2.2⟩, given⟩
  | assign sign name => exact ⟨headed.1, headed.2.1, ⟨name, rfl, headed.2.2⟩, given⟩
  | giveBack word => exact ⟨headed.1, headed.2, given⟩
  | expr token => exact ⟨headed, given⟩

/-- What follows a block. -/
theorem Site.MadeOf.mode {site : Site} {pending : Pending} {block : Block}
    (belongs : site.MadeOf p) (waits : pending.MadeOf p) (complete : block.MadeOf p) :
    (site.mode pending block).MadeOf p := by
  cases site with
  | yes word test => exact ⟨waits, belongs.1, belongs.2.1, belongs.2.2, complete⟩
  | no word test first =>
    exact ⟨waits, belongs.1, belongs.2.1, belongs.2.2.1, belongs.2.2.2, .inr complete⟩
  | body word params => exact ⟨waits, belongs.1, belongs.2.1, belongs.2.2, complete⟩

/-- A reader in another mode. -/
theorem MadeOf.withMode (made : reader.MadeOf p) {mode : Mode} (read : mode.MadeOf p) :
    MadeOf p { reader with mode } := ⟨made.levels, made.stmts, read⟩

/-- A fault leaves nothing incomplete behind. -/
theorem MadeOf.fail (made : reader.MadeOf p) (error : SyntaxError) :
    (reader.fail error).MadeOf p := ⟨made.levels, made.stmts, trivial⟩

/-- The opening brace of a block. -/
theorem MadeOf.openBlock (made : reader.MadeOf p) {pending : Pending} {site : Site}
    (waits : pending.MadeOf p) (belongs : site.MadeOf p) (fits : p token)
    (opened : token.kind = .leftBrace) : (reader.openBlock pending site token).MadeOf p :=
  ⟨List.forall_mem_cons.mpr ⟨⟨made.stmts, waits, belongs, fits, opened⟩, made.levels⟩,
    by simp [Reader.openBlock], trivial⟩

/-- The end of a block. -/
theorem MadeOf.closeBlock (made : reader.MadeOf p) {level : Level} {outer : List Level}
    (interrupted : reader.levels = level :: outer) :
    (reader.closeBlock level outer).MadeOf p := by
  obtain ⟨interruptedMade, outerMade⟩ : level.MadeOf p ∧ ∀ other ∈ outer, other.MadeOf p := by
    have levels := made.levels
    rwa [interrupted, List.forall_mem_cons] at levels
  refine ⟨outerMade, interruptedMade.stmts, ?_⟩
  have block : (Block.braces level.brace reader.stmts.reverse).MadeOf p :=
    ⟨interruptedMade.brace.1, interruptedMade.brace.2,
      (Stmt.madeOfAll_iff p).mpr fun stmt member => made.stmts stmt (List.mem_reverse.mp member)⟩
  exact interruptedMade.site.mode interruptedMade.pending block

/-- The first token of an operand. -/
theorem MadeOf.takeOperand (made : reader.MadeOf p) {pending : Pending} (waits : pending.MadeOf p)
    (fits : token.kind ≠ .eof → p token) : (reader.takeOperand pending token).MadeOf p := by
  have kept (inside : token.kind ≠ .eof) := fits inside
  cases kind : token.kind with
  | ident =>
    simp only [Reader.takeOperand, kind]
    exact made.withMode ⟨waits, identOf_madeOf (kept (by simp [kind])) kind⟩
  | int =>
    simp only [Reader.takeOperand, kind]
    split
    case h_1 value read => exact made.withMode ⟨waits, kept (by simp [kind]), kind, read⟩
    case h_2 => exact made.fail _
  | string =>
    simp only [Reader.takeOperand, kind]
    exact made.withMode ⟨waits, kept (by simp [kind]), kind, rfl⟩
  | trueWord | falseWord | nullWord =>
    simp only [Reader.takeOperand, kind]
    exact made.withMode ⟨waits, kept (by simp [kind]), kind⟩
  | minus =>
    simp only [Reader.takeOperand, kind]
    exact made.withMode (waits.push ⟨kept (by simp [kind]), .inl kind⟩)
  | negation =>
    simp only [Reader.takeOperand, kind]
    exact made.withMode (waits.push ⟨kept (by simp [kind]), .inr kind⟩)
  | leftParen =>
    simp only [Reader.takeOperand, kind]
    exact made.withMode (waits.push trivial)
  | ifWord | procedureWord =>
    simp only [Reader.takeOperand, kind]
    exact made.withMode ⟨waits, kept (by simp [kind]), kind⟩
  | _ =>
    simp only [Reader.takeOperand, kind]
    exact made.fail _

/-- A token where a statement is wanted. -/
theorem MadeOf.takeStatement (made : reader.MadeOf p) (fits : token.kind ≠ .eof → p token) :
    (reader.takeStatement token).MadeOf p := by
  cases kind : token.kind with
  | eof =>
    simp only [Reader.takeStatement, kind]
    split
    case h_1 => exact made.withMode trivial
    case h_2 level outer interrupted => exact made.closeBlock interrupted
  | rightBrace =>
    simp only [Reader.takeStatement, kind]
    split
    case h_1 => exact made.fail _
    case h_2 level outer interrupted => exact made.closeBlock interrupted
  | variableWord | ident | returnWord =>
    simp only [Reader.takeStatement, kind]
    have kept := fits (by simp [kind])
    first
    | exact made.withMode ⟨kept, kind⟩
    | exact made.withMode ⟨⟨kept, kind⟩, by simp⟩
  | _ =>
    simp only [Reader.takeStatement, kind]
    exact made.takeOperand ⟨fits (by simp [kind]), by simp⟩ fits

/-- A token that was not wanted. -/
theorem MadeOf.reject (made : reader.MadeOf p) (wanted : Kind)
    (fits : token.kind ≠ .eof → p token) : (reader.reject wanted token).MadeOf p :=
  (made.fail _).takeStatement fits

/-- The token after a statement. -/
theorem MadeOf.endStatement (made : reader.MadeOf p) {stmt : Stmt} (complete : stmt.MadeOf p)
    (fits : token.kind ≠ .eof → p token) : (reader.endStatement stmt token).MadeOf p := by
  have ended : MadeOf p { reader with stmts := stmt :: reader.stmts, mode := .statement } :=
    ⟨made.levels, List.forall_mem_cons.mpr ⟨complete, made.stmts⟩, trivial⟩
  unfold Reader.endStatement
  dsimp only
  split
  · exact ended
  · exact ended.takeStatement fits

/-- A token that continues an operand. -/
theorem MadeOf.extend (made : reader.MadeOf p) {pending : Pending} {value : Expr}
    (waits : pending.MadeOf p) (given : value.MadeOf p) (fits : token.kind ≠ .eof → p token)
    (strong : Kind.loosest < token.kind.strength) :
    (reader.extend pending value token).MadeOf p := by
  have kept : p token := by
    apply fits
    intro ends
    simp [ends, Kind.strength, Kind.loosest] at strong
  unfold Reader.extend
  split
  case isTrue paren => exact made.withMode ⟨waits, kept, paren, given⟩
  case isFalse other =>
    exact made.withMode (waits.push ⟨kept, Kind.rank_of_strength strong other, given⟩)

/-- The token after an operand. -/
theorem MadeOf.settle (made : reader.MadeOf p) {head : Head} {frames : List Frame} {value : Expr}
    (headed : head.MadeOf p) (framed : ∀ frame ∈ frames, frame.MadeOf p) (given : value.MadeOf p)
    (fits : token.kind ≠ .eof → p token) : (reader.settle head frames value token).MadeOf p := by
  induction frames generalizing value with
  | nil =>
    unfold Reader.settle
    split
    case isTrue strong => exact made.extend ⟨headed, framed⟩ given fits strong
    case isFalse => exact made.endStatement (headed.stmt given) fits
  | cons frame frames ih =>
    obtain ⟨own, outer⟩ := List.forall_mem_cons.mp framed
    unfold Reader.settle
    split
    case isTrue strong =>
      exact made.extend ⟨headed, framed⟩ given fits
        (Nat.lt_of_le_of_lt frame.one_le_strength strong)
    case isFalse =>
      cases frame with
      | unary sign => exact ih outer ⟨own.1, own.2, rfl, given⟩
      | binary sign left => exact ih outer ⟨own.1, own.2.1, rfl, own.2.2, given⟩
      | group =>
        dsimp only
        split
        · exact made.withMode ⟨⟨headed, outer⟩, given⟩
        · exact made.reject _ fits
      | argument paren callee done =>
        obtain ⟨kept, opened, called, listed⟩ := own
        have all : ∀ expr ∈ value :: done, expr.MadeOf p :=
          List.forall_mem_cons.mpr ⟨given, listed⟩
        dsimp only
        split
        · exact made.withMode
            ⟨headed, List.forall_mem_cons.mpr ⟨⟨kept, opened, called, all⟩, outer⟩⟩
        split
        · refine made.withMode ⟨⟨headed, outer⟩, kept, opened, called, ?_⟩
          exact (Expr.madeOfAll_iff p).mpr fun expr member => all expr (List.mem_reverse.mp member)
        · exact made.reject _ fits
      | test word =>
        dsimp only
        split
        · exact made.withMode ⟨⟨headed, outer⟩, own.1, own.2, given⟩
        · exact made.reject _ fits

/-- A token keeps all that has been read complete. -/
theorem MadeOf.take (made : reader.MadeOf p) (fits : token.kind ≠ .eof → p token) :
    (reader.take token).MadeOf p := by
  have keeps {kind : Kind} (same : token.kind = kind) (inside : kind ≠ .eof) : p token :=
    fits (same ▸ inside)
  have read := made.mode
  unfold Reader.take
  split
  case h_1 => exact made.takeStatement fits
  case h_2 name mode =>
    rw [mode] at read
    have ident := identOf_madeOf read.1 read.2
    split
    case isTrue signed =>
      exact made.withMode ⟨⟨keeps signed (by decide), signed, ident⟩, by simp⟩
    case isFalse => exact made.settle read.1 (by simp) ident fits
  case h_3 word mode =>
    rw [mode] at read
    split
    case isTrue named =>
      exact made.withMode ⟨read.1, read.2, identOf_madeOf (keeps named (by decide)) named⟩
    case isFalse => exact made.reject _ fits
  case h_4 word name mode =>
    rw [mode] at read
    split
    · exact made.withMode ⟨read, by simp⟩
    · exact made.reject _ fits
  case h_5 pending mode =>
    rw [mode] at read
    exact made.takeOperand read fits
  case h_6 pending value mode =>
    rw [mode] at read
    exact made.settle read.1.1 read.1.2 read.2 fits
  case h_7 pending word mode =>
    rw [mode] at read
    split
    · exact made.withMode (read.1.push read.2)
    · exact made.reject _ fits
  case h_8 pending word test mode =>
    rw [mode] at read
    split
    case isTrue opened =>
      exact made.openBlock read.1 read.2 (keeps opened (by decide)) opened
    case isFalse => exact made.reject _ fits
  case h_9 pending word test first mode =>
    rw [mode] at read
    obtain ⟨waits, kept, kind, tested, branch⟩ := read
    split
    · exact made.withMode ⟨waits, kept, kind, tested, branch⟩
    · exact made.settle waits.1 waits.2 ⟨kept, kind, tested, branch, .inl rfl⟩ fits
  case h_10 pending word test first mode =>
    rw [mode] at read
    split
    case isTrue opened =>
      exact made.openBlock read.1 read.2 (keeps opened (by decide)) opened
    case isFalse => exact made.reject _ fits
  case h_11 pending word mode =>
    rw [mode] at read
    split
    · exact made.withMode read
    · exact made.reject _ fits
  case h_12 pending word mode =>
    rw [mode] at read
    obtain ⟨waits, kept, kind⟩ := read
    split
    · exact made.withMode ⟨waits, kept, kind, by simp⟩
    split
    case isTrue named =>
      have ident := identOf_madeOf (keeps named (by decide)) named
      exact made.withMode ⟨waits, kept, kind, List.forall_mem_singleton.mpr ident⟩
    case isFalse => exact made.reject _ fits
  case h_13 pending word params mode =>
    rw [mode] at read
    obtain ⟨waits, kept, kind, names⟩ := read
    split
    case isTrue named =>
      have ident := identOf_madeOf (keeps named (by decide)) named
      exact made.withMode ⟨waits, kept, kind, List.forall_mem_cons.mpr ⟨ident, names⟩⟩
    case isFalse => exact made.reject _ fits
  case h_14 pending word params mode =>
    rw [mode] at read
    obtain ⟨waits, kept, kind, names⟩ := read
    split
    · exact made.withMode ⟨waits, kept, kind, names⟩
    split
    · exact made.withMode
        ⟨waits, kept, kind, fun id member => names id (List.mem_reverse.mp member)⟩
    · exact made.reject _ fits
  case h_15 pending word params mode =>
    rw [mode] at read
    split
    case isTrue opened =>
      exact made.openBlock read.1 read.2 (keeps opened (by decide)) opened
    case isFalse => exact made.reject _ fits
  case h_16 pending paren callee mode =>
    rw [mode] at read
    obtain ⟨waits, kept, opened, called⟩ := read
    split
    · exact made.withMode ⟨waits, kept, opened, called, trivial⟩
    · exact made.takeOperand (waits.push ⟨kept, opened, called, by simp⟩) fits
  case h_17 => exact made

/-- Tokens keep all that has been read complete. -/
theorem MadeOf.run (made : reader.MadeOf p) (tokens : List Token)
    (fits : ∀ token ∈ tokens, token.kind ≠ .eof → p token) : (reader.run tokens).MadeOf p := by
  induction tokens generalizing reader with
  | nil => exact made
  | cons token tokens ih =>
    obtain ⟨levels, stmts, mode⟩ := made.take (fits token List.mem_cons_self)
    exact ih ⟨levels, stmts, mode⟩ fun other member =>
      fits other (List.mem_cons_of_mem token member)

/-- The finished statements are complete. -/
theorem MadeOf.program (made : reader.MadeOf p) : reader.program.MadeOf p := by
  refine (Stmt.madeOfAll_iff p).mpr fun stmt member => ?_
  rw [Reader.program, List.mem_reverse] at member
  cases outermost : reader.levels.getLast? with
  | none =>
    rw [outermost] at member
    exact made.stmts stmt member
  | some level =>
    rw [outermost] at member
    exact (made.levels level (List.mem_of_getLast? outermost)).stmts stmt member

/-- A reader at the start has read nothing incomplete. -/
theorem madeOf_start : start.MadeOf p := ⟨by simp [start], by simp [start], trivial⟩

end Reader

/-- Whatever the tokens, the program read from them is complete and made of them. -/
theorem Program.ofTokens_madeOf {p : Token → Prop} {tokens : List Token}
    (fits : ∀ token ∈ tokens, p token) : (Program.ofTokens tokens).program.MadeOf p := by
  obtain ⟨marks, ends, -, same⟩ := Program.ofTokens_eq_run tokens
  rw [same]
  have read : (Reader.start.run tokens).MadeOf p :=
    Reader.madeOf_start.run tokens fun token member _ => fits token member
  have ended := read.run marks fun mark member going => absurd (ends mark member) going
  exact ended.program

end Lengua
