import Lengua.Text.Integer
import Lengua.Token.Scanner
import Lengua.Tree
import Lengua.Tree.SyntaxError

/-!
# From tokens to trees

A reader takes one token at a time. Its state is what has been read so far: the
finished statements of each open statement list, the parts of the current statement
that wait for an operand, and a mode that says what may come next. Whether an operand
is complete depends on the token after it, so that token decides: a sign that binds
tighter than the innermost waiting part continues the operand, and any other token
completes waiting parts from the inside out (`Reader.settle`).

A fault drops the statement it occurs in, up to the innermost open list, and reading
goes on there. A token that starts no expression is dropped with it; a token that came
instead of a wanted one is read again as the start of a statement. The end mark closes
the innermost open block, and at the outermost level it ends the program.
-/

namespace Lengua

namespace Reader

/-- What the expression being read is for. -/
inductive Head where
  /-- The value of a declared variable. -/
  | declare (token : Token) (name : Ident)
  /-- The value of an assignment. -/
  | assign (token : Token) (name : Ident)
  /-- The value a procedure ends with. -/
  | giveBack (token : Token)
  /-- An expression on its own. -/
  | expr (token : Token)

/-- The statement made of a head and its expression. -/
def Head.stmt : Head → Expr → Stmt
  | .declare token name, value => .declare token (some name) value
  | .assign token name, value => .assign token (some name) value
  | .giveBack token, value => .giveBack token value
  | .expr token, value => .expr token value

/-- A part of an expression that waits for the operand being read. -/
inductive Frame where
  /-- A sign before the operand. -/
  | unary (token : Token)
  /-- A left operand and a sign. -/
  | binary (token : Token) (left : Expr)
  /-- An opening parenthesis. -/
  | group
  /-- A call, with the arguments already read, latest first. -/
  | argument (token : Token) (callee : Expr) (done : List Expr)
  /-- The test of a choice. -/
  | test (token : Token)

/-- The strength a sign must exceed to continue the operand inside a frame. -/
def Frame.strength : Frame → Nat
  | .unary _ => Kind.signStrength
  | .binary token _ => token.kind.strength
  | .group | .argument _ _ _ | .test _ => Kind.loosest

/-- The waiting parts of the current statement. -/
structure Pending where
  /-- What the outermost expression is for. -/
  head : Head
  /-- The parts that wait for an operand, innermost first. -/
  frames : List Frame

/-- The pending parts with one more frame inside. -/
def Pending.push (pending : Pending) (frame : Frame) : Pending :=
  ⟨pending.head, frame :: pending.frames⟩

/-- What a block being read belongs to. -/
inductive Site where
  /-- The first branch of a choice. -/
  | yes (token : Token) (test : Expr)
  /-- The alternative branch of a choice. -/
  | no (token : Token) (test : Expr) (yes : Block)
  /-- The body of a procedure. -/
  | body (token : Token) (params : List Ident)

/-- A statement list interrupted by a block inside its current statement. -/
structure Level where
  /-- The finished statements of the list, latest first. -/
  stmts : List Stmt
  /-- The parts of the current statement around the block. -/
  pending : Pending
  /-- What the block belongs to. -/
  site : Site
  /-- The opening brace of the block. -/
  brace : Token

/-- What may come next. -/
inductive Mode where
  /-- A statement, or the end of the list. -/
  | statement
  /-- The rest of a statement that starts with a name. -/
  | named (name : Token)
  /-- The name of a declared variable. -/
  | declareName (token : Token)
  /-- The sign of a declaration. -/
  | declareSign (token : Token) (name : Ident)
  /-- An operand. -/
  | operand (pending : Pending)
  /-- What follows an operand. -/
  | after (pending : Pending) (value : Expr)
  /-- The opening parenthesis of a choice. -/
  | choiceParen (pending : Pending) (token : Token)
  /-- The opening brace of the first branch. -/
  | yesBrace (pending : Pending) (token : Token) (test : Expr)
  /-- An alternative branch, or what follows the choice. -/
  | alternative (pending : Pending) (token : Token) (test : Expr) (yes : Block)
  /-- The opening brace of the alternative branch. -/
  | noBrace (pending : Pending) (token : Token) (test : Expr) (yes : Block)
  /-- The opening parenthesis of a procedure. -/
  | procedureParen (pending : Pending) (token : Token)
  /-- The first parameter, or the end of an empty list. -/
  | firstParam (pending : Pending) (token : Token)
  /-- A further parameter; those already read come latest first. -/
  | nextParam (pending : Pending) (token : Token) (params : List Ident)
  /-- A comma, or the end of the parameters. -/
  | moreParams (pending : Pending) (token : Token) (params : List Ident)
  /-- The opening brace of a procedure. -/
  | bodyBrace (pending : Pending) (token : Token) (params : List Ident)
  /-- The first argument, or the end of an empty list. -/
  | firstArgument (pending : Pending) (token : Token) (callee : Expr)
  /-- Nothing: the program has ended. -/
  | finished

end Reader

open Reader

/-- The state of reading a list of tokens. -/
structure Reader where
  /-- The interrupted statement lists, innermost first. -/
  levels : List Level
  /-- The finished statements of the innermost list, latest first. -/
  stmts : List Stmt
  /-- What may come next. -/
  mode : Mode
  /-- The faults found, latest first. -/
  errors : List SyntaxError
  /-- The line of the last token taken. -/
  line : Int

namespace Reader

/-- A reader that has taken no token. -/
def start : Reader := ⟨[], [], .statement, [], 0⟩

/-- The identifier a token spells. -/
def identOf (token : Token) : Ident := ⟨token, token.literal⟩

/-- Drops the current statement for a fault. -/
def fail (reader : Reader) (error : SyntaxError) : Reader :=
  { reader with mode := .statement, errors := error :: reader.errors }

/-- Starts the statements of a block. -/
def openBlock (reader : Reader) (pending : Pending) (site : Site) (brace : Token) : Reader :=
  { reader with
    levels := ⟨reader.stmts, pending, site, brace⟩ :: reader.levels
    stmts := []
    mode := .statement }

/-- What follows a block, by what the block belongs to. -/
def Site.mode (site : Site) (pending : Pending) (block : Block) : Mode :=
  match site with
  | .yes token test => .alternative pending token test block
  | .no token test first => .after pending (.choice token test first block)
  | .body token params => .after pending (.procedure token params block)

/-- Ends the innermost block and goes on with the statement around it. -/
def closeBlock (reader : Reader) (level : Level) (outer : List Level) : Reader :=
  { reader with
    levels := outer
    stmts := level.stmts
    mode := level.site.mode level.pending (.braces level.brace reader.stmts.reverse) }

/-- Takes a token where an operand is wanted. -/
def takeOperand (reader : Reader) (pending : Pending) (token : Token) : Reader :=
  match token.kind with
  | .ident => { reader with mode := .after pending (.ident (identOf token)) }
  | .int =>
    match Text.plainInteger? token.literal with
    | some value => { reader with mode := .after pending (.int token value) }
    | none => reader.fail (.notInteger token)
  | .string => { reader with mode := .after pending (.str token token.literal) }
  | .trueWord => { reader with mode := .after pending (.bool token true) }
  | .falseWord => { reader with mode := .after pending (.bool token false) }
  | .nullWord => { reader with mode := .after pending (.null token) }
  | .minus | .negation => { reader with mode := .operand (pending.push (.unary token)) }
  | .leftParen => { reader with mode := .operand (pending.push .group) }
  | .ifWord => { reader with mode := .choiceParen pending token }
  | .procedureWord => { reader with mode := .procedureParen pending token }
  | _ => reader.fail (.noOperand token)

/-- Takes a token where a statement is wanted. -/
def takeStatement (reader : Reader) (token : Token) : Reader :=
  match token.kind with
  | .eof =>
    match reader.levels with
    | [] => { reader with mode := .finished }
    | level :: outer => reader.closeBlock level outer
  | .rightBrace =>
    match reader.levels with
    | [] => reader.fail (.noOperand token)
    | level :: outer => reader.closeBlock level outer
  | .variableWord => { reader with mode := .declareName token }
  | .ident => { reader with mode := .named token }
  | .returnWord => { reader with mode := .operand ⟨.giveBack token, []⟩ }
  | _ => reader.takeOperand ⟨.expr token, []⟩ token

/-- Drops the current statement because another kind was wanted, and reads the token again as
the start of a statement. -/
def reject (reader : Reader) (wanted : Kind) (token : Token) : Reader :=
  (reader.fail (.unexpected wanted token.kind reader.line)).takeStatement token

/-- Ends the current statement. A semicolon belongs to it; any other token starts the next. -/
def endStatement (reader : Reader) (stmt : Stmt) (token : Token) : Reader :=
  let ended := { reader with stmts := stmt :: reader.stmts, mode := .statement }
  if token.kind = .semicolon then ended else ended.takeStatement token

/-- Continues an operand with a sign that binds it: a call, or an operation on it. -/
def extend (reader : Reader) (pending : Pending) (value : Expr) (token : Token) : Reader :=
  if token.kind = .leftParen then { reader with mode := .firstArgument pending token value }
  else { reader with mode := .operand (pending.push (.binary token value)) }

/-- Takes the token after an operand, completing the waiting parts it does not bind into. -/
def settle (reader : Reader) (head : Head) : List Frame → Expr → Token → Reader
  | [], value, token =>
    if Kind.loosest < token.kind.strength then reader.extend ⟨head, []⟩ value token
    else reader.endStatement (head.stmt value) token
  | frame :: frames, value, token =>
    if frame.strength < token.kind.strength then reader.extend ⟨head, frame :: frames⟩ value token
    else match frame with
      | .unary sign => reader.settle head frames (.unary sign sign.literal value) token
      | .binary sign left => reader.settle head frames (.binary sign sign.literal left value) token
      | .group =>
        if token.kind = .rightParen then { reader with mode := .after ⟨head, frames⟩ value }
        else reader.reject .rightParen token
      | .argument paren callee done =>
        if token.kind = .comma then
          { reader with mode := .operand ⟨head, .argument paren callee (value :: done) :: frames⟩ }
        else if token.kind = .rightParen then
          { reader with mode := .after ⟨head, frames⟩ (.call paren callee (value :: done).reverse) }
        else reader.reject .rightParen token
      | .test word =>
        if token.kind = .rightParen then { reader with mode := .yesBrace ⟨head, frames⟩ word value }
        else reader.reject .rightParen token

/-- Takes a token in the current mode. -/
def take (reader : Reader) (token : Token) : Reader :=
  match reader.mode with
  | .statement => reader.takeStatement token
  | .named name =>
    if token.kind = .assign then
      { reader with mode := .operand ⟨.assign token (identOf name), []⟩ }
    else reader.settle (.expr name) [] (.ident (identOf name)) token
  | .declareName word =>
    if token.kind = .ident then { reader with mode := .declareSign word (identOf token) }
    else reader.reject .ident token
  | .declareSign word name =>
    if token.kind = .assign then { reader with mode := .operand ⟨.declare word name, []⟩ }
    else reader.reject .assign token
  | .operand pending => reader.takeOperand pending token
  | .after pending value => reader.settle pending.head pending.frames value token
  | .choiceParen pending word =>
    if token.kind = .leftParen then { reader with mode := .operand (pending.push (.test word)) }
    else reader.reject .leftParen token
  | .yesBrace pending word test =>
    if token.kind = .leftBrace then reader.openBlock pending (.yes word test) token
    else reader.reject .leftBrace token
  | .alternative pending word test yes =>
    if token.kind = .elseWord then { reader with mode := .noBrace pending word test yes }
    else reader.settle pending.head pending.frames (.choice word test yes .absent) token
  | .noBrace pending word test yes =>
    if token.kind = .leftBrace then reader.openBlock pending (.no word test yes) token
    else reader.reject .leftBrace token
  | .procedureParen pending word =>
    if token.kind = .leftParen then { reader with mode := .firstParam pending word }
    else reader.reject .leftParen token
  | .firstParam pending word =>
    if token.kind = .rightParen then { reader with mode := .bodyBrace pending word [] }
    else if token.kind = .ident then
      { reader with mode := .moreParams pending word [identOf token] }
    else reader.reject .ident token
  | .nextParam pending word params =>
    if token.kind = .ident then
      { reader with mode := .moreParams pending word (identOf token :: params) }
    else reader.reject .ident token
  | .moreParams pending word params =>
    if token.kind = .comma then { reader with mode := .nextParam pending word params }
    else if token.kind = .rightParen then
      { reader with mode := .bodyBrace pending word params.reverse }
    else reader.reject .rightParen token
  | .bodyBrace pending word params =>
    if token.kind = .leftBrace then reader.openBlock pending (.body word params) token
    else reader.reject .leftBrace token
  | .firstArgument pending paren callee =>
    if token.kind = .rightParen then { reader with mode := .after pending (.call paren callee []) }
    else reader.takeOperand (pending.push (.argument paren callee [])) token
  | .finished => reader

/-- Takes a token and remembers its line. -/
def step (reader : Reader) (token : Token) : Reader :=
  { reader.take token with line := token.line }

/-- Takes tokens in order. -/
def run (reader : Reader) (tokens : List Token) : Reader := tokens.foldl step reader

/-- Ends the input on a line. One end mark may complete a broken operand, and then each closes
an open list. -/
def finish (reader : Reader) (line : Int) : Reader :=
  reader.run (List.replicate (reader.levels.length + 2) (Token.eof line))

/-- Takes tokens from a scanner as they are found, until the program has ended or `bound` of them
were taken. -/
def pull : Nat → Reader → Scanner → Reader
  | 0, reader, _ => reader
  | bound + 1, reader, scanner =>
    match reader.mode with
    | .finished => reader
    | _ =>
      let (token, after) := scanner.next
      pull bound (reader.step token) after

/-- The finished statements of the outermost list, in order. -/
def program (reader : Reader) : Program :=
  ⟨((reader.levels.getLast?.map Level.stmts).getD reader.stmts).reverse⟩

end Reader

/-- What reading a program gives: the statements that could be read, and the faults of the
others in the order they were found. -/
structure Reading where
  /-- The statements that could be read. -/
  program : Program
  /-- The faults found. -/
  errors : List SyntaxError

/-- What a reader has read. -/
def Reader.reading (reader : Reader) : Reading := ⟨reader.program, reader.errors.reverse⟩

/-- The line on which a list of tokens ends. -/
def Token.lastLine (tokens : List Token) : Int := (tokens.getLast?.map (·.line)).getD 1

namespace Program

/-- Reads a program from its tokens. The input ends where they do, whether or not an end mark
is among them. -/
def ofTokens (tokens : List Token) : Reading :=
  ((Reader.start.run tokens).finish (Token.lastLine tokens)).reading

/-- Reads a program from its text, token by token. There are at most as many tokens as bytes
before the end mark, each opens at most one block, and two more end marks than open blocks end
the program. -/
def ofText (source : Text) : Reading :=
  (Reader.start.pull (2 * source.length + 2) (Scanner.ofText source)).reading

end Program

end Lengua
