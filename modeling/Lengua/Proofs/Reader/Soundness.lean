import Lengua.Proofs.Grammar
import Lengua.Proofs.Reader.Pull

/-!
# Only spellings are read without a fault

What a reader has taken so far, as long as it has found no fault, is the beginning of a
spelling, and its state says where in the grammar that beginning ends. `Reader.Reads` is
this invariant: the interrupted statement lists, the finished statements, and the part of
the current statement that the mode describes, each with the tokens they were read from.
One token keeps it (`Reader.Reads.step`), and at the end of the input, once the open
blocks are closed, nothing but a spelling of the program is left.

Lists that grow at their end (finished statements, arguments, parameters) are described
by what may still follow: whatever spells the rest, together they spell the whole.
-/

namespace Lengua

namespace Reader

/-! ## What a state has been read from -/

/-- The least rank of an operand that a frame waits for. -/
def Frame.least : Frame → Nat
  | .unary _ => 4
  | .binary sign _ => sign.kind.rank?.getD 0 + 1
  | .group | .argument _ _ _ | .test _ => 0

/-- The least rank of an operand behind the innermost frame. -/
def leastOf (frames : List Frame) : Nat := (frames.head?.map Frame.least).getD 0

/-- Arguments that others follow, with the tokens they were read from. -/
def ArgsRead (done : List Expr) (tokens : List Token) : Prop :=
  ∀ next rest others, (Phrase.args (next :: rest)).Spelled others →
    (Phrase.args (done.reverse ++ next :: rest)).Spelled (tokens ++ others)

/-- Parameters that others follow, with the tokens they were read from. -/
def ParamsRead (done : List Ident) (tokens : List Token) : Prop :=
  ∀ next rest others, (Phrase.params (next :: rest)).Spelled others →
    (Phrase.params (done.reverse ++ next :: rest)).Spelled (tokens ++ others)

/-- Statements that others may follow, with the tokens they were read from. What follows them
begins with a given token. -/
def StmtsRead (done : List Stmt) (tokens : List Token) (start : Token) : Prop :=
  ∀ rest others, (∀ token ∈ others.head?, token = start) → (Phrase.stmts rest).Spelled others →
    (Phrase.stmts (done.reverse ++ rest)).Spelled (tokens ++ others)

/-- The tokens in front of the expression of a statement that begins with a given token. -/
def HeadRead (start : Token) : Head → List Token → Prop
  | .declare word name, tokens => ∃ named sign : Token, word.kind = .variableWord ∧
    named.kind = .ident ∧ name = identOf named ∧ sign.kind = .assign ∧ tokens = [word, named, sign]
  | .assign sign name, tokens => ∃ named : Token, named.kind = .ident ∧ name = identOf named ∧
    sign.kind = .assign ∧ tokens = [named, sign]
  | .giveBack word, tokens => word.kind = .returnWord ∧ tokens = [word]
  | .expr token, tokens => token = start ∧ tokens = []

/-- The tokens a frame was read from, given the frames outside it. A left operand stands before
a sign that binds into what waits outside. -/
def FrameRead (outer : List Frame) : Frame → List Token → Prop
  | .unary sign, tokens => sign.kind.IsSign ∧ tokens = [sign]
  | .binary sign left, tokens => ∃ (rank : Nat) (before : List Token),
    sign.kind.rank? = some rank ∧ leastOf outer ≤ rank ∧
    (Phrase.operand rank left).Spelled before ∧ tokens = before ++ [sign]
  | .group, tokens => ∃ paren : Token, paren.kind = .leftParen ∧ tokens = [paren]
  | .argument paren callee done, tokens => ∃ before listed : List Token,
    (Phrase.operand 5 callee).Spelled before ∧ paren.kind = .leftParen ∧ ArgsRead done listed ∧
    tokens = before ++ paren :: listed
  | .test word, tokens => ∃ paren : Token, word.kind = .ifWord ∧ paren.kind = .leftParen ∧
    tokens = [word, paren]

/-- The tokens the waiting parts of an expression were read from. -/
def FramesRead : List Frame → List Token → Prop
  | [], tokens => tokens = []
  | frame :: outer, tokens => ∃ before inside, FramesRead outer before ∧
    FrameRead outer frame inside ∧ tokens = before ++ inside

/-- The tokens the waiting parts of a statement were read from. -/
def PendingRead (start : Token) (pending : Pending) (tokens : List Token) : Prop :=
  ∃ before inside, HeadRead start pending.head before ∧ FramesRead pending.frames inside ∧
    tokens = before ++ inside

/-- Tokens of a given form behind those of the waiting parts of a statement. -/
def Behind (start : Token) (pending : Pending) (form : List Token → Prop) (tokens : List Token) :
    Prop :=
  ∃ before inside, PendingRead start pending before ∧ form inside ∧ tokens = before ++ inside

/-- The word and the test of a choice. -/
def TestRead (word : Token) (test : Expr) (tokens : List Token) : Prop :=
  ∃ (paren close : Token) (tested : List Token), word.kind = .ifWord ∧
    paren.kind = .leftParen ∧ (Phrase.operand 0 test).Spelled tested ∧
    close.kind = .rightParen ∧ tokens = word :: paren :: tested ++ [close]

/-- The test of a choice and its first branch. -/
def BranchRead (word : Token) (test : Expr) (yes : Block) (tokens : List Token) : Prop :=
  ∃ tested taken, TestRead word test tested ∧ (Phrase.block yes).Spelled taken ∧
    tokens = tested ++ taken

/-- The tokens in front of a block that belong to the construct it is part of. -/
def SiteRead : Site → List Token → Prop
  | .yes word test, tokens => TestRead word test tokens
  | .no word test yes, tokens => ∃ (branched : List Token) (other : Token),
    BranchRead word test yes branched ∧ other.kind = .elseWord ∧ tokens = branched ++ [other]
  | .body word params, tokens => ∃ (paren close : Token) (listed : List Token),
    word.kind = .procedureWord ∧ paren.kind = .leftParen ∧
    (Phrase.params params).Spelled listed ∧ close.kind = .rightParen ∧
    tokens = word :: paren :: listed ++ [close]

/-- The tokens the interrupted statement lists were read from. -/
def LevelsRead : List Level → List Token → Prop
  | [], tokens => tokens = []
  | level :: outer, tokens => ∃ (start : Token) (around done current : List Token),
    LevelsRead outer around ∧ StmtsRead level.stmts done start ∧ current.head? = some start ∧
    Behind start level.pending (SiteRead level.site) current ∧
    level.brace.kind = .leftBrace ∧ tokens = around ++ done ++ (current ++ [level.brace])

/-- The parameters in front of one that has just been read. -/
def LastParamRead (done : List Ident) (tokens : List Token) : Prop :=
  ∃ (last : Token) (others : List Ident) (listed : List Token), last.kind = .ident ∧
    ParamsRead others listed ∧ done = identOf last :: others ∧ tokens = listed ++ [last]

/-- The word of a procedure, a parenthesis, and parameters of a given form. -/
def SignatureRead (word : Token) (form : List Token → Prop) (tokens : List Token) : Prop :=
  ∃ (paren : Token) (listed : List Token), word.kind = .procedureWord ∧
    paren.kind = .leftParen ∧ form listed ∧ tokens = word :: paren :: listed

/-- The tokens of the current statement, which begins with a given token. -/
def ModeRead (start : Token) : Mode → List Token → Prop
  | .statement, _ | .finished, _ => False
  | .named name, tokens => name = start ∧ name.kind = .ident ∧ tokens = [name]
  | .declareName word, tokens => word.kind = .variableWord ∧ tokens = [word]
  | .declareSign word name, tokens => ∃ named : Token, word.kind = .variableWord ∧
    named.kind = .ident ∧ name = identOf named ∧ tokens = [word, named]
  | .operand pending, tokens => PendingRead start pending tokens
  | .after pending value, tokens => Behind start pending (Phrase.operand 5 value).Spelled tokens
  | .choiceParen pending word, tokens =>
    Behind start pending (fun site => word.kind = .ifWord ∧ site = [word]) tokens
  | .yesBrace pending word test, tokens => Behind start pending (SiteRead (.yes word test)) tokens
  | .alternative pending word test yes, tokens =>
    Behind start pending (BranchRead word test yes) tokens
  | .noBrace pending word test yes, tokens =>
    Behind start pending (SiteRead (.no word test yes)) tokens
  | .procedureParen pending word, tokens =>
    Behind start pending (fun site => word.kind = .procedureWord ∧ site = [word]) tokens
  | .firstParam pending word, tokens => Behind start pending (SignatureRead word (· = [])) tokens
  | .nextParam pending word done, tokens =>
    Behind start pending (SignatureRead word (ParamsRead done)) tokens
  | .moreParams pending word done, tokens =>
    Behind start pending (SignatureRead word (LastParamRead done)) tokens
  | .bodyBrace pending word params, tokens =>
    Behind start pending (SiteRead (.body word params)) tokens
  | .firstArgument pending paren callee, tokens =>
    Behind start pending (fun site => ∃ called, (Phrase.operand 5 callee).Spelled called ∧
      paren.kind = .leftParen ∧ site = called ++ [paren]) tokens

/-- The tokens in front of the current statement, which begins with a given token. -/
def Around (reader : Reader) (start : Token) (tokens : List Token) : Prop :=
  ∃ outer done, LevelsRead reader.levels outer ∧ StmtsRead reader.stmts done start ∧
    tokens = outer ++ done

/-- The tokens a reader has taken without a fault. -/
inductive Reads (reader : Reader) (tokens : List Token) : Prop where
  /-- Between two statements, the last of which has its semicolon. -/
  | between (mode : reader.mode = .statement) (around : ∀ start, reader.Around start tokens)
  /-- Within a statement. -/
  | within {start : Token} {before current : List Token} (around : reader.Around start before)
    (first : current.head? = some start) (mode : ModeRead start reader.mode current)
    (taken : tokens = before ++ current)
  /-- After the end mark of the program. -/
  | ended {all : List Token} {mark : Token} (mode : reader.mode = .finished)
    (outermost : reader.levels = []) (spelled : (Phrase.stmts reader.stmts.reverse).Spelled all)
    (ends : mark.kind = .eof) (taken : tokens = all ++ [mark])

/-! ## Growing lists -/

/-- One more argument and a comma. -/
theorem ArgsRead.snoc {done : List Expr} {tokens inside : List Token} {value : Expr}
    {comma : Token} (read : ArgsRead done tokens) (given : (Phrase.operand 0 value).Spelled inside)
    (between : comma.kind = .comma) : ArgsRead (value :: done) (tokens ++ inside ++ [comma]) := by
  intro next rest others spelled
  have grown := read value (next :: rest) (inside ++ comma :: others)
    (.moreArgs given between spelled)
  simpa using grown

/-- The last argument. -/
theorem ArgsRead.last {done : List Expr} {tokens inside : List Token} {value : Expr}
    (read : ArgsRead done tokens) (given : (Phrase.operand 0 value).Spelled inside) :
    (Phrase.args (value :: done).reverse).Spelled (tokens ++ inside) := by
  have grown := read value [] inside (.lastArg given)
  simpa using grown

/-- A comma after a parameter. -/
theorem LastParamRead.comma {done : List Ident} {tokens : List Token}
    (read : LastParamRead done tokens) {comma : Token} (between : comma.kind = .comma) :
    ParamsRead done (tokens ++ [comma]) := by
  obtain ⟨last, others, listed, kind, before, rfl, rfl⟩ := read
  intro next rest following spelled
  have grown := before (identOf last) (next :: rest) (last :: comma :: following)
    (.moreParams kind between spelled)
  simpa using grown

/-- The end of the parameters. -/
theorem LastParamRead.last {done : List Ident} {tokens : List Token}
    (read : LastParamRead done tokens) : (Phrase.params done.reverse).Spelled tokens := by
  obtain ⟨last, others, listed, kind, before, rfl, rfl⟩ := read
  have grown := before (identOf last) [] [last] (.lastParam kind)
  simpa using grown

/-- One more statement with its semicolon. -/
theorem StmtsRead.ended {done : List Stmt} {tokens current : List Token} {start : Token}
    {stmt : Stmt} (read : StmtsRead done tokens start) (first : current.head? = some start)
    (spelled : (Phrase.stmt stmt).Spelled current) {semicolon : Token}
    (kind : semicolon.kind = .semicolon) (next : Token) :
    StmtsRead (stmt :: done) (tokens ++ current ++ [semicolon]) next := by
  intro rest others _ following
  have grown := read (stmt :: rest) (current ++ semicolon :: others)
    (by simp [List.head?_append, first]) (.ended spelled kind following)
  simpa using grown

/-- One more statement without a semicolon, before a token that does not continue it. -/
theorem StmtsRead.unended {done : List Stmt} {tokens current : List Token} {start : Token}
    {stmt : Stmt} (read : StmtsRead done tokens start) (first : current.head? = some start)
    (spelled : (Phrase.stmt stmt).Spelled current) {next : Token} (apart : ¬ next.kind.Joins) :
    StmtsRead (stmt :: done) (tokens ++ current) next := by
  intro rest others leads following
  have grown := read (stmt :: rest) (current ++ others) (by simp [List.head?_append, first])
    (.unended spelled (fun token member => leads token member ▸ apart) following)
  simpa using grown

/-- The statements of a list that ends here. -/
theorem StmtsRead.all {done : List Stmt} {tokens : List Token} {start : Token}
    (read : StmtsRead done tokens start) : (Phrase.stmts done.reverse).Spelled tokens := by
  have grown := read [] [] (by simp) .noStmts
  simpa using grown

/-! ## One token -/

/-- One more frame inside. -/
theorem PendingRead.push {start : Token} {pending : Pending} {tokens inside : List Token}
    {frame : Frame} (read : PendingRead start pending tokens)
    (framed : FrameRead pending.frames frame inside) :
    PendingRead start (pending.push frame) (tokens ++ inside) := by
  obtain ⟨before, within, head, frames, rfl⟩ := read
  exact ⟨before, within ++ inside, head, ⟨within, inside, frames, framed, rfl⟩,
    List.append_assoc _ _ _⟩

/-- A further token behind the waiting parts. -/
theorem Behind.snoc {start : Token} {pending : Pending} {form other : List Token → Prop}
    {tokens : List Token} {token : Token} (behind : Behind start pending form tokens)
    (grown : ∀ inside, form inside → other (inside ++ [token])) :
    Behind start pending other (tokens ++ [token]) := by
  obtain ⟨before, inside, read, formed, rfl⟩ := behind
  exact ⟨before, inside ++ [token], read, grown inside formed, List.append_assoc _ _ _⟩

/-- What stands first in a list stands first in a longer one. -/
theorem head_snoc {tokens : List Token} {start token : Token} (first : tokens.head? = some start) :
    (tokens ++ [token]).head? = some start := by
  simp [List.head?_append, first]

/-- A statement of its head and its expression. -/
theorem HeadRead.stmt {start : Token} {head : Head} {before inside : List Token} {value : Expr}
    (read : HeadRead start head before) (given : (Phrase.operand 0 value).Spelled inside)
    (first : (before ++ inside).head? = some start) :
    (Phrase.stmt (head.stmt value)).Spelled (before ++ inside) := by
  cases head with
  | declare word name =>
    obtain ⟨named, sign, kind, ident, rfl, signed, rfl⟩ := read
    exact .declare kind ident signed given
  | assign sign name =>
    obtain ⟨named, ident, rfl, signed, rfl⟩ := read
    exact .assign ident signed given
  | giveBack word =>
    obtain ⟨kind, rfl⟩ := read
    exact .giveBack kind given
  | expr token =>
    obtain ⟨rfl, rfl⟩ := read
    cases inside with
    | nil => simp at first
    | cons next rest =>
      obtain rfl := Option.some.inj first
      exact .expr given

/-- A construct whose last block has been read. -/
theorem SiteRead.mode {start : Token} {pending : Pending} {site : Site}
    {current inside : List Token} {block : Block}
    (behind : Behind start pending (SiteRead site) current)
    (spelled : (Phrase.block block).Spelled inside) :
    ModeRead start (site.mode pending block) (current ++ inside) := by
  obtain ⟨before, tokens, read, formed, rfl⟩ := behind
  rw [List.append_assoc]
  cases site with
  | yes word test =>
    exact ⟨before, tokens ++ inside, read, ⟨tokens, inside, formed, spelled, rfl⟩, rfl⟩
  | no word test yes =>
    obtain ⟨_, other, ⟨_, taken, ⟨paren, close, tested, kind, opened, condition, closed, rfl⟩,
      branch, rfl⟩, otherwise, rfl⟩ := formed
    refine ⟨before, _, read, .plain (Nat.le_succ 5) ?_, rfl⟩
    have whole := Phrase.Spelled.alternative kind opened condition closed branch otherwise spelled
    simpa using whole
  | body word params =>
    obtain ⟨paren, close, listed, kind, opened, names, closed, rfl⟩ := formed
    refine ⟨before, _, read, .plain (Nat.le_succ 5) ?_, rfl⟩
    have whole := Phrase.Spelled.procedure kind opened names closed spelled
    simpa using whole

section

variable {reader : Reader} {start token : Token} {before : List Token}

/-- A token taken as the first of an operand. -/
theorem takeOperand_reads {pending : Pending} {inside : List Token}
    (around : reader.Around start before) (read : PendingRead start pending inside)
    (first : (inside ++ [token]).head? = some start)
    (clean : (reader.takeOperand pending token).errors = reader.errors) :
    (reader.takeOperand pending token).Reads (before ++ (inside ++ [token])) := by
  have leaf {value : Expr} (bare : (Phrase.bare value).Spelled [token]) (atom : value.rank = 6) :
      Reads { reader with mode := .after pending value } (before ++ (inside ++ [token])) :=
    .within around first ⟨inside, [token], read, .plain (by omega) bare, rfl⟩ rfl
  cases kind : token.kind with
  | ident =>
    simp only [takeOperand, kind]
    exact leaf (.ident kind) rfl
  | int =>
    simp only [takeOperand, kind] at clean ⊢
    cases fits : Text.plainInteger? token.literal with
    | some value => exact leaf (.int kind fits) rfl
    | none => simp [fits, fail] at clean
  | string =>
    simp only [takeOperand, kind]
    exact leaf (.str kind) rfl
  | trueWord =>
    simp only [takeOperand, kind]
    exact leaf (.trueWord kind) rfl
  | falseWord =>
    simp only [takeOperand, kind]
    exact leaf (.falseWord kind) rfl
  | nullWord =>
    simp only [takeOperand, kind]
    exact leaf (.null kind) rfl
  | minus =>
    simp only [takeOperand, kind]
    exact .within around first (read.push ⟨.inl kind, rfl⟩) rfl
  | negation =>
    simp only [takeOperand, kind]
    exact .within around first (read.push ⟨.inr kind, rfl⟩) rfl
  | leftParen =>
    simp only [takeOperand, kind]
    exact .within around first (read.push ⟨token, kind, rfl⟩) rfl
  | ifWord | procedureWord =>
    simp only [takeOperand, kind]
    exact .within around first ⟨inside, [token], read, ⟨kind, rfl⟩, rfl⟩ rfl
  | _ => simp [takeOperand, kind, fail] at clean

/-- A token taken where a statement is wanted. -/
theorem takeStatement_reads (around : reader.Around token before)
    (outermost : token.kind = .eof → reader.levels = [])
    (clean : (reader.takeStatement token).errors = reader.errors) :
    (reader.takeStatement token).Reads (before ++ [token]) := by
  have operand (other : reader.takeStatement token = reader.takeOperand ⟨.expr token, []⟩ token) :
      (reader.takeStatement token).Reads (before ++ [token]) := by
    have read : PendingRead token ⟨.expr token, []⟩ [] := ⟨[], [], ⟨rfl, rfl⟩, rfl, rfl⟩
    rw [other] at clean ⊢
    exact takeOperand_reads around read rfl clean
  cases kind : token.kind with
  | eof =>
    obtain ⟨outer, done, levels, stmts, rfl⟩ := around
    rw [outermost kind] at levels
    obtain rfl : outer = [] := levels
    simp only [takeStatement, kind, outermost kind]
    exact .ended rfl rfl stmts.all kind rfl
  | rightBrace =>
    obtain ⟨outer, done, levels, stmts, rfl⟩ := around
    simp only [takeStatement, kind] at clean ⊢
    cases interrupted : reader.levels with
    | nil => simp [interrupted, fail] at clean
    | cons level rest =>
      rw [interrupted] at levels
      obtain ⟨first, beyond, finished, current, levels, earlier, head, behind, brace, rfl⟩ := levels
      have block : (Phrase.block (.braces level.brace reader.stmts.reverse)).Spelled
          (level.brace :: done ++ [token]) := .braces brace stmts.all kind
      refine .within ⟨beyond, finished, levels, earlier, rfl⟩ ?_ (SiteRead.mode behind block) ?_
      · simp [List.head?_append, head]
      · simp
  | variableWord =>
    simp only [takeStatement, kind]
    exact .within around rfl ⟨kind, rfl⟩ rfl
  | ident =>
    simp only [takeStatement, kind]
    exact .within around rfl ⟨rfl, kind, rfl⟩ rfl
  | returnWord =>
    simp only [takeStatement, kind]
    exact .within around rfl ⟨[token], [], ⟨kind, rfl⟩, rfl, rfl⟩ rfl
  | _ => exact operand (by simp only [takeStatement, kind])

/-- The token after a statement. -/
theorem endStatement_reads {stmt : Stmt} {current : List Token}
    (around : reader.Around start before) (first : current.head? = some start)
    (spelled : (Phrase.stmt stmt).Spelled current) (apart : ¬ token.kind.Joins)
    (outermost : token.kind = .eof → reader.levels = [])
    (clean : (reader.endStatement stmt token).errors = reader.errors) :
    (reader.endStatement stmt token).Reads (before ++ (current ++ [token])) := by
  obtain ⟨outer, done, levels, stmts, rfl⟩ := around
  by_cases kind : token.kind = .semicolon
  · rw [endStatement, if_pos kind]
    refine .between rfl fun next => ⟨outer, done ++ current ++ [token], levels, ?_, by simp⟩
    exact stmts.ended first spelled kind next
  · rw [endStatement, if_neg kind] at clean ⊢
    rw [← List.append_assoc]
    refine takeStatement_reads ⟨outer, done ++ current, levels, ?_, by simp⟩ outermost clean
    exact stmts.unended first spelled apart

/-- A frame that a sign binds into waits for operands of its rank. -/
theorem Frame.least_le {frame : Frame} {outer : List Frame} {inside : List Token} {rank : Nat}
    (read : FrameRead outer frame inside) (ranked : token.kind.rank? = some rank)
    (strong : frame.strength < token.kind.strength) : frame.least ≤ rank := by
  obtain ⟨strength, most, -⟩ := Kind.strength_of_rank ranked
  cases frame with
  | unary sign =>
    have held : Kind.signStrength < token.kind.strength := strong
    simp only [Kind.signStrength] at held
    omega
  | binary sign left =>
    obtain ⟨inner, tokens, signed, -, -, -⟩ := read
    obtain ⟨held, -⟩ := Kind.strength_of_rank signed
    simp only [Frame.strength, Frame.least, signed, Option.getD_some] at strong ⊢
    omega
  | _ => exact Nat.zero_le _

/-- A token that continues an operand. -/
theorem extend_reads {pending : Pending} {value : Expr} {least : Nat}
    {inside operand : List Token} (around : reader.Around start before)
    (read : PendingRead start pending inside) (first : (inside ++ operand).head? = some start)
    (spelled : (Phrase.operand least value).Spelled operand)
    (bound : token.kind.strength ≤ least + 2) (strong : Kind.loosest < token.kind.strength)
    (tight : ∀ rank, token.kind.rank? = some rank → leastOf pending.frames ≤ rank) :
    (reader.extend pending value token).Reads (before ++ (inside ++ operand ++ [token])) := by
  by_cases paren : token.kind = .leftParen
  · rw [extend, if_pos paren]
    have strength := Kind.strength_of_leftParen paren
    refine .within around (head_snoc first) ?_ rfl
    exact ⟨inside, operand ++ [token], read,
      ⟨operand, spelled.weaken (by omega), paren, rfl⟩, List.append_assoc _ _ _⟩
  · rw [extend, if_neg paren]
    obtain ⟨rank, ranked⟩ := Kind.rank_of_strength strong paren
    obtain ⟨strength, -⟩ := Kind.strength_of_rank ranked
    have framed : FrameRead pending.frames (.binary token value) (operand ++ [token]) :=
      ⟨rank, operand, ranked, tight rank ranked, spelled.weaken (by omega), rfl⟩
    refine .within around (head_snoc first) ?_ rfl
    rw [List.append_assoc]
    exact read.push framed

/-- The least rank behind any frames is that of a sign or below. -/
theorem leastOf_le {frames : List Frame} {tokens : List Token} (read : FramesRead frames tokens) :
    leastOf frames ≤ 4 := by
  cases frames with
  | nil => exact Nat.zero_le _
  | cons frame outer =>
    obtain ⟨-, inside, -, framed, -⟩ := read
    cases frame with
    | unary sign => exact Nat.le_refl 4
    | binary sign left =>
      obtain ⟨rank, -, ranked, -⟩ := framed
      have most := (Kind.strength_of_rank ranked).2.1
      simp only [leastOf, List.head?_cons, Option.map_some, Option.getD_some, Frame.least, ranked]
      omega
    | _ => exact Nat.zero_le _

/-- What continues no operand does not join a statement to the one before. -/
theorem not_joins (weak : ¬ Kind.loosest < token.kind.strength) : ¬ token.kind.Joins := by
  rintro (kind | kind) <;> simp [kind, Kind.strength, Kind.loosest] at weak

/-- The token after an operand. The operand binds at least as tightly as the innermost frame
wants, and as tightly as the token does. -/
theorem settle_reads {head : Head} {frames : List Frame} {value : Expr} {least : Nat}
    {inside operand : List Token} (around : reader.Around start before)
    (read : PendingRead start ⟨head, frames⟩ inside)
    (first : (inside ++ operand).head? = some start)
    (spelled : (Phrase.operand least value).Spelled operand) (fits : leastOf frames ≤ least)
    (bound : token.kind.strength ≤ least + 2) (outermost : token.kind = .eof → reader.levels = [])
    (clean : (reader.settle head frames value token).errors = reader.errors) :
    (reader.settle head frames value token).Reads (before ++ (inside ++ operand ++ [token])) := by
  induction frames generalizing value least inside operand with
  | nil =>
    by_cases strong : Kind.loosest < token.kind.strength
    · rw [settle, if_pos strong]
      exact extend_reads around read first spelled bound strong fun rank _ => Nat.zero_le rank
    · rw [settle, if_neg strong] at clean ⊢
      obtain ⟨opening, _, headed, rfl, rfl⟩ := read
      rw [List.append_nil] at first ⊢
      exact endStatement_reads around first (headed.stmt (spelled.weaken (Nat.zero_le _)) first)
        (not_joins strong) outermost clean
  | cons frame frames ih =>
    obtain ⟨opening, _, headed, ⟨outer, framed, outerRead, frameRead, rfl⟩, rfl⟩ := read
    by_cases strong : frame.strength < token.kind.strength
    · have positive := frame.one_le_strength
      have extended : reader.settle head (frame :: frames) value token =
          reader.extend ⟨head, frame :: frames⟩ value token := if_pos strong
      rw [extended]
      exact extend_reads around
        ⟨opening, _, headed, ⟨outer, framed, outerRead, frameRead, rfl⟩, rfl⟩ first spelled bound
        (Nat.lt_of_le_of_lt positive strong)
        fun rank ranked => Frame.least_le frameRead ranked strong
    have outside : PendingRead start ⟨head, frames⟩ (opening ++ outer) :=
      ⟨opening, outer, headed, outerRead, rfl⟩
    cases frame with
    | unary sign =>
      obtain ⟨kind, rfl⟩ := frameRead
      rw [settle, if_neg strong] at clean ⊢
      have folded : (Phrase.operand 4 (.unary sign sign.literal value)).Spelled (sign :: operand) :=
        .plain (Nat.le_refl 4) (.unary kind (spelled.weaken fits))
      have weak : token.kind.strength ≤ 4 + 2 := Nat.not_lt.mp strong
      have result := ih outside (by simpa using first) folded (leastOf_le outerRead) weak clean
      simpa using result
    | binary sign left =>
      obtain ⟨rank, preceding, ranked, tight, spelledLeft, rfl⟩ := frameRead
      rw [settle, if_neg strong] at clean ⊢
      have slot : rank + 1 ≤ least := by simpa [leastOf, Frame.least, ranked] using fits
      have own : (Expr.binary sign sign.literal left value).rank = rank := by
        simp [Expr.rank, ranked]
      have folded : (Phrase.operand rank (.binary sign sign.literal left value)).Spelled
          (preceding ++ sign :: operand) :=
        .plain (Nat.le_of_eq own.symm) (.binary ranked spelledLeft (spelled.weaken slot))
      have weak : token.kind.strength ≤ rank + 2 := by
        rw [← (Kind.strength_of_rank ranked).1]
        exact Nat.not_lt.mp strong
      have result := ih outside (by simpa using first) folded tight weak clean
      simpa using result
    | group =>
      obtain ⟨paren, opened, rfl⟩ := frameRead
      by_cases closed : token.kind = .rightParen
      · rw [settle, if_neg strong, if_pos closed]
        have grouped : (Phrase.operand 5 value).Spelled (paren :: operand ++ [token]) :=
          .group opened (spelled.weaken (Nat.zero_le _)) closed
        refine .within around (head_snoc first) ⟨_, _, outside, grouped, ?_⟩ rfl
        simp
      · rw [settle, if_neg strong, if_neg closed] at clean
        exact absurd clean (errors_reject_ne _ _ _)
    | argument paren callee done =>
      obtain ⟨preceding, listed, called, opened, values, rfl⟩ := frameRead
      have given := spelled.weaken (Nat.zero_le least)
      by_cases comma : token.kind = .comma
      · rw [settle, if_neg strong, if_pos comma]
        have framed : FrameRead frames (.argument paren callee (value :: done))
            (preceding ++ paren :: (listed ++ operand ++ [token])) :=
          ⟨preceding, _, called, opened, values.snoc given comma, rfl⟩
        have pushed := outside.push framed
        refine .within around (head_snoc first) ?_ rfl
        simpa [ModeRead, Pending.push] using pushed
      by_cases closed : token.kind = .rightParen
      · rw [settle, if_neg strong, if_neg comma, if_pos closed]
        have call : (Phrase.operand 5 (.call paren callee (value :: done).reverse)).Spelled
            (preceding ++ paren :: (listed ++ operand) ++ [token]) :=
          .plain (Nat.le_refl 5) (.call called opened (values.last given) closed)
        refine .within around (head_snoc first) ⟨_, _, outside, call, ?_⟩ rfl
        simp
      · rw [settle, if_neg strong, if_neg comma, if_neg closed] at clean
        exact absurd clean (errors_reject_ne _ _ _)
    | test word =>
      obtain ⟨paren, kind, opened, rfl⟩ := frameRead
      by_cases closed : token.kind = .rightParen
      · rw [settle, if_neg strong, if_pos closed]
        have tested : TestRead word value (word :: paren :: operand ++ [token]) :=
          ⟨paren, token, operand, kind, opened, spelled.weaken (Nat.zero_le _), closed, rfl⟩
        refine .within around (head_snoc first) ⟨_, _, outside, tested, ?_⟩ rfl
        simp
      · rw [settle, if_neg strong, if_neg closed] at clean
        exact absurd clean (errors_reject_ne _ _ _)

end

/-- No kind is stronger than the parenthesis of a call. -/
theorem strength_le (kind : Kind) : kind.strength ≤ 5 + 2 := by
  cases kind <;> simp [Kind.strength]

/-- The opening brace of a block. -/
theorem openBlock_reads {reader : Reader} {start brace : Token} {before current : List Token}
    {pending : Pending} {site : Site} (around : reader.Around start before)
    (first : current.head? = some start) (behind : Behind start pending (SiteRead site) current)
    (opened : brace.kind = .leftBrace) :
    (reader.openBlock pending site brace).Reads (before ++ (current ++ [brace])) := by
  obtain ⟨outer, done, levels, stmts, rfl⟩ := around
  refine .between rfl fun next => ⟨_, [], ?_, ?_, (List.append_nil _).symm⟩
  · exact ⟨start, outer, done, current, levels, stmts, first, behind, opened, rfl⟩
  · intro rest others _ spelled
    exact spelled

/-- A token keeps the description of the statement it continues, if it is no fault. -/
theorem take_reads_within {reader : Reader} {start token : Token} {before current : List Token}
    (around : reader.Around start before) (first : current.head? = some start)
    (read : ModeRead start reader.mode current) (outermost : token.kind = .eof → reader.levels = [])
    (clean : (reader.take token).errors = reader.errors) :
    (reader.take token).Reads (before ++ (current ++ [token])) := by
  have next : (current ++ [token]).head? = some start := head_snoc first
  cases mode : reader.mode with
  | statement | finished =>
    rw [mode] at read
    exact read.elim
  | named name =>
    rw [mode] at read
    obtain ⟨rfl, kind, rfl⟩ := read
    by_cases signed : token.kind = .assign
    · simp only [take, mode, if_pos signed]
      exact .within around next ⟨[name, token], [], ⟨name, kind, rfl, signed, rfl⟩, rfl, rfl⟩ rfl
    · simp only [take, mode, if_neg signed] at clean ⊢
      have waits : PendingRead name ⟨.expr name, []⟩ [] := ⟨[], [], ⟨rfl, rfl⟩, rfl, rfl⟩
      have spelled : (Phrase.operand 5 (.ident (identOf name))).Spelled [name] :=
        .plain (Nat.le_succ 5) (.ident kind)
      exact settle_reads around waits rfl spelled (Nat.zero_le _) (strength_le _) outermost clean
  | declareName word =>
    rw [mode] at read
    obtain ⟨kind, rfl⟩ := read
    by_cases named : token.kind = .ident
    · simp only [take, mode, if_pos named]
      exact .within around next ⟨token, kind, named, rfl, rfl⟩ rfl
    · simp only [take, mode, if_neg named] at clean
      exact absurd clean (errors_reject_ne _ _ _)
  | declareSign word name =>
    rw [mode] at read
    obtain ⟨named, kind, ident, rfl, rfl⟩ := read
    by_cases signed : token.kind = .assign
    · simp only [take, mode, if_pos signed]
      exact .within around next
        ⟨[word, named, token], [], ⟨named, token, kind, ident, rfl, signed, rfl⟩, rfl, rfl⟩ rfl
    · simp only [take, mode, if_neg signed] at clean
      exact absurd clean (errors_reject_ne _ _ _)
  | operand pending =>
    rw [mode] at read
    simp only [take, mode] at clean ⊢
    exact takeOperand_reads around read next clean
  | after pending value =>
    rw [mode] at read
    obtain ⟨inside, operand, waits, spelled, rfl⟩ := read
    obtain ⟨_, frames, headed, framed, rfl⟩ := waits
    simp only [take, mode] at clean ⊢
    exact settle_reads around ⟨_, frames, headed, framed, rfl⟩ first spelled
      (Nat.le_succ_of_le (leastOf_le framed)) (strength_le _) outermost clean
  | choiceParen pending word =>
    rw [mode] at read
    obtain ⟨inside, _, waits, ⟨kind, rfl⟩, rfl⟩ := read
    by_cases opened : token.kind = .leftParen
    · simp only [take, mode, if_pos opened]
      have framed : FrameRead pending.frames (.test word) [word, token] :=
        ⟨token, kind, opened, rfl⟩
      refine .within around next ?_ rfl
      rw [List.append_assoc]
      exact waits.push framed
    · simp only [take, mode, if_neg opened] at clean
      exact absurd clean (errors_reject_ne _ _ _)
  | yesBrace pending word test =>
    rw [mode] at read
    by_cases opened : token.kind = .leftBrace
    · simp only [take, mode, if_pos opened]
      exact openBlock_reads around first read opened
    · simp only [take, mode, if_neg opened] at clean
      exact absurd clean (errors_reject_ne _ _ _)
  | alternative pending word test yes =>
    rw [mode] at read
    by_cases otherwise : token.kind = .elseWord
    · simp only [take, mode, if_pos otherwise]
      exact .within around next
        (read.snoc fun inside branched => ⟨inside, token, branched, otherwise, rfl⟩) rfl
    · obtain ⟨_, _, waits, branched, rfl⟩ := read
      obtain ⟨_, frames, headed, framed, rfl⟩ := waits
      obtain ⟨_, taken, test, branch, rfl⟩ := branched
      obtain ⟨paren, close, tested, kind, opened, condition, closed, rfl⟩ := test
      have spelled : (Phrase.operand 5 (.choice word test yes .absent)).Spelled
          (word :: paren :: tested ++ close :: taken) :=
        .plain (Nat.le_succ 5) (.choice kind opened condition closed branch)
      have parted : word :: paren :: tested ++ close :: taken =
          word :: paren :: tested ++ [close] ++ taken := List.append_cons _ _ _
      rw [parted] at spelled
      simp only [take, mode, if_neg otherwise] at clean ⊢
      exact settle_reads around ⟨_, frames, headed, framed, rfl⟩ first spelled
        (Nat.le_succ_of_le (leastOf_le framed)) (strength_le _) outermost clean
  | noBrace pending word test yes =>
    rw [mode] at read
    by_cases opened : token.kind = .leftBrace
    · simp only [take, mode, if_pos opened]
      exact openBlock_reads around first read opened
    · simp only [take, mode, if_neg opened] at clean
      exact absurd clean (errors_reject_ne _ _ _)
  | procedureParen pending word =>
    rw [mode] at read
    by_cases opened : token.kind = .leftParen
    · simp only [take, mode, if_pos opened]
      refine .within around next (read.snoc ?_) rfl
      rintro _ ⟨kind, rfl⟩
      exact ⟨token, [], kind, opened, rfl, rfl⟩
    · simp only [take, mode, if_neg opened] at clean
      exact absurd clean (errors_reject_ne _ _ _)
  | firstParam pending word =>
    rw [mode] at read
    by_cases closed : token.kind = .rightParen
    · simp only [take, mode, if_pos closed]
      refine .within around next (read.snoc ?_) rfl
      rintro _ ⟨paren, _, kind, opened, rfl, rfl⟩
      exact ⟨paren, token, [], kind, opened, .noParams, closed, rfl⟩
    by_cases named : token.kind = .ident
    · simp only [take, mode, if_neg closed, if_pos named]
      refine .within around next (read.snoc ?_) rfl
      rintro _ ⟨paren, _, kind, opened, rfl, rfl⟩
      exact ⟨paren, [token], kind, opened,
        ⟨token, [], [], named, fun _ _ _ spelled => spelled, rfl, rfl⟩, rfl⟩
    · simp only [take, mode, if_neg closed, if_neg named] at clean
      exact absurd clean (errors_reject_ne _ _ _)
  | nextParam pending word done =>
    rw [mode] at read
    by_cases named : token.kind = .ident
    · simp only [take, mode, if_pos named]
      refine .within around next (read.snoc ?_) rfl
      rintro _ ⟨paren, listed, kind, opened, names, rfl⟩
      exact ⟨paren, listed ++ [token], kind, opened,
        ⟨token, done, listed, named, names, rfl, rfl⟩, rfl⟩
    · simp only [take, mode, if_neg named] at clean
      exact absurd clean (errors_reject_ne _ _ _)
  | moreParams pending word done =>
    rw [mode] at read
    by_cases between : token.kind = .comma
    · simp only [take, mode, if_pos between]
      refine .within around next (read.snoc ?_) rfl
      rintro _ ⟨paren, listed, kind, opened, names, rfl⟩
      exact ⟨paren, listed ++ [token], kind, opened, names.comma between, rfl⟩
    by_cases closed : token.kind = .rightParen
    · simp only [take, mode, if_neg between, if_pos closed]
      refine .within around next (read.snoc ?_) rfl
      rintro _ ⟨paren, listed, kind, opened, names, rfl⟩
      exact ⟨paren, token, listed, kind, opened, names.last, closed, rfl⟩
    · simp only [take, mode, if_neg between, if_neg closed] at clean
      exact absurd clean (errors_reject_ne _ _ _)
  | bodyBrace pending word params =>
    rw [mode] at read
    by_cases opened : token.kind = .leftBrace
    · simp only [take, mode, if_pos opened]
      exact openBlock_reads around first read opened
    · simp only [take, mode, if_neg opened] at clean
      exact absurd clean (errors_reject_ne _ _ _)
  | firstArgument pending paren callee =>
    rw [mode] at read
    by_cases closed : token.kind = .rightParen
    · simp only [take, mode, if_pos closed]
      refine .within around next (read.snoc ?_) rfl
      rintro _ ⟨called, spelled, opened, rfl⟩
      have call : (Phrase.bare (.call paren callee [])).Spelled
          (called ++ paren :: [] ++ [token]) := .call spelled opened .noArgs closed
      exact .plain (Nat.le_refl 5) call
    · obtain ⟨inside, _, waits, ⟨called, spelled, opened, rfl⟩, rfl⟩ := read
      simp only [take, mode, if_neg closed] at clean ⊢
      have framed : FrameRead pending.frames (.argument paren callee []) (called ++ [paren]) :=
        ⟨called, [], spelled, opened, fun _ _ _ values => values, rfl⟩
      exact takeOperand_reads around (waits.push framed) next clean

/-! ## Runs -/

/-- What a reader has taken does not depend on a line. -/
theorem Reads.onLine {reader : Reader} {tokens : List Token} (reads : reader.Reads tokens)
    (line : Int) : (reader.onLine line).Reads tokens := by
  cases reads with
  | between mode around => exact .between mode around
  | within around first mode taken => exact .within around first mode taken
  | ended mode outermost spelled ends taken => exact .ended mode outermost spelled ends taken

/-- A program that has not met its end mark goes on. -/
theorem Reads.unfinished {reader : Reader} {tokens : List Token} (reads : reader.Reads tokens)
    (endless : ∀ token ∈ tokens, token.kind ≠ .eof) : reader.mode ≠ .finished := by
  intro finished
  cases reads with
  | between mode around => simp [finished] at mode
  | within around first mode taken =>
    rw [finished] at mode
    exact mode
  | ended mode outermost spelled ends taken => exact endless _ (by simp [taken]) ends

/-- A token that is no fault is one more token taken, unless it is an end mark inside a block. -/
theorem Reads.step {reader : Reader} {tokens : List Token} {token : Token}
    (reads : reader.Reads tokens) (going : reader.mode ≠ .finished)
    (outermost : token.kind = .eof → reader.levels = [])
    (clean : (reader.step token).errors = reader.errors) :
    (reader.step token).Reads (tokens ++ [token]) := by
  have kept : (reader.take token).errors = reader.errors := clean
  suffices taken : (reader.take token).Reads (tokens ++ [token]) from taken.onLine token.line
  cases reads with
  | between mode around =>
    have same : reader.take token = reader.takeStatement token := by simp only [take, mode]
    rw [same] at kept ⊢
    exact takeStatement_reads (around token) outermost kept
  | within around first mode taken =>
    rw [taken, List.append_assoc]
    exact take_reads_within around first mode outermost kept
  | ended mode => exact absurd mode going

/-- Tokens without an end mark and without a fault are all taken. -/
theorem Reads.run {reader : Reader} {taken tokens : List Token} (reads : reader.Reads taken)
    (endless : ∀ token ∈ taken ++ tokens, token.kind ≠ .eof)
    (clean : (reader.run tokens).errors = reader.errors) :
    (reader.run tokens).Reads (taken ++ tokens) := by
  induction tokens generalizing reader taken with
  | nil => simpa using reads
  | cons token tokens ih =>
    have kept : (reader.step token).errors = reader.errors := by
      have later := run_errors (reader.step token) tokens
      rw [← run_cons, clean] at later
      exact later.eq_of_length_le (reader.take_errors token).length_le
    have going : reader.mode ≠ .finished :=
      reads.unfinished fun other member => endless other (List.mem_append_left _ member)
    have inside : token.kind ≠ .eof := endless token (by simp)
    have next := reads.step going (fun ends => absurd ends inside) kept
    have rest := ih next (by simpa using endless) (clean.trans kept.symm)
    simpa using rest

/-- A reader at the start has taken nothing. -/
theorem reads_start : start.Reads [] :=
  .between rfl fun _ => ⟨[], [], rfl, fun _ _ _ spelled => spelled, rfl⟩

/-! ## The end of the input -/

/-- Where an end mark is no fault, one more of them is needed than there are open blocks. -/
theorem owed_of_clean {reader : Reader} {mark : Token} (ends : mark.kind = .eof)
    (going : reader.mode ≠ .finished) (clean : (reader.take mark).errors = reader.errors) :
    reader.owed = reader.levels.length + 1 := by
  cases mode : reader.mode with
  | finished => exact absurd mode going
  | operand | firstArgument =>
    simp only [take, mode, ends, reduceCtorEq, if_false] at clean
    exact absurd clean (errors_takeOperand_ne _ _ (.inr ends))
  | _ => simp only [owed, mode]

/-- An end mark outside all blocks ends the program, and what was taken spells it. -/
theorem Reads.last {reader : Reader} {tokens : List Token} {mark : Token}
    (reads : reader.Reads tokens) (going : reader.mode ≠ .finished) (ends : mark.kind = .eof)
    (outermost : reader.levels = []) (clean : (reader.step mark).errors = reader.errors) :
    (reader.step mark).mode = .finished ∧
      (Phrase.stmts (reader.step mark).program.stmts).Spelled tokens := by
  have single : reader.owed = 1 := by rw [owed_of_clean ends going clean, outermost]; rfl
  have finished : (reader.step mark).mode = .finished := by
    apply finished_of_owed
    have less := reader.take_owed ends
    rw [single] at less
    exact less
  refine ⟨finished, ?_⟩
  cases reads.step going (fun _ => outermost) clean with
  | between mode => simp [finished] at mode
  | within around first mode taken =>
    rw [finished] at mode
    exact mode.elim
  | ended mode bottom spelled marked taken =>
    obtain ⟨rfl, -⟩ := List.append_inj' taken rfl
    simpa [program, bottom] using spelled

/-- An end mark inside a block does what a closing brace does. -/
theorem step_closing (reader : Reader) (line : Int) (inside : reader.levels ≠ [])
    (clean : (reader.step (Token.eof line)).errors = reader.errors) :
    reader.step (Token.closing line) = reader.step (Token.eof line) := by
  have same : (reader.onLine reader.line).take (Token.closing line) =
      (reader.take (Token.eof line)).onLine reader.line :=
    take_ends reader reader.line (.inr ⟨rfl, inside⟩) (.inr rfl) clean
  exact congrArg (·.onLine line) same

/-- What was taken spells the program once as many closing braces are supplied as end marks were
needed to close its blocks. -/
theorem Reads.finish {reader : Reader} {tokens : List Token} (reads : reader.Reads tokens)
    (endless : ∀ token ∈ tokens, token.kind ≠ .eof) (line : Int) (count : Nat)
    (finished : (reader.run (List.replicate count (Token.eof line))).mode = .finished)
    (clean : (reader.run (List.replicate count (Token.eof line))).errors = reader.errors) :
    ∃ missing, (Phrase.stmts (reader.run (List.replicate count
      (Token.eof line))).program.stmts).Spelled
        (tokens ++ List.replicate missing (Token.closing line)) := by
  have going := reads.unfinished endless
  induction count generalizing reader tokens with
  | zero => exact absurd finished going
  | succ count ih =>
    rw [List.replicate_succ, run_cons] at finished clean ⊢
    have kept : (reader.step (Token.eof line)).errors = reader.errors := by
      have later := run_errors (reader.step (Token.eof line))
        (List.replicate count (Token.eof line))
      rw [clean] at later
      exact later.eq_of_length_le (reader.take_errors (Token.eof line)).length_le
    by_cases outermost : reader.levels = []
    · obtain ⟨finishedHere, spelled⟩ := reads.last going rfl outermost kept
      obtain ⟨last, ran⟩ := run_finished _ finishedHere (List.replicate count (Token.eof line))
      refine ⟨0, ?_⟩
      rw [ran, List.replicate_zero, List.append_nil]
      exact spelled
    · have closed := step_closing reader line outermost kept
      have braced : (reader.step (Token.eof line)).Reads (tokens ++ [Token.closing line]) := by
        rw [← closed] at kept ⊢
        exact reads.step going (fun ends => nomatch ends) kept
      have inside : ∀ token ∈ tokens ++ [Token.closing line], token.kind ≠ .eof := by
        intro token member
        rcases List.mem_append.mp member with member | member
        · exact endless token member
        · rw [List.mem_singleton.mp member]
          exact fun ends => nomatch ends
      obtain ⟨missing, spelled⟩ := ih braced inside finished (clean.trans kept.symm)
        (braced.unfinished inside)
      refine ⟨missing + 1, ?_⟩
      rw [List.replicate_succ, List.append_cons]
      exact spelled

end Reader

/-- Tokens that are read without a fault spell the program they are read to, once the closing
braces that are missing at the end are supplied. -/
theorem Program.spelled_of_clean {tokens : List Token} (line : Int)
    (endless : ∀ token ∈ tokens, token.kind ≠ .eof)
    (clean : (Program.ofTokens (tokens ++ [Token.eof line])).errors = []) :
    ∃ missing, (Phrase.stmts (Program.ofTokens (tokens ++ [Token.eof line])).program.stmts).Spelled
      (tokens ++ List.replicate missing (Token.closing line)) := by
  obtain ⟨count, done, same⟩ := Program.ofTokens_snoc_eof tokens line
  rw [same] at clean ⊢
  have spotless : ((Reader.start.run tokens).run
      (List.replicate count (Token.eof line))).errors = [] := List.reverse_eq_nil_iff.mp clean
  have before : (Reader.start.run tokens).errors = [] := by
    have later := Reader.run_errors (Reader.start.run tokens)
      (List.replicate count (Token.eof line))
    rw [spotless] at later
    exact List.suffix_nil.mp later
  have reads : (Reader.start.run tokens).Reads tokens :=
    Reader.reads_start.run (by simpa using endless) before
  exact reads.finish endless line count done (spotless.trans before.symm)

/-- A text spells a program: its tokens without the end mark spell the statements, once closing
braces that are missing at the end are supplied, and every operation groups its operands as they
stand there. -/
def Program.SpelledBy (program : Program) (source : Text) : Prop :=
  ∃ (tokens : List Token) (line : Int) (missing : Nat),
    Token.scan source = tokens ++ [Token.eof line] ∧ (∀ token ∈ tokens, token.kind ≠ .eof) ∧
    (Phrase.stmts program.stmts).Spelled
      (tokens ++ List.replicate missing (Token.closing line)) ∧
    program.Grouped (tokens ++ List.replicate missing (Token.closing line))

/-- A text that is read without a fault spells the program it is read to. -/
theorem Program.spelledBy_of_clean (source : Text) (clean : (Program.ofText source).errors = []) :
    (Program.ofText source).program.SpelledBy source := by
  obtain ⟨tokens, line, scanned, endless, -⟩ := Token.exists_scan_eq source
  rw [Program.ofText_eq, scanned] at clean ⊢
  obtain ⟨missing, spelled⟩ := Program.spelled_of_clean line endless clean
  exact ⟨tokens, line, missing, scanned, endless, spelled, spelled.grouped⟩

/-- Operations of several ranks, a redundant pair of parentheses, a statement without its
semicolon and a block that the end of the text closes. -/
theorem Program.spelledBy_open_block :
    (Program.ofText (utf8 "a = 1 + 2 * -(3) < b(4, 5) si (a) \x7b regresa a")).errors = [] ∧
      (Program.ofText (utf8 "a = 1 + 2 * -(3) < b(4, 5) si (a) \x7b regresa a")).program.SpelledBy
        (utf8 "a = 1 + 2 * -(3) < b(4, 5) si (a) \x7b regresa a") :=
  ⟨by rfl, Program.spelledBy_of_clean _ (by rfl)⟩

end Lengua
