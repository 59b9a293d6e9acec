import Lengua.Proofs.Grammar
import Lengua.Proofs.Reader.Run

/-!
# Every spelling is read

A reader that takes a spelling of a phrase ends up holding the tree of the phrase. The
statement has one case for each sort of phrase (`Phrase.Runs`) and quantifies over the
state the spelling is met in: an operand may be the start of a statement, the first
argument of a call, or stand behind any waiting parts. A reader that has taken an operand
has not yet completed the waiting parts inside it, so what it holds is said by the next
token: it does the same as a reader that holds the finished operand, for every token that
binds no tighter than the operand allows.
-/

namespace Lengua

namespace Reader

/-- The reader in another mode, after a token of a line. -/
def moved (reader : Reader) (mode : Mode) (line : Int) : Reader := { reader with mode, line }

/-- The strength a token must exceed to continue the operand that the pending parts wait for. -/
def Pending.strength (pending : Pending) : Nat :=
  (pending.frames.head?.map Frame.strength).getD Kind.loosest

/-- Whether operations of a rank and above bind into the operand the pending parts wait for. A
sign before an operand is no operation: it needs no strength. -/
def Pending.Admits (pending : Pending) (least : Nat) : Prop :=
  ∀ rank, least ≤ rank → rank ≤ 5 → rank ≠ 4 → pending.strength < rank + 2

/-- A token as strong as needed continues the operand. -/
theorem settle_extend (reader : Reader) (pending : Pending) (value : Expr) (token : Token)
    (strong : pending.strength < token.kind.strength) :
    reader.settle pending.head pending.frames value token =
      reader.extend pending value token := by
  obtain ⟨head, frames⟩ := pending
  cases frames with
  | nil => exact if_pos strong
  | cons frame frames => exact if_pos strong

/-- The reader takes the token as the first of the operand its pending parts wait for. A name at
the start of a statement is kept apart until the next token. -/
def Awaits (reader : Reader) (pending : Pending) (token : Token) : Prop :=
  reader.take token = reader.takeOperand pending token ∨
    token.kind = .ident ∧ pending = ⟨.expr token, []⟩ ∧
      reader.take token = { reader with mode := .named token }

/-- The reader takes the first of the tokens as that of an operand. -/
def Starts (reader : Reader) (pending : Pending) (tokens : List Token) : Prop :=
  ∀ token ∈ tokens.head?, reader.Awaits pending token

/-- A later reader does with the next token what the reader would do once it had the value,
unless the token binds more tightly than a limit or makes a statement of what was read. -/
def Holds (reader : Reader) (pending : Pending) (value : Expr) (limit : Nat) (later : Reader) :
    Prop :=
  ∀ token, token.kind.strength ≤ limit → token.kind ≠ .assign → token.kind ≠ .elseWord →
    later.take token = (reader.moved (.after pending value) later.line).take token

/-- The reader is about to take the arguments of a call, given those it has taken. -/
def TakesArgs (reader : Reader) (pending : Pending) (paren : Token) (callee : Expr)
    (done rest : List Expr) : Prop :=
  reader.mode = .firstArgument pending paren callee ∧ done = [] ∨
    reader.mode = .operand (pending.push (.argument paren callee done)) ∧ rest ≠ []

/-- The reader is about to take the parameters of a procedure, given those it has taken. -/
def TakesParams (reader : Reader) (pending : Pending) (word : Token) (done rest : List Ident) :
    Prop :=
  reader.mode = .firstParam pending word ∧ done = [] ∨
    reader.mode = .nextParam pending word done ∧ rest ≠ []

end Reader

open Reader

/-- What a reader does with a spelling of a phrase. -/
def Phrase.Runs : Phrase → List Token → Prop
  | .bare expr, tokens => ∀ (reader : Reader) (pending : Pending), pending.Admits expr.rank →
    reader.Starts pending tokens →
    reader.Holds pending expr (expr.rank + 2) (reader.run tokens)
  | .operand least expr, tokens => ∀ (reader : Reader) (pending : Pending), pending.Admits least →
    reader.Starts pending tokens → reader.Holds pending expr (least + 2) (reader.run tokens)
  | .args exprs, tokens => ∀ (reader : Reader) (pending : Pending) (paren : Token) (callee : Expr)
    (done : List Expr) (close : Token), close.kind = .rightParen →
    reader.TakesArgs pending paren callee done exprs →
    reader.run (tokens ++ [close]) =
      reader.moved (.after pending (.call paren callee (done.reverse ++ exprs))) close.line
  | .params names, tokens => ∀ (reader : Reader) (pending : Pending) (word : Token)
    (done : List Ident) (close : Token), close.kind = .rightParen →
    reader.TakesParams pending word done names →
    reader.run (tokens ++ [close]) =
      reader.moved (.bodyBrace pending word (done.reverse ++ names)) close.line
  | .block body, tokens => ∀ (reader : Reader) (pending : Pending) (site : Site),
    (∀ brace : Token, brace.kind = .leftBrace →
      reader.take brace = reader.openBlock pending site brace) →
    ∃ line, reader.run tokens = reader.moved (site.mode pending body) line
  | .stmt single, tokens => ∀ reader : Reader, reader.mode = .statement →
    ∀ token : Token, token.kind.strength ≤ Kind.loosest → token.kind ≠ .assign →
    token.kind ≠ .elseWord → (reader.run tokens).take token =
      { reader with line := (reader.run tokens).line }.endStatement single token
  | .stmts several, tokens => ∀ reader : Reader, reader.mode = .statement →
    ∀ token : Token, token.kind = .rightBrace ∨ token.kind = .eof →
    (reader.run tokens).take token =
      { reader with
        stmts := several.reverse ++ reader.stmts
        line := (reader.run tokens).line }.takeStatement token

namespace Reader

/-- What a reader does after an operand does not depend on its mode. -/
theorem settle_moved (reader : Reader) (mode other : Mode) (line : Int) (head : Head)
    (frames : List Frame) (value : Expr) (token : Token) :
    (reader.moved mode line).settle head frames value token =
      (reader.moved other line).settle head frames value token := by
  induction frames generalizing value with
  | nil => rfl
  | cons frame frames ih =>
    unfold settle
    split
    · rfl
    cases frame with
    | unary sign => exact ih _
    | binary sign left => exact ih _
    | group => rfl
    | argument paren callee done => rfl
    | test word => rfl

/-- A later reader that holds a value does the same in another mode. -/
theorem holds_iff (reader : Reader) (pending : Pending) (value : Expr) (limit : Nat)
    (later : Reader) : reader.Holds pending value limit later ↔
      ∀ token, token.kind.strength ≤ limit → token.kind ≠ .assign → token.kind ≠ .elseWord →
        later.take token =
          (reader.moved .statement later.line).settle pending.head pending.frames value token := by
  unfold Holds
  refine forall_congr' fun token => forall_congr' fun _ => forall_congr' fun _ =>
    forall_congr' fun _ => ?_
  rw [← settle_moved reader (.after pending value) .statement]
  rfl

/-- A reader that has the value holds it. -/
theorem holds_moved (reader : Reader) (pending : Pending) (value : Expr) (limit : Nat)
    (line : Int) : reader.Holds pending value limit (reader.moved (.after pending value) line) :=
  fun _ _ _ _ => rfl

/-- A token that starts no name is taken as the first of the operand. -/
theorem Starts.take {reader : Reader} {pending : Pending} {token : Token} {tokens : List Token}
    (starts : reader.Starts pending (token :: tokens)) (other : token.kind ≠ .ident) :
    reader.take token = reader.takeOperand pending token := by
  rcases starts token rfl with taken | ⟨name, _⟩
  · exact taken
  · exact absurd name other

/-- What starts a spelling starts its first part. -/
theorem Starts.left {reader : Reader} {pending : Pending} {first second : List Token}
    (starts : reader.Starts pending (first ++ second)) : reader.Starts pending first := by
  cases first with
  | nil => simp [Starts]
  | cons token tokens => exact starts

/-- A reader that waits for an operand starts with any token. -/
theorem starts_operand (reader : Reader) (pending : Pending) (line : Int) (tokens : List Token) :
    (reader.moved (.operand pending) line).Starts pending tokens :=
  fun _ _ => .inl rfl

end Reader

namespace Phrase.Runs

/-! ## Expressions -/

/-- A token that is an operand on its own. -/
theorem leaf {token : Token} {value : Expr} (other : token.kind ≠ .ident)
    (taken : ∀ (reader : Reader) (pending : Pending), reader.takeOperand pending token =
      { reader with mode := .after pending value }) : (Phrase.bare value).Runs [token] := by
  intro reader pending admits starts
  have step : reader.step token = reader.moved (.after pending value) token.line := by
    rw [step, starts.take other, taken]
    rfl
  rw [run_cons, run_nil, step]
  exact holds_moved reader pending value _ _

/-- A name. At the start of a statement the reader waits for what follows it. -/
theorem ident {token : Token} (kind : token.kind = .ident) :
    (Phrase.bare (.ident (identOf token))).Runs [token] := by
  intro reader pending admits starts
  rw [run_cons, run_nil]
  rcases starts token rfl with taken | ⟨_, rfl, taken⟩
  · have step : reader.step token =
        reader.moved (.after pending (.ident (identOf token))) token.line := by
      rw [step, taken]
      simp [takeOperand, kind, moved]
    rw [step]
    exact holds_moved reader pending _ _ _
  · have step : reader.step token = reader.moved (.named token) token.line := by
      rw [step, taken]
      rfl
    rw [step, holds_iff]
    intro next _ noAssign _
    rw [← settle_moved reader (.named token)]
    exact if_neg noAssign

/-- A sign and its operand. -/
theorem unary {sign : Token} {operand : Expr} {tokens : List Token} (kind : sign.kind.IsSign)
    (inner : (Phrase.operand 4 operand).Runs tokens) :
    (Phrase.bare (.unary sign sign.literal operand)).Runs (sign :: tokens) := by
  intro reader pending admits starts
  have other : sign.kind ≠ .ident := by rcases kind with kind | kind <;> simp [kind]
  have step : reader.step sign =
      reader.moved (.operand (pending.push (.unary sign))) sign.line := by
    rw [step, starts.take other]
    rcases kind with kind | kind <;> simp [takeOperand, kind, moved]
  have admitted : (pending.push (.unary sign)).Admits 4 := by
    intro rank least most apart
    show 6 < rank + 2
    omega
  have held := inner (reader.moved (.operand (pending.push (.unary sign))) sign.line) _ admitted
    (starts_operand _ _ _ _)
  rw [run_cons, step]
  rw [holds_iff] at held ⊢
  intro next weak noAssign noElse
  rw [held next weak noAssign noElse]
  have weak : ¬ Kind.signStrength < next.kind.strength := Nat.not_lt.mpr weak
  exact if_neg weak

/-- An operation and its operands. -/
theorem binary {sign : Token} {rank : Nat} {left right : Expr} {before after : List Token}
    (kind : sign.kind.rank? = some rank) (first : (Phrase.operand rank left).Runs before)
    (second : (Phrase.operand (rank + 1) right).Runs after) :
    (Phrase.bare (.binary sign sign.literal left right)).Runs (before ++ sign :: after) := by
  intro reader pending admits starts
  have ranked : (Expr.binary sign sign.literal left right).rank = rank := by
    simp [Expr.rank, kind]
  rw [ranked] at admits ⊢
  obtain ⟨strength, most, noParen, noAssign, noElse⟩ := Kind.strength_of_rank kind
  have step : (reader.run before).step sign =
      reader.moved (.operand (pending.push (.binary sign left))) sign.line := by
    have strong : pending.strength < sign.kind.strength := by
      rw [strength]
      exact admits rank (Nat.le_refl _) (by omega) (by omega)
    have held := first reader pending admits starts.left
    rw [holds_iff] at held
    rw [step, held sign (by omega) noAssign noElse, settle_extend _ _ _ _ strong, extend,
      if_neg noParen]
    rfl
  have admitted : (pending.push (.binary sign left)).Admits (rank + 1) := by
    intro above least _ _
    show sign.kind.strength < above + 2
    omega
  have held := second (reader.moved (.operand (pending.push (.binary sign left))) sign.line) _
    admitted (starts_operand _ _ _ _)
  rw [run_append, run_cons, step]
  rw [holds_iff] at held ⊢
  intro next weak noAssign noElse
  rw [held next (by omega) noAssign noElse]
  have weak : ¬ sign.kind.strength < next.kind.strength := by omega
  exact if_neg weak

/-- An expression that binds tightly enough. -/
theorem plain {least : Nat} {expr : Expr} {tokens : List Token} (tight : least ≤ expr.rank)
    (bare : (Phrase.bare expr).Runs tokens) : (Phrase.operand least expr).Runs tokens := by
  intro reader pending admits starts next weak
  have admitted : pending.Admits expr.rank := fun rank above => admits rank (by omega)
  exact bare reader pending admitted starts next (by omega)

/-- The token after an operand inside brackets meets the finished operand. -/
theorem closes {expr : Expr} {tokens : List Token} (inner : (Phrase.operand 0 expr).Runs tokens)
    {reader : Reader} {pending : Pending} {frame : Frame} (loose : frame.strength = Kind.loosest)
    (starts : reader.Starts (pending.push frame) tokens) {close : Token}
    (weak : close.kind.strength = Kind.loosest) (noAssign : close.kind ≠ .assign)
    (noElse : close.kind ≠ .elseWord) :
    (reader.run tokens).take close = (reader.moved .statement (reader.run tokens).line).settle
      pending.head (frame :: pending.frames) expr close := by
  have admitted : (pending.push frame).Admits 0 := by
    intro rank _ _ _
    show frame.strength < rank + 2
    rw [loose, Kind.loosest]
    omega
  have held := inner reader (pending.push frame) admitted starts
  rw [holds_iff] at held
  exact held close (by rw [weak, Kind.loosest]; omega) noAssign noElse

/-- An expression in parentheses. -/
theorem group {least : Nat} {expr : Expr} {tokens : List Token} {paren close : Token}
    (opened : paren.kind = .leftParen) (inner : (Phrase.operand 0 expr).Runs tokens)
    (closed : close.kind = .rightParen) :
    (Phrase.operand least expr).Runs (paren :: tokens ++ [close]) := by
  intro reader pending admits starts
  have first : reader.step paren = reader.moved (.operand (pending.push .group)) paren.line := by
    rw [step, starts.take (by simp [opened])]
    simp [takeOperand, opened, moved]
  have last : ((reader.moved (.operand (pending.push .group)) paren.line).run tokens).step close =
      reader.moved (.after pending expr) close.line := by
    rw [step, inner.closes rfl (starts_operand _ _ _ _)
      (by simp [closed, Kind.strength, Kind.loosest]) (by simp [closed]) (by simp [closed])]
    simp [settle, closed, Kind.strength, Frame.strength, Kind.loosest, moved]
  rw [List.cons_append, run_cons, first, run_append, run_cons, run_nil, last]
  exact holds_moved reader pending expr _ _

/-- The word and the test of a choice, in parentheses. -/
theorem tests {word paren close : Token} {test : Expr} {tested : List Token}
    (kind : word.kind = .ifWord) (opened : paren.kind = .leftParen)
    (condition : (Phrase.operand 0 test).Runs tested) (closed : close.kind = .rightParen)
    {reader : Reader} {pending : Pending} {rest : List Token}
    (starts : reader.Starts pending (word :: rest)) :
    reader.run (word :: paren :: tested ++ [close]) =
      reader.moved (.yesBrace pending word test) close.line := by
  have first : reader.step word = reader.moved (.choiceParen pending word) word.line := by
    rw [step, starts.take (by simp [kind])]
    simp [takeOperand, kind, moved]
  have second : (reader.moved (.choiceParen pending word) word.line).step paren =
      reader.moved (.operand (pending.push (.test word))) paren.line := by
    simp [step, take, moved, opened]
  have last : ((reader.moved (.operand (pending.push (.test word))) paren.line).run tested).step
      close = reader.moved (.yesBrace pending word test) close.line := by
    rw [step, condition.closes rfl (starts_operand _ _ _ _)
      (by simp [closed, Kind.strength, Kind.loosest]) (by simp [closed]) (by simp [closed])]
    simp [settle, closed, Kind.strength, Frame.strength, Kind.loosest, moved]
  rw [List.cons_append, List.cons_append, run_cons, first, run_cons, second, run_append, run_cons,
    run_nil, last]

/-- The first branch of a choice. -/
theorem branches {word paren close : Token} {test : Expr} {yes : Block}
    {tested taken : List Token} (kind : word.kind = .ifWord) (opened : paren.kind = .leftParen)
    (condition : (Phrase.operand 0 test).Runs tested) (closed : close.kind = .rightParen)
    (branch : (Phrase.block yes).Runs taken) {reader : Reader} {pending : Pending}
    {rest : List Token} (starts : reader.Starts pending (word :: rest)) :
    ∃ line, reader.run (word :: paren :: tested ++ close :: taken) =
      reader.moved (.alternative pending word test yes) line := by
  obtain ⟨line, ran⟩ := branch (reader.moved (.yesBrace pending word test) close.line) pending
    (.yes word test) (fun brace opens => if_pos opens)
  refine ⟨line, ?_⟩
  have tested := tests kind opened condition closed starts
  rw [List.append_cons, run_append, tested, ran]
  rfl

/-- A choice without an alternative. -/
theorem choice {word paren close : Token} {test : Expr} {yes : Block} {tested taken : List Token}
    (kind : word.kind = .ifWord) (opened : paren.kind = .leftParen)
    (condition : (Phrase.operand 0 test).Runs tested) (closed : close.kind = .rightParen)
    (branch : (Phrase.block yes).Runs taken) :
    (Phrase.bare (.choice word test yes .absent)).Runs
      (word :: paren :: tested ++ close :: taken) := by
  intro reader pending admits starts
  obtain ⟨line, ran⟩ := branches kind opened condition closed branch starts
  rw [ran, holds_iff]
  intro next _ _ noElse
  rw [← settle_moved reader (.alternative pending word test yes)]
  exact if_neg noElse

/-- A choice with an alternative. -/
theorem alternative {word paren close other : Token} {test : Expr} {yes no : Block}
    {tested taken spared : List Token} (kind : word.kind = .ifWord)
    (opened : paren.kind = .leftParen) (condition : (Phrase.operand 0 test).Runs tested)
    (closed : close.kind = .rightParen) (branch : (Phrase.block yes).Runs taken)
    (otherwise : other.kind = .elseWord) (second : (Phrase.block no).Runs spared) :
    (Phrase.bare (.choice word test yes no)).Runs
      (word :: paren :: tested ++ close :: taken ++ other :: spared) := by
  intro reader pending admits starts
  obtain ⟨line, ran⟩ := branches kind opened condition closed branch starts
  have turned : (reader.moved (.alternative pending word test yes) line).step other =
      reader.moved (.noBrace pending word test yes) other.line := by
    simp [step, take, moved, otherwise]
  obtain ⟨last, ends⟩ := second (reader.moved (.noBrace pending word test yes) other.line) pending
    (.no word test yes) (fun brace opens => if_pos opens)
  rw [run_append, ran, run_cons, turned, ends]
  exact holds_moved reader pending _ _ _

/-- A procedure. -/
theorem procedure {word paren close : Token} {params : List Ident} {body : Block}
    {listed inside : List Token} (kind : word.kind = .procedureWord)
    (opened : paren.kind = .leftParen) (names : (Phrase.params params).Runs listed)
    (closed : close.kind = .rightParen) (block : (Phrase.block body).Runs inside) :
    (Phrase.bare (.procedure word params body)).Runs
      (word :: paren :: listed ++ close :: inside) := by
  intro reader pending admits starts
  have first : reader.step word = reader.moved (.procedureParen pending word) word.line := by
    rw [step, starts.take (by simp [kind])]
    simp [takeOperand, kind, moved]
  have second : (reader.moved (.procedureParen pending word) word.line).step paren =
      reader.moved (.firstParam pending word) paren.line := by
    simp [step, take, moved, opened]
  have third : (reader.moved (.firstParam pending word) paren.line).run (listed ++ [close]) =
      reader.moved (.bodyBrace pending word params) close.line :=
    names (reader.moved (.firstParam pending word) paren.line) pending word [] close closed
      (.inl ⟨rfl, rfl⟩)
  obtain ⟨line, ends⟩ := block (reader.moved (.bodyBrace pending word params) close.line) pending
    (.body word params) (fun brace opens => if_pos opens)
  rw [List.append_cons, run_append, List.cons_append, List.cons_append, run_cons, first, run_cons,
    second, third, ends]
  exact holds_moved reader pending _ _ _

/-- A call. -/
theorem call {paren close : Token} {callee : Expr} {args : List Expr}
    {before listed : List Token} (called : (Phrase.operand 5 callee).Runs before)
    (opened : paren.kind = .leftParen) (values : (Phrase.args args).Runs listed)
    (closed : close.kind = .rightParen) :
    (Phrase.bare (.call paren callee args)).Runs (before ++ paren :: listed ++ [close]) := by
  intro reader pending admits starts
  have strength := Kind.strength_of_leftParen opened
  rw [List.append_assoc] at starts
  have opens : (reader.run before).step paren =
      reader.moved (.firstArgument pending paren callee) paren.line := by
    have strong : pending.strength < paren.kind.strength := by
      rw [strength]
      exact admits 5 (Nat.le_refl _) (by omega) (by omega)
    have held := called reader pending admits starts.left
    rw [holds_iff] at held
    rw [step, held paren (by omega) (by simp [opened]) (by simp [opened]),
      settle_extend _ _ _ _ strong, extend, if_pos opened]
    rfl
  have ends := values (reader.moved (.firstArgument pending paren callee) paren.line) pending paren
    callee [] close closed (.inl ⟨rfl, rfl⟩)
  rw [List.append_assoc, run_append, List.cons_append, run_cons, opens, ends]
  exact holds_moved reader pending _ _ _

/-! ## Arguments and parameters -/

/-- A reader about to take an argument starts with any token but a closing parenthesis. -/
theorem starts_argument {reader : Reader} {pending : Pending} {paren : Token} {callee : Expr}
    {done rest : List Expr} (takes : reader.TakesArgs pending paren callee done rest)
    {tokens : List Token} (opens : ∀ token ∈ tokens.head?, token.kind ≠ .rightParen) :
    reader.Starts (pending.push (.argument paren callee done)) tokens := by
  intro token first
  left
  rcases takes with ⟨mode, rfl⟩ | ⟨mode, _⟩
  · simp only [take, mode]
    exact if_neg (opens token first)
  · simp only [take, mode]

/-- No argument. -/
theorem noArgs : (Phrase.args []).Runs [] := by
  intro reader pending paren callee done close closed takes
  rcases takes with ⟨mode, rfl⟩ | ⟨_, some⟩
  · simp [step, take, mode, closed, moved]
  · exact absurd rfl some

/-- The last argument. -/
theorem lastArg {expr : Expr} {tokens : List Token} (value : (Phrase.operand 0 expr).Runs tokens)
    (opens : ∀ token ∈ tokens.head?, token.kind ≠ .rightParen) :
    (Phrase.args [expr]).Runs tokens := by
  intro reader pending paren callee done close closed takes
  rw [run_append, run_cons, run_nil, step, value.closes rfl (starts_argument takes opens)
    (by simp [closed, Kind.strength, Kind.loosest]) (by simp [closed]) (by simp [closed])]
  simp [settle, closed, Kind.strength, Frame.strength, Kind.loosest, moved]

/-- An argument before others. -/
theorem moreArgs {expr next : Expr} {rest : List Expr} {tokens others : List Token}
    {comma : Token} (value : (Phrase.operand 0 expr).Runs tokens)
    (opens : ∀ token ∈ tokens.head?, token.kind ≠ .rightParen) (between : comma.kind = .comma)
    (values : (Phrase.args (next :: rest)).Runs others) :
    (Phrase.args (expr :: next :: rest)).Runs (tokens ++ comma :: others) := by
  intro reader pending paren callee done close closed takes
  have passed : (reader.run tokens).step comma = reader.moved
      (.operand (pending.push (.argument paren callee (expr :: done)))) comma.line := by
    rw [step, value.closes rfl (starts_argument takes opens)
      (by simp [between, Kind.strength, Kind.loosest]) (by simp [between]) (by simp [between])]
    simp [settle, between, Kind.strength, Frame.strength, Kind.loosest, moved, Pending.push]
  have ends := values (reader.moved
    (.operand (pending.push (.argument paren callee (expr :: done)))) comma.line) pending paren
    callee (expr :: done) close closed (.inr ⟨rfl, by simp⟩)
  rw [List.append_assoc, run_append, List.cons_append, run_cons, passed, ends]
  simp [moved]

/-- A reader about to take a parameter takes a name. -/
theorem takes_param {reader : Reader} {pending : Pending} {word : Token} {done rest : List Ident}
    (takes : reader.TakesParams pending word done rest) {token : Token}
    (kind : token.kind = .ident) :
    reader.step token =
      reader.moved (.moreParams pending word (identOf token :: done)) token.line := by
  rcases takes with ⟨mode, rfl⟩ | ⟨mode, _⟩
  · simp [step, take, mode, kind, moved]
  · simp [step, take, mode, kind, moved]

/-- No parameter. -/
theorem noParams : (Phrase.params []).Runs [] := by
  intro reader pending word done close closed takes
  rcases takes with ⟨mode, rfl⟩ | ⟨_, some⟩
  · simp [step, take, mode, closed, moved]
  · exact absurd rfl some

/-- The last parameter. -/
theorem lastParam {token : Token} (kind : token.kind = .ident) :
    (Phrase.params [identOf token]).Runs [token] := by
  intro reader pending word done close closed takes
  rw [List.singleton_append, run_cons, takes_param takes kind, run_cons, run_nil]
  simp [step, take, moved, closed]

/-- A parameter before others. -/
theorem moreParams {token comma : Token} {next : Ident} {rest : List Ident} {others : List Token}
    (kind : token.kind = .ident) (between : comma.kind = .comma)
    (names : (Phrase.params (next :: rest)).Runs others) :
    (Phrase.params (identOf token :: next :: rest)).Runs (token :: comma :: others) := by
  intro reader pending word done close closed takes
  have passed : (reader.moved (.moreParams pending word (identOf token :: done)) token.line).step
      comma = reader.moved (.nextParam pending word (identOf token :: done)) comma.line := by
    simp [step, take, moved, between]
  have ends := names (reader.moved (.nextParam pending word (identOf token :: done)) comma.line)
    pending word (identOf token :: done) close closed (.inr ⟨rfl, by simp⟩)
  rw [List.cons_append, run_cons, takes_param takes kind, List.cons_append, run_cons, passed, ends]
  simp [moved]

/-! ## Blocks and statements -/

/-- Statements between braces. -/
theorem braces {brace close : Token} {stmts : List Stmt} {tokens : List Token}
    (opened : brace.kind = .leftBrace) (inside : (Phrase.stmts stmts).Runs tokens)
    (closed : close.kind = .rightBrace) :
    (Phrase.block (.braces brace stmts)).Runs (brace :: tokens ++ [close]) := by
  intro reader pending site opens
  refine ⟨close.line, ?_⟩
  have ends := inside (reader.step brace) (by rw [step, opens brace opened]; rfl) close
    (.inl closed)
  rw [List.cons_append, run_cons, run_append, run_cons, run_nil, Reader.step, ends]
  simp [step, opens brace opened, openBlock, takeStatement, closed, closeBlock, moved]

/-- The expression of a statement, once what precedes it has been taken. -/
theorem completes {value : Expr} {tokens : List Token}
    (given : (Phrase.operand 0 value).Runs tokens) {reader : Reader} {head : Head}
    (starts : reader.Starts ⟨head, []⟩ tokens) {token : Token}
    (weak : token.kind.strength ≤ Kind.loosest) (noAssign : token.kind ≠ .assign)
    (noElse : token.kind ≠ .elseWord) :
    (reader.run tokens).take token =
      (reader.moved .statement (reader.run tokens).line).endStatement (head.stmt value) token := by
  have admitted : Pending.Admits ⟨head, []⟩ 0 := by
    intro rank _ _ _
    show 1 < rank + 2
    omega
  have held := given reader ⟨head, []⟩ admitted starts
  rw [holds_iff] at held
  rw [held token (Nat.le_trans weak (by decide)) noAssign noElse]
  exact if_neg (Nat.not_lt.mpr weak)

/-- A declaration. -/
theorem declare {word name sign : Token} {value : Expr} {tokens : List Token}
    (kind : word.kind = .variableWord) (named : name.kind = .ident)
    (signed : sign.kind = .assign) (given : (Phrase.operand 0 value).Runs tokens) :
    (Phrase.stmt (.declare word (some (identOf name)) value)).Runs
      (word :: name :: sign :: tokens) := by
  intro reader mode token weak noAssign noElse
  have start : reader.run [word, name, sign] =
      reader.moved (.operand ⟨.declare word (identOf name), []⟩) sign.line := by
    simp [step, take, mode, takeStatement, kind, named, signed, moved]
  have parted : word :: name :: sign :: tokens = [word, name, sign] ++ tokens := rfl
  rw [parted, run_append, start, given.completes (starts_operand _ _ _ _) weak noAssign noElse]
  rfl

/-- An assignment. -/
theorem assign {name sign : Token} {value : Expr} {tokens : List Token}
    (named : name.kind = .ident) (signed : sign.kind = .assign)
    (given : (Phrase.operand 0 value).Runs tokens) :
    (Phrase.stmt (.assign sign (some (identOf name)) value)).Runs (name :: sign :: tokens) := by
  intro reader mode token weak noAssign noElse
  have start : reader.run [name, sign] =
      reader.moved (.operand ⟨.assign sign (identOf name), []⟩) sign.line := by
    simp [step, take, mode, takeStatement, named, signed, moved]
  have parted : name :: sign :: tokens = [name, sign] ++ tokens := rfl
  rw [parted, run_append, start, given.completes (starts_operand _ _ _ _) weak noAssign noElse]
  rfl

/-- The end of a procedure. -/
theorem giveBack {word : Token} {value : Expr} {tokens : List Token}
    (kind : word.kind = .returnWord) (given : (Phrase.operand 0 value).Runs tokens) :
    (Phrase.stmt (.giveBack word value)).Runs (word :: tokens) := by
  intro reader mode token weak noAssign noElse
  have start : reader.step word = reader.moved (.operand ⟨.giveBack word, []⟩) word.line := by
    simp [step, take, mode, takeStatement, kind, moved]
  rw [run_cons, start, given.completes (starts_operand _ _ _ _) weak noAssign noElse]
  rfl

/-- A reader at the start of a statement starts with any token that begins an expression. -/
theorem starts_statement {reader : Reader} (mode : reader.mode = .statement) {token : Token}
    {tokens : List Token} (begins : token.kind.BeginsExpr) :
    reader.Starts ⟨.expr token, []⟩ (token :: tokens) := by
  intro first same
  obtain rfl := Option.some.inj same
  by_cases name : token.kind = .ident
  · exact .inr ⟨name, rfl, by simp [take, mode, takeStatement, name]⟩
  · left
    simp only [take, mode, takeStatement]
    simp only [Kind.BeginsExpr, List.mem_cons, List.not_mem_nil, or_false] at begins
    split <;> simp_all

/-- An expression on its own. -/
theorem expr {token : Token} {value : Expr} {tokens : List Token}
    (given : (Phrase.operand 0 value).Runs (token :: tokens)) (begins : token.kind.BeginsExpr) :
    (Phrase.stmt (.expr token value)).Runs (token :: tokens) := by
  intro reader mode next weak noAssign noElse
  rw [given.completes (starts_statement mode begins) weak noAssign noElse]
  rfl

/-- No statement. -/
theorem noStmts : (Phrase.stmts []).Runs [] := by
  intro reader mode token ends
  simp only [run_nil, take, mode]
  rfl

/-- A statement with its semicolon. -/
theorem ended {stmt : Stmt} {rest : List Stmt} {tokens others : List Token} {semicolon : Token}
    (first : (Phrase.stmt stmt).Runs tokens) (kind : semicolon.kind = .semicolon)
    (following : (Phrase.stmts rest).Runs others) :
    (Phrase.stmts (stmt :: rest)).Runs (tokens ++ semicolon :: others) := by
  intro reader mode token ends
  have taken := first reader mode semicolon (by simp [kind, Kind.strength, Kind.loosest])
    (by simp [kind]) (by simp [kind])
  have step : (reader.run tokens).step semicolon = { reader with
      stmts := stmt :: reader.stmts, mode := .statement, line := semicolon.line } := by
    rw [step, taken]
    simp [endStatement, kind]
  rw [run_append, run_cons, step, following _ rfl token ends]
  simp [mode]

/-- A token that begins the next statement, or ends the list, does not continue a statement. -/
theorem apart_of_begins {kind : Kind} (begins : kind.BeginsStmt) (apart : ¬ kind.Joins) :
    kind.strength ≤ Kind.loosest ∧ kind ≠ .assign ∧ kind ≠ .elseWord ∧ kind ≠ .semicolon := by
  simp only [Kind.BeginsStmt, Kind.BeginsExpr, Kind.Joins, List.mem_cons, List.not_mem_nil,
    or_false, not_or] at begins apart
  cases kind <;> simp_all [Kind.strength, Kind.loosest]

/-- A statement without its semicolon. -/
theorem unended {stmt : Stmt} {rest : List Stmt} {tokens others : List Token}
    (first : (Phrase.stmt stmt).Runs tokens)
    (apart : ∀ token ∈ others.head?, ¬ token.kind.Joins)
    (begins : ∀ token ∈ others.head?, token.kind.BeginsStmt)
    (following : (Phrase.stmts rest).Runs others) :
    (Phrase.stmts (stmt :: rest)).Runs (tokens ++ others) := by
  intro reader mode token ends
  let next : Reader := { reader with
    stmts := stmt :: reader.stmts, mode := .statement, line := (reader.run tokens).line }
  have same : ∀ other : Token, other.kind.strength ≤ Kind.loosest → other.kind ≠ .assign →
      other.kind ≠ .elseWord → other.kind ≠ .semicolon →
      (reader.run tokens).take other = next.take other := by
    intro other weak noAssign noElse noSemicolon
    rw [first reader mode other weak noAssign noElse, endStatement]
    exact if_neg noSemicolon
  have met := following next rfl token ends
  cases others with
  | nil =>
    rw [List.append_nil, same token]
    · rw [run_nil] at met
      rw [met]
      simp [next, mode]
    all_goals rcases ends with kind | kind <;> simp [kind, Kind.strength, Kind.loosest]
  | cons other others =>
    obtain ⟨weak, noAssign, noElse, noSemicolon⟩ :=
      apart_of_begins (begins other rfl) (apart other rfl)
    have step : (reader.run tokens).step other = next.step other := by
      rw [step, step, same other weak noAssign noElse noSemicolon]
    rw [run_cons] at met
    rw [run_append, run_cons, step, met]
    simp [next, mode]

end Phrase.Runs

/-- A reader that takes a spelling of a phrase holds its tree. -/
theorem Phrase.Spelled.runs {phrase : Phrase} {tokens : List Token}
    (spelled : phrase.Spelled tokens) : phrase.Runs tokens := by
  have opens {least : Nat} {expr : Expr} {tokens : List Token}
      (value : (Phrase.operand least expr).Spelled tokens) :
      ∀ token ∈ tokens.head?, token.kind ≠ .rightParen := by
    obtain ⟨token, rest, rfl, begins⟩ := value.leads
    intro first same closed
    obtain rfl := Option.some.inj same
    simp [Kind.BeginsExpr, closed] at begins
  induction spelled with
  | ident kind => exact Runs.ident kind
  | int kind fits => exact Runs.leaf (by simp [kind]) (by simp [takeOperand, kind, fits])
  | str kind => exact Runs.leaf (by simp [kind]) (by simp [takeOperand, kind])
  | trueWord kind => exact Runs.leaf (by simp [kind]) (by simp [takeOperand, kind])
  | falseWord kind => exact Runs.leaf (by simp [kind]) (by simp [takeOperand, kind])
  | null kind => exact Runs.leaf (by simp [kind]) (by simp [takeOperand, kind])
  | unary kind _ inner => exact Runs.unary kind inner
  | binary kind _ _ first second => exact Runs.binary kind first second
  | choice kind opened _ closed _ condition branch =>
    exact Runs.choice kind opened condition closed branch
  | alternative kind opened _ closed _ otherwise _ condition branch second =>
    exact Runs.alternative kind opened condition closed branch otherwise second
  | procedure kind opened _ closed _ names block =>
    exact Runs.procedure kind opened names closed block
  | call _ opened _ closed called values => exact Runs.call called opened values closed
  | plain tight _ bare => exact Runs.plain tight bare
  | group opened _ closed inner => exact Runs.group opened inner closed
  | noArgs => exact Runs.noArgs
  | lastArg value runs => exact Runs.lastArg runs (opens value)
  | moreArgs value between _ runs values =>
    exact Runs.moreArgs runs (opens value) between values
  | noParams => exact Runs.noParams
  | lastParam kind => exact Runs.lastParam kind
  | moreParams kind between _ names => exact Runs.moreParams kind between names
  | braces opened _ closed inside => exact Runs.braces opened inside closed
  | declare kind named signed _ given => exact Runs.declare kind named signed given
  | assign named signed _ given => exact Runs.assign named signed given
  | giveBack kind _ given => exact Runs.giveBack kind given
  | expr value given =>
    obtain ⟨token, rest, same, begins⟩ := value.leads
    obtain ⟨rfl, rfl⟩ := List.cons.inj same
    exact Runs.expr given begins
  | noStmts => exact Runs.noStmts
  | ended _ kind _ first following => exact Runs.ended first kind following
  | unended _ apart rest first following =>
    exact Runs.unended first apart rest.leads following

/-! ## Programs -/

/-- A mark after a spelling of statements ends the program. -/
theorem Phrase.Spelled.take_mark {stmts : List Stmt} {tokens : List Token}
    (spelled : (Phrase.stmts stmts).Spelled tokens) {mark : Token} (ends : mark.kind = .eof) :
    (Reader.start.run tokens).take mark =
      ⟨[], stmts.reverse, .finished, [], (Reader.start.run tokens).line⟩ := by
  rw [spelled.runs Reader.start rfl mark (.inr ends)]
  simp [takeStatement, ends, Reader.start]

/-- A spelling of statements has no fault. -/
theorem Phrase.Spelled.errors_run {stmts : List Stmt} {tokens : List Token}
    (spelled : (Phrase.stmts stmts).Spelled tokens) : (Reader.start.run tokens).errors = [] := by
  have kept := (Reader.start.run tokens).take_errors (Token.eof 0)
  rw [spelled.take_mark rfl] at kept
  exact List.suffix_nil.mp kept

/-- After a spelling of statements a mark ends the program with them, on whatever line. -/
theorem Phrase.Spelled.step_mark {stmts : List Stmt} {tokens : List Token}
    (spelled : (Phrase.stmts stmts).Spelled tokens) (line : Int) {mark : Token}
    (ends : mark.kind = .eof) :
    ((Reader.start.run tokens).onLine line).step mark =
      ⟨[], stmts.reverse, .finished, [], mark.line⟩ := by
  have clean : ((Reader.start.run tokens).take mark).errors = (Reader.start.run tokens).errors := by
    rw [spelled.take_mark ends, spelled.errors_run]
  rw [step, take_ends (Reader.start.run tokens) line (.inl ends) (.inr ends) clean,
    spelled.take_mark ends]
  rfl

/-- Marks that end the program after a spelling give its statements and no fault. -/
theorem Program.Spelled.reading {program : Program} {tokens : List Token}
    (spelled : program.Spelled tokens) (marks : List Token)
    (ends : ∀ mark ∈ marks, mark.kind = .eof)
    (done : ((Reader.start.run tokens).run marks).mode = .finished) :
    ((Reader.start.run tokens).run marks).reading = ⟨program, []⟩ := by
  obtain ⟨missing, line, spelled⟩ := spelled
  -- Further marks change nothing, so there may be one more than there are missing braces.
  obtain ⟨closers, mark, others, length, parted⟩ : ∃ closers mark others,
      closers.length = missing ∧
      marks ++ List.replicate (missing + 1) (Token.eof 0) = closers ++ mark :: others := by
    let all := marks ++ List.replicate (missing + 1) (Token.eof 0)
    have long : missing < all.length := by
      simp only [all, List.length_append, List.length_replicate]
      omega
    refine ⟨all.take missing, all[missing], all.drop (missing + 1), ?_, ?_⟩
    · rw [List.length_take]
      omega
    · rw [← List.drop_eq_getElem_cons long, List.take_append_drop]
  have padded : ∀ other ∈ closers ++ mark :: others, other.kind = .eof := by
    intro other member
    rw [← parted] at member
    rcases List.mem_append.mp member with member | member
    · exact ends other member
    · rw [List.eq_of_mem_replicate member]
      rfl
  have braced : Reader.start.run (tokens ++ List.replicate missing (Token.closing line)) =
      (Reader.start.run tokens).run (List.replicate closers.length (Token.closing line)) := by
    rw [run_append, length]
  have clean : ((Reader.start.run tokens).run
      (List.replicate closers.length (Token.closing line))).errors =
        (Reader.start.run tokens).errors := by
    have kept := run_errors (Reader.start.run tokens)
      (List.replicate closers.length (Token.closing line))
    rw [← braced, spelled.errors_run] at kept ⊢
    exact (List.suffix_nil.mp kept).symm
  obtain ⟨last, closed⟩ := run_marks (Reader.start.run tokens) (Reader.start.run tokens).line
    (Token.closing line) (.inl rfl) closers
    (fun other member => padded other (List.mem_append_left _ member)) clean
  calc
    ((Reader.start.run tokens).run marks).reading =
        ((Reader.start.run tokens).run (closers ++ mark :: others)).reading := by
      rw [← parted, run_append]
      exact (reading_run_finished _ done _).symm
    _ = ((((Reader.start.run tokens).run closers).step mark).run others).reading := by
      rw [run_append, run_cons]
    _ = (Reader.run ⟨[], program.stmts.reverse, .finished, [], mark.line⟩ others).reading := by
      have same : (Reader.start.run tokens).run closers =
          (Reader.start.run (tokens ++ List.replicate missing (Token.closing line))).onLine last :=
        closed.trans (by rw [braced])
      rw [same, spelled.step_mark last (padded mark (by simp))]
    _ = ⟨program, []⟩ := by
      rw [reading_run_finished _ rfl]
      simp [Reader.reading, Reader.program]

/-- A program is read back from each of its spellings, whether or not end marks follow. -/
theorem Program.Spelled.ofTokens_append {program : Program} {tokens : List Token}
    (spelled : program.Spelled tokens) (marks : List Token)
    (ends : ∀ mark ∈ marks, mark.kind = .eof) :
    Program.ofTokens (tokens ++ marks) = ⟨program, []⟩ := by
  obtain ⟨others, othersEnd, done, same⟩ := Program.ofTokens_eq_run (tokens ++ marks)
  rw [run_append, ← run_append] at done same
  rw [same]
  apply spelled.reading _ _ done
  intro mark member
  rcases List.mem_append.mp member with member | member
  · exact ends mark member
  · exact othersEnd mark member

/-- Statements are read back from tokens that spell them with all closing braces. -/
theorem Phrase.Spelled.ofTokens_append {stmts : List Stmt} {tokens : List Token}
    (spelled : (Phrase.stmts stmts).Spelled tokens) (marks : List Token)
    (ends : ∀ mark ∈ marks, mark.kind = .eof) :
    Program.ofTokens (tokens ++ marks) = ⟨⟨stmts⟩, []⟩ := by
  have whole : (Program.mk stmts).Spelled tokens := by
    refine ⟨0, 0, ?_⟩
    rwa [List.replicate_zero, List.append_nil]
  exact whole.ofTokens_append marks ends

end Lengua
