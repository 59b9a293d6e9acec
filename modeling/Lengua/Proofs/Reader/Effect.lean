import Lengua.Proofs.Reader.Statements

/-!
# The effect of a token

What a token does within a statement depends on the statement, on the token and on the line of the
token before it. It does not depend on the statements that were kept, on the lists that are
interrupted or on the faults that were found: there is one `Effect`, the same for all readers that
are within the statement (`take_effect`). So whatever a reader has read before, it reads on in the
same way. What an effect hands on has no more statements than the statement had before.

An effect also tells where faults come from. A token is at fault itself, or it is not the one that
was wanted, and then the fault is on the line of the token before it and the token may be at fault
after that as well (`take_found`).
-/

namespace Lengua

/-- The faults of a token by itself: it starts no operand, or it is a number that does not fit. -/
inductive SyntaxError.IsOf (token : Token) : SyntaxError → Prop where
  /-- The token starts no operand. -/
  | noOperand : IsOf token (.noOperand token)
  /-- The number does not fit. -/
  | notInteger : IsOf token (.notInteger token)

/-- A fault of a token is on its line. -/
theorem SyntaxError.IsOf.line {error : SyntaxError} {token : Token} (own : error.IsOf token) :
    error.line = token.line := by
  cases own <;> rfl

namespace Reader

/-! ## Modes -/

/-- The modes of a reader within a statement. -/
def Mode.Within : Mode → Prop
  | .statement | .finished => False
  | _ => True

/-- A reader is between statements, within one, or has ended the program. -/
theorem Mode.cases_within (mode : Mode) : mode = .statement ∨ mode = .finished ∨ mode.Within := by
  cases mode with
  | statement => exact .inl rfl
  | finished => exact .inr (.inl rfl)
  | _ => exact .inr (.inr trivial)

/-- A statement counts from its first token. -/
theorem Mode.Within.one_le {mode : Mode} (within : mode.Within) : 1 ≤ mode.statements := by
  cases mode with
  | statement | finished => exact within.elim
  | _ => exact Nat.le_add_left 1 _

/-- Between statements a token starts a statement or ends the list. -/
theorem take_between {reader : Reader} {token : Token} (between : reader.mode = .statement) :
    reader.take token = reader.takeStatement token := by
  rw [take, between]

/-- Once the program has ended, a token has no effect. -/
theorem take_done {reader : Reader} {token : Token} (done : reader.mode = .finished) :
    reader.take token = reader := by
  rw [take, done]

/-! ## Effects -/

/-- Keeps the current statement. -/
def keep (reader : Reader) (stmt : Stmt) : Reader :=
  { reader with stmts := stmt :: reader.stmts, mode := .statement }

/-- What a token does within a statement. -/
inductive Effect where
  /-- The statement goes on. -/
  | goes (mode : Mode)
  /-- The statement goes on with a block that the token opens. -/
  | opens (pending : Pending) (site : Site)
  /-- The statement is dropped with the token. -/
  | drops (error : SyntaxError)
  /-- The statement is kept with the token. -/
  | keeps (stmt : Stmt)
  /-- The statement is dropped, and the token comes after it. -/
  | dropsBefore (error : SyntaxError)
  /-- The statement is kept, and the token comes after it. -/
  | keepsBefore (stmt : Stmt)

namespace Effect

/-- The reader that a reader becomes by an effect of a token. -/
def on (effect : Effect) (reader : Reader) (token : Token) : Reader :=
  match effect with
  | goes mode => { reader with mode }
  | opens pending site => reader.openBlock pending site token
  | drops error => reader.fail error
  | keeps stmt => reader.keep stmt
  | dropsBefore error => (reader.fail error).takeStatement token
  | keepsBefore stmt => (reader.keep stmt).takeStatement token

/-- The effects that a token can have behind a token of a line. With a semicolon a statement does
not go on. -/
def Fits (effect : Effect) (line : Int) (token : Token) : Prop :=
  match effect with
  | goes mode => mode.Within ∧ token.kind ≠ .semicolon
  | opens _ _ => token.kind = .leftBrace
  | drops error => error.IsOf token
  | keeps _ => token.kind = .semicolon
  | dropsBefore error => ∃ wanted, error = .unexpected wanted token.kind line
  | keepsBefore _ => token.kind ≠ .semicolon

/-- The number of statements in the parts that an effect hands on. -/
def statements : Effect → Nat
  | goes mode => mode.statements
  | opens pending site => pending.statements + site.statements + 1
  | keeps stmt | keepsBefore stmt => stmt.statements
  | drops _ | dropsBefore _ => 0

/-- An effect does not depend on what came next before it. -/
theorem on_withMode (effect : Effect) (reader : Reader) (mode : Mode) (token : Token) :
    effect.on { reader with mode } token = effect.on reader token := by
  cases effect <;> rfl

end Effect

/-- One effect of a token describes what is done to all readers behind a token of a line, and the
parts that it hands on have at most `held` statements. -/
def Acts (line : Int) (token : Token) (held : Nat) (act : Reader → Reader) : Prop :=
  ∃ effect : Effect, effect.Fits line token ∧ effect.statements ≤ held ∧
    ∀ reader, reader.line = line → act reader = effect.on reader token

section

variable {line : Int} {token : Token} {held : Nat}

/-- A statement that goes on with a token of a kind that is not the semicolon's. -/
theorem Acts.goes {mode : Mode} (within : mode.Within) (fewer : mode.statements ≤ held)
    {kind : Kind} (same : token.kind = kind) (other : kind ≠ .semicolon) :
    Acts line token held fun reader => { reader with mode } :=
  ⟨.goes mode, ⟨within, same ▸ other⟩, fewer, fun _ _ => rfl⟩

/-- What is done does not depend on what came next before it. -/
theorem Acts.inMode {act : Reader → Reader} (acts : Acts line token held act) (mode : Mode) :
    Acts line token held fun reader => act { reader with mode } := by
  obtain ⟨effect, fits, fewer, same⟩ := acts
  refine ⟨effect, fits, fewer, fun reader behind => ?_⟩
  exact (same { reader with mode } behind).trans (effect.on_withMode reader mode token)

/-- The first token of an operand. -/
theorem takeOperand_acts (pending : Pending) :
    Acts line token (pending.statements + 1) fun reader => reader.takeOperand pending token := by
  have dropped : Acts line token (pending.statements + 1) fun reader =>
      reader.fail (.noOperand token) :=
    ⟨.drops _, .noOperand, Nat.zero_le _, fun _ _ => rfl⟩
  cases kind : token.kind with
  | int =>
    cases read : Text.plainInteger? token.literal with
    | none =>
      simp only [takeOperand, kind, read]
      exact ⟨.drops _, .notInteger, Nat.zero_le _, fun _ _ => rfl⟩
    | some value =>
      simp only [takeOperand, kind, read]
      exact .goes trivial (Nat.le_refl _) kind (by decide)
  | minus | negation | leftParen =>
    simp only [takeOperand, kind]
    exact .goes trivial (by simp [Mode.statements, Frame.statements]) kind (by decide)
  | ident | string | trueWord | falseWord | nullWord | ifWord | procedureWord =>
    simp only [takeOperand, kind]
    exact .goes trivial (Nat.le_refl _) kind (by decide)
  | _ =>
    simp only [takeOperand, kind]
    exact dropped

/-- A token that was not wanted. -/
theorem reject_acts (wanted : Kind) :
    Acts line token held fun reader => reader.reject wanted token :=
  ⟨.dropsBefore (.unexpected wanted token.kind line), ⟨wanted, rfl⟩, Nat.zero_le _,
    fun reader behind => congrArg
      (fun line => (reader.fail (.unexpected wanted token.kind line)).takeStatement token) behind⟩

/-- The token after a statement. -/
theorem endStatement_acts {stmt : Stmt} (fewer : stmt.statements ≤ held) :
    Acts line token held fun reader => reader.endStatement stmt token := by
  by_cases ended : token.kind = .semicolon
  · simp only [endStatement, if_pos ended]
    exact ⟨.keeps stmt, ended, fewer, fun _ _ => rfl⟩
  · simp only [endStatement, if_neg ended]
    exact ⟨.keepsBefore stmt, ended, fewer, fun _ _ => rfl⟩

/-- Every frame holds its operand at least as tightly as a whole expression is held. -/
theorem Frame.one_le_strength (frame : Frame) : 1 ≤ frame.strength := by
  cases frame with
  | binary sign left => cases kind : sign.kind <;> simp [strength, kind, Kind.strength]
  | _ => simp [strength, Kind.loosest, Kind.signStrength]

/-- A token that continues an operand is no semicolon. -/
theorem extend_acts {pending : Pending} {value : Expr}
    (fewer : pending.statements + value.statements + 1 ≤ held)
    (strong : Kind.loosest < token.kind.strength) :
    Acts line token held fun reader => reader.extend pending value token := by
  have other : token.kind ≠ .semicolon := by
    intro kind
    simp [kind, Kind.strength, Kind.loosest] at strong
  by_cases paren : token.kind = .leftParen
  · simp only [extend, if_pos paren]
    exact .goes trivial fewer rfl other
  · simp only [extend, if_neg paren]
    refine .goes trivial ?_ rfl other
    simp only [Mode.statements, Pending.statements_push, Frame.statements]
    omega

/-- The token after an operand. -/
theorem settle_acts {head : Head} {frames : List Frame} {value : Expr}
    (fewer : (Pending.mk head frames).statements + value.statements + 1 ≤ held) :
    Acts line token held fun reader => reader.settle head frames value token := by
  induction frames generalizing value with
  | nil =>
    by_cases strong : Kind.loosest < token.kind.strength
    · simp only [settle, if_pos strong]
      exact extend_acts fewer strong
    · simp only [settle, if_neg strong]
      apply endStatement_acts
      rw [Head.statements_stmt]
      omega
  | cons frame frames ih =>
    by_cases strong : frame.strength < token.kind.strength
    · simp only [settle, if_pos strong]
      exact extend_acts fewer (Nat.lt_of_le_of_lt frame.one_le_strength strong)
    rw [Pending.statements_cons] at fewer
    -- A sign hands its operands on to the next frame; the others take the token themselves.
    cases frame with
    | unary sign | binary sign left =>
      simp only [settle, if_neg strong]
      apply ih
      simp only [Frame.statements, Expr.statements] at fewer ⊢
      omega
    | group | test word =>
      by_cases closed : token.kind = .rightParen
      · simp only [settle, if_neg strong, if_pos closed]
        refine .goes trivial ?_ closed (by decide)
        simp only [Frame.statements, Mode.statements] at fewer ⊢
        omega
      · simp only [settle, if_neg strong, if_neg closed]
        exact reject_acts _
    | argument paren callee done =>
      simp only [Frame.statements] at fewer
      by_cases between : token.kind = .comma
      · simp only [settle, if_neg strong, if_pos between]
        refine .goes trivial ?_ between (by decide)
        simp only [Mode.statements, Pending.statements_cons, Frame.statements, Expr.statementsAll]
        omega
      by_cases closed : token.kind = .rightParen
      · simp only [settle, if_neg strong, if_neg between, if_pos closed]
        refine .goes trivial ?_ closed (by decide)
        simp only [Mode.statements, Expr.statements, Expr.statementsAll_reverse,
          Expr.statementsAll]
        omega
      · simp only [settle, if_neg strong, if_neg between, if_neg closed]
        exact reject_acts _

/-- A kind that a statement goes on with, or else the token is not wanted. -/
theorem Acts.wanted (mode : Mode) (within : mode.Within) (fewer : mode.statements ≤ held)
    {kind : Kind} (other : kind ≠ .semicolon) (wanted : Kind) :
    Acts line token held fun reader =>
      if token.kind = kind then { reader with mode } else reader.reject wanted token := by
  by_cases same : token.kind = kind
  · simp only [if_pos same]
    exact .goes within fewer same other
  · simp only [if_neg same]
    exact reject_acts wanted

/-- An opening brace, or else the token is not wanted. -/
theorem Acts.brace {pending : Pending} {site : Site}
    (fewer : pending.statements + site.statements + 1 ≤ held) :
    Acts line token held fun reader =>
      if token.kind = .leftBrace then reader.openBlock pending site token
      else reader.reject .leftBrace token := by
  by_cases opened : token.kind = .leftBrace
  · simp only [if_pos opened]
    exact ⟨.opens pending site, opened, fewer, fun _ _ => rfl⟩
  · simp only [if_neg opened]
    exact reject_acts _

/-- A token within a statement. -/
theorem take_acts {mode : Mode} (within : mode.Within) :
    Acts line token mode.statements fun reader => Reader.take { reader with mode } token := by
  cases mode with
  | statement | finished => exact within.elim
  | named name =>
    by_cases signed : token.kind = .assign
    · simp only [take, if_pos signed]
      exact .goes trivial (Nat.le_refl _) signed (by decide)
    · simp only [take, if_neg signed]
      refine (settle_acts ?_).inMode _
      exact Nat.le_refl 1
  | alternative pending word test yes =>
    by_cases other : token.kind = .elseWord
    · simp only [take, if_pos other]
      exact .goes trivial (Nat.le_refl _) other (by decide)
    · simp only [take, if_neg other]
      refine (settle_acts ?_).inMode _
      show pending.statements + (test.statements + yes.statements + 0) + 1 ≤
        pending.statements + test.statements + yes.statements + 1
      omega
  | after pending value => exact (settle_acts (Nat.le_refl _)).inMode _
  | operand pending => exact (takeOperand_acts _).inMode _
  | firstArgument pending paren callee =>
    by_cases closed : token.kind = .rightParen
    · simp only [take, if_pos closed]
      exact .goes trivial (Nat.le_refl _) closed (by decide)
    · have counted : (Mode.firstArgument pending paren callee).statements =
          (pending.push (.argument paren callee [])).statements + 1 := by
        rw [Pending.statements_push, Frame.statements, Expr.statementsAll, Mode.statements]
        omega
      simp only [take, if_neg closed, counted]
      exact (takeOperand_acts _).inMode _
  | yesBrace pending word test | noBrace pending word test yes | bodyBrace pending word params =>
    refine (Acts.brace ?_).inMode _
    simp only [Site.statements, Mode.statements]
    omega
  | firstParam pending word =>
    by_cases closed : token.kind = .rightParen
    · simp only [take, if_pos closed]
      exact .goes trivial (Nat.le_refl _) closed (by decide)
    · simp only [take, if_neg closed]
      exact (Acts.wanted (.moreParams pending word [identOf token]) trivial (Nat.le_refl _)
        (by decide) _).inMode _
  | moreParams pending word params =>
    by_cases between : token.kind = .comma
    · simp only [take, if_pos between]
      exact .goes trivial (Nat.le_refl _) between (by decide)
    · simp only [take, if_neg between]
      exact (Acts.wanted (.bodyBrace pending word params.reverse) trivial (Nat.le_refl _)
        (by decide) _).inMode _
  | nextParam pending word params =>
    exact (Acts.wanted (.moreParams pending word (identOf token :: params)) trivial
      (Nat.le_refl _) (by decide) _).inMode _
  | declareName word =>
    exact (Acts.wanted (.declareSign word (identOf token)) trivial (Nat.le_refl _)
      (by decide) _).inMode _
  | declareSign word name =>
    exact (Acts.wanted (.operand ⟨.declare word name, []⟩) trivial (Nat.le_refl _)
      (by decide) _).inMode _
  | choiceParen pending word =>
    refine (Acts.wanted (.operand (pending.push (.test word))) trivial ?_ (by decide) _).inMode _
    simp [Mode.statements, Frame.statements]
  | procedureParen pending word =>
    exact (Acts.wanted (.firstParam pending word) trivial (Nat.le_refl _) (by decide) _).inMode _

end

/-- A token within a statement has one effect on all readers that are within it, behind a token of
the same line. It hands on no more statements than there were. -/
theorem take_effect {mode : Mode} (within : mode.Within) (line : Int) (token : Token) :
    ∃ effect : Effect, effect.Fits line token ∧ effect.statements ≤ mode.statements ∧
      ∀ reader, reader.mode = mode → reader.line = line →
        reader.take token = effect.on reader token := by
  have acts : Acts line token mode.statements fun reader => Reader.take { reader with mode } token :=
    take_acts within
  obtain ⟨effect, fits, fewer, same⟩ := acts
  refine ⟨effect, fits, fewer, ?_⟩
  rintro reader rfl behind
  exact same reader behind

/-! ## Faults -/

/-- A token between statements is at fault itself, if there is a fault. -/
theorem takeStatement_found (reader : Reader) (token : Token) :
    ∃ own, (reader.takeStatement token).errors = own ++ reader.errors ∧
      ∀ error ∈ own, error.IsOf token := by
  have none : ∃ own, reader.errors = own ++ reader.errors ∧ ∀ error ∈ own, error.IsOf token :=
    ⟨[], rfl, by simp⟩
  have one {error : SyntaxError} (isOf : error.IsOf token) :
      ∃ own, error :: reader.errors = own ++ reader.errors ∧ ∀ error ∈ own, error.IsOf token :=
    ⟨[error], rfl, List.forall_mem_singleton.mpr isOf⟩
  unfold takeStatement
  split
  case h_1 => split <;> exact none
  case h_2 =>
    split
    · exact one .noOperand
    · exact none
  case h_6 =>
    unfold takeOperand
    split
    case h_2 =>
      split
      · exact none
      · exact one .notInteger
    case h_12 => exact one .noOperand
    all_goals exact none
  all_goals exact none

/-- The faults that are found with a token: it is not the one that was wanted behind the token
before it, and then it may be at fault itself. -/
theorem take_found (reader : Reader) (token : Token) :
    ∃ own missed, (reader.take token).errors = own ++ (missed ++ reader.errors) ∧
      (∀ error ∈ own, error.IsOf token) ∧
      ∀ error ∈ missed, reader.mode.Within ∧
        ∃ wanted, error = .unexpected wanted token.kind reader.line := by
  rcases reader.mode.cases_within with between | finished | within
  · obtain ⟨own, found, isOf⟩ := reader.takeStatement_found token
    rw [take_between between]
    exact ⟨own, [], found, isOf, by simp⟩
  · rw [take_done finished]
    exact ⟨[], [], rfl, by simp, by simp⟩
  · obtain ⟨effect, fits, -, same⟩ := take_effect within reader.line token
    rw [same reader rfl rfl]
    cases effect with
    | goes mode | opens pending site | keeps stmt => exact ⟨[], [], rfl, by simp, by simp⟩
    | drops error => exact ⟨[error], [], rfl, List.forall_mem_singleton.mpr fits, by simp⟩
    | dropsBefore error =>
      obtain ⟨own, found, isOf⟩ := (reader.fail error).takeStatement_found token
      exact ⟨own, [error], found, isOf, List.forall_mem_singleton.mpr ⟨within, fits⟩⟩
    | keepsBefore stmt =>
      obtain ⟨own, found, isOf⟩ := (reader.keep stmt).takeStatement_found token
      exact ⟨own, [], found, isOf, by simp⟩

/-! ## Semicolons -/

/-- A semicolon that begins a statement is at fault. -/
theorem takeStatement_semicolon (reader : Reader) {token : Token}
    (kind : token.kind = .semicolon) :
    reader.takeStatement token = reader.fail (.noOperand token) := by
  simp only [takeStatement, takeOperand, kind]

/-- Behind a semicolon the reader is between statements. -/
theorem take_semicolon {reader : Reader} {token : Token} (kind : token.kind = .semicolon)
    (going : reader.mode ≠ .finished) : (reader.take token).mode = .statement := by
  rcases reader.mode.cases_within with between | finished | within
  · rw [take_between between, takeStatement_semicolon _ kind]
    rfl
  · exact absurd finished going
  · obtain ⟨effect, fits, -, same⟩ := take_effect within reader.line token
    rw [same reader rfl rfl]
    cases effect with
    | goes mode => exact absurd kind fits.2
    | opens pending site => exact nomatch kind.symm.trans fits
    | drops error => rfl
    | keeps stmt => rfl
    | dropsBefore error =>
      rw [Effect.on, takeStatement_semicolon _ kind]
      rfl
    | keepsBefore stmt => exact absurd kind fits

end Reader

end Lengua
