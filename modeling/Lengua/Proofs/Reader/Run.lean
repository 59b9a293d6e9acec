import Lengua.Proofs.Reader.Effect

/-!
# Runs of a reader

What holds of a reader whatever tokens it takes. Faults are only ever added, so a run that
ends without one had none on the way. Where a closing brace is no fault, an end mark does
the same inside a block. Every end mark leaves fewer of them owed, so enough of them end the
program, and after that no token has an effect: reading a list of tokens is a run over the
list and over as many end marks as one likes to add.
-/

namespace Lengua

/-- The kinds that end a list of statements. -/
def Kind.Closes (kind : Kind) : Prop := kind = .rightBrace ∨ kind = .eof

/-- What ends a list of statements continues nothing. -/
theorem Kind.Closes.apart {kind : Kind} (closes : kind.Closes) :
    kind.strength = 1 ∧ kind ≠ .semicolon ∧ kind ≠ .assign ∧ kind ≠ .elseWord ∧
      kind ≠ .rightParen ∧ kind ≠ .comma ∧ kind ≠ .ident ∧ kind ≠ .leftParen ∧
      kind ≠ .leftBrace := by
  rcases closes with rfl | rfl <;> decide

namespace Reader

/-- Taking no token changes nothing. -/
@[simp] theorem run_nil (reader : Reader) : reader.run [] = reader := rfl

/-- Taking tokens is taking the first and then the others. -/
@[simp] theorem run_cons (reader : Reader) (token : Token) (tokens : List Token) :
    reader.run (token :: tokens) = (reader.step token).run tokens := rfl

/-- Taking two lists of tokens in turn is taking the joined list. -/
@[simp] theorem run_append (reader : Reader) (first second : List Token) :
    reader.run (first ++ second) = (reader.run first).run second := List.foldl_append

/-- A statement adds faults to those found before. -/
theorem takeStatement_errors (reader : Reader) (token : Token) :
    reader.errors <:+ (reader.takeStatement token).errors := by
  obtain ⟨own, found, -⟩ := reader.takeStatement_found token
  rw [found]
  exact List.suffix_append own reader.errors

/-- A rejected token adds its fault to those found before. -/
theorem reject_errors (reader : Reader) (wanted : Kind) (token : Token) :
    .unexpected wanted token.kind reader.line :: reader.errors <:+
      (reader.reject wanted token).errors :=
  takeStatement_errors (reader.fail _) token

/-- A token adds faults to those found before. -/
theorem take_errors (reader : Reader) (token : Token) :
    reader.errors <:+ (reader.take token).errors := by
  obtain ⟨own, missed, found, -⟩ := reader.take_found token
  rw [found]
  exact (List.suffix_append missed reader.errors).trans (List.suffix_append own _)

/-- Tokens add faults to those found before. -/
theorem run_errors (reader : Reader) (tokens : List Token) :
    reader.errors <:+ (reader.run tokens).errors := by
  induction tokens generalizing reader with
  | nil => exact List.suffix_refl _
  | cons token tokens ih => exact (reader.take_errors token).trans (ih (reader.step token))

/-! ## End marks and closing braces -/

/-- A rejected token is a new fault. -/
theorem errors_reject_ne (reader : Reader) (wanted : Kind) (token : Token) :
    (reader.reject wanted token).errors ≠ reader.errors := by
  intro same
  have longer := (reader.reject_errors wanted token).length_le
  rw [same, List.length_cons] at longer
  omega

/-- What ends a list of statements is a new fault where an operand is wanted. -/
theorem errors_takeOperand_ne (reader : Reader) (pending : Pending) {token : Token}
    (closes : token.kind.Closes) :
    (reader.takeOperand pending token).errors ≠ reader.errors := by
  rcases closes with kind | kind <;> simp [takeOperand, kind, fail]

/-- The reader as if its last token had been on another line. -/
def onLine (reader : Reader) (line : Int) : Reader := { reader with line }

/-- The kinds that end the innermost list of statements: the end mark always, a closing brace
inside a block. -/
def Ends (reader : Reader) (kind : Kind) : Prop :=
  kind = .eof ∨ kind = .rightBrace ∧ reader.levels ≠ []

/-- What ends the innermost list of statements ends lists of statements. -/
theorem Ends.closes {reader : Reader} {kind : Kind} (ends : reader.Ends kind) : kind.Closes :=
  ends.elim .inr fun inside => .inl inside.1

/-- Where a closing token is no fault, whatever ends the list does the same at a statement. -/
theorem takeStatement_ends (reader : Reader) (line : Int) {mark brace : Token}
    (ends : reader.Ends mark.kind) (closes : brace.kind.Closes)
    (clean : (reader.takeStatement brace).errors = reader.errors) :
    (reader.onLine line).takeStatement mark = (reader.takeStatement brace).onLine line := by
  cases levels : reader.levels with
  | nil =>
    rcases closes with kind | kind
    · simp [takeStatement, kind, levels, fail] at clean
    · rcases ends with ends | ⟨-, inside⟩
      · simp [takeStatement, onLine, ends, kind, levels]
      · exact absurd levels inside
  | cons level outer =>
    rcases closes with kind | kind <;> rcases ends with ends | ⟨ends, -⟩ <;>
      simp [takeStatement, onLine, closeBlock, ends, kind, levels]

/-- A token of the least strength continues no operand. -/
theorem not_extends {strength : Nat} {kind : Kind} (positive : 1 ≤ strength)
    (weak : kind.strength = 1) : ¬ strength < kind.strength := by
  omega

/-- Where a closing token is no fault, whatever ends the list does the same after an operand. -/
theorem settle_ends (reader : Reader) (line : Int) (head : Head) (frames : List Frame)
    (value : Expr) {mark brace : Token} (ends : reader.Ends mark.kind)
    (closes : brace.kind.Closes)
    (clean : (reader.settle head frames value brace).errors = reader.errors) :
    (reader.onLine line).settle head frames value mark =
      (reader.settle head frames value brace).onLine line := by
  obtain ⟨weak, noSemicolon, -, -, noParen, noComma, -⟩ := closes.apart
  obtain ⟨weakMark, otherMark, -⟩ := ends.closes.apart
  induction frames generalizing value with
  | nil =>
    have loose := not_extends (Nat.le_refl Kind.loosest) weak
    have looseMark := not_extends (Nat.le_refl Kind.loosest) weakMark
    rw [settle, if_neg loose, endStatement, if_neg noSemicolon] at clean
    rw [settle, settle, if_neg loose, if_neg looseMark, endStatement, endStatement,
      if_neg noSemicolon, if_neg otherMark]
    exact takeStatement_ends
      { reader with stmts := head.stmt value :: reader.stmts, mode := .statement }
      line ends closes clean
  | cons frame frames ih =>
    have held := not_extends frame.one_le_strength weak
    have heldMark := not_extends frame.one_le_strength weakMark
    cases frame with
    | unary sign =>
      rw [settle, if_neg held] at clean
      rw [settle, settle, if_neg held, if_neg heldMark]
      exact ih _ clean
    | binary sign left =>
      rw [settle, if_neg held] at clean
      rw [settle, settle, if_neg held, if_neg heldMark]
      exact ih _ clean
    | group =>
      rw [settle, if_neg held, if_neg noParen] at clean
      exact absurd clean (errors_reject_ne _ _ _)
    | argument paren callee done =>
      rw [settle, if_neg held, if_neg noComma, if_neg noParen] at clean
      exact absurd clean (errors_reject_ne _ _ _)
    | test word =>
      rw [settle, if_neg held, if_neg noParen] at clean
      exact absurd clean (errors_reject_ne _ _ _)

/-- Where a closing token is no fault, whatever ends the list does the same. -/
theorem take_ends (reader : Reader) (line : Int) {mark brace : Token}
    (ends : reader.Ends mark.kind) (closes : brace.kind.Closes)
    (clean : (reader.take brace).errors = reader.errors) :
    (reader.onLine line).take mark = (reader.take brace).onLine line := by
  have same : (reader.onLine line).mode = reader.mode := rfl
  obtain ⟨-, -, noAssignMark, noElseMark, -⟩ := ends.closes.apart
  obtain ⟨-, -, noAssign, noElse, noParen, noComma, noName, noCall, noBrace⟩ := closes.apart
  cases mode : reader.mode with
  | statement =>
    simp only [take, mode, same] at clean ⊢
    exact takeStatement_ends _ line ends closes clean
  | named | alternative =>
    simp only [take, mode, same, noAssignMark, noElseMark, noAssign, noElse, if_false] at clean ⊢
    exact settle_ends _ line _ _ _ ends closes clean
  | after =>
    simp only [take, mode, same] at clean ⊢
    exact settle_ends _ line _ _ _ ends closes clean
  | operand | firstArgument =>
    simp only [take, mode, noParen, if_false] at clean
    exact absurd clean (errors_takeOperand_ne _ _ closes)
  | finished => simp only [take, mode, same]
  | _ =>
    simp only [take, mode, noAssign, noParen, noComma, noName, noCall, noBrace, if_false] at clean
    exact absurd clean (errors_reject_ne _ _ _)

/-- Where closing braces are no faults, as many end marks do the same. -/
theorem run_marks (reader : Reader) (line : Int) (brace : Token)
    (closes : brace.kind.Closes) (marks : List Token)
    (ends : ∀ mark ∈ marks, mark.kind = .eof)
    (clean : (reader.run (List.replicate marks.length brace)).errors = reader.errors) :
    ∃ last, (reader.onLine line).run marks =
      (reader.run (List.replicate marks.length brace)).onLine last := by
  induction marks generalizing reader line with
  | nil => exact ⟨line, rfl⟩
  | cons mark marks ih =>
    rw [List.length_cons, List.replicate_succ, run_cons] at clean ⊢
    have grown : (reader.step brace).errors <:+
        ((reader.step brace).run (List.replicate marks.length brace)).errors := run_errors _ _
    have kept : (reader.take brace).errors = reader.errors := by
      have before := reader.take_errors brace
      rw [clean] at grown
      exact grown.eq_of_length_le before.length_le
    have same : (reader.onLine line).step mark = (reader.step brace).onLine mark.line := by
      rw [step, take_ends reader line (.inl (ends mark List.mem_cons_self)) closes kept]
      rfl
    rw [run_cons, same]
    apply ih
    · exact fun other later => ends other (List.mem_cons_of_mem mark later)
    · rw [clean]
      exact kept.symm

/-! ## The end of the program -/

/-- A reader whose program has ended takes tokens without effect. -/
theorem run_finished (reader : Reader) (done : reader.mode = .finished) (tokens : List Token) :
    ∃ line, reader.run tokens = reader.onLine line := by
  induction tokens generalizing reader with
  | nil => exact ⟨reader.line, rfl⟩
  | cons token tokens ih =>
    have step : reader.step token = reader.onLine token.line := by
      simp [step, take, done, onLine]
    rw [run_cons, step]
    exact ih (reader.onLine token.line) done

/-- What was read stays so once the program has ended. -/
theorem reading_run_finished (reader : Reader) (done : reader.mode = .finished)
    (tokens : List Token) : (reader.run tokens).reading = reader.reading := by
  obtain ⟨line, ran⟩ := reader.run_finished done tokens
  rw [ran]
  rfl

/-- The end marks that are needed to end the program. -/
def owed (reader : Reader) : Nat :=
  match reader.mode with
  | .finished => 0
  | .operand _ | .firstArgument _ _ _ => reader.levels.length + 2
  | _ => reader.levels.length + 1

/-- At most two more end marks than open blocks are needed. -/
theorem owed_le (reader : Reader) : reader.owed ≤ reader.levels.length + 2 := by
  unfold owed
  split <;> omega

/-- The program has ended when no end mark is needed. -/
theorem finished_of_owed {reader : Reader} (none : reader.owed = 0) : reader.mode = .finished := by
  unfold owed at none
  split at none
  · assumption
  all_goals omega

/-- An end mark at a statement closes the innermost list. -/
theorem takeStatement_owed (reader : Reader) {mark : Token} (ends : mark.kind = .eof) :
    (reader.takeStatement mark).owed = reader.levels.length := by
  cases levels : reader.levels with
  | nil => simp [takeStatement, ends, levels, owed]
  | cons level outer =>
    obtain ⟨stmts, pending, site, brace⟩ := level
    cases site <;> simp [takeStatement, ends, levels, closeBlock, Site.mode, owed]

/-- An end mark after an operand closes the innermost list. -/
theorem settle_owed (reader : Reader) (head : Head) (frames : List Frame) (value : Expr)
    {mark : Token} (ends : mark.kind = .eof) :
    (reader.settle head frames value mark).owed = reader.levels.length := by
  have weak : mark.kind.strength = 1 := by rw [ends]; rfl
  induction frames generalizing value with
  | nil =>
    rw [settle, if_neg (not_extends (Nat.le_refl Kind.loosest) weak), endStatement,
      if_neg (by simp [ends])]
    exact takeStatement_owed _ ends
  | cons frame frames ih =>
    have held := not_extends frame.one_le_strength weak
    cases frame with
    | unary sign =>
      rw [settle, if_neg held]
      exact ih _
    | binary sign left =>
      rw [settle, if_neg held]
      exact ih _
    | group | test word =>
      rw [settle, if_neg held, if_neg (by simp [ends])]
      exact takeStatement_owed _ ends
    | argument paren callee done =>
      rw [settle, if_neg held, if_neg (by simp [ends]), if_neg (by simp [ends])]
      exact takeStatement_owed _ ends

/-- An end mark brings the end one mark nearer. -/
theorem take_owed (reader : Reader) {mark : Token} (ends : mark.kind = .eof) :
    (reader.take mark).owed = reader.owed - 1 := by
  cases mode : reader.mode with
  | statement =>
    simp only [take, mode, owed]
    exact takeStatement_owed _ ends
  | named | alternative =>
    simp only [take, mode, ends, reduceCtorEq, if_false]
    rw [settle_owed _ _ _ _ ends, owed, mode]
    rfl
  | after =>
    simp only [take, mode]
    rw [settle_owed _ _ _ _ ends, owed, mode]
    rfl
  | operand | firstArgument => simp [take, mode, ends, takeOperand, fail, owed]
  | finished => simp [take, mode, owed]
  | _ =>
    simp only [take, mode, ends, reduceCtorEq, if_false]
    rw [reject, takeStatement_owed _ ends, owed, mode]
    rfl

/-- End marks bring the end nearer, each by one. -/
theorem run_owed (reader : Reader) (marks : List Token) (ends : ∀ mark ∈ marks, mark.kind = .eof) :
    (reader.run marks).owed = reader.owed - marks.length := by
  induction marks generalizing reader with
  | nil => rfl
  | cons mark marks ih =>
    have first : (reader.step mark).owed = reader.owed - 1 :=
      reader.take_owed (ends mark List.mem_cons_self)
    rw [run_cons, ih _ fun other later => ends other (List.mem_cons_of_mem mark later), first,
      List.length_cons]
    omega

/-- A reader that has taken the end marks it needs has ended the program. -/
theorem finished_of_owed_le (reader : Reader) (marks : List Token)
    (ends : ∀ mark ∈ marks, mark.kind = .eof) (enough : reader.owed ≤ marks.length) :
    (reader.run marks).mode = .finished := by
  apply finished_of_owed
  rw [reader.run_owed marks ends]
  omega

/-- The end of the input ends the program. -/
theorem finish_mode (reader : Reader) (line : Int) : (reader.finish line).mode = .finished := by
  apply finished_of_owed_le
  · intro mark member
    rw [List.eq_of_mem_replicate member]
    rfl
  · rw [List.length_replicate]
    exact reader.owed_le

end Reader

/-- Reading a list of tokens is taking them and then end marks until the program has ended. -/
theorem Program.ofTokens_eq_run (tokens : List Token) :
    ∃ marks : List Token, (∀ mark ∈ marks, mark.kind = .eof) ∧
      ((Reader.start.run tokens).run marks).mode = .finished ∧
      Program.ofTokens tokens = ((Reader.start.run tokens).run marks).reading := by
  refine ⟨_, ?_, Reader.finish_mode _ (Token.lastLine tokens), rfl⟩
  intro mark member
  rw [List.eq_of_mem_replicate member]
  rfl

/-- Reading a list that ends with an end mark is taking the others and then the mark, again and
again until the program has ended. -/
theorem Program.ofTokens_snoc_eof (tokens : List Token) (line : Int) :
    ∃ count, ((Reader.start.run tokens).run (List.replicate count (Token.eof line))).mode =
        .finished ∧
      Program.ofTokens (tokens ++ [Token.eof line]) =
        ((Reader.start.run tokens).run (List.replicate count (Token.eof line))).reading := by
  have last : Token.lastLine (tokens ++ [Token.eof line]) = line := by
    simp [Token.lastLine, Token.eof]
  have same : (Reader.start.run (tokens ++ [Token.eof line])).finish line =
      (Reader.start.run tokens).run (List.replicate
        ((Reader.start.run (tokens ++ [Token.eof line])).levels.length + 2 + 1)
          (Token.eof line)) := by
    rw [List.replicate_succ, Reader.run_append]
    rfl
  refine ⟨(Reader.start.run (tokens ++ [Token.eof line])).levels.length + 2 + 1, ?_⟩
  rw [← same, Program.ofTokens, last]
  exact ⟨Reader.finish_mode _ line, rfl⟩

end Lengua
