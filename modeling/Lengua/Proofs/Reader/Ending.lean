import Lengua.Proofs.Reader.Pull
import Mathlib.Data.List.Forall2

/-!
# The line on which the input ends

A list of tokens need not hold an end mark: the input then ends on the line of its last
token, while the end mark of a text stands on the last line of the text. The line of the
end marks is seen nowhere but in faults. Two readers that differ at most in the lines of
their faults, and in the line of the last token, still do so when each takes an end mark
of its own; so both read the same program, and the same faults on perhaps other lines.
-/

namespace Lengua

namespace SyntaxError

/-- The same fault on another line. -/
def onLine (error : SyntaxError) (line : Int) : SyntaxError :=
  match error with
  | unexpected wanted found _ => unexpected wanted found line
  | noOperand token => noOperand { token with line }
  | notInteger token => notInteger { token with line }

/-- The cause of a fault does not depend on its line. -/
@[simp] theorem cause_onLine (error : SyntaxError) (line : Int) :
    (error.onLine line).cause = error.cause := by
  cases error <;> rfl

/-- Faults that differ at most in their lines. -/
def Moved (first second : SyntaxError) : Prop := first.onLine second.line = second

/-- A fault differs from itself in nothing. -/
theorem Moved.refl (error : SyntaxError) : error.Moved error := by
  cases error <;> rfl

/-- The reports of such faults differ at most in the number of the line. -/
theorem Moved.message {first second : SyntaxError} (moved : first.Moved second) :
    ∃ words, first.message = words ++ Text.ofInt first.line ∧
      second.message = words ++ Text.ofInt second.line := by
  refine ⟨first.cause ++ utf8 " cerca de la línea ", rfl, ?_⟩
  have cause : first.cause = second.cause := by rw [← moved, cause_onLine]
  rw [SyntaxError.message, cause]

end SyntaxError

namespace Reader

/-- Readers that differ at most in the lines of their faults and of their last tokens. -/
structure Alike (first second : Reader) : Prop where
  /-- The same lists are interrupted. -/
  levels : first.levels = second.levels
  /-- The same statements are finished. -/
  stmts : first.stmts = second.stmts
  /-- The same may come next. -/
  mode : first.mode = second.mode
  /-- The same faults were found. -/
  errors : List.Forall₂ SyntaxError.Moved first.errors second.errors

namespace Alike

variable {first second : Reader}

/-- A reader differs from itself in nothing. -/
theorem refl (reader : Reader) : reader.Alike reader :=
  ⟨rfl, rfl, rfl, List.forall₂_same.mpr fun error _ => .refl error⟩

/-- The same fault leaves them alike. -/
theorem fail (alike : first.Alike second) {error other : SyntaxError} (moved : error.Moved other) :
    (first.fail error).Alike (second.fail other) :=
  ⟨alike.levels, alike.stmts, rfl, .cons moved alike.errors⟩

variable (line other : Int)

/-- An end mark where a statement is wanted. -/
theorem takeStatement (alike : first.Alike second) :
    (first.takeStatement (Token.eof line)).Alike (second.takeStatement (Token.eof other)) := by
  cases levels : first.levels with
  | nil =>
    have levels' := alike.levels.symm.trans levels
    simp only [Reader.takeStatement, Token.eof, levels, levels']
    exact ⟨rfl, alike.stmts, rfl, alike.errors⟩
  | cons level outer =>
    have levels' := alike.levels.symm.trans levels
    simp only [Reader.takeStatement, Token.eof, levels, levels', closeBlock, alike.stmts]
    exact ⟨rfl, rfl, rfl, alike.errors⟩

/-- An end mark in place of a wanted token. -/
theorem reject (alike : first.Alike second) (wanted : Kind) :
    (first.reject wanted (Token.eof line)).Alike (second.reject wanted (Token.eof other)) :=
  (alike.fail (by rfl)).takeStatement line other

/-- An end mark where an operand is wanted. -/
theorem takeOperand (alike : first.Alike second) (pending : Pending) :
    (first.takeOperand pending (Token.eof line)).Alike
      (second.takeOperand pending (Token.eof other)) :=
  alike.fail (by rfl)

/-- An end mark after an operand. -/
theorem settle (alike : first.Alike second) (head : Head) (frames : List Frame) (value : Expr) :
    (first.settle head frames value (Token.eof line)).Alike
      (second.settle head frames value (Token.eof other)) := by
  have weak (line : Int) : (Token.eof line).kind.strength = 1 := rfl
  induction frames generalizing value with
  | nil =>
    have loose (line : Int) := not_extends (Nat.le_refl Kind.loosest) (weak line)
    rw [Reader.settle, Reader.settle, if_neg (loose line), if_neg (loose other)]
    exact takeStatement line other
      ⟨alike.levels, congrArg (head.stmt value :: ·) alike.stmts, rfl, alike.errors⟩
  | cons frame frames ih =>
    have held (line : Int) := not_extends frame.one_le_strength (weak line)
    cases frame with
    | unary | binary =>
      rw [Reader.settle, Reader.settle, if_neg (held line), if_neg (held other)]
      exact ih _
    | group | argument | test =>
      rw [Reader.settle, Reader.settle, if_neg (held line), if_neg (held other)]
      exact alike.reject line other _

/-- An end mark in any mode. -/
theorem take (alike : first.Alike second) :
    (first.take (Token.eof line)).Alike (second.take (Token.eof other)) := by
  have same := alike.mode
  cases mode : first.mode with
  | statement =>
    rw [Reader.take, Reader.take, ← same, mode]
    exact alike.takeStatement line other
  | named | after | alternative =>
    rw [Reader.take, Reader.take, ← same, mode]
    exact alike.settle line other _ _ _
  | operand pending =>
    rw [Reader.take, Reader.take, ← same, mode]
    exact alike.takeOperand line other pending
  | firstArgument pending paren callee =>
    rw [Reader.take, Reader.take, ← same, mode]
    exact alike.takeOperand line other (pending.push (.argument paren callee []))
  | finished =>
    rw [Reader.take, Reader.take, ← same, mode]
    exact alike
  | _ =>
    rw [Reader.take, Reader.take, ← same, mode]
    exact alike.reject line other _

/-- End marks, as many for the one as for the other. -/
theorem run (alike : first.Alike second) (count : Nat) :
    (first.run (List.replicate count (Token.eof line))).Alike
      (second.run (List.replicate count (Token.eof other))) := by
  induction count generalizing first second with
  | zero => exact alike
  | succ count ih =>
    have taken := alike.take line other
    exact ih ⟨taken.levels, taken.stmts, taken.mode, taken.errors⟩

/-- Alike readers have read the same program, and the same faults up to their lines. -/
theorem reading (alike : first.Alike second) :
    first.reading.program = second.reading.program ∧
      List.Forall₂ SyntaxError.Moved first.reading.errors second.reading.errors := by
  refine ⟨?_, List.forall₂_reverse_iff.mpr alike.errors⟩
  rw [Reader.reading, Reader.reading, Reader.program, Reader.program, alike.levels, alike.stmts]

end Alike

end Reader

/-- Tokens are read to the same program with an end mark behind them or without one, and to the
same faults up to their lines. -/
theorem Program.ofTokens_unmarked (tokens : List Token) (line : Int) :
    (Program.ofTokens tokens).program =
        (Program.ofTokens (tokens ++ [Token.eof line])).program ∧
      List.Forall₂ SyntaxError.Moved (Program.ofTokens tokens).errors
        (Program.ofTokens (tokens ++ [Token.eof line])).errors := by
  obtain ⟨count, done, marked⟩ := Program.ofTokens_snoc_eof tokens line
  let owed := (Reader.start.run tokens).levels.length + 2
  have unmarked : ((Reader.start.run tokens).finish (Token.lastLine tokens)).Alike
      ((Reader.start.run tokens).finish line) := (Reader.Alike.refl _).run _ _ owed
  have same : ((Reader.start.run tokens).finish line).reading =
      ((Reader.start.run tokens).run (List.replicate count (Token.eof line))).reading :=
    Reader.reading_replicate _ _ _ _ (Reader.finish_mode _ line) done
  rw [marked, ← same]
  exact unmarked.reading

/-- Reading a text token by token, and reading the list of all its tokens, give the same program
and the same faults. Without its end mark the list is read to that program, too, and to as many
faults, which differ from the others at most in their lines. -/
theorem Program.ofText_tokens (source : Text) :
    Program.ofText source = Program.ofTokens (Token.scan source) ∧
      ∃ tokens line, Token.scan source = tokens ++ [Token.eof line] ∧
        (Program.ofTokens tokens).program = (Program.ofText source).program ∧
        List.Forall₂ (fun first second => first.onLine second.line = second ∧
            ∃ words, first.message = words ++ Text.ofInt first.line ∧
              second.message = words ++ Text.ofInt second.line)
          (Program.ofTokens tokens).errors (Program.ofText source).errors := by
  obtain ⟨tokens, line, scanned, -⟩ := Token.exists_scan_eq source
  obtain ⟨program, errors⟩ := Program.ofTokens_unmarked tokens line
  have read := Program.ofText_eq source
  refine ⟨read, tokens, line, scanned, ?_⟩
  rw [read, scanned]
  exact ⟨program, errors.imp fun _ _ moved => ⟨moved, moved.message⟩⟩

end Lengua
