import Lengua.Proofs.Reader.Run

/-!
# What a token does to a statement

A reader is between statements or within one. Within a statement there are six things that a token
can do (`Reader.Turn`): the statement goes on, it goes on inside a block that the token opens, and
it is dropped or kept, with the token or before it. In the last two cases the token is taken again
between statements, where it ends the list of statements or begins a statement.

These are the effects that a token has in any mode (`Reader.take_effect`), told of the reader that
comes out, together with how many statements the parts hold that are handed on. So the statements
can be counted: a reader never holds more statements, begun statements and faults than it has taken
tokens other than end marks.
-/

namespace Lengua

/-- How many things a token can be spent on: one, and none if it is an end mark. -/
def Token.worth (token : Token) : Nat := if token.kind ≠ .eof then 1 else 0

namespace Reader

/-! ## Turns -/

/-- What can become of a statement with a token that belongs to it and opens no block. The parts
that are handed on have at most `held` statements. -/
inductive Advance (reader : Reader) (held : Nat) : Reader → Prop where
  /-- The statement goes on. -/
  | goes {mode : Mode} (within : mode.Within) (fewer : mode.statements ≤ held) :
      Advance reader held { reader with mode }
  /-- The statement is dropped. -/
  | drops (error : SyntaxError) : Advance reader held (reader.fail error)

/-- What can become of a statement with a token. -/
inductive Turn (reader : Reader) (token : Token) (held : Nat) : Reader → Prop where
  /-- The token belongs to the statement and opens no block. -/
  | advances {next : Reader} (advance : reader.Advance held next) : Turn reader token held next
  /-- The token opens a block in the statement. -/
  | opens {pending : Pending} {site : Site} (brace : token.kind = .leftBrace)
      (fewer : pending.statements + site.statements + 1 ≤ held) :
      Turn reader token held (reader.openBlock pending site token)
  /-- The statement is kept with the token. -/
  | keeps {stmt : Stmt} (fewer : stmt.statements ≤ held) : Turn reader token held (reader.keep stmt)
  /-- The statement is dropped, and the token comes after it. -/
  | dropsBefore (error : SyntaxError) :
      Turn reader token held ((reader.fail error).takeStatement token)
  /-- The statement is kept, and the token comes after it. -/
  | keepsBefore {stmt : Stmt} (fewer : stmt.statements ≤ held) :
      Turn reader token held ((reader.keep stmt).takeStatement token)

/-- The first token of an operand. -/
theorem takeOperand_advance (reader : Reader) (pending : Pending) (token : Token) :
    reader.Advance (pending.statements + 1) (reader.takeOperand pending token) := by
  unfold takeOperand
  split
  case h_2 =>
    split
    · exact .goes trivial (Nat.le_refl _)
    · exact .drops _
  case h_7 | h_8 | h_9 =>
    exact .goes trivial (by simp [Mode.statements, Frame.statements])
  case h_12 => exact .drops _
  all_goals exact .goes trivial (Nat.le_refl _)

/-- The first token of a statement. -/
theorem takeStatement_advance {reader : Reader} {token : Token}
    (begins : ¬ reader.Ends token.kind) : reader.Advance 1 (reader.takeStatement token) := by
  unfold takeStatement
  split
  case h_1 mark => exact absurd (.inl mark) begins
  case h_2 brace =>
    split
    · exact .drops _
    case h_2 level outer interrupted =>
      exact absurd (.inr ⟨brace, by simp [interrupted]⟩) begins
  case h_6 => exact takeOperand_advance reader ⟨.expr token, []⟩ token
  all_goals exact .goes trivial (Nat.le_refl _)

/-- A token within a statement. -/
theorem take_turn {reader : Reader} {token : Token} (within : reader.mode.Within) :
    reader.Turn token reader.mode.statements (reader.take token) := by
  obtain ⟨effect, fits, fewer, same⟩ := take_effect within reader.line token
  rw [same reader rfl rfl]
  cases effect with
  | goes mode => exact .advances (.goes fits.1 fewer)
  | opens pending site => exact .opens fits fewer
  | drops error => exact .advances (.drops error)
  | keeps stmt => exact .keeps fewer
  | dropsBefore error => exact .dropsBefore error
  | keepsBefore stmt => exact .keepsBefore fewer

/-- What ends a list of statements ends the program or a block. -/
theorem takeStatement_of_ends {reader : Reader} {token : Token} (ends : reader.Ends token.kind) :
    (reader.levels = [] ∧ token.kind = .eof ∧
        reader.takeStatement token = { reader with mode := .finished }) ∨
      ∃ level outer, reader.levels = level :: outer ∧
        reader.takeStatement token = reader.closeBlock level outer := by
  cases levels : reader.levels with
  | nil =>
    rcases ends with mark | ⟨-, inside⟩
    · exact .inl ⟨rfl, mark, by simp only [takeStatement, mark, levels]⟩
    · exact absurd levels inside
  | cons level outer =>
    refine .inr ⟨level, outer, rfl, ?_⟩
    rcases ends with mark | ⟨brace, -⟩
    · simp only [takeStatement, mark, levels]
    · simp only [takeStatement, brace, levels]

/-! ## What tokens are spent on -/

/-- What was spent before the current statement: a token on each fault, on each statement and on
each block. -/
def spentBefore (reader : Reader) : Nat :=
  reader.errors.length + Stmt.statementsAll reader.stmts + Level.statementsAll reader.levels

/-- What was spent so far. -/
def spent (reader : Reader) : Nat := reader.spentBefore + reader.mode.statements

/-- A fault is one more thing that was spent on. -/
theorem spentBefore_fail (reader : Reader) (error : SyntaxError) :
    (reader.fail error).spentBefore = reader.spentBefore + 1 := by
  simp only [spentBefore, fail, List.length_cons]
  omega

/-- A statement that is kept was spent on with all statements in it. -/
theorem spentBefore_keep (reader : Reader) (stmt : Stmt) :
    (reader.keep stmt).spentBefore = reader.spentBefore + stmt.statements := by
  simp only [spentBefore, keep, Stmt.statementsAll]
  omega

/-- Nothing is spent on the end of a block. -/
theorem spent_closeBlock {reader : Reader} {level : Level} {outer : List Level}
    (levels : reader.levels = level :: outer) :
    (reader.closeBlock level outer).spent = reader.spentBefore := by
  obtain ⟨stmts, pending, site, brace⟩ := level
  cases site <;>
    simp only [spent, spentBefore, closeBlock, levels, Site.mode, Mode.statements, Expr.statements,
      Block.statements, Stmt.statementsAll_reverse, Level.statementsAll, Level.statements,
      Site.statements] <;>
    omega

/-- Nothing is spent on a token that belongs to a statement and opens no block. -/
theorem Advance.spent_le {reader next : Reader} {held : Nat} (advance : reader.Advance held next)
    (begun : 1 ≤ held) : next.spent ≤ reader.spentBefore + held := by
  cases advance with
  | goes within fewer => exact Nat.add_le_add_left fewer reader.spentBefore
  | drops error =>
    have dropped : (reader.fail error).spent = reader.spentBefore + 1 := spentBefore_fail _ _
    omega

/-- A token between statements is spent on one thing at most, and an end mark on none. -/
theorem takeStatement_spent (reader : Reader) (token : Token) :
    (reader.takeStatement token).spent ≤ reader.spentBefore + token.worth := by
  by_cases ends : reader.Ends token.kind
  · rcases takeStatement_of_ends ends with ⟨-, -, finishes⟩ | ⟨level, outer, levels, closes⟩
    · rw [finishes]
      exact Nat.le_add_right _ _
    · rw [closes, spent_closeBlock levels]
      exact Nat.le_add_right _ _
  · have worth : token.worth = 1 := if_pos fun mark => ends (.inl mark)
    rw [worth]
    exact (takeStatement_advance ends).spent_le (Nat.le_refl 1)

/-- A token within a statement is spent on one thing at most, and an end mark on none. -/
theorem Turn.spent_le {reader next : Reader} {token : Token} {held : Nat}
    (turn : reader.Turn token held next) (begun : 1 ≤ held) :
    next.spent ≤ reader.spentBefore + held + token.worth := by
  cases turn with
  | advances advance =>
    have same := advance.spent_le begun
    omega
  | @opens pending site brace fewer =>
    -- The block counts as one, which is what the brace is spent on.
    have worth : token.worth = 1 := by simp [Token.worth, brace]
    have opened : (reader.openBlock pending site token).spent =
        reader.spentBefore + (pending.statements + site.statements + 2) := by
      simp only [spent, spentBefore, openBlock, Stmt.statementsAll, Level.statementsAll,
        Level.statements, Mode.statements]
      omega
    omega
  | @keeps stmt fewer =>
    have kept : (reader.keep stmt).spent = reader.spentBefore + stmt.statements :=
      spentBefore_keep _ _
    omega
  | dropsBefore error =>
    have after := (reader.fail error).takeStatement_spent token
    rw [spentBefore_fail] at after
    omega
  | @keepsBefore stmt fewer =>
    have after := (reader.keep stmt).takeStatement_spent token
    rw [spentBefore_keep] at after
    omega

/-- A token is spent on one thing at most, and an end mark on none. -/
theorem take_spent (reader : Reader) (token : Token) :
    (reader.take token).spent ≤ reader.spent + token.worth := by
  rcases reader.mode.cases_within with between | finished | within
  · have none : reader.spent = reader.spentBefore := by
      rw [spent, between, Mode.statements, Nat.add_zero]
    rw [take_between between, none]
    exact reader.takeStatement_spent token
  · rw [take_done finished]
    exact Nat.le_add_right _ _
  · exact (take_turn within).spent_le within.one_le

/-- Tokens are spent on as many things at most as there are of them without the end marks. -/
theorem run_spent (reader : Reader) (tokens : List Token) :
    (reader.run tokens).spent ≤
      reader.spent + tokens.countP fun token => token.kind ≠ .eof := by
  induction tokens generalizing reader with
  | nil => exact Nat.le_refl _
  | cons token tokens ih =>
    have first : (reader.step token).spent ≤ reader.spent + token.worth := reader.take_spent token
    have others := ih (reader.step token)
    have counted : (token :: tokens).countP (fun token => token.kind ≠ .eof) =
        (tokens.countP fun token => token.kind ≠ .eof) + token.worth := by
      rw [List.countP_cons, Token.worth]
      simp only [decide_eq_true_eq]
    rw [run_cons, counted]
    omega

/-- The faults and the statements of a reading were spent on. -/
theorem reading_le_spent (reader : Reader) :
    reader.reading.errors.length + reader.reading.program.statements ≤ reader.spent := by
  have listed : Stmt.statementsAll ((reader.levels.getLast?.map Level.stmts).getD reader.stmts) ≤
      Stmt.statementsAll reader.stmts + Level.statementsAll reader.levels := by
    cases outermost : reader.levels.getLast? with
    | none => exact Nat.le_add_right _ _
    | some level =>
      have counted := Level.statements_le (List.mem_of_getLast? outermost)
      have inside : Stmt.statementsAll level.stmts ≤ level.statements := by
        rw [Level.statements]
        omega
      simp only [Option.map_some, Option.getD_some]
      omega
  simp only [reading, program, Program.statements, List.length_reverse,
    Stmt.statementsAll_reverse, spent, spentBefore]
  omega

end Reader

/-- The faults and the statements at any depth of a reading are no more than the tokens that are no
end marks. -/
theorem Program.statements_ofTokens_le (tokens : List Token) :
    (Program.ofTokens tokens).errors.length + (Program.ofTokens tokens).program.statements ≤
      tokens.countP fun token => token.kind ≠ .eof := by
  obtain ⟨marks, ends, -, same⟩ := Program.ofTokens_eq_run tokens
  have none : (marks.countP fun token => token.kind ≠ .eof) = 0 := by
    apply List.countP_eq_zero.mpr
    intro mark member
    simp [ends mark member]
  have counted := Reader.start.run_spent (tokens ++ marks)
  rw [Reader.run_append, List.countP_append, none] at counted
  have empty : Reader.start.spent = 0 := rfl
  have within := ((Reader.start.run tokens).run marks).reading_le_spent
  rw [same]
  omega

end Lengua
