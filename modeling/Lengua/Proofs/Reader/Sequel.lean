import Lengua.Proofs.Concatenation
import Lengua.Proofs.Reader.Ending
import Lengua.Proofs.Reader.Turn
import Mathlib.Data.Fintype.EquivFin

/-!
# What comes after

Tokens that are read without a fault, close all their blocks and end with a semicolon leave the
reader as it was at the start, but for the statements that it has kept. Those lie below all that
comes later, and a reader goes on in the same way whatever statements lie there
(`Reader.run_behind`). So whatever tokens follow are read as if they stood alone, faults and all.

An end mark is no such boundary. It ends the program where it comes between the statements of the
outermost list. Inside a block it closes the block, and where an operand is wanted it is at fault
like any other token, and what follows it is read on.
-/

namespace Lengua

namespace Reader

/-! ## Statements below -/

/-- Interrupted lists whose outermost one began with other statements, which come latest first. -/
def Level.behind (before : List Stmt) : List Level → List Level
  | [] => []
  | [level] => [{ level with stmts := level.stmts ++ before }]
  | level :: next :: outer => level :: Level.behind before (next :: outer)

/-- The reader as if the outermost list had begun with other statements, which come latest first. -/
def behind (before : List Stmt) (reader : Reader) : Reader :=
  match reader.levels with
  | [] => { reader with stmts := reader.stmts ++ before }
  | level :: outer => { reader with levels := Level.behind before (level :: outer) }

section

variable (before : List Stmt) (reader : Reader)

/-- As many lists are interrupted. -/
theorem Level.length_behind (levels : List Level) :
    (Level.behind before levels).length = levels.length := by
  fun_induction Level.behind before levels with
  | case1 | case2 => rfl
  | case3 level next outer ih => exact congrArg (· + 1) ih

/-- As many blocks are open. -/
@[simp] theorem behind_length : (reader.behind before).levels.length = reader.levels.length := by
  obtain ⟨levels, stmts, mode, errors, line⟩ := reader
  cases levels with
  | nil => rfl
  | cons level outer => exact Level.length_behind before (level :: outer)

/-- The same may come next. -/
@[simp] theorem behind_mode : (reader.behind before).mode = reader.mode := by
  obtain ⟨levels, stmts, mode, errors, line⟩ := reader
  cases levels <;> rfl

/-- The last token was on the same line. -/
@[simp] theorem behind_line : (reader.behind before).line = reader.line := by
  obtain ⟨levels, stmts, mode, errors, line⟩ := reader
  cases levels <;> rfl

/-- The same faults were found. -/
@[simp] theorem behind_errors : (reader.behind before).errors = reader.errors := by
  obtain ⟨levels, stmts, mode, errors, line⟩ := reader
  cases levels <;> rfl

/-- The other statements come first in the program. -/
theorem behind_program :
    (reader.behind before).program.stmts = before.reverse ++ reader.program.stmts := by
  obtain ⟨levels, stmts, mode, errors, line⟩ := reader
  cases levels with
  | nil => exact List.reverse_append
  | cons level outer =>
    have last (level : Level) : ∀ outer : List Level,
        (((Level.behind before (level :: outer)).getLast?.map Level.stmts).getD stmts).reverse =
          before.reverse ++ (((level :: outer).getLast?.map Level.stmts).getD stmts).reverse := by
      intro outer
      induction outer generalizing level with
      | nil => exact List.reverse_append
      | cons next outer ih =>
        rw [List.getLast?_cons_cons, ← ih next]
        cases outer <;> rfl
    exact last level outer

/-- Another mode. -/
theorem behind_withMode (mode : Mode) :
    { reader.behind before with mode } = behind before { reader with mode } := by
  obtain ⟨levels, stmts, other, errors, line⟩ := reader
  cases levels <;> rfl

/-- Another line. -/
theorem behind_onLine (line : Int) :
    (reader.behind before).onLine line = (reader.onLine line).behind before := by
  obtain ⟨levels, stmts, mode, errors, other⟩ := reader
  cases levels <;> rfl

/-- A fault. -/
theorem behind_fail (error : SyntaxError) :
    (reader.behind before).fail error = (reader.fail error).behind before := by
  obtain ⟨levels, stmts, mode, errors, line⟩ := reader
  cases levels <;> rfl

/-- A statement that is kept. -/
theorem behind_keep (stmt : Stmt) :
    (reader.behind before).keep stmt = (reader.keep stmt).behind before := by
  obtain ⟨levels, stmts, mode, errors, line⟩ := reader
  cases levels <;> rfl

/-- The opening brace of a block. -/
theorem behind_openBlock (pending : Pending) (site : Site) (brace : Token) :
    (reader.behind before).openBlock pending site brace =
      (reader.openBlock pending site brace).behind before := by
  obtain ⟨levels, stmts, mode, errors, line⟩ := reader
  cases levels <;> rfl

/-- The first token of an operand. -/
theorem behind_takeOperand (pending : Pending) (token : Token) :
    (reader.behind before).takeOperand pending token =
      (reader.takeOperand pending token).behind before := by
  unfold takeOperand
  split
  case h_2 =>
    split
    · exact reader.behind_withMode before _
    · exact reader.behind_fail before _
  case h_12 => exact reader.behind_fail before _
  all_goals exact reader.behind_withMode before _

/-- A token between statements. -/
theorem behind_takeStatement (token : Token) :
    (reader.behind before).takeStatement token = (reader.takeStatement token).behind before := by
  cases kind : token.kind with
  | eof | rightBrace =>
    -- The block that is closed is the last one open, one around which others are, or none.
    obtain ⟨levels, stmts, mode, errors, line⟩ := reader
    rcases levels with _ | ⟨level, _ | ⟨next, outer⟩⟩ <;>
      simp only [takeStatement, kind, behind, Level.behind] <;> rfl
  | variableWord | ident | returnWord =>
    simp only [takeStatement, kind]
    exact reader.behind_withMode before _
  | _ =>
    simp only [takeStatement, kind]
    exact reader.behind_takeOperand before _ token

/-- A token within a statement. -/
theorem Effect.on_behind (effect : Effect) (token : Token) :
    effect.on (reader.behind before) token = (effect.on reader token).behind before := by
  cases effect with
  | goes mode => exact reader.behind_withMode before mode
  | opens pending site => exact reader.behind_openBlock before pending site token
  | drops error => exact reader.behind_fail before error
  | keeps stmt => exact reader.behind_keep before stmt
  | dropsBefore error => rw [on, on, behind_fail, behind_takeStatement]
  | keepsBefore stmt => rw [on, on, behind_keep, behind_takeStatement]

/-- A token in any mode. -/
theorem behind_take (token : Token) :
    (reader.behind before).take token = (reader.take token).behind before := by
  rcases reader.mode.cases_within with between | finished | within
  · have behind : (reader.behind before).mode = .statement := by rw [behind_mode, between]
    rw [take_between between, take_between behind, behind_takeStatement]
  · have behind : (reader.behind before).mode = .finished := by rw [behind_mode, finished]
    rw [take_done finished, take_done behind]
  · obtain ⟨effect, -, -, same⟩ := take_effect within reader.line token
    rw [same reader rfl rfl, same (reader.behind before) (by simp) (by simp), Effect.on_behind]

/-- Whatever statements lie below, tokens are read in the same way. -/
theorem run_behind (tokens : List Token) :
    (reader.behind before).run tokens = (reader.run tokens).behind before := by
  induction tokens generalizing reader with
  | nil => rfl
  | cons token tokens ih =>
    have first : (reader.behind before).step token = (reader.step token).behind before := by
      rw [step, behind_take]
      exact (reader.take token).behind_onLine before token.line
    rw [run_cons, run_cons, first, ih]

/-- Whatever statements lie below, the end of the input is read in the same way. -/
theorem finish_behind (line : Int) :
    (reader.behind before).finish line = (reader.finish line).behind before := by
  rw [finish, behind_length, run_behind]
  rfl

end

/-! ## Boundaries -/

/-- The line of the token before has no part in how a statement begins. -/
theorem takeStatement_onLine (reader : Reader) (line : Int) (token : Token) :
    (reader.onLine line).takeStatement token = (reader.takeStatement token).onLine line := by
  cases kind : token.kind with
  | eof | rightBrace =>
    obtain ⟨levels, stmts, mode, errors, other⟩ := reader
    cases levels <;> simp only [takeStatement, kind] <;> rfl
  | variableWord | ident | returnWord =>
    simp only [takeStatement, kind]
    rfl
  | int =>
    simp only [takeStatement, takeOperand, kind]
    cases Text.plainInteger? token.literal <;> rfl
  | _ =>
    simp only [takeStatement, takeOperand, kind]
    rfl

/-- Between statements tokens are read in the same way whatever line the one before was on. -/
theorem run_onLine {reader : Reader} (between : reader.mode = .statement) (line : Int)
    (token : Token) (tokens : List Token) :
    (reader.onLine line).run (token :: tokens) = reader.run (token :: tokens) := by
  have taken : (reader.onLine line).take token = (reader.take token).onLine line := by
    rw [take_between between, ← takeStatement_onLine]
    exact take_between between
  rw [run_cons, run_cons, step, taken]
  rfl

/-- Only an end mark between statements ends the program. -/
theorem takeStatement_finished {reader : Reader} {token : Token}
    (finished : (reader.takeStatement token).mode = .finished) : token.kind = .eof := by
  by_cases ends : reader.Ends token.kind
  · rcases takeStatement_of_ends ends with ⟨-, mark, -⟩ | ⟨level, outer, -, closes⟩
    · exact mark
    · rw [closes] at finished
      obtain ⟨stmts, pending, site, brace⟩ := level
      cases site <;> cases finished
  · have advance := takeStatement_advance ends
    generalize reader.takeStatement token = next at advance finished
    cases advance with
    | @goes mode within fewer =>
      rw [show mode = .finished from finished] at within
      exact within.elim
    | drops error => cases finished

/-- Only an end mark ends the program. -/
theorem take_finished {reader : Reader} {token : Token} (going : reader.mode ≠ .finished)
    (finished : (reader.take token).mode = .finished) : token.kind = .eof := by
  rcases reader.mode.cases_within with between | ended | within
  · rw [take_between between] at finished
    exact takeStatement_finished finished
  · exact absurd ended going
  · obtain ⟨effect, fits, -, same⟩ := take_effect within reader.line token
    rw [same reader rfl rfl] at finished
    cases effect with
    | goes mode =>
      rw [show mode = .finished from finished] at fits
      exact fits.1.elim
    | opens | drops | keeps => cases finished
    | dropsBefore | keepsBefore => exact takeStatement_finished finished

/-- Without an end mark the program goes on. -/
theorem run_unfinished {reader : Reader} (going : reader.mode ≠ .finished) {tokens : List Token}
    (endless : ∀ token ∈ tokens, token.kind ≠ .eof) : (reader.run tokens).mode ≠ .finished := by
  induction tokens generalizing reader with
  | nil => exact going
  | cons token tokens ih =>
    obtain ⟨first, others⟩ := List.forall_mem_cons.mp endless
    have goesOn : (reader.step token).mode ≠ .finished := fun finished =>
      first (take_finished going finished)
    exact ih goesOn others

/-- Behind a semicolon the reader is between statements, if no end mark has come before. -/
theorem run_ended {tokens : List Token} (endless : ∀ token ∈ tokens, token.kind ≠ .eof)
    (ended : tokens.getLast?.map Token.kind = some .semicolon) :
    (start.run tokens).mode = .statement := by
  obtain ⟨semicolon, last, kind⟩ := Option.map_eq_some_iff.mp ended
  obtain ⟨front, rfl⟩ := List.getLast?_eq_some_iff.mp last
  have going : (start.run front).mode ≠ .finished := by
    refine run_unfinished (by simp [start]) fun token member => ?_
    exact endless token (List.mem_append_left _ member)
  rw [run_append]
  exact take_semicolon kind going

/-- Tokens that are read without a fault, close their blocks and end with a semicolon leave the
reader as it was, but for the statements that they are read to. -/
theorem run_complete {tokens : List Token} (endless : ∀ token ∈ tokens, token.kind ≠ .eof)
    (clean : (Program.ofTokens tokens).errors = [])
    (ended : tokens.getLast?.map Token.kind = some .semicolon)
    (balanced : Token.count .leftBrace tokens = Token.count .rightBrace tokens) :
    ∃ line, start.run tokens =
      (start.behind (Program.ofTokens tokens).program.stmts.reverse).onLine line := by
  obtain ⟨program, moved⟩ := Program.ofTokens_unmarked tokens 0
  rw [clean, List.forall₂_nil_left_iff] at moved
  have spelled := Program.spelled_of_balanced 0 endless balanced moved
  rw [← program] at spelled
  have between := run_ended endless ended
  have marked := spelled.take_mark (show (Token.eof 0).kind = .eof from rfl)
  generalize (Program.ofTokens tokens).program.stmts = stmts at marked ⊢
  generalize start.run tokens = reader at between marked ⊢
  rw [take_between between] at marked
  obtain ⟨levels, kept, mode, errors, line⟩ := reader
  cases levels with
  | nil =>
    obtain ⟨-, rfl, -, rfl, -⟩ := Reader.mk.inj marked
    obtain rfl : mode = .statement := between
    exact ⟨line, rfl⟩
  | cons level outer =>
    -- The mark would close a block and not end the program.
    obtain ⟨-, -, closed, -⟩ := Reader.mk.inj marked
    obtain ⟨before, pending, site, brace⟩ := level
    cases site <;> cases closed

end Reader

/-- Tokens that are read without a fault, close their blocks and end with a semicolon are read to
their statements, whatever tokens follow. Those are read as if they stood alone: to the same
statements, which come behind, and to the same faults. -/
theorem Program.ofTokens_behind {first : List Token} (second : List Token)
    (endless : ∀ token ∈ first, token.kind ≠ .eof)
    (clean : (Program.ofTokens first).errors = [])
    (ended : first.getLast?.map Token.kind = some .semicolon)
    (balanced : Token.count .leftBrace first = Token.count .rightBrace first) :
    (Program.ofTokens (first ++ second)).program.stmts =
        (Program.ofTokens first).program.stmts ++ (Program.ofTokens second).program.stmts ∧
      (Program.ofTokens (first ++ second)).errors = (Program.ofTokens second).errors := by
  cases second with
  | nil =>
    rw [List.append_nil]
    exact ⟨(List.append_nil _).symm, clean⟩
  | cons token tokens =>
    obtain ⟨line, ran⟩ := Reader.run_complete endless clean ended balanced
    have last : Token.lastLine (first ++ token :: tokens) = Token.lastLine (token :: tokens) := by
      rw [Token.lastLine, Token.lastLine, List.getLast?_append_of_ne_nil _ (List.cons_ne_nil _ _)]
    have whole : Reader.start.run (first ++ token :: tokens) =
        (Reader.start.run (token :: tokens)).behind
          (Program.ofTokens first).program.stmts.reverse := by
      rw [Reader.run_append, ran, Reader.run_onLine (Reader.behind_mode _ _), Reader.run_behind]
    rw [Program.ofTokens, whole, last, Reader.finish_behind]
    constructor
    · exact (Reader.behind_program _ _).trans (by rw [List.reverse_reverse]; rfl)
    · exact congrArg List.reverse (Reader.behind_errors _ _)

/-- A procedure stands before tokens that begin with a fault. -/
theorem Program.ofTokens_behind_fault :
    let procedure : List Token := [⟨.procedureWord, utf8 "procedimiento", 1⟩,
      ⟨.leftParen, utf8 "(", 1⟩, ⟨.rightParen, utf8 ")", 1⟩, ⟨.leftBrace, utf8 "\x7b", 1⟩,
      ⟨.rightBrace, utf8 "\x7d", 2⟩, ⟨.semicolon, utf8 ";", 2⟩]
    let comma : Token := ⟨.comma, utf8 ",", 3⟩
    let faulty : List Token := [comma, ⟨.nullWord, utf8 "nulo", 4⟩]
    (Program.ofTokens (procedure ++ faulty)).program.stmts =
        (Program.ofTokens procedure).program.stmts ++ (Program.ofTokens faulty).program.stmts ∧
      (Program.ofTokens (procedure ++ faulty)).errors = [.noOperand comma] :=
  Program.ofTokens_behind _ (by decide) rfl rfl rfl

namespace Reader

/-! ## End marks -/

/-- An operand is wanted. -/
def Mode.WantsOperand : Mode → Prop
  | .operand _ | .firstArgument _ _ _ => True
  | _ => False

/-- An end mark ends the program where no block is open and no operand is wanted. -/
theorem take_mark_finished {reader : Reader} {mark : Token} (ends : mark.kind = .eof)
    (going : reader.mode ≠ .finished) :
    (reader.take mark).mode = .finished ↔ reader.levels = [] ∧ ¬ reader.mode.WantsOperand := by
  have done (reader : Reader) : reader.mode = .finished ↔ reader.owed = 0 :=
    ⟨fun finished => by rw [owed, finished], finished_of_owed⟩
  have marks : reader.owed ≤ 1 ↔ reader.levels = [] ∧ ¬ reader.mode.WantsOperand := by
    cases mode : reader.mode with
    | finished => exact absurd mode going
    | _ => simp [owed, mode, Mode.WantsOperand]
  rw [done, reader.take_owed ends, ← marks]
  omega

/-- Only tokens that were taken are reported to start no operand. -/
theorem run_noOperand {reader : Reader} {tokens : List Token} {token : Token}
    (found : .noOperand token ∈ (reader.run tokens).errors) :
    .noOperand token ∈ reader.errors ∨ token ∈ tokens := by
  induction tokens generalizing reader with
  | nil => exact .inl found
  | cons first tokens ih =>
    rcases ih found with before | later
    · obtain ⟨own, missed, errors, isOf, unexpected⟩ := reader.take_found first
      rw [step, errors] at before
      rcases List.mem_append.mp before with new | old
      · cases isOf _ new
        exact .inr List.mem_cons_self
      rcases List.mem_append.mp old with new | old
      · obtain ⟨-, wanted, same⟩ := unexpected _ new
        cases same
      · exact .inl old
    · exact .inr (List.mem_cons_of_mem first later)

/-- Of two semicolons in a row the second is at fault, as long as the program has not ended. -/
theorem run_semicolons {reader : Reader} (going : reader.mode ≠ .finished) (token : Token)
    (kind : token.kind = .semicolon) :
    .noOperand token ∈ (reader.run (List.replicate 2 token)).errors := by
  have between : (reader.step token).mode = .statement := take_semicolon kind going
  have second : ((reader.step token).step token).errors =
      .noOperand token :: (reader.step token).errors := by
    rw [step, take_between between, takeStatement_semicolon _ kind]
    rfl
  exact second ▸ List.mem_cons_self

end Reader

/-- Only tokens of the list are reported to start no operand, and end marks. -/
theorem Program.ofTokens_noOperand {tokens : List Token} {token : Token}
    (found : .noOperand token ∈ (Program.ofTokens tokens).errors) :
    token ∈ tokens ∨ token.kind = .eof := by
  rcases Reader.run_noOperand (List.mem_reverse.mp found) with before | mark
  · rcases Reader.run_noOperand before with none | member
    · exact absurd none List.not_mem_nil
    · exact .inl member
  · rw [List.eq_of_mem_replicate mark]
    exact .inr rfl

/-- What follows the first end mark is read on, unless the mark comes where no block is open and no
operand is wanted. Then the program ends with it. -/
theorem Program.ofTokens_marked {tokens : List Token} {mark : Token}
    (endless : ∀ token ∈ tokens, token.kind ≠ .eof) (ends : mark.kind = .eof) :
    (∀ rest, Program.ofTokens (tokens ++ mark :: rest) = Program.ofTokens (tokens ++ [mark])) ↔
      (Reader.start.run tokens).levels = [] ∧
        ¬ (Reader.start.run tokens).mode.WantsOperand := by
  have going : (Reader.start.run tokens).mode ≠ .finished :=
    Reader.run_unfinished (by simp [Reader.start]) endless
  have run (rest : List Token) : Reader.start.run (tokens ++ mark :: rest) =
      ((Reader.start.run tokens).step mark).run rest := by
    rw [Reader.run_append, Reader.run_cons]
  rw [← Reader.take_mark_finished ends going]
  constructor
  · intro same
    by_contra unfinished
    -- A semicolon on a line of its own, twice: behind the mark the second one is at fault.
    let lines := ((tokens ++ [mark]).map Token.line).toFinset
    obtain ⟨line, fresh⟩ := Infinite.exists_notMem_finset lines
    have other (token : Token) (member : token ∈ tokens ++ [mark]) : token.line ≠ line :=
      fun onLine => fresh (List.mem_toFinset.mpr (onLine ▸ List.mem_map_of_mem member))
    have found : .noOperand ⟨.semicolon, utf8 ";", line⟩ ∈
        (Program.ofTokens (tokens ++ [mark])).errors := by
      have going : ((Reader.start.run tokens).step mark).mode ≠ .finished := unfinished
      have second := Reader.run_semicolons going ⟨.semicolon, utf8 ";", line⟩ rfl
      rw [← same (List.replicate 2 ⟨.semicolon, utf8 ";", line⟩), Program.ofTokens, run]
      exact List.mem_reverse.mpr ((Reader.run_errors _ _).mem second)
    rcases Program.ofTokens_noOperand found with taken | kind
    · exact other _ taken rfl
    · cases kind
  · intro finished rest
    have read (rest : List Token) : Program.ofTokens (tokens ++ mark :: rest) =
        ((Reader.start.run tokens).step mark).reading := by
      rw [Program.ofTokens, run, Reader.finish, ← Reader.run_append]
      exact Reader.reading_run_finished ((Reader.start.run tokens).step mark) finished _
    rw [read, read]

/-- A mark behind a complete statement ends the program. -/
theorem Program.ofTokens_marked_statement :
    let tokens : List Token := [⟨.returnWord, utf8 "regresa", 1⟩, ⟨.nullWord, utf8 "nulo", 1⟩]
    ∀ rest, Program.ofTokens (tokens ++ Token.eof 1 :: rest) =
      Program.ofTokens (tokens ++ [Token.eof 1]) :=
  (Program.ofTokens_marked (by decide) rfl).mpr ⟨rfl, not_false⟩

/-- A mark where an operand is wanted is at fault, and the statement behind it is read. -/
theorem Program.ofTokens_marked_operand :
    let word : Token := ⟨.returnWord, utf8 "regresa", 1⟩
    let number : Token := ⟨.int, utf8 "5", 1⟩
    (∀ token ∈ [word], token.kind ≠ .eof) ∧
      Program.ofTokens ([word] ++ Token.eof 1 :: [number]) ≠
        Program.ofTokens ([word] ++ [Token.eof 1]) := by
  intro word number
  refine ⟨by decide, fun same => ?_⟩
  have count := congrArg (·.program.stmts.length) same
  exact absurd count (by decide)

end Lengua
