import Lengua.Proofs.Reader.Run
import Lengua.Proofs.Scanner

/-!
# Reading a text is reading its tokens

A reader that pulls its tokens from a scanner stops asking once the program has ended,
while `Program.ofTokens` takes a whole list. Both read the same: a token opens at most
one block, so the tokens of a text leave at most as many blocks open as there are of
them, and the bound on pulled tokens leaves room for the end marks that close these.
-/

namespace Lengua

namespace Reader

/-! ## Open blocks -/

/-- The first token of an operand opens no block. -/
@[simp] theorem takeOperand_levels (reader : Reader) (pending : Pending) (token : Token) :
    (reader.takeOperand pending token).levels = reader.levels := by
  unfold takeOperand
  split
  case h_2 => split <;> rfl
  all_goals rfl

/-- A token where a statement is wanted opens no block. -/
theorem takeStatement_levels (reader : Reader) (token : Token) :
    (reader.takeStatement token).levels.length ≤ reader.levels.length := by
  unfold takeStatement
  split
  case h_1 | h_2 =>
    split
    · exact Nat.le_refl _
    case h_2 level outer interrupted => simp [closeBlock, interrupted]
  case h_6 => exact Nat.le_of_eq (congrArg List.length (takeOperand_levels _ _ _))
  all_goals exact Nat.le_refl _

/-- A token opens at most one block. -/
theorem take_levels (reader : Reader) (token : Token) :
    (reader.take token).levels.length ≤ reader.levels.length + 1 := by
  rcases reader.mode.cases_within with between | finished | within
  · rw [take_between between]
    exact Nat.le_succ_of_le (reader.takeStatement_levels token)
  · rw [take_done finished]
    exact Nat.le_succ _
  · obtain ⟨effect, -, -, same⟩ := take_effect within reader.line token
    rw [same reader rfl rfl]
    cases effect with
    | goes | drops | keeps => exact Nat.le_succ _
    | opens => exact Nat.le_refl _
    | dropsBefore error => exact Nat.le_succ_of_le ((reader.fail error).takeStatement_levels token)
    | keepsBefore stmt => exact Nat.le_succ_of_le ((reader.keep stmt).takeStatement_levels token)

/-- Tokens open at most one block each. -/
theorem run_levels (reader : Reader) (tokens : List Token) :
    (reader.run tokens).levels.length ≤ reader.levels.length + tokens.length := by
  induction tokens generalizing reader with
  | nil => exact Nat.le_refl _
  | cons token tokens ih =>
    have first : (reader.step token).levels.length ≤ reader.levels.length + 1 :=
      reader.take_levels token
    have rest := ih (reader.step token)
    rw [run_cons, List.length_cons]
    omega

/-! ## Pulling -/

/-- Pulling tokens reads what taking them does. -/
theorem reading_pull (bound : Nat) (reader : Reader) (scanner : Scanner) :
    (reader.pull bound scanner).reading = (reader.run (scanner.pull bound).1).reading := by
  induction bound generalizing reader scanner with
  | zero => rfl
  | succ bound ih =>
    by_cases done : reader.mode = .finished
    · rw [reading_run_finished reader done]
      simp only [pull, done]
    · have going : reader.pull (bound + 1) scanner =
          (reader.step scanner.next.1).pull bound scanner.next.2 := by
        rw [pull]
        split
        case h_1 finished => exact absurd finished done
        case h_2 => rfl
      rw [going, ih, Scanner.pull_succ, run_cons]

/-- However many end marks end the program, the same is read. -/
theorem reading_replicate (reader : Reader) (mark : Token) (first second : Nat)
    (firstDone : (reader.run (List.replicate first mark)).mode = .finished)
    (secondDone : (reader.run (List.replicate second mark)).mode = .finished) :
    (reader.run (List.replicate first mark)).reading =
      (reader.run (List.replicate second mark)).reading := by
  calc
    (reader.run (List.replicate first mark)).reading =
        (reader.run (List.replicate (first + second) mark)).reading := by
      rw [← List.replicate_append_replicate, run_append]
      exact (reading_run_finished _ firstDone _).symm
    _ = (reader.run (List.replicate second mark)).reading := by
      rw [Nat.add_comm, ← List.replicate_append_replicate, run_append]
      exact reading_run_finished _ secondDone _

end Reader

/-- Reading a text is reading its tokens. -/
theorem Program.ofText_eq (source : Text) :
    Program.ofText source = Program.ofTokens (Token.scan source) := by
  obtain ⟨tokens, line, scanned, -, few, pulled⟩ := Token.exists_scan_eq source
  have marks : ∀ mark ∈ List.replicate (2 * source.length + 2 - tokens.length) (Token.eof line),
      mark.kind = .eof := by
    intro mark member
    rw [List.eq_of_mem_replicate member]
    rfl
  have text : Program.ofText source = ((Reader.start.run tokens).run
      (List.replicate (2 * source.length + 2 - tokens.length) (Token.eof line))).reading := by
    have bound : 2 * source.length + 2 =
        tokens.length + (2 * source.length + 2 - tokens.length) := by omega
    have found := pulled (2 * source.length + 2 - tokens.length)
    rw [← bound] at found
    rw [Program.ofText, Reader.reading_pull, found, Reader.run_append]
  obtain ⟨count, done, list⟩ := Program.ofTokens_snoc_eof tokens line
  have opened : (Reader.start.run tokens).levels.length ≤ tokens.length := by
    have bounded := Reader.run_levels Reader.start tokens
    rwa [Reader.start, List.length_nil, Nat.zero_add] at bounded
  have owed := (Reader.start.run tokens).owed_le
  rw [scanned, text, list]
  apply Reader.reading_replicate _ _ _ _ _ done
  apply Reader.finished_of_owed_le _ _ marks
  rw [List.length_replicate]
  omega

end Lengua
