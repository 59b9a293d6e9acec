import Lengua.Proofs.Lines
import Lengua.Proofs.Reader.Effect
import Lengua.Proofs.Reader.Pull

/-!
# The order of faults

A fault is on the line of the token at hand or on that of the token before it, and the first kind
is found last (`Reader.take_found`). So a reader whose tokens come in the order of their lines finds
faults in this order, and none of them is on a line without a token.
-/

namespace Lengua

namespace Reader

/-- The faults that a reader has found are in order. -/
structure InOrder (numbers : Int → Prop) (reader : Reader) : Prop where
  /-- The faults, latest first, are on lines that come earlier and earlier. -/
  sorted : reader.errors.Pairwise fun later earlier => earlier.line ≤ later.line
  /-- They are on lines of tokens, and none is ahead of the last token. -/
  past : ∀ error ∈ reader.errors, numbers error.line ∧ error.line ≤ reader.line
  /-- A statement has begun with a token. -/
  within : reader.mode.Within → numbers reader.line

variable {numbers : Int → Prop}

/-- Before the first token there is no fault. -/
theorem inOrder_start : start.InOrder numbers :=
  ⟨.nil, fun _ found => absurd found List.not_mem_nil, False.elim⟩

/-- A token that does not go back keeps the faults in order. -/
theorem InOrder.step {reader : Reader} (ordered : reader.InOrder numbers) {token : Token}
    (numbered : numbers token.line) (ahead : reader.line ≤ token.line) :
    (reader.step token).InOrder numbers := by
  obtain ⟨own, missed, errors, isOf, unexpected⟩ := reader.take_found token
  -- The faults of the token are on its line, and it was not wanted behind the token before it.
  have onLine (error : SyntaxError) (new : error ∈ own) : error.line = token.line :=
    (isOf error new).line
  have before (error : SyntaxError) (new : error ∈ missed) :
      numbers error.line ∧ error.line = reader.line := by
    obtain ⟨within, wanted, rfl⟩ := unexpected error new
    exact ⟨ordered.within within, rfl⟩
  have older (error : SyntaxError) (found : error ∈ missed ++ reader.errors) :
      numbers error.line ∧ error.line ≤ reader.line := by
    rcases List.mem_append.mp found with new | old
    · exact ⟨(before error new).1, Int.le_of_eq (before error new).2⟩
    · exact ordered.past error old
  have level {errors : List SyntaxError} {line : Int} (same : ∀ error ∈ errors, error.line = line) :
      errors.Pairwise fun later earlier => earlier.line ≤ later.line :=
    List.pairwise_of_forall_mem_list fun later first earlier second =>
      Int.le_of_eq ((same earlier second).trans (same later first).symm)
  constructor
  · rw [Reader.step, errors]
    refine List.pairwise_append.mpr ⟨level onLine, List.pairwise_append.mpr
      ⟨level fun error new => (before error new).2, ordered.sorted, ?_⟩, ?_⟩
    · intro later new earlier old
      rw [(before later new).2]
      exact (ordered.past earlier old).2
    · intro later new earlier old
      rw [onLine later new]
      exact Int.le_trans (older earlier old).2 ahead
  · intro error found
    rw [Reader.step, errors] at found
    rcases List.mem_append.mp found with new | old
    · rw [onLine error new]
      exact ⟨numbered, Int.le_refl _⟩
    · exact ⟨(older error old).1, Int.le_trans (older error old).2 ahead⟩
  · exact fun _ => numbered

/-- Tokens that never go back keep the faults in order. -/
theorem InOrder.run {reader : Reader} (ordered : reader.InOrder numbers) {tokens : List Token}
    (numbered : ∀ token ∈ tokens, numbers token.line)
    (ahead : ∀ token ∈ tokens, reader.line ≤ token.line)
    (sorted : tokens.Pairwise fun first second => first.line ≤ second.line) :
    (reader.run tokens).InOrder numbers := by
  induction tokens generalizing reader with
  | nil => exact ordered
  | cons token tokens ih =>
    obtain ⟨number, others⟩ := List.forall_mem_cons.mp numbered
    obtain ⟨after, later⟩ := List.pairwise_cons.mp sorted
    exact ih (ordered.step number (ahead token List.mem_cons_self)) others after later

end Reader

/-- The faults of a text are reported in the order of the lines that the reports name, and these lie
between the first line of the text and the last. -/
theorem Program.ofText_inOrder (source : Text) :
    ((Program.ofText source).errors.Pairwise fun earlier later => earlier.line ≤ later.line) ∧
      ∀ error ∈ (Program.ofText source).errors,
        Text.namedLine? error.message = some (Text.ofInt error.line) ∧
        1 ≤ error.line ∧ error.line ≤ 1 + Text.lineFeeds source := by
  obtain ⟨tokens, scanned, lines⟩ := Token.exists_scan_lines source
  obtain ⟨count, -, read⟩ := Program.ofTokens_snoc_eof tokens (1 + Text.lineFeeds source)
  obtain ⟨between, sorted⟩ := lines count
  have ordered : (Reader.start.run (tokens ++
      List.replicate count (Token.eof (1 + Text.lineFeeds source)))).InOrder
        fun line => 1 ≤ line ∧ line ≤ 1 + Text.lineFeeds source := by
    refine Reader.inOrder_start.run between (fun token member => ?_) sorted
    exact Int.le_trans (by decide) (between token member).1
  rw [Reader.run_append] at ordered
  rw [Program.ofText_eq, scanned, read]
  refine ⟨List.pairwise_reverse.mpr ordered.sorted, fun error found => ?_⟩
  obtain ⟨bounds, -⟩ := ordered.past error (List.mem_reverse.mp found)
  exact ⟨error.namedLine_message (Int.le_trans (by decide) bounds.1), bounds⟩

end Lengua
