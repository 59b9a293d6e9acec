import Lengua.Proofs.Joining
import Lengua.Proofs.Reader.Completeness
import Lengua.Proofs.Reader.Pull
import Lengua.Proofs.Reader.Soundness
import Lengua.Proofs.Recast

/-!
# Programs put one after the other

The statements of two texts, one behind the other, are those of the one and then those of
the other, as long as the first text is self-contained: all its blocks are closed, and its
last statement is ended by a semicolon, so that nothing behind it can continue it. Then the
tokens of the joined texts spell the joined statements, those of the second text further
down than they stood by themselves. So a list of self-contained lines is read to the
statements of all its lines, whose outlines do not tell where they stand.
-/

namespace Lengua

/-! ## Spellings further down -/

/-- Every token stands a number of lines further down. -/
def Recast.lower (lines : Int) : Recast :=
  ⟨fun _ => Token.lowered lines, Token.lowered lines, (· + lines)⟩

/-- A phrase with other tokens. -/
def Phrase.recast (change : Recast) : Phrase → Phrase
  | .bare expr => .bare (expr.recast change)
  | .operand least expr => .operand least (expr.recast change)
  | .args exprs => .args (Expr.recastAll change exprs)
  | .params names => .params (names.map (Ident.recast change))
  | .block inner => .block (inner.recast change)
  | .stmt single => .stmt (single.recast change)
  | .stmts several => .stmts (Stmt.recastAll change several)

/-- How tightly an expression binds does not depend on where it stands. -/
theorem Expr.rank_lower (lines : Int) (expr : Expr) :
    (expr.recast (.lower lines)).rank = expr.rank := by
  cases expr <;> rfl

/-- Tokens further down spell the same phrase further down. -/
theorem Phrase.Spelled.lowered {phrase : Phrase} {tokens : List Token}
    (spelled : phrase.Spelled tokens) (lines : Int) :
    (phrase.recast (.lower lines)).Spelled (tokens.map (Token.lowered lines)) := by
  induction spelled with
  | ident kind => exact .ident kind
  | int kind fits => exact .int kind fits
  | str kind => exact .str kind
  | trueWord kind => exact .trueWord kind
  | falseWord kind => exact .falseWord kind
  | null kind => exact .null kind
  | unary kind _ inner => exact .unary kind inner
  | binary kind _ _ first second =>
    rw [List.map_append]
    exact .binary kind first second
  | choice kind opened _ closed _ condition branch =>
    rw [List.map_append]
    exact .choice kind opened condition closed branch
  | alternative kind opened _ closed _ otherwise _ condition branch second =>
    rw [List.map_append, List.map_append]
    exact .alternative kind opened condition closed branch otherwise second
  | procedure kind opened _ closed _ names block =>
    rw [List.map_append]
    exact .procedure kind opened names closed block
  | call _ opened _ closed called values =>
    rw [List.map_append, List.map_append]
    exact .call called opened values closed
  | plain tight _ bare => exact .plain (by rwa [Expr.rank_lower]) bare
  | group opened _ closed inner =>
    rw [List.map_append]
    exact .group opened inner closed
  | noArgs => exact .noArgs
  | lastArg _ value => exact .lastArg value
  | moreArgs _ between _ value values =>
    rw [List.map_append]
    exact .moreArgs value between values
  | noParams => exact .noParams
  | lastParam kind => exact .lastParam kind
  | moreParams kind between _ names => exact .moreParams kind between names
  | braces opened _ closed inside =>
    rw [List.map_append]
    exact .braces opened inside closed
  | declare kind named signed _ given => exact .declare kind named signed given
  | assign named signed _ given => exact .assign named signed given
  | giveBack kind _ given => exact .giveBack kind given
  | expr _ given => exact .expr given
  | noStmts => exact .noStmts
  | ended _ kind _ first following =>
    rw [List.map_append]
    exact .ended first kind following
  | unended _ apart _ first following =>
    rw [List.map_append]
    refine .unended first ?_ following
    intro token leads
    rw [List.head?_map] at leads
    obtain ⟨other, found, rfl⟩ := Option.map_eq_some_iff.mp leads
    exact apart other found

/-! ## Last tokens -/

/-- How the spellings of a phrase end: whatever is complete in itself does not end with a
semicolon. -/
def Phrase.Trails : Phrase → List Token → Prop
  | .bare _, tokens | .operand _ _, tokens | .block _, tokens | .stmt _, tokens =>
    ∃ front token, tokens = front ++ [token] ∧ token.kind ≠ .semicolon
  | _, _ => True

/-- Every spelling ends as its phrase does. -/
theorem Phrase.Spelled.trails {phrase : Phrase} {tokens : List Token}
    (spelled : phrase.Spelled tokens) : phrase.Trails tokens := by
  have alone {token : Token} {kind : Kind} (same : token.kind = kind) (other : kind ≠ .semicolon) :
      ∃ front last, [token] = front ++ [last] ∧ last.kind ≠ .semicolon :=
    ⟨[], token, rfl, same ▸ other⟩
  have behind (before : List Token) {tokens : List Token}
      (trails : ∃ front last, tokens = front ++ [last] ∧ last.kind ≠ .semicolon) :
      ∃ front last, before ++ tokens = front ++ [last] ∧ last.kind ≠ .semicolon := by
    obtain ⟨front, last, rfl, other⟩ := trails
    exact ⟨before ++ front, last, by rw [List.append_assoc], other⟩
  induction spelled with
  | ident kind | str kind | trueWord kind | falseWord kind | null kind =>
    exact alone kind (by decide)
  | int kind fits => exact alone kind (by decide)
  | unary kind _ inner => exact behind [_] inner
  | binary kind _ _ first second => exact behind _ (behind [_] second)
  | choice _ _ _ _ _ _ branch => exact behind _ (behind [_] branch)
  | alternative _ _ _ _ _ _ _ _ _ second => exact behind _ (behind [_] second)
  | procedure _ _ _ _ _ _ block => exact behind _ (behind [_] block)
  | call _ _ _ closed => exact behind _ (alone closed (by decide))
  | plain _ _ bare => exact bare
  | group _ _ closed => exact behind _ (alone closed (by decide))
  | braces _ _ closed => exact behind _ (alone closed (by decide))
  | declare _ _ _ _ given => exact behind [_, _, _] given
  | assign _ _ _ given => exact behind [_, _] given
  | giveBack _ _ given => exact behind [_] given
  | expr _ given => exact given
  | noArgs | lastArg | moreArgs | noParams | lastParam | moreParams => trivial
  | noStmts | ended | unended => trivial

/-- Nothing spells no statements only. -/
theorem Phrase.Spelled.eq_nil {stmts : List Stmt} {tokens : List Token}
    (spelled : (Phrase.stmts stmts).Spelled tokens) (empty : tokens = []) : stmts = [] := by
  cases spelled with
  | noStmts => rfl
  | ended first =>
    obtain ⟨front, last, rfl, -⟩ := first.trails
    simp at empty
  | unended first =>
    obtain ⟨front, last, rfl, -⟩ := first.trails
    simp at empty

/-- Statements whose last semicolon is written stand before any others. -/
theorem Phrase.Spelled.append {first second : List Stmt} {front others : List Token}
    {semicolon : Token} (spelled : (Phrase.stmts first).Spelled (front ++ [semicolon]))
    (kind : semicolon.kind = .semicolon) (following : (Phrase.stmts second).Spelled others) :
    (Phrase.stmts (first ++ second)).Spelled (front ++ [semicolon] ++ others) := by
  generalize whole : front ++ [semicolon] = tokens at spelled ⊢
  induction first generalizing front tokens with
  | nil =>
    cases spelled
    simp at whole
  | cons stmt rest ih =>
    cases spelled with
    | ended single ends later =>
      rename_i tokens behind mark
      rw [List.append_assoc, List.cons_append]
      rcases List.eq_nil_or_concat behind with rfl | ⟨middle, last, rfl⟩
      · obtain rfl := later.eq_nil rfl
        exact .ended single ends following
      · rw [List.concat_eq_append] at whole later ⊢
        have same : front ++ [semicolon] = (tokens ++ mark :: middle) ++ [last] := by
          rw [whole, List.append_assoc, List.cons_append]
        obtain ⟨-, ending⟩ := List.append_inj' same rfl
        exact .ended single ends (ih _ (congrArg (middle ++ ·) ending) later)
    | unended single apart later =>
      rename_i tokens behind
      rw [List.append_assoc]
      rcases List.eq_nil_or_concat behind with rfl | ⟨middle, last, rfl⟩
      · -- Without others the statement itself would end with the semicolon.
        obtain ⟨before, last, rfl, other⟩ := single.trails
        rw [List.append_nil] at whole
        obtain ⟨-, ending⟩ := List.append_inj' whole rfl
        rw [← (List.cons.inj ending).1] at other
        exact absurd kind other
      · rw [List.concat_eq_append] at whole apart later ⊢
        have same : front ++ [semicolon] = (tokens ++ middle) ++ [last] := by
          rw [whole, List.append_assoc]
        obtain ⟨-, ending⟩ := List.append_inj' same rfl
        refine .unended single ?_ (ih _ (congrArg (middle ++ ·) ending) later)
        cases middle with
        | nil => exact apart
        | cons head middle => exact apart

/-- How many tokens of a kind there are. -/
def Token.count (kind : Kind) (tokens : List Token) : Nat := tokens.countP (·.kind = kind)

/-- A spelling holds no illegal token, and as many opening braces as closing ones. -/
theorem Phrase.Spelled.kinds {phrase : Phrase} {tokens : List Token}
    (spelled : phrase.Spelled tokens) :
    Token.count .illegal tokens = 0 ∧
      Token.count .leftBrace tokens = Token.count .rightBrace tokens := by
  -- Braces come in pairs, with statements between them, and a sign is neither.
  induction spelled
  case unary kind _ _ => rcases kind with kind | kind <;> simp_all [Token.count]
  case binary sign rank _ _ _ _ kind _ _ _ _ =>
    cases same : sign.kind <;> simp_all [Token.count, Kind.rank?]
  all_goals simp_all [Token.count, List.countP_cons]

/-- Tokens that are read without a fault and have as many opening braces as closing ones spell the
program they are read to: no closing brace is missing. -/
theorem Program.spelled_of_balanced {tokens : List Token} (line : Int)
    (endless : ∀ token ∈ tokens, token.kind ≠ .eof)
    (balanced : Token.count .leftBrace tokens = Token.count .rightBrace tokens)
    (clean : (Program.ofTokens (tokens ++ [Token.eof line])).errors = []) :
    (Phrase.stmts (Program.ofTokens (tokens ++ [Token.eof line])).program.stmts).Spelled tokens := by
  obtain ⟨missing, spelled⟩ := Program.spelled_of_clean line endless clean
  have none : missing = 0 := by
    have kinds := spelled.kinds.2
    simp only [Token.count, List.countP_append, List.countP_replicate] at balanced kinds
    simp [Token.closing] at kinds
    omega
  rwa [none, List.replicate_zero, List.append_nil] at spelled

/-! ## Self-contained texts -/

/-- A text that stands before others without joining them: it is read without a fault, has as many
opening braces as closing ones, and its last token is a semicolon. -/
structure Text.SelfContained (source : Text) : Prop where
  /-- There is no fault. -/
  clean : (Program.ofText source).errors = []
  /-- The braces are balanced. -/
  balanced :
    Token.count .leftBrace (Token.scan source) = Token.count .rightBrace (Token.scan source)
  /-- The last token before the end mark is a semicolon. -/
  ended : (Token.scan source).dropLast.getLast?.map Token.kind = some .semicolon

instance (source : Text) : Decidable source.SelfContained :=
  decidable_of_iff ((Program.ofText source).errors = [] ∧
      Token.count .leftBrace (Token.scan source) = Token.count .rightBrace (Token.scan source) ∧
      (Token.scan source).dropLast.getLast?.map Token.kind = some .semicolon)
    ⟨fun ⟨clean, balanced, ended⟩ => ⟨clean, balanced, ended⟩,
      fun contained => ⟨contained.clean, contained.balanced, contained.ended⟩⟩

/-- The tokens of a self-contained text spell its statements, and no closing brace is missing. -/
theorem Text.SelfContained.spelled {source : Text} (contained : source.SelfContained) :
    ∃ tokens semicolon, (Scanner.ofText source).Exhausts (tokens ++ [semicolon]) ∧
      (∀ token ∈ tokens ++ [semicolon], token.kind ≠ .illegal) ∧ semicolon.kind = .semicolon ∧
      (Phrase.stmts (Program.ofText source).program.stmts).Spelled (tokens ++ [semicolon]) := by
  obtain ⟨all, line, parted, endless, -⟩ := Token.exists_scan_eq source
  have balanced : Token.count .leftBrace all = Token.count .rightBrace all := by
    have whole := contained.balanced
    rw [parted] at whole
    simpa [Token.count, Token.eof] using whole
  obtain ⟨tokens, semicolon, rfl, kind⟩ : ∃ tokens semicolon, all = tokens ++ [semicolon] ∧
      semicolon.kind = .semicolon := by
    have ended := contained.ended
    rw [parted, List.dropLast_concat] at ended
    obtain ⟨semicolon, last, kind⟩ := Option.map_eq_some_iff.mp ended
    obtain ⟨tokens, same⟩ := List.getLast?_eq_some_iff.mp last
    exact ⟨tokens, semicolon, same, kind⟩
  have exhausts := Scanner.Exhausts.of_scan parted
  have clean := contained.clean
  rw [Program.ofText_eq, parted] at clean ⊢
  have spelled := Program.spelled_of_balanced line endless balanced clean
  refine ⟨tokens, semicolon, exhausts, ?_, kind, spelled⟩
  intro token member illegal
  have legal := List.countP_eq_zero.mp spelled.kinds.1 token member
  simp [illegal] at legal

/-- The outline of a statement does not tell where it stands. -/
theorem Stmt.outline_lower (lines : Int) (stmts : List Stmt) :
    Stmt.recastAll .outline (Stmt.recastAll (.lower lines) stmts) =
      Stmt.recastAll .outline stmts :=
  Stmt.recastAll_recastAll (.lower lines) .outline stmts

/-- The outlines of the statements of several texts, one after the other. -/
def Text.outlines (sources : List Text) : List Stmt :=
  sources.flatMap fun source => Stmt.recastAll .outline (Program.ofText source).program.stmts

/-- Self-contained texts on lines of their own are read without a fault, and to statements with
the outlines of theirs. -/
theorem Text.ofText_joined {sources : List Text}
    (contained : ∀ source ∈ sources, Text.SelfContained source) :
    (Program.ofText (Text.joined (utf8 "\n") sources)).errors = [] ∧
      (Program.ofText (Text.joined (utf8 "\n") sources)).program.outline.stmts =
        Text.outlines sources := by
  have joined : ∃ tokens stmts,
      (Scanner.ofText (Text.joined (utf8 "\n") sources)).Exhausts tokens ∧
      (Phrase.stmts stmts).Spelled tokens ∧
      Stmt.recastAll .outline stmts = Text.outlines sources := by
    induction sources with
    | nil => exact ⟨[], [], ⟨_, 1, .nil _, Scanner.next_end 1⟩, .noStmts, rfl⟩
    | cons source rest ih =>
      obtain ⟨tokens, semicolon, exhausts, legal, kind, spelled⟩ :=
        (contained source List.mem_cons_self).spelled
      cases rest with
      | nil =>
        refine ⟨_, _, ?_, spelled, ?_⟩
        · simpa [Text.joined] using exhausts
        · simp [Text.outlines]
      | cons next rest =>
        obtain ⟨others, stmts, behind, spelledRest, outlined⟩ :=
          ih fun text member => contained text (List.mem_cons_of_mem source member)
        obtain ⟨lines, whole⟩ := exhausts.joined legal kind behind
        refine ⟨_, _, ?_, spelled.append kind (spelledRest.lowered lines), ?_⟩
        · simpa [Text.joined] using whole
        · rw [Stmt.recastAll_append, Stmt.outline_lower, outlined]
          rfl
  obtain ⟨tokens, stmts, ⟨last, line, yields, ended⟩, spelled, outlined⟩ := joined
  rw [Program.ofText_eq, yields.scan ended,
    spelled.ofTokens_append [Token.eof line] (by simp [Token.eof])]
  exact ⟨rfl, outlined⟩

end Lengua
