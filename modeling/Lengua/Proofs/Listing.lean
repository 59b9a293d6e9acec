import Lengua.Proofs.FrontEnd
import Lengua.Proofs.RoundTrip
import Mathlib.Data.List.Chain

/-!
# Listings of statements

The command that shows a program in canonical form puts each statement on a line of its
own, with nothing between the lines. A line feed separates tokens but not statements: where
a statement that ends without a semicolon meets one that opens a parenthesis, the two are
read as one call. So a listing is always read without a fault, but it is read back to its
program only if no two such statements are neighbours.
-/

namespace Lengua

/-! ## Expressions before a parenthesis -/

/-- What a phrase becomes when a callee stands before it: another phrase of its sort, with as many
statements. -/
def Phrase.Called (before : List Token) : Phrase → List Token → Prop
  | .bare expr, tokens =>
    ∃ whole : Expr, (Phrase.bare whole).Spelled (before ++ tokens) ∧ whole.rank = expr.rank
  | .operand least _, tokens =>
    least ≤ 5 → ∃ whole : Expr, (Phrase.operand least whole).Spelled (before ++ tokens)
  | .stmt _, tokens => ∃ whole : Stmt, (Phrase.stmt whole).Spelled (before ++ tokens)
  | .stmts several, tokens =>
    ∃ whole : List Stmt, (Phrase.stmts whole).Spelled (before ++ tokens) ∧
      whole.length = several.length
  | _, _ => True

/-- Tokens that begin with an opening parenthesis. -/
def Token.Opens (tokens : List Token) : Prop := ∃ paren ∈ tokens.head?, paren.kind = .leftParen

/-- What opens a parenthesis opens it in its first part. -/
theorem Token.Opens.front {first rest : List Token} (opens : Token.Opens (first ++ rest))
    (some : first ≠ []) : Token.Opens first := by
  obtain ⟨token, others, rfl⟩ := List.exists_cons_of_ne_nil some
  exact opens

/-- An expression has at least one token. -/
theorem Phrase.Spelled.operand_ne_nil {least : Nat} {expr : Expr} {tokens : List Token}
    (spelled : (Phrase.operand least expr).Spelled tokens) : tokens ≠ [] := by
  obtain ⟨token, rest, rfl, -⟩ := spelled.leads
  exact List.cons_ne_nil token rest

/-- A statement has at least one token. -/
theorem Phrase.Spelled.stmt_ne_nil {stmt : Stmt} {tokens : List Token}
    (spelled : (Phrase.stmt stmt).Spelled tokens) : tokens ≠ [] := by
  obtain ⟨token, rest, rfl, -⟩ := spelled.leads
  exact List.cons_ne_nil token rest

/-- Whatever opens a parenthesis continues a callee before it: the parenthesis is that of a call,
and all around the call stays as it was. -/
theorem Phrase.Spelled.called {phrase : Phrase} {callee : Expr} {before tokens : List Token}
    (spelled : phrase.Spelled tokens) (callable : (Phrase.operand 5 callee).Spelled before)
    (opens : Token.Opens tokens) : phrase.Called before tokens := by
  have other {token : Token} {rest : List Token} {kind : Kind} {result : Prop}
      (opens : Token.Opens (token :: rest)) (same : token.kind = kind) (apart : kind ≠ .leftParen) :
      result := by
    obtain ⟨paren, first, paren'⟩ := opens
    obtain rfl := Option.some.inj first
    exact absurd (same.symm.trans paren') apart
  induction spelled with
  | ident kind | str kind | trueWord kind | falseWord kind | null kind =>
    exact other opens kind (by decide)
  | int kind fits => exact other opens kind (by decide)
  | unary kind inner ih =>
    rcases kind with kind | kind <;> exact other opens kind (by decide)
  | choice kind => exact other opens kind (by decide)
  | alternative kind => exact other opens kind (by decide)
  | procedure kind => exact other opens kind (by decide)
  | declare kind => exact other opens kind (by decide)
  | assign named => exact other opens named (by decide)
  | giveBack kind => exact other opens kind (by decide)
  | binary kind first second ihFirst ihSecond =>
    have low := (Kind.strength_of_rank kind).2.1
    obtain ⟨left, spelledLeft⟩ := ihFirst (opens.front first.operand_ne_nil) (by omega)
    have whole := Phrase.Spelled.binary kind spelledLeft second
    rw [List.append_assoc] at whole
    exact ⟨_, whole, rfl⟩
  | call called opened values closed ihCallee ihArgs =>
    rw [List.append_assoc] at opens
    obtain ⟨whole, spelledCallee⟩ := ihCallee (opens.front called.operand_ne_nil) (Nat.le_refl 5)
    have call := Phrase.Spelled.call spelledCallee opened values closed
    simp only [List.append_assoc] at call ⊢
    exact ⟨_, call, rfl⟩
  | plain tight bare ih =>
    intro _
    obtain ⟨whole, spelledWhole, ranked⟩ := ih opens
    exact ⟨whole, .plain (ranked ▸ tight) spelledWhole⟩
  | group opened inner closed ih =>
    -- Here the reading changes: the parentheses of the group become those of the call.
    intro low
    have call := Phrase.Spelled.call callable opened (.lastArg inner) closed
    rw [List.append_assoc] at call
    exact ⟨.call _ callee _, .plain low call⟩
  | noArgs | lastArg | moreArgs | noParams | lastParam | moreParams | braces => trivial
  | expr given ih =>
    obtain ⟨whole, spelledWhole⟩ := ih opens (Nat.zero_le 5)
    obtain ⟨token, rest, same, -⟩ := spelledWhole.leads
    rw [same] at spelledWhole
    exact ⟨.expr token whole, same ▸ .expr spelledWhole⟩
  | noStmts =>
    obtain ⟨_, first, _⟩ := opens
    cases first
  | ended first kind following ihFirst ihRest =>
    obtain ⟨whole, spelledFirst⟩ := ihFirst (opens.front first.stmt_ne_nil)
    have all := Phrase.Spelled.ended spelledFirst kind following
    rw [List.append_assoc] at all
    exact ⟨_, all, rfl⟩
  | unended first apart following ihFirst ihRest =>
    obtain ⟨whole, spelledFirst⟩ := ihFirst (opens.front first.stmt_ne_nil)
    have all := Phrase.Spelled.unended spelledFirst apart following
    rw [List.append_assoc] at all
    exact ⟨_, all, rfl⟩

/-! ## How canonical text begins -/

/-- The tokens of a canonical text begin with a parenthesis where the text does, and never with a
sign. -/
def Layout.Begins (shapes : List Shape) (text : Text) : Prop :=
  ∃ kind literal rest byte others, shapes = (kind, literal) :: rest ∧ text = byte :: others ∧
    kind ≠ .minus ∧ (kind = .leftParen ↔ byte = 0x28)

namespace Layout.Begins

/-- What stands behind does not change how a text begins. -/
theorem append {shapes : List Shape} {text : Text} (begins : Begins shapes text)
    (after : List Shape) (behind : Text) : Begins (shapes ++ after) (text ++ behind) := by
  obtain ⟨kind, literal, rest, byte, others, rfl, rfl, noSign, same⟩ := begins
  exact ⟨kind, literal, rest ++ after, byte, others ++ behind, rfl, rfl, noSign, same⟩

/-- Tokens of such shapes open a parenthesis where the text does, and continue what stands before
them only then. -/
theorem opens_iff {shapes after : List Shape} {text : Text} {tokens : List Token}
    (begins : Begins shapes text) (shaped : tokens.map Token.shape = shapes ++ after) :
    (Token.Opens tokens ↔ utf8 "(" <+: text) ∧
      ∀ token ∈ tokens.head?, token.kind.Joins → Token.Opens tokens := by
  obtain ⟨kind, literal, rest, byte, others, rfl, rfl, noSign, same⟩ := begins
  obtain ⟨token, behind, rfl, shape, -⟩ := List.map_eq_cons_iff.mp shaped
  obtain ⟨rfl, -⟩ := Prod.mk.inj shape
  have opens : Token.Opens (token :: behind) ↔ token.kind = .leftParen := by simp [Token.Opens]
  have text : utf8 "(" <+: byte :: others ↔ byte = 0x28 := by
    have paren : utf8 "(" = [0x28] := rfl
    rw [paren, List.cons_prefix_cons]
    simp [eq_comm]
  refine ⟨by rw [opens, text, same], ?_⟩
  rintro _ ⟨⟩ joins
  exact opens.mpr (joins.resolve_left noSign)

/-- What begins neither with a sign nor with a parenthesis. -/
theorem of_ne {kind : Kind} {literal : Text} {rest : List Shape} {byte : UInt8}
    {text : Text} (noSign : kind ≠ .minus) (noParen : kind ≠ .leftParen) (other : byte ≠ 0x28) :
    Begins ((kind, literal) :: rest) (byte :: text) :=
  ⟨kind, literal, rest, byte, text, rfl, rfl, noSign, iff_of_false noParen other⟩

end Layout.Begins

open Layout.Begins in
/-- A name does not open a parenthesis. -/
theorem Ident.MadeOf.begins {id : Ident} (made : id.MadeOf Token.Genuine) :
    Layout.Begins [(.ident, id.name)] id.name := by
  obtain ⟨genuine, kind, same⟩ := made
  rw [Token.Genuine, kind, ← same] at genuine
  obtain ⟨⟨first, others, spelled, letter, -⟩, -⟩ := genuine
  rw [spelled]
  apply of_ne (by decide) (by decide)
  rintro rfl
  exact absurd letter (by decide)

open Layout.Begins in
/-- How the canonical text of an expression begins. -/
theorem Expr.MadeOf.begins : ∀ {expr : Expr}, expr.MadeOf Token.Genuine →
    Layout.Begins (Layout.canonical.wrap 0 expr (Layout.canonical.expr expr)) expr.render
  | .ident _, made => Ident.MadeOf.begins made
  | .int _ value, made => by
    obtain ⟨magnitude, same⟩ := Int.eq_ofNat_of_zero_le (made.1.nonneg made.2.1 made.2.2)
    obtain ⟨some, digits⟩ := Text.ofNat_digits magnitude
    obtain ⟨first, rest, spelled⟩ := List.exists_cons_of_ne_nil some
    have form : Text.ofInt value.toInt = first :: rest := by
      rw [same]
      exact spelled
    rw [Expr.render, form]
    apply of_ne (by decide) (by decide)
    rintro rfl
    exact absurd (digits _ (spelled ▸ List.mem_cons_self)) (by decide)
  | .bool _ true, _ | .bool _ false, _ | .null _, _ | .choice _ _ _ _, _ =>
    of_ne (by decide) (by decide) (by decide)
  | .str _ value, _ => by
    apply of_ne (by decide) (by decide)
    split <;> decide
  | .unary _ _ _, _ | .binary _ _ _ _, _ =>
    ⟨.leftParen, _, _, 0x28, _, rfl, rfl, by decide, iff_of_true rfl rfl⟩
  | .procedure token _ _, ⟨genuine, kind, _, _⟩ => by
    have literal := genuine.literal_of_kind kind (by decide)
    rw [Expr.render, literal]
    exact of_ne (by decide) (by decide) (by decide)
  | .call _ callee args, ⟨_, _, called, _⟩ => by
    have begins := called.begins
    rw [← Layout.canonical_wrap (by decide : 5 ≤ 5)] at begins
    simpa [Layout.wrap, Layout.expr, Expr.render, Layout.canonical, Expr.tightness] using
      begins.append
        (Kind.shape .leftParen :: Layout.canonical.args args ++ [Kind.shape .rightParen])
        (utf8 "(" ++ Text.listed (Expr.renderAll args) ++ utf8 ")")

open Layout.Begins in
/-- How the canonical text of a statement begins. -/
theorem Stmt.MadeOf.begins : ∀ {stmt : Stmt}, stmt.MadeOf Token.Genuine →
    Layout.Begins (Layout.canonical.stmt stmt) stmt.render
  | .declare _ _ _, ⟨genuine, kind, _, _⟩ | .giveBack _ _, ⟨genuine, kind, _⟩ => by
    have literal := genuine.literal_of_kind kind (by decide)
    rw [Stmt.render, literal]
    exact of_ne (by decide) (by decide) (by decide)
  | .assign _ _ value, ⟨_, _, ⟨id, rfl, made⟩, _⟩ => by
    rw [Stmt.render, List.append_assoc, List.append_assoc]
    exact made.begins.append _ _
  | .expr _ _, ⟨_, made⟩ => made.begins

/-! ## The tokens of a listing -/

/-- The canonical text of statements, each on a line of its own. -/
def Stmt.listing (stmts : List Stmt) : Text := stmts.flatMap fun stmt => stmt.render ++ utf8 "\n"

/-- The tokens of a statement on a line of its own: only an expression has no semicolon. -/
def Layout.line (stmt : Stmt) : List Shape :=
  canonical.stmt stmt ++ if stmt.isExpr then [] else [Kind.shape .semicolon]

open Lexes in
/-- A line before others. -/
theorem Stmt.lexes_line {first : Stmt} {rest : List Stmt} (made : first.MadeOf Token.Genuine)
    (following : Lexes (utf8 "\n" ++ Stmt.listing rest) (rest.flatMap Layout.line) (utf8 "\n")) :
    Lexes (Stmt.listing (first :: rest)) ((first :: rest).flatMap Layout.line) (utf8 "\n") := by
  have clear : Clear (utf8 "\n" ++ Stmt.listing rest) := by
    rintro _ ⟨⟩
    rfl
  have text : Stmt.listing (first :: rest) = first.render ++ (utf8 "\n" ++ Stmt.listing rest) := by
    simp only [Stmt.listing, List.flatMap_cons, List.append_assoc]
  rw [text, List.flatMap_cons]
  exact (Stmt.lexes first made _ clear).append following

/-- Lines behind another one. -/
theorem Stmt.lexes_lines : ∀ (stmts : List Stmt), Stmt.MadeOfAll Token.Genuine stmts →
    Lexes (utf8 "\n" ++ Stmt.listing stmts) (stmts.flatMap Layout.line) (utf8 "\n")
  | [], _ => .nil _
  | first :: rest, ⟨made, later⟩ => by
    have lines := Stmt.lexes_line made (Stmt.lexes_lines rest later)
    obtain ⟨kind, literal, others, -, -, shaped, -⟩ := made.begins
    have begins : (first :: rest).flatMap Layout.line = (kind, literal) ::
        (others ++ (if first.isExpr then [] else [Kind.shape .semicolon]) ++
          rest.flatMap Layout.line) := by
      rw [List.flatMap_cons, Layout.line, shaped]
      rfl
    rw [begins] at lines ⊢
    exact lines.separated rfl

/-- The tokens of a listing are those of its lines. -/
theorem Stmt.scan_listing : ∀ {stmts : List Stmt}, Stmt.MadeOfAll Token.Genuine stmts →
    ∃ tokens line, Token.scan (Stmt.listing stmts) = tokens ++ [Token.eof line] ∧
      tokens.map Token.shape = stmts.flatMap Layout.line
  | [], _ => ⟨[], 1, rfl, rfl⟩
  | _ :: rest, ⟨made, later⟩ => by
    obtain ⟨tokens, line, yields, shaped⟩ := Stmt.lexes_line made (Stmt.lexes_lines rest later) 1
    exact ⟨tokens, _, yields.scan (Scanner.next_of_nil rfl), shaped⟩

/-! ## What a listing is read to -/

/-- Neighbours that stay apart on lines of their own: the first one ends with a semicolon, or the
text of the second one does not open a parenthesis. -/
def Stmt.Apart (first next : Stmt) : Prop := first.isExpr = true → ¬ utf8 "(" <+: next.render

instance : DecidableRel Stmt.Apart := fun first next =>
  inferInstanceAs (Decidable (first.isExpr = true → ¬ utf8 "(" <+: next.render))

/-- The tokens of a listing open a parenthesis where the first statement does, and continue what
stands before them only then. -/
theorem Layout.opens_lines : ∀ {stmts : List Stmt} {tokens : List Token},
    Stmt.MadeOfAll Token.Genuine stmts → tokens.map Token.shape = stmts.flatMap Layout.line →
    (Token.Opens tokens ↔ ∃ next ∈ stmts.head?, utf8 "(" <+: next.render) ∧
      ∀ token ∈ tokens.head?, token.kind.Joins → Token.Opens tokens
  | [], tokens, _, shaped => by
    obtain rfl := List.map_eq_nil_iff.mp shaped
    simp [Token.Opens]
  | first :: rest, tokens, ⟨made, _⟩, shaped => by
    rw [List.flatMap_cons, Layout.line, List.append_assoc] at shaped
    simpa using made.begins.opens_iff shaped

/-- A canonical expression may be called. -/
theorem Layout.callable {token : Token} {expr : Expr} {tokens : List Token}
    (formed : expr.WellFormed)
    (shaped : tokens.map Token.shape = canonical.stmt (.expr token expr)) :
    ∃ callee, (Phrase.operand 5 callee).Spelled tokens := by
  rw [stmt, ← canonical_wrap (Nat.le_refl 5)] at shaped
  obtain ⟨callee, -, spelled⟩ :=
    canonical.wrap_spelled (fun _ => canonical.expr_spelled expr formed) shaped
  exact ⟨callee, spelled⟩

/-- What the tokens of a listing spell: its statements, if all neighbours stay apart, and fewer
statements otherwise. -/
theorem Layout.lines_spelled : ∀ {stmts : List Stmt} {tokens : List Token},
    Stmt.MadeOfAll Token.Genuine stmts → tokens.map Token.shape = stmts.flatMap Layout.line →
    ∃ read : List Stmt, (Phrase.stmts read).Spelled tokens ∧ read.length ≤ stmts.length ∧
      (stmts.IsChain Stmt.Apart → Stmt.recastAll .erase read = Stmt.recastAll .erase stmts) ∧
      (¬ stmts.IsChain Stmt.Apart → read.length < stmts.length)
  | [], tokens, _, shaped => by
    obtain rfl := List.map_eq_nil_iff.mp shaped
    exact ⟨[], .noStmts, Nat.le_refl 0, fun _ => rfl, fun broken => absurd .nil broken⟩
  | first :: rest, tokens, ⟨made, later⟩, shaped => by
    rw [List.flatMap_cons, Layout.line] at shaped
    obtain ⟨front, others, rfl, shapedFront, shapedRest⟩ := List.map_eq_append_iff.mp shaped
    obtain ⟨own, ending, rfl, shapedOwn, shapedEnding⟩ := List.map_eq_append_iff.mp shapedFront
    obtain ⟨same, erased, spelled⟩ := canonical.stmt_spelled first made.wellFormed shapedOwn
    obtain ⟨read, spelledRest, fewer, kept, merged⟩ := Layout.lines_spelled later shapedRest
    obtain ⟨opens, joins⟩ := Layout.opens_lines later shapedRest
    -- The statement keeps to itself, so a pair that does not is among the others.
    have alone (spelledAll : (Phrase.stmts (same :: read)).Spelled (own ++ ending ++ others))
        (apart : ∀ next ∈ rest.head?, first.Apart next) :
        ∃ read : List Stmt, (Phrase.stmts read).Spelled (own ++ ending ++ others) ∧
          read.length ≤ (first :: rest).length ∧
          ((first :: rest).IsChain Stmt.Apart →
            Stmt.recastAll .erase read = Stmt.recastAll .erase (first :: rest)) ∧
          (¬ (first :: rest).IsChain Stmt.Apart → read.length < (first :: rest).length) := by
      refine ⟨same :: read, spelledAll, Nat.succ_le_succ fewer, ?_, ?_⟩
      · intro chain
        rw [Stmt.recastAll, Stmt.recastAll, erased, kept chain.tail]
      · intro broken
        exact Nat.succ_lt_succ (merged fun chain => broken (List.isChain_cons.mpr ⟨apart, chain⟩))
    cases single : first.isExpr with
    | false =>
      rw [single, if_neg Bool.false_ne_true] at shapedEnding
      obtain ⟨semicolon, rfl, kind⟩ := List.map_eq_singleton_iff.mp shapedEnding
      apply alone
      · rw [List.append_assoc, List.singleton_append]
        exact .ended spelled (kind_of_shape kind) spelledRest
      · intro next _ isExpr
        simp [single] at isExpr
    | true =>
      rw [single, if_pos rfl] at shapedEnding
      obtain rfl := List.map_eq_nil_iff.mp shapedEnding
      rw [List.append_nil] at alone ⊢
      by_cases continued : Token.Opens others
      · obtain ⟨token, value, rfl⟩ : ∃ token value, first = .expr token value := by
          cases first <;> simp_all [Stmt.isExpr]
        obtain ⟨callee, callable⟩ := Layout.callable made.2.wellFormed shapedOwn
        obtain ⟨whole, spelledWhole, length⟩ := spelledRest.called callable continued
        have shorter : whole.length < rest.length + 1 := by omega
        refine ⟨whole, spelledWhole, Nat.le_of_lt shorter, ?_, fun _ => shorter⟩
        intro chain
        obtain ⟨next, leads, opening⟩ := opens.mp continued
        exact absurd opening ((List.isChain_cons.mp chain).1 next leads single)
      · apply alone
        · exact .unended spelled (fun token leads joined => continued (joins token leads joined))
            spelledRest
        · intro next leads _ opening
          exact continued (opens.mpr ⟨next, leads, opening⟩)

/-- A listing is read without a fault, and to its statements only if all neighbours stay apart. -/
theorem Program.MadeOf.ofText_listing {program : Program} (made : program.MadeOf Token.Genuine) :
    (Program.ofText (Stmt.listing program.stmts)).errors = [] ∧
      ((Program.ofText (Stmt.listing program.stmts)).program.erased = program.erased ↔
        program.stmts.IsChain Stmt.Apart) := by
  obtain ⟨tokens, line, scanned, shaped⟩ := Stmt.scan_listing made
  obtain ⟨read, spelled, -, kept, merged⟩ := Layout.lines_spelled made shaped
  rw [Program.ofText_eq, scanned, spelled.ofTokens_append [Token.eof line] (by simp [Token.eof])]
  refine ⟨rfl, ?_, fun chain => congrArg Program.mk (kept chain)⟩
  intro same
  by_contra broken
  have length := congrArg (fun program => program.stmts.length) same
  simp only [Program.erased, Program.recast, Stmt.length_recastAll] at length
  exact absurd length (Nat.ne_of_lt (merged broken))

namespace Command

/-- Showing the statements of a file that is read without a fault succeeds. The output is read
again without a fault; it is read to the same program, up to tokens, exactly if no expression
stands before a statement whose canonical text opens a parenthesis. -/
theorem execute_statements (path source : Text) (fallback : Nat) (surroundings : Surroundings)
    (settings : Settings)
    (loaded : (Invocation.mk [] [utf8 "ast", path]).load surroundings = .ok settings)
    (found : surroundings.read path = .ok source) (clean : (Program.ofText source).errors = []) :
    ∃ output, execute [utf8 "ast", path] fallback surroundings = some (.success output) ∧
      (Program.ofText output).errors = [] ∧
      ((Program.ofText output).program.erased = (Program.ofText source).program.erased ↔
        (Program.ofText source).program.stmts.IsChain Stmt.Apart) := by
  have shown : execute [utf8 "ast", path] fallback surroundings =
      some (.success (Stmt.listing (Program.ofText source).program.stmts)) := by
    have invoked : Invocation.ofArguments [utf8 "ast", path] = .ok ⟨[], [utf8 "ast", path]⟩ := rfl
    have asked : action settings [utf8 "ast", path] = .statements path := rfl
    rw [execute_of_load invoked loaded, asked]
    simp only [Action.perform, found, onSource, showStatements, clean]
    rfl
  exact ⟨_, shown, (Program.ofText_genuine source).ofText_listing⟩

/-- One program, and no home to have settings in. -/
def lone (source : Text) : Surroundings where
  read path := if path = utf8 "p.lpp" then .ok source else .error .missing
  home := []
  decode _ settings := (settings, some .endOfInput)
  editor := closedEditor

/-- Three statements that stay apart: the last one opens a parenthesis, behind a semicolon. -/
theorem execute_statements_apart :
    (Program.ofText (utf8 "1; x = -2; (3 + x)")).errors = [] ∧
      ∃ output, execute [utf8 "ast", utf8 "p.lpp"] 0 (lone (utf8 "1; x = -2; (3 + x)")) =
          some (.success output) ∧
        (Program.ofText output).errors = [] ∧
        (Program.ofText output).program.erased =
          (Program.ofText (utf8 "1; x = -2; (3 + x)")).program.erased := by
  have clean : (Program.ofText (utf8 "1; x = -2; (3 + x)")).errors = [] := by rfl
  have apart : (Program.ofText (utf8 "1; x = -2; (3 + x)")).program.stmts.IsChain Stmt.Apart := by
    decide +kernel
  obtain ⟨output, shown, read, same⟩ := execute_statements (utf8 "p.lpp")
    (utf8 "1; x = -2; (3 + x)") 0 (lone (utf8 "1; x = -2; (3 + x)")) Settings.default rfl rfl clean
  exact ⟨clean, output, shown, read, same.mpr apart⟩

/-- Two expressions that a listing runs together: `1; -2` is shown on two lines, and these are read
as one call. -/
theorem execute_statements_merged :
    (Program.ofText (utf8 "1; -2")).errors = [] ∧
      execute [utf8 "ast", utf8 "p.lpp"] 0 (lone (utf8 "1; -2")) =
        some (.success (utf8 "1\n(-2)\n")) ∧
      (Program.ofText (utf8 "1\n(-2)\n")).program.erased ≠
        (Program.ofText (utf8 "1; -2")).program.erased := by
  have one : (Program.ofText (utf8 "1\n(-2)\n")).program.erased.stmts.length = 1 := by rfl
  have two : (Program.ofText (utf8 "1; -2")).program.erased.stmts.length = 2 := by rfl
  refine ⟨by rfl, by rfl, fun same => ?_⟩
  rw [same, two] at one
  exact absurd one (by decide)

end Command

end Lengua
