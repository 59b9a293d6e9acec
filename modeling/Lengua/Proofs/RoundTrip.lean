import Lengua.Proofs.Layout
import Lengua.Proofs.Lexing
import Lengua.Proofs.Reader.Made
import Lengua.Proofs.Reader.Pull

/-!
# Reading canonical text

The canonical text of a program that was read from any text, with or without faults, is
read back to the same program up to tokens, and without a fault. Such a program is made of
genuine tokens, so it is well-formed; a scanner finds in its canonical text the tokens that
the canonical layout writes for it; and these spell the program.
-/

namespace Lengua

/-! ## Programs that were read are well-formed -/

/-- A genuine sign or reserved word has its own spelling. -/
theorem Token.Genuine.literal_eq {token : Token} (genuine : token.Genuine)
    (fixed : token.kind.spelling ≠ []) : token.literal = token.kind.spelling := by
  unfold Token.Genuine Kind.Admits at genuine
  cases kind : token.kind <;> simp_all [Kind.spelling]

/-- A genuine token of a kind with one spelling has that. -/
theorem Token.Genuine.literal_of_kind {token : Token} {kind : Kind} (genuine : token.Genuine)
    (same : token.kind = kind) (fixed : kind.spelling ≠ []) : token.literal = kind.spelling := by
  rw [← same] at fixed ⊢
  exact genuine.literal_eq fixed

/-- A genuine sign of an operation has the spelling of its kind. -/
theorem Token.Genuine.operation {token : Token} {rank : Nat} (genuine : token.Genuine)
    (ranked : token.kind.rank? = some rank) : token.literal = token.kind.spelling := by
  apply genuine.literal_eq
  cases kind : token.kind <;> simp_all [Kind.rank?] <;> decide

/-- A genuine sign before an operand has the spelling of its kind. -/
theorem Token.Genuine.sign {token : Token} (genuine : token.Genuine)
    (isSign : token.kind.IsSign) : token.literal = token.kind.spelling := by
  apply genuine.literal_eq
  rcases isSign with kind | kind <;> rw [kind] <;> decide

/-- A genuine number is not negative. -/
theorem Token.Genuine.nonneg {token : Token} {value : Int64} (genuine : token.Genuine)
    (kind : token.kind = .int) (read : Text.plainInteger? token.literal = some value) :
    0 ≤ value.toInt := by
  rw [Token.Genuine, kind] at genuine
  exact Text.nonneg_of_plainInteger genuine.2 read

mutual

/-- An expression made of genuine tokens is well-formed. -/
theorem Expr.MadeOf.wellFormed : ∀ {expr : Expr}, expr.MadeOf Token.Genuine → expr.WellFormed
  | .ident _, _ | .bool _ _, _ | .str _ _, _ | .null _, _ => trivial
  | .int _ _, made => made.1.nonneg made.2.1 made.2.2
  | .unary token _ _, ⟨genuine, isSign, same, operand⟩ =>
    ⟨⟨token.kind, isSign, same.trans (genuine.sign isSign)⟩, operand.wellFormed⟩
  | .binary token _ _ _, ⟨genuine, ⟨rank, ranked⟩, same, left, right⟩ =>
    ⟨⟨token.kind, rank, ranked, same.trans (genuine.operation ranked)⟩, left.wellFormed,
      right.wellFormed⟩
  | .choice _ _ _ _, ⟨_, _, test, yes, no⟩ =>
    ⟨test.wellFormed, yes.wellFormed, no.imp_right fun made => made.wellFormed⟩
  | .procedure _ _ _, ⟨_, _, _, body⟩ => body.wellFormed
  | .call _ _ _, ⟨_, _, callee, args⟩ => ⟨callee.wellFormed, Expr.MadeOfAll.wellFormed args⟩

/-- Expressions made of genuine tokens are well-formed. -/
theorem Expr.MadeOfAll.wellFormed : ∀ {exprs : List Expr},
    Expr.MadeOfAll Token.Genuine exprs → Expr.WellFormedAll exprs
  | [], _ => trivial
  | _ :: _, ⟨first, rest⟩ => ⟨first.wellFormed, Expr.MadeOfAll.wellFormed rest⟩

/-- A statement made of genuine tokens is well-formed. -/
theorem Stmt.MadeOf.wellFormed : ∀ {stmt : Stmt}, stmt.MadeOf Token.Genuine → stmt.WellFormed
  | .declare _ _ _, ⟨_, _, ⟨_, named, _⟩, value⟩ | .assign _ _ _, ⟨_, _, ⟨_, named, _⟩, value⟩ =>
    ⟨by rw [named]; rfl, value.wellFormed⟩
  | .giveBack _ _, ⟨_, _, value⟩ | .expr _ _, ⟨_, value⟩ => value.wellFormed

/-- Statements made of genuine tokens are well-formed. -/
theorem Stmt.MadeOfAll.wellFormed : ∀ {stmts : List Stmt},
    Stmt.MadeOfAll Token.Genuine stmts → Stmt.WellFormedAll stmts
  | [], _ => trivial
  | _ :: _, ⟨first, rest⟩ => ⟨first.wellFormed, Stmt.MadeOfAll.wellFormed rest⟩

/-- A block made of genuine tokens is well-formed. -/
theorem Block.MadeOf.wellFormed : ∀ {block : Block},
    block.MadeOf Token.Genuine → block.WellFormed
  | .braces _ _, ⟨_, _, stmts⟩ => Stmt.MadeOfAll.wellFormed stmts

end

/-- The program read from a text is complete and made of genuine tokens. -/
theorem Program.ofText_genuine (source : Text) :
    (Program.ofText source).program.MadeOf Token.Genuine := by
  rw [Program.ofText_eq]
  exact Program.ofTokens_madeOf (Token.scan_genuine source)

/-! ## The tokens of canonical text -/

namespace Layout

/-- Canonical text has the same parentheses wherever an expression stands. -/
theorem canonical_wrap {least : Nat} (low : least ≤ 5) (tree : Expr) (inside : List Shape) :
    canonical.wrap least tree inside = canonical.wrap 0 tree inside := by
  have call : ¬ 5 < least := Nat.not_lt.mpr low
  have complete : ¬ 6 < least := by omega
  unfold wrap
  cases tree with
  | unary | binary => rfl
  | _ => simp [canonical, Expr.tightness, call, complete]

/-- Parentheses do not make something nothing. -/
theorem wrap_ne_nil (layout : Layout) (least : Nat) (tree : Expr) {inside : List Shape}
    (some : inside ≠ []) : layout.wrap least tree inside ≠ [] := by
  unfold wrap
  split
  · simp
  · exact some

/-- An expression has at least one token. -/
theorem expr_ne_nil (layout : Layout) {tree : Expr} (formed : tree.WellFormed) :
    layout.expr tree ≠ [] := by
  cases tree with
  | absent => exact formed.elim
  | _ => simp [expr]

/-- A statement has at least one token. -/
theorem stmt_ne_nil (layout : Layout) {tree : Stmt} (formed : tree.WellFormed) :
    layout.stmt tree ≠ [] := by
  cases tree with
  | absent | block => exact formed.elim
  | expr token value => exact layout.wrap_ne_nil _ _ (layout.expr_ne_nil formed)
  | _ => simp [stmt]

/-- A block has at least two tokens. -/
theorem block_ne_nil (layout : Layout) {tree : Block} (formed : tree.WellFormed) :
    layout.block tree ≠ [] := by
  cases tree with
  | absent => exact formed.elim
  | braces token inside => simp [block]

/-- Arguments have at least one token. -/
theorem args_ne_nil (layout : Layout) {first : Expr} {rest : List Expr}
    (formed : first.WellFormed) : layout.args (first :: rest) ≠ [] := by
  have some := layout.wrap_ne_nil 0 first (layout.expr_ne_nil formed)
  cases rest with
  | nil => exact some
  | cons next rest => simp [args]

end Layout

open Lexes in
/-- The parameters of a procedure in canonical text. -/
theorem Ident.lexes : ∀ (names : List Ident), (∀ id ∈ names, id.MadeOf Token.Genuine) →
    ∀ rest, Clear rest →
    Lexes (Text.listed (names.map Ident.name) ++ rest) (Layout.params names) rest
  | [], _, rest, _ => .nil rest
  | [last], made, rest, clear => by
    obtain ⟨genuine, kind, same⟩ := made last List.mem_cons_self
    rw [Token.Genuine, kind, ← same] at genuine
    obtain ⟨isWord, found⟩ := genuine
    have read := word isWord clear
    rw [found] at read
    simpa [Text.listed, Text.joined, Layout.params] using read
  | first :: next :: others, made, rest, clear => by
    obtain ⟨genuine, kind, same⟩ := made first List.mem_cons_self
    rw [Token.Genuine, kind, ← same] at genuine
    obtain ⟨isWord, found⟩ := genuine
    have later := Ident.lexes (next :: others)
      (fun id member => made id (List.mem_cons_of_mem first member)) rest clear
    have some : Layout.params (next :: others) ≠ [] := by
      cases others <;> simp [Layout.params]
    have listed : Text.listed ((first :: next :: others).map Ident.name) ++ rest =
        first.name ++ (Kind.spelling .comma ++
          (utf8 " " ++ (Text.listed ((next :: others).map Ident.name) ++ rest))) := by
      have comma : utf8 ", " = Kind.spelling .comma ++ utf8 " " := rfl
      simp [Text.listed, Text.joined, comma]
    have read := word isWord (clear_lone .comma rfl
      (utf8 " " ++ (Text.listed ((next :: others).map Ident.name) ++ rest)))
    rw [found] at read
    rw [listed]
    exact read.cons ((loneSign _ rfl _).cons (later.space some))

/-- The canonical text of an expression does not begin with the sign `=`. -/
theorem Expr.render_begins : ∀ {expr : Expr}, expr.MadeOf Token.Genuine →
    ∃ byte text, expr.render = byte :: text ∧ byte ≠ 0x3D
  | .ident id, ⟨genuine, kind, same⟩ => by
    rw [Token.Genuine, kind, ← same] at genuine
    obtain ⟨⟨first, rest, spelled, letter, -⟩, -⟩ := genuine
    refine ⟨first, rest, spelled, ?_⟩
    rintro rfl
    exact absurd letter (by decide)
  | .int _ value, made => by
    obtain ⟨magnitude, same⟩ := Int.eq_ofNat_of_zero_le (made.1.nonneg made.2.1 made.2.2)
    obtain ⟨some, digits⟩ := Text.ofNat_digits magnitude
    obtain ⟨first, rest, spelled⟩ := List.exists_cons_of_ne_nil some
    have form : Text.ofInt value.toInt = Text.ofNat magnitude := by rw [same]; rfl
    refine ⟨first, rest, by rw [Expr.render, form, spelled], ?_⟩
    rintro rfl
    exact absurd (digits _ (spelled ▸ List.mem_cons_self)) (by decide)
  | .bool _ true, _ | .bool _ false, _ | .null _, _ => ⟨_, _, rfl, by decide⟩
  | .str _ value, _ => by
    refine ⟨_, _, rfl, ?_⟩
    split <;> decide
  | .unary _ _ _, _ | .binary _ _ _ _, _ | .choice _ _ _ _, _ => ⟨_, _, rfl, by decide⟩
  | .procedure token _ _, ⟨genuine, kind, _, _⟩ => by
    have literal := genuine.literal_of_kind kind (by decide)
    rw [Expr.render, literal]
    exact ⟨_, _, rfl, by decide⟩
  | .call _ _ _, ⟨_, _, callee, _⟩ => by
    obtain ⟨byte, text, spelled, other⟩ := Expr.render_begins callee
    rw [Expr.render, spelled]
    exact ⟨byte, _, rfl, other⟩

/-- An operation has parentheses in canonical text. -/
theorem Layout.canonical_binary {token : Token} {rank : Nat} (ranked : token.kind.rank? = some rank)
    (left right : Expr) :
    canonical.wrap 0 (.binary token token.kind.spelling left right)
        (canonical.expr (.binary token token.kind.spelling left right)) =
      Kind.shape .leftParen :: (canonical.wrap 0 left (canonical.expr left) ++
        token.kind.shape :: (canonical.wrap 0 right (canonical.expr right) ++
          [Kind.shape .rightParen])) := by
  have low := (Kind.strength_of_rank ranked).2.1
  have inside : canonical.expr (.binary token token.kind.spelling left right) =
      canonical.wrap 0 left (canonical.expr left) ++
        token.kind.shape :: canonical.wrap 0 right (canonical.expr right) := by
    rw [expr, Kind.ofOperator_of_rank ranked, ranked, Option.getD_some,
      canonical_wrap (by omega) left, canonical_wrap (by omega) right, Kind.shape]
  have wrapped (shapes : List Shape) :
      canonical.wrap 0 (.binary token token.kind.spelling left right) shapes =
        Kind.shape .leftParen :: shapes ++ [Kind.shape .rightParen] := rfl
  rw [wrapped, inside]
  simp

/-- A sign with its operand has parentheses in canonical text. -/
theorem Layout.canonical_unary {token : Token} (isSign : token.kind.IsSign) (operand : Expr) :
    canonical.wrap 0 (.unary token token.kind.spelling operand)
        (canonical.expr (.unary token token.kind.spelling operand)) =
      Kind.shape .leftParen :: token.kind.shape ::
        (canonical.wrap 0 operand (canonical.expr operand) ++ [Kind.shape .rightParen]) := by
  have inside : canonical.expr (.unary token token.kind.spelling operand) =
      token.kind.shape :: canonical.wrap 0 operand (canonical.expr operand) := by
    rw [expr, Kind.ofOperator_of_sign isSign, canonical_wrap (by omega) operand, Kind.shape]
  have wrapped (shapes : List Shape) :
      canonical.wrap 0 (.unary token token.kind.spelling operand) shapes =
        Kind.shape .leftParen :: shapes ++ [Kind.shape .rightParen] := rfl
  rw [wrapped, inside]
  simp

open Lexes in
mutual

/-- An expression in canonical text. -/
theorem Expr.lexes : ∀ (expr : Expr), expr.MadeOf Token.Genuine → ∀ rest, Clear rest →
    Lexes (expr.render ++ rest) (Layout.canonical.wrap 0 expr (Layout.canonical.expr expr)) rest
  | .ident id, ⟨genuine, kind, same⟩, rest, clear => by
    rw [Token.Genuine, kind, ← same] at genuine
    obtain ⟨isWord, found⟩ := genuine
    have read := word isWord clear
    rwa [found] at read
  | .int _ value, made, rest, clear => by
    obtain ⟨magnitude, same⟩ := Int.eq_ofNat_of_zero_le (made.1.nonneg made.2.1 made.2.2)
    have form : Text.ofInt value.toInt = Text.ofNat magnitude := by rw [same]; rfl
    have digits : (Text.ofInt value.toInt).IsNumber := form ▸ Text.ofNat_digits magnitude
    exact number digits clear
  | .bool _ true, _, _, clear => reserved .trueWord rfl clear
  | .bool _ false, _, _, clear => reserved .falseWord rfl clear
  | .str _ value, ⟨genuine, kind, same⟩, rest, _ => by
    rw [Token.Genuine, kind, ← same] at genuine
    exact quotation genuine rest
  | .null _, _, _, clear => reserved .nullWord rfl clear
  | .unary token sign operand, ⟨genuine, isSign, same, made⟩, rest, _ => by
    obtain rfl : sign = token.kind.spelling := same.trans (genuine.sign isSign)
    have inner := (Expr.lexes operand made _ (clear_lone _ rfl rest)).append
      (loneSign .rightParen rfl rest)
    have signed : Lexes (token.kind.spelling ++
        (operand.render ++ (Kind.spelling .rightParen ++ rest))) [token.kind.shape]
          (operand.render ++ (Kind.spelling .rightParen ++ rest)) := by
      rcases isSign with kind | kind
      · rw [kind]
        exact loneSign _ rfl _
      · obtain ⟨byte, text, begins, other⟩ := Expr.render_begins made
        rw [kind, begins]
        exact openSign (.inr rfl) (by simpa using other)
    have text : (Expr.unary token token.kind.spelling operand).render ++ rest =
        Kind.spelling .leftParen ++ (token.kind.spelling ++ (operand.render ++
          (Kind.spelling .rightParen ++ rest))) := by
      simp only [Expr.render, List.append_assoc]
      rfl
    rw [text, Layout.canonical_unary isSign operand]
    exact (loneSign _ rfl _).cons (signed.cons inner)
  | .binary token sign left right, ⟨genuine, ⟨rank, ranked⟩, same, first, second⟩, rest, _ => by
    obtain rfl : sign = token.kind.spelling := same.trans (genuine.operation ranked)
    have after := (Expr.lexes right second _ (clear_lone _ rfl rest)).append
      (loneSign .rightParen rfl rest)
    have signed := (operation ranked _).cons (after.space (by simp))
    have before := (Expr.lexes left first _ (clear_space _)).append (signed.space (by simp))
    have text : (Expr.binary token token.kind.spelling left right).render ++ rest =
        Kind.spelling .leftParen ++ (left.render ++ (utf8 " " ++ (token.kind.spelling ++
          (utf8 " " ++ (right.render ++ (Kind.spelling .rightParen ++ rest)))))) := by
      simp only [Expr.render, List.append_assoc]
      rfl
    rw [text, Layout.canonical_binary ranked left right]
    exact (loneSign _ rfl _).cons before
  | .choice token test yes no, ⟨_, _, tested, taken, spared⟩, rest, clear => by
    have last : Lexes
        ((if no.isAbsent then [] else utf8 " si_no \x7b " ++ no.render ++ utf8 " \x7d") ++ rest)
        (if no.isAbsent then [] else Kind.shape .elseWord :: Layout.canonical.block no) rest := by
      cases absent : no.isAbsent with
      | true => exact .nil rest
      | false =>
        have made : no.MadeOf Token.Genuine := spared.resolve_left (by simp [absent])
        have block := Block.lexes no made rest
        have word := (reserved .elseWord rfl (clear_space _)).cons
          (block.space (Layout.canonical.block_ne_nil made.wellFormed))
        have text : utf8 " si_no \x7b " ++ no.render ++ utf8 " \x7d" ++ rest =
            utf8 " " ++ (Kind.spelling .elseWord ++ (utf8 " " ++ (utf8 "\x7b " ++
              (no.render ++ (utf8 " \x7d" ++ rest))))) := by
          simp only [List.append_assoc]
          rfl
        rw [if_neg Bool.false_ne_true, if_neg Bool.false_ne_true, text]
        exact word.space (by simp)
    have branch := (Block.lexes yes taken _).append last
    have closed := (loneSign .rightParen rfl _).cons
      (branch.space (by simp [Layout.canonical.block_ne_nil taken.wellFormed]))
    have condition := (Expr.lexes test tested _ (clear_lone _ rfl _)).append closed
    have opened := (loneSign .leftParen rfl _).cons condition
    have word := (reserved .ifWord rfl (clear_space _)).cons (opened.space (by simp))
    have text : (Expr.choice token test yes no).render ++ rest =
        Kind.spelling .ifWord ++ (utf8 " " ++ (Kind.spelling .leftParen ++ (test.render ++
          (Kind.spelling .rightParen ++ (utf8 " " ++ (utf8 "\x7b " ++ (yes.render ++
            (utf8 " \x7d" ++
              ((if no.isAbsent then [] else utf8 " si_no \x7b " ++ no.render ++ utf8 " \x7d") ++
                rest))))))))) := by
      simp only [Expr.render, List.append_assoc]
      rfl
    have shapes : Layout.canonical.wrap 0 (.choice token test yes no)
        (Layout.canonical.expr (.choice token test yes no)) =
          Layout.canonical.expr (.choice token test yes no) := rfl
    rw [text, shapes, Layout.expr]
    simpa only [List.append_assoc, List.cons_append] using word
  | .procedure token names body, ⟨genuine, kind, named, made⟩, rest, clear => by
    have literal := genuine.literal_of_kind kind (by decide)
    have closed := (loneSign .rightParen rfl _).cons
      ((Block.lexes body made rest).space (Layout.canonical.block_ne_nil made.wellFormed))
    have listed := (Ident.lexes names named _ (clear_lone _ rfl _)).append closed
    have opened := (loneSign .leftParen rfl _).cons listed
    have word := (reserved .procedureWord rfl (clear_lone _ rfl _)).cons opened
    have text : (Expr.procedure token names body).render ++ rest =
        Kind.spelling .procedureWord ++ (Kind.spelling .leftParen ++
          (Text.listed (names.map Ident.name) ++ (Kind.spelling .rightParen ++ (utf8 " " ++
            (utf8 "\x7b " ++ (body.render ++ (utf8 " \x7d" ++ rest))))))) := by
      rw [Expr.render, literal]
      simp only [List.append_assoc]
      rfl
    have shapes : Layout.canonical.wrap 0 (.procedure token names body)
        (Layout.canonical.expr (.procedure token names body)) =
          Layout.canonical.expr (.procedure token names body) := rfl
    rw [text, shapes, Layout.expr]
    exact word
  | .call token callee args, ⟨_, _, called, values⟩, rest, clear => by
    have listed := (Expr.lexesAll args values _ (clear_lone _ rfl rest)).append
      (loneSign .rightParen rfl rest)
    have whole := (Expr.lexes callee called _ (clear_lone _ rfl _)).append
      ((loneSign .leftParen rfl _).cons listed)
    have text : (Expr.call token callee args).render ++ rest =
        callee.render ++ (Kind.spelling .leftParen ++ (Text.listed (Expr.renderAll args) ++
          (Kind.spelling .rightParen ++ rest))) := by
      simp only [Expr.render, List.append_assoc]
      rfl
    have shapes : Layout.canonical.wrap 0 (.call token callee args)
        (Layout.canonical.expr (.call token callee args)) =
          Layout.canonical.expr (.call token callee args) := rfl
    rw [text, shapes, Layout.expr, Layout.canonical_wrap (by decide) callee]
    simpa only [List.append_assoc, List.cons_append] using whole

/-- Arguments in canonical text. -/
theorem Expr.lexesAll : ∀ (exprs : List Expr), Expr.MadeOfAll Token.Genuine exprs →
    ∀ rest, Clear rest →
    Lexes (Text.listed (Expr.renderAll exprs) ++ rest) (Layout.canonical.args exprs) rest
  | [], _, rest, _ => .nil rest
  | [last], ⟨made, _⟩, rest, clear => by
    have read := Expr.lexes last made rest clear
    simpa [Text.listed, Text.joined, Expr.renderAll, Layout.args] using read
  | first :: next :: others, ⟨made, later, all⟩, rest, clear => by
    have following := Expr.lexesAll (next :: others) ⟨later, all⟩ rest clear
    have comma := (loneSign .comma rfl _).cons
      (following.space (Layout.canonical.args_ne_nil later.wellFormed))
    have text : Text.listed (Expr.renderAll (first :: next :: others)) ++ rest =
        first.render ++ (Kind.spelling .comma ++
          (utf8 " " ++ (Text.listed (Expr.renderAll (next :: others)) ++ rest))) := by
      have comma : utf8 ", " = Kind.spelling .comma ++ utf8 " " := rfl
      simp [Text.listed, Text.joined, Expr.renderAll, comma]
    rw [text, Layout.args]
    exact (Expr.lexes first made _ (clear_lone _ rfl _)).append comma

/-- A statement in canonical text. Only an expression has no semicolon of its own. -/
theorem Stmt.lexes : ∀ (stmt : Stmt), stmt.MadeOf Token.Genuine → ∀ rest, Clear rest →
    Lexes (stmt.render ++ rest) (Layout.canonical.stmt stmt ++
      if stmt.isExpr then [] else [Kind.shape .semicolon]) rest
  | .declare token name value, ⟨genuine, kind, ⟨id, named, made⟩, given⟩, rest, _ => by
    obtain rfl := named
    have literal := genuine.literal_of_kind kind (by decide)
    have word := (reserved .variableWord rfl (clear_space _)).cons
      ((Stmt.lexes_target made given rest).space (by simp))
    have text : (Stmt.declare token (some id) value).render ++ rest =
        Kind.spelling .variableWord ++ (utf8 " " ++ (id.name ++ (utf8 " " ++
          (Kind.spelling .assign ++ (utf8 " " ++ (value.render ++
            (Kind.spelling .semicolon ++ rest))))))) := by
      rw [Stmt.render, literal]
      simp only [List.append_assoc]
      rfl
    rw [text]
    exact word
  | .assign token name value, ⟨_, _, ⟨id, named, made⟩, given⟩, rest, _ => by
    obtain rfl := named
    have text : (Stmt.assign token (some id) value).render ++ rest =
        id.name ++ (utf8 " " ++ (Kind.spelling .assign ++ (utf8 " " ++ (value.render ++
          (Kind.spelling .semicolon ++ rest))))) := by
      rw [Stmt.render]
      simp only [List.append_assoc]
      rfl
    rw [text]
    exact Stmt.lexes_target made given rest
  | .giveBack token value, ⟨genuine, kind, given⟩, rest, _ => by
    have literal := genuine.literal_of_kind kind (by decide)
    have ended := (Expr.lexes value given _ (clear_lone _ rfl rest)).append
      (loneSign .semicolon rfl rest)
    have word := (reserved .returnWord rfl (clear_space _)).cons (ended.space (by simp))
    have text : (Stmt.giveBack token value).render ++ rest =
        Kind.spelling .returnWord ++ (utf8 " " ++ (value.render ++
          (Kind.spelling .semicolon ++ rest))) := by
      rw [Stmt.render, literal]
      simp only [List.append_assoc]
      rfl
    rw [text]
    exact word
  | .expr token value, ⟨_, given⟩, rest, clear => by
    have read := Expr.lexes value given rest clear
    simpa [Stmt.render, Stmt.isExpr, Layout.stmt] using read

/-- The target and the value of a statement in canonical text. -/
theorem Stmt.lexes_target {id : Ident} {value : Expr} (made : id.MadeOf Token.Genuine)
    (given : value.MadeOf Token.Genuine) (rest : Text) :
    Lexes (id.name ++ (utf8 " " ++ (Kind.spelling .assign ++ (utf8 " " ++ (value.render ++
        (Kind.spelling .semicolon ++ rest))))))
      ((.ident, id.name) :: Kind.shape .assign ::
        (Layout.canonical.wrap 0 value (Layout.canonical.expr value) ++
          [Kind.shape .semicolon])) rest := by
  obtain ⟨genuine, kind, same⟩ := made
  rw [Token.Genuine, kind, ← same] at genuine
  obtain ⟨isWord, found⟩ := genuine
  have ended := (Expr.lexes value given _ (clear_lone _ rfl rest)).append
    (loneSign .semicolon rfl rest)
  have apart (rest : Text) : ∀ next ∈ (utf8 " " ++ rest).head?, next ≠ 0x3D := by
    rintro _ ⟨⟩
    decide
  have signed := (openSign (.inl rfl) (apart _)).cons (ended.space (by simp))
  have read := (word isWord (clear_space _)).cons (signed.space (by simp))
  rwa [found] at read

/-- Statements in canonical text. -/
theorem Stmt.lexesAll : ∀ (stmts : List Stmt), Stmt.MadeOfAll Token.Genuine stmts →
    ∀ rest, Clear rest → Lexes (Stmt.renderAll stmts ++ rest) (Layout.canonical.stmts stmts) rest
  | [], _, rest, _ => .nil rest
  | [stmt], ⟨made, _⟩, rest, clear => by
    have read := Stmt.lexes stmt made rest clear
    have text : Stmt.renderAll [stmt] ++ rest = stmt.render ++ rest := by
      simp [Stmt.renderAll, Stmt.separator]
    have shapes : Layout.canonical.stmts [stmt] = Layout.canonical.stmt stmt ++
        if stmt.isExpr then [] else [Kind.shape .semicolon] := by
      cases single : stmt.isExpr <;>
        simp [Layout.stmts, Layout.ending, Layout.canonical, single]
    rwa [text, shapes]
  | first :: next :: others, ⟨made, later, all⟩, rest, clear => by
    have following := Stmt.lexesAll (next :: others) ⟨later, all⟩ rest clear
    have some : Layout.canonical.stmts (next :: others) ≠ [] := by
      simp [Layout.stmts, Layout.canonical.stmt_ne_nil later.wellFormed]
    have ending : Layout.canonical.ending first (next :: others)
        (Layout.canonical.stmts (next :: others)) = [Kind.shape .semicolon] := by
      simp [Layout.ending, Layout.canonical]
    rw [Layout.stmts, ending]
    cases single : first.isExpr with
    | true =>
      have ended := (loneSign .semicolon rfl _).cons (following.space some)
      have read := (Stmt.lexes first made _ (clear_lone _ rfl _)).append ended
      have text : Stmt.renderAll (first :: next :: others) ++ rest =
          first.render ++ (Kind.spelling .semicolon ++ (utf8 " " ++
            (Stmt.renderAll (next :: others) ++ rest))) := by
        rw [Stmt.renderAll, Stmt.separator, single]
        simp only [List.append_assoc]
        rfl
      rw [text]
      simpa [single] using read
    | false =>
      have read := (Stmt.lexes first made _ (clear_space _)).append (following.space some)
      have text : Stmt.renderAll (first :: next :: others) ++ rest =
          first.render ++ (utf8 " " ++ (Stmt.renderAll (next :: others) ++ rest)) := by
        rw [Stmt.renderAll, Stmt.separator, single]
        simp only [List.append_assoc]
        rfl
      rw [text]
      simpa [single] using read

/-- A block in canonical text. -/
theorem Block.lexes : ∀ (block : Block), block.MadeOf Token.Genuine → ∀ rest,
    Lexes (utf8 "\x7b " ++ (block.render ++ (utf8 " \x7d" ++ rest)))
      (Layout.canonical.block block) rest
  | .braces token stmts, ⟨_, _, made⟩, rest => by
    have close := (loneSign .rightBrace rfl rest).space (by simp)
    have inside := (Stmt.lexesAll stmts made _ (clear_space _)).append close
    have opened := (loneSign .leftBrace rfl _).cons (inside.space (by simp))
    exact opened

end

/-! ## The round trip -/

/-- The tokens of the canonical text of a program made of genuine tokens spell the program. -/
theorem Program.MadeOf.scan_render {program : Program} (made : program.MadeOf Token.Genuine) :
    ∃ tokens line, Token.scan program.render = tokens ++ [Token.eof line] ∧
      program.SpelledAlike tokens := by
  have nothing : Lexes.Clear [] := by simp [Lexes.Clear]
  obtain ⟨tokens, line, yields, shaped⟩ := Stmt.lexesAll program.stmts made [] nothing 1
  rw [List.append_nil] at yields
  exact ⟨tokens, line, yields.scan (Scanner.next_end line),
    Layout.canonical.spelledAlike (Stmt.MadeOfAll.wellFormed made) shaped⟩

/-- The canonical text of such a program is read back to it without a fault, up to tokens. -/
theorem Program.MadeOf.ofText_render {program : Program} (made : program.MadeOf Token.Genuine) :
    (Program.ofText program.render).errors = [] ∧
      (Program.ofText program.render).program.erased = program.erased := by
  obtain ⟨tokens, line, scanned, spelled⟩ := made.scan_render
  rw [Program.ofText_eq program.render, scanned]
  exact spelled.ofTokens_append [Token.eof line] (by simp [Token.eof])

/-- Whatever text a program was read from, its canonical text is read back without a fault to the
same program, up to tokens. -/
theorem Program.ofText_render_ofText (source : Text) :
    (Program.ofText (Program.ofText source).program.render).errors = [] ∧
      (Program.ofText (Program.ofText source).program.render).program.erased =
        (Program.ofText source).program.erased :=
  (Program.ofText_genuine source).ofText_render

end Lengua
