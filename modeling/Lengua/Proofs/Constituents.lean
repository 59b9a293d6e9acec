import Lengua.Proofs.RoundTrip
import Mathlib.Algebra.Group.Int.Defs
import Mathlib.Logic.Relation

/-!
# The constituents of a tree

A tree is made of names, expressions, statements and blocks, each with further constituents
directly inside it. What can be said of one of them by looking no further than these is said here
of all: in a tree that was read nothing is missing that must be there, whatever faults were found
on the way; and in a tree that was read from a text every name, number, string and sign is one that
a text can hold.

Both follow from what such trees are made of (`Program.MadeOf`), which goes over from a constituent
to those directly inside it, and so to everything within it.
-/

namespace Lengua

/-- The signs before an operand, each with its text. -/
def Kind.unarySigns : List (Kind × Text) := [(.minus, utf8 "-"), (.negation, utf8 "!")]

/-- The signs between two operands, each with its text. -/
def Kind.binarySigns : List (Kind × Text) :=
  [(.plus, utf8 "+"), (.minus, utf8 "-"), (.times, utf8 "*"), (.divide, utf8 "/"),
    (.less, utf8 "<"), (.greater, utf8 ">"), (.equal, utf8 "=="), (.notEqual, utf8 "!=")]

/-- A name, an expression, a statement or a block, with all that is inside it. -/
inductive Constituent where
  /-- A name. -/
  | ident (id : Ident)
  /-- An expression. -/
  | expr (expr : Expr)
  /-- A statement. -/
  | stmt (stmt : Stmt)
  /-- A block. -/
  | block (block : Block)

namespace Constituent

/-- The constituents directly inside one. What is missing counts as well, except an alternative
branch, which need not be written. -/
def inner : Constituent → List Constituent
  | .ident _ => []
  | .expr .absent | .expr (.int _ _) | .expr (.bool _ _) | .expr (.str _ _) | .expr (.null _) => []
  | .expr (.ident id) => [.ident id]
  | .expr (.unary _ _ operand) => [.expr operand]
  | .expr (.binary _ _ left right) => [.expr left, .expr right]
  | .expr (.choice _ test yes no) =>
    .expr test :: .block yes :: if no.isAbsent then [] else [.block no]
  | .expr (.procedure _ params body) => .block body :: params.map .ident
  | .expr (.call _ callee args) => .expr callee :: args.map .expr
  | .stmt .absent => []
  | .stmt (.declare _ name value) | .stmt (.assign _ name value) =>
    .expr value :: name.toList.map .ident
  | .stmt (.giveBack _ value) | .stmt (.expr _ value) => [.expr value]
  | .stmt (.block _ stmts) | .block (.braces _ stmts) => stmts.map .stmt
  | .block .absent => []

/-- What is within a constituent: itself, and whatever is directly inside something within it. -/
def Within (whole part : Constituent) : Prop :=
  Relation.ReflTransGen (fun around inside => inside ∈ around.inner) whole part

/-- A constituent that is there and has what it must have: a declaration and an assignment a name
and a value, the end of a procedure and an expression on its own an expression, a sign its operands,
a choice a test and a first branch, a procedure a body, a call a callee and all its arguments, and a
list of statements all of these. The parameters of a procedure are names, which are never missing. -/
def Complete : Constituent → Prop
  | .expr .absent | .stmt .absent | .block .absent => False
  | .ident _ | .expr (.ident _) | .expr (.int _ _) | .expr (.bool _ _) | .expr (.str _ _)
  | .expr (.null _) => True
  | .expr (.unary _ _ operand) => operand ≠ .absent
  | .expr (.binary _ _ left right) => left ≠ .absent ∧ right ≠ .absent
  | .expr (.choice _ test yes _) => test ≠ .absent ∧ yes ≠ .absent
  | .expr (.procedure _ _ body) => body ≠ .absent
  | .expr (.call _ callee args) => callee ≠ .absent ∧ .absent ∉ args
  | .stmt (.declare _ name value) | .stmt (.assign _ name value) => name ≠ none ∧ value ≠ .absent
  | .stmt (.giveBack _ value) | .stmt (.expr _ value) => value ≠ .absent
  | .stmt (.block _ stmts) | .block (.braces _ stmts) => .absent ∉ stmts

/-- A constituent that a text can hold: a name is a word that is not reserved, a number is not
negative, a string does not hold both quotation marks, and a sign is one of those before an operand
or between two, with the text of its kind. -/
def Spellable : Constituent → Prop
  | .ident id => id.name.IsWord ∧ ∀ kind, (id.name, kind) ∉ Kind.reserved
  | .expr (.int _ value) => 0 ≤ value.toInt ∧ value.toInt < 2 ^ 63
  | .expr (.str _ value) => ¬ (Text.doubleQuote ∈ value ∧ Text.singleQuote ∈ value)
  | .expr (.unary token sign _) => (token.kind, sign) ∈ Kind.unarySigns
  | .expr (.binary token sign _ _) => (token.kind, sign) ∈ Kind.binarySigns
  | _ => True

/-- A complete constituent, read from tokens with a property. -/
def MadeOf (p : Token → Prop) : Constituent → Prop
  | .ident id => id.MadeOf p
  | .expr single => single.MadeOf p
  | .stmt single => single.MadeOf p
  | .block single => single.MadeOf p

end Constituent

/-- Everything within a program is as described. -/
def Program.Throughout (program : Program) (holds : Constituent → Prop) : Prop :=
  ∀ stmt ∈ program.stmts, ∀ part, Constituent.Within (.stmt stmt) part → holds part

section

variable {p : Token → Prop}

/-- An expression that was read is there. -/
theorem Expr.MadeOf.ne_absent {expr : Expr} (made : expr.MadeOf p) : expr ≠ .absent := by
  rintro rfl
  exact made

/-- Expressions that were read are there. -/
theorem Expr.MadeOfAll.absent_not_mem {exprs : List Expr} (made : Expr.MadeOfAll p exprs) :
    .absent ∉ exprs :=
  fun missing => (Expr.madeOfAll_iff p).mp made .absent missing

/-- Statements that were read are there. -/
theorem Stmt.MadeOfAll.absent_not_mem {stmts : List Stmt} (made : Stmt.MadeOfAll p stmts) :
    .absent ∉ stmts :=
  fun missing => (Stmt.madeOfAll_iff p).mp made .absent missing

/-- A block that was read is there. -/
theorem Block.MadeOf.ne_absent {block : Block} (made : block.MadeOf p) : block ≠ .absent := by
  rintro rfl
  exact made

end

/-- A word with the kind of a name is not reserved. -/
theorem Kind.not_mem_reserved {word : Text} (name : Kind.ofWord word = .ident) (kind : Kind) :
    (word, kind) ∉ Kind.reserved := by
  intro listed
  have kinds : ∀ entry ∈ Kind.reserved, Kind.ofWord entry.1 ≠ .ident := by decide
  exact kinds (word, kind) listed name

/-- A sign before an operand is listed with its spelling. -/
theorem Kind.mem_unarySigns {kind : Kind} (isSign : kind.IsSign) :
    (kind, kind.spelling) ∈ Kind.unarySigns := by
  rcases isSign with rfl | rfl <;> decide

/-- A sign between two operands is listed with its spelling. -/
theorem Kind.mem_binarySigns {kind : Kind} {rank : Nat} (ranked : kind.rank? = some rank) :
    (kind, kind.spelling) ∈ Kind.binarySigns := by
  cases kind with
  | plus | minus | times | divide | less | greater | equal | notEqual => decide
  | _ => cases ranked

namespace Constituent

variable {p : Token → Prop}

/-- What is directly inside a constituent was read from the same tokens. -/
theorem MadeOf.inner {whole : Constituent} (made : whole.MadeOf p) :
    ∀ part ∈ whole.inner, part.MadeOf p := by
  cases whole with
  | ident id => exact List.forall_mem_nil _
  | expr single =>
    cases single with
    | absent => exact made.elim
    | int | bool | str | null => exact List.forall_mem_nil _
    | ident id => exact List.forall_mem_singleton.mpr made
    | unary token sign operand => exact List.forall_mem_singleton.mpr made.2.2.2
    | binary token sign left right =>
      obtain ⟨-, -, -, first, second⟩ := made
      exact List.forall_mem_cons.mpr ⟨first, List.forall_mem_singleton.mpr second⟩
    | choice token test yes no =>
      obtain ⟨-, -, tested, branch, other⟩ := made
      refine List.forall_mem_cons.mpr ⟨tested, List.forall_mem_cons.mpr ⟨branch, ?_⟩⟩
      split
      · exact List.forall_mem_nil _
      · next written => exact List.forall_mem_singleton.mpr (other.resolve_left written)
    | procedure token params body =>
      obtain ⟨-, -, named, inside⟩ := made
      exact List.forall_mem_cons.mpr ⟨inside, List.forall_mem_map.mpr named⟩
    | call token callee args =>
      obtain ⟨-, -, called, given⟩ := made
      have all := (Expr.madeOfAll_iff p).mp given
      exact List.forall_mem_cons.mpr ⟨called, List.forall_mem_map.mpr all⟩
  | stmt single =>
    cases single with
    | absent | block => exact made.elim
    | declare token name value | assign token name value =>
      obtain ⟨-, -, ⟨id, rfl, named⟩, given⟩ := made
      exact List.forall_mem_cons.mpr ⟨given, List.forall_mem_singleton.mpr named⟩
    | giveBack token value => exact List.forall_mem_singleton.mpr made.2.2
    | expr token value => exact List.forall_mem_singleton.mpr made.2
  | block single =>
    cases single with
    | absent => exact made.elim
    | braces token stmts =>
      exact List.forall_mem_map.mpr ((Stmt.madeOfAll_iff p).mp made.2.2)

/-- Everything within a constituent was read from the same tokens. -/
theorem MadeOf.within {whole part : Constituent} (made : whole.MadeOf p)
    (within : whole.Within part) : part.MadeOf p := by
  induction within with
  | refl => exact made
  | tail _ inside ih => exact ih.inner _ inside

/-- What was read has what it must have. -/
theorem MadeOf.complete {part : Constituent} (made : part.MadeOf p) : part.Complete := by
  cases part with
  | ident id => trivial
  | expr single =>
    cases single with
    | absent => exact made
    | ident | int | bool | str | null => trivial
    | unary token sign operand => exact made.2.2.2.ne_absent
    | binary token sign left right =>
      obtain ⟨-, -, -, first, second⟩ := made
      exact ⟨first.ne_absent, second.ne_absent⟩
    | choice token test yes no =>
      obtain ⟨-, -, tested, branch, -⟩ := made
      exact ⟨tested.ne_absent, branch.ne_absent⟩
    | procedure token params body => exact made.2.2.2.ne_absent
    | call token callee args =>
      obtain ⟨-, -, called, given⟩ := made
      exact ⟨called.ne_absent, given.absent_not_mem⟩
  | stmt single =>
    cases single with
    | absent | block => exact made.elim
    | declare token name value | assign token name value =>
      obtain ⟨-, -, ⟨id, rfl, -⟩, given⟩ := made
      exact ⟨nofun, given.ne_absent⟩
    | giveBack token value => exact made.2.2.ne_absent
    | expr token value => exact made.2.ne_absent
  | block single =>
    cases single with
    | absent => exact made
    | braces token stmts => exact made.2.2.absent_not_mem

/-- What was read from tokens of a text can stand in a text. -/
theorem MadeOf.spellable {part : Constituent} (made : part.MadeOf Token.Genuine) :
    part.Spellable := by
  cases part with
  | ident id =>
    obtain ⟨genuine, kind, same⟩ := made
    rw [Token.Genuine, kind, ← same] at genuine
    exact ⟨genuine.1, Kind.not_mem_reserved genuine.2⟩
  | expr single =>
    cases single with
    | int token value => exact ⟨made.1.nonneg made.2.1 made.2.2, value.toInt_lt⟩
    | str token value =>
      obtain ⟨genuine, kind, same⟩ := made
      rw [Token.Genuine, kind, ← same] at genuine
      rintro ⟨double, single⟩
      exact genuine.elim (fun missing => missing double) fun missing => missing single
    | unary token sign operand =>
      obtain ⟨genuine, isSign, same, -⟩ := made
      rw [Spellable, same, genuine.sign isSign]
      exact Kind.mem_unarySigns isSign
    | binary token sign left right =>
      obtain ⟨genuine, ⟨rank, ranked⟩, same, -, -⟩ := made
      rw [Spellable, same, genuine.operation ranked]
      exact Kind.mem_binarySigns ranked
    | _ => trivial
  | _ => trivial

end Constituent

/-- Whatever follows from being read from tokens with a property holds throughout a program that
was. -/
theorem Program.MadeOf.throughout {p : Token → Prop} {program : Program} (made : program.MadeOf p)
    {holds : Constituent → Prop} (follows : ∀ part : Constituent, part.MadeOf p → holds part) :
    program.Throughout holds := by
  intro stmt mem part within
  have whole : Constituent.MadeOf p (.stmt stmt) := (Stmt.madeOfAll_iff p).mp made stmt mem
  exact follows part (whole.within within)

/-- Whatever the tokens, and whatever faults were found among them, everything within the program
read from them is complete. If they are the tokens of a text, everything within it can also stand in
a text. -/
theorem Program.ofTokens_throughout (tokens : List Token) (source : Text) :
    (Program.ofTokens tokens).program.Throughout Constituent.Complete ∧
      (Program.ofTokens (Token.scan source)).program.Throughout fun part =>
        part.Complete ∧ part.Spellable := by
  have plain : (Program.ofTokens tokens).program.MadeOf fun _ => True :=
    Program.ofTokens_madeOf fun _ _ => trivial
  have genuine : (Program.ofTokens (Token.scan source)).program.MadeOf Token.Genuine :=
    Program.ofTokens_madeOf (Token.scan_genuine source)
  exact ⟨plain.throughout fun _ made => made.complete,
    genuine.throughout fun _ made => ⟨made.complete, made.spellable⟩⟩

end Lengua
