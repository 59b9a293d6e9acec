import Lengua.Proofs.Eval.Clean
import Lengua.Proofs.Lines
import Lengua.Proofs.Reader.Made
import Lengua.Proofs.Reader.Pull

/-!
# Where errors come from

An error is on the line of the node that it occurred at, and a node has the line of the token that
it was read from. A procedure carries its body along, into scopes and out of other procedures, and
may run it much later. So it is not enough that the program at hand is made of some tokens: the
bodies of all procedures that the scopes bind are made of them as well, and this is what an
evaluation keeps (`Value.StemsFrom`). Without functions of the host, every error is then on the line
of a token of the text, and its report names this line.
-/

namespace Lengua

/-! ## Values -/

namespace Value

/-- What evaluations of trees that are made of some tokens give: errors are on the lines of such
tokens and in words of the language, and the bodies of procedures are made of such tokens. -/
def StemsFrom (p : Token → Prop) : Value → Prop
  | error fault line => (∃ token, p token ∧ token.line = line) ∧ ∀ words, fault ≠ .reported words
  | returned value => value.StemsFrom p
  | procedure _ body _ => body.MadeOf p
  | _ => True

variable {p : Token → Prop}

/-- What an operation at a token gives. -/
theorem GivenAt.stemsFrom {token : Token} {value : Value} (given : value.GivenAt token.line)
    (holds : p token) : value.StemsFrom p := by
  cases given with
  | error told => exact ⟨⟨token, holds, rfl⟩, told⟩
  | _ => trivial

/-- What leaves a procedure. -/
theorem StemsFrom.unwrapped {value : Value} (stems : value.StemsFrom p) :
    value.unwrapped.StemsFrom p := by
  cases value with
  | returnedNothing => trivial
  | _ => exact stems

end Value

/-! ## Tasks -/

section

variable {Tally : Type} {machine : Machine Tally} {p : Token → Prop}

/-- A task that is made of some tokens: its tree is, which the second branch of a choice may lack,
or it is a call at one of them, of a value and with arguments that stem from them. A program as a
whole has no token of its own. -/
def Task.MadeOf (p : Token → Prop) : Task → Prop
  | .program _ _ => False
  | .stmt single _ => single.MadeOf p
  | .expr single _ => single.MadeOf p
  | .block whole _ => whole.isAbsent = true ∨ whole.MadeOf p
  | .call callee args line =>
    callee.StemsFrom p ∧ (∀ arg ∈ args, arg.StemsFrom p) ∧ ∃ token, p token ∧ token.line = line

namespace Task.MadeOf

variable {task inner : Task} {world there : World Tally}

/-- What a task starts is made of the same tokens. A procedure that is called may come from any of
them, and its body is made of those that it was read from. -/
theorem start (made : task.MadeOf p) (started : Task.Starts machine task world inner there)
    (given : inner.Given (Value.StemsFrom p)) : inner.MadeOf p := by
  cases started with
  | @first expr part line scope _ _ begins visits =>
    cases expr with
    | unary token sign operand =>
      cases begins
      exact made.2.2.2
    | binary token sign left right =>
      cases begins
      exact made.2.2.2.1
    | choice token test yes no =>
      cases begins
      exact made.2.2.1
    | call token callee args =>
      cases begins
      exact made.2.2.1
    | _ => cases begins
  | right => exact made.2.2.2.2
  | branch =>
    obtain ⟨-, -, -, madeYes, madeNo⟩ := made
    split
    · exact .inr madeYes
    · exact madeNo
  | argument => exact (Expr.madeOfAll_iff p).mp made.2.2.2 _ (by simp)
  | application =>
    obtain ⟨fineCallee, fineArgs⟩ := given
    exact ⟨fineCallee, fun arg mem => (fineArgs arg mem).1, _, made.1, rfl⟩
  | @value stmt part line scope _ _ holds visits =>
    cases stmt with
    | declare token name value =>
      cases holds
      exact made.2.2.2
    | assign token name value =>
      cases holds
      exact made.2.2.2
    | giveBack token value =>
      cases holds
      exact made.2.2
    | expr token value =>
      cases holds
      exact made.2
    | _ => cases holds
  | nested => exact made.elim
  | inner =>
    have inside : Stmt.MadeOfAll p _ := made.elim (by rintro ⟨⟩) fun braces => braces.2.2
    exact (Stmt.madeOfAll_iff p).mp inside _ (by simp)
  | outermost => exact made.elim
  | body => exact .inr made.1

/-- The line that a task itself can be at fault on is that of a token. -/
theorem place (made : task.MadeOf p) {line : Int} (placed : task.place? = some line) :
    ∃ token, p token ∧ token.line = line := by
  cases task with
  | program => exact made.elim
  | stmt single scope =>
    cases single with
    | absent | block => exact made.elim
    | _ =>
      cases placed
      exact ⟨_, made.1, rfl⟩
  | expr single scope =>
    cases single with
    | absent => exact made.elim
    | _ =>
      cases placed
      exact ⟨_, made.1, rfl⟩
  | block => cases placed
  | call =>
    cases placed
    exact made.2.2

/-- A call that is entered binds values that stem from the tokens. -/
theorem enter {callee : Value} {args : List Value} {line : Int}
    (made : (Task.call callee args line).MadeOf p)
    (started : Task.Starts machine (.call callee args line) world inner there)
    (binds : world.forest.Binds (Value.StemsFrom p)) :
    there.forest.Binds (Value.StemsFrom p) := by
  cases started with
  | @body params body outer _ _ _ tally arity entered =>
    refine (binds.add outer).setAll (fun binding mem => ?_) _
    exact made.2.1 binding.2 (List.of_mem_zip mem).2

/-- Evaluations of what is made of some tokens keep to values that stem from them, if there are no
functions of the host. -/
def discipline (p : Token → Prop) (bare : machine.host = .empty) : Discipline machine where
  may task world := world.forest.Binds (Value.StemsFrom p) ∧ task.MadeOf p
  becomes world after := world.forest.Binds (Value.StemsFrom p) →
    after.forest.Binds (Value.StemsFrom p)
  fine _ value := value.StemsFrom p
  refl _ := id
  trans first second := second ∘ first
  mono _ := id
  visit _ _ visits := by
    obtain ⟨_, -, rfl⟩ := visits
    exact id
  starts may started became given := ⟨became may.1, may.2.start started given⟩
  enter may started binds := may.2.enter started binds
  leave became := became
  bind {_ id scope _ _ _} _ _ _ stems _ binds := binds.set stems scope id.name
  null _ := trivial
  given may placed given := by
    obtain ⟨token, holds, rfl⟩ := may.2.place placed
    exact given.stemsFrom holds
  bound may found := may.1.get found
  builtin _ _ := trivial
  procedure may := may.2.2.2.2
  returned stems _ := stems
  unwrapped stems := stems.unwrapped
  answer _ := by
    rw [bare]
    trivial

end Task.MadeOf

end

/-! ## Programs -/

/-- An evaluation under limits does not refuse its first node. -/
theorem Limits.visit_budget (limits : Limits) (line : Int) (forest : Forest) :
    limits.meter.visit line forest limits.budget ≠ none := by
  intro refused
  obtain ⟨bounded, empty⟩ := Limits.visit_eq_none_iff.mp refused
  exact bounded empty

/-- A program that is made of some tokens ends in a value that stems from them, where the scopes do
so before and there are no functions of the host. -/
theorem Limits.evaluate_stems {p : Token → Prop} {limits : Limits} {fallback : Nat}
    {program : Program} (made : program.MadeOf p) {scope : ScopeId} {forest after : Forest}
    (binds : forest.Binds (Value.StemsFrom p)) {value : Value}
    (ended : limits.evaluate .empty fallback (.program program) scope forest =
      some (value, after)) : value.StemsFrom p := by
  obtain ⟨budget, ran⟩ := Limits.evaluate_eq_some_iff.mp ended
  rcases Machine.visit_eq_some_iff.mp ran with ⟨refused, -⟩ | ⟨tally, -, inside⟩
  -- The program as a whole has no token of its own, but visiting it is never refused.
  · exact absurd refused (limits.visit_budget _ _)
  · let law : Discipline ⟨limits.meter, .empty⟩ := Task.MadeOf.discipline p rfl
    have may :
        law.MayStmts (limits.nesting fallback) scope .null program.stmts ⟨forest, tally⟩ := by
      intro before stmt rest _ between split _ _ became
      refine ⟨became binds, (Stmt.madeOfAll_iff p).mp made stmt ?_⟩
      rw [split]
      exact List.mem_append_right before List.mem_cons_self
    obtain ⟨result, ranStmts, rfl⟩ := Run.unwrapped_eq_some_iff.mp inside
    have bodies := law.invoke (limits.nesting fallback)
    have null : law.fine forest .null := trivial
    obtain ⟨-, stems⟩ := Discipline.stmts bodies rfl null program.stmts may result _ ranStmts
    exact stems.unwrapped

/-- The error that a program ends in is on the line of a token of its text, and its report names
this line. -/
theorem Limits.evaluate_line {source : Text} {limits : Limits} {fallback : Nat} {fault : Fault}
    {line : Int} {after : Forest}
    (ended : limits.evaluate .empty fallback (.program (Program.ofText source).program) 0 .single =
      some (.error fault line, after)) :
    (∃ token ∈ Token.scan source, token.line = line) ∧
      1 ≤ line ∧ line ≤ 1 + Text.lineFeeds source ∧
      Text.namedLine? (fault.message line) = some (Text.ofInt line) := by
  have made : (Program.ofText source).program.MadeOf (· ∈ Token.scan source) := by
    rw [Program.ofText_eq]
    exact Program.ofTokens_madeOf fun _ member => member
  obtain ⟨⟨token, found, rfl⟩, told⟩ := Limits.evaluate_stems made .single ended
  obtain ⟨first, last⟩ := Token.scan_line found
  have positive : 0 ≤ token.line := Int.le_trans (by decide) first
  exact ⟨⟨token, found, rfl⟩, first, last, Fault.namedLine_message told positive⟩

/-- The line of an error. -/
def Value.line? : Value → Option Int
  | error _ line => some line
  | _ => none

/-- An error in a body is on the line of the body and not on that of the call. -/
theorem Limits.evaluate_line_body :
    let source := utf8 "variable f = procedimiento() \x7b\n1 / 0 \x7d;\nf();"
    let program := (Program.ofText source).program
    ∃ fault after,
      Limits.default.evaluate .empty 0 (.program program) 0 .single = some (.error fault 2, after) ∧
      (∃ token ∈ Token.scan source, token.line = 2) ∧
      Text.namedLine? (fault.message 2) = some (utf8 "2") := by
  intro source program
  have two : (Limits.default.evaluate .empty 0 (.program program) 0 .single).bind
      (fun found => found.1.line?) = some 2 := by
    decide +kernel
  obtain ⟨⟨value, after⟩, ended, onLine⟩ := Option.bind_eq_some_iff.mp two
  cases value with
  | error fault line =>
    obtain rfl := Option.some.inj onLine
    obtain ⟨token, -, -, named⟩ := Limits.evaluate_line ended
    exact ⟨fault, after, ended, token, named⟩
  | _ => cases onLine

end Lengua
