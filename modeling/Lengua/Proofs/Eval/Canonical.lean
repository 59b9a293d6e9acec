import Lengua.Proofs.Eval.Account
import Lengua.Proofs.Eval.Clean
import Lengua.Proofs.RoundTrip

/-!
# Evaluating canonical text

A program and what its canonical text is read back to differ in all their tokens, but they
have one outline, since the words of both are spelled as their kinds are. The evaluation of
either is mirrored by that of the outline, so the two end alike: they visit equally many
nodes, and what they end in and what they have bound differ in the lines of errors and in
the tokens of bodies only. No binding is an error, so bindings show no difference at all.
-/

namespace Lengua

/-! ## The outline of a program -/

/-- Every word is spelled as its kind is, and all of it stands on the first line. -/
def Recast.spelled : Recast :=
  ⟨fun kind _ => ⟨.eof, kind.spelling, 1⟩, fun _ => ⟨.eof, [], 1⟩, fun _ => 1⟩

/-- A genuine word says no more in the outline than its kind does. -/
theorem Token.Genuine.outline_word {token : Token} {kind : Kind} (genuine : token.Genuine)
    (same : token.kind = kind) (fixed : kind.spelling ≠ []) (blank : Token) :
    Recast.outline.word kind token = Recast.spelled.word kind blank := by
  have literal := genuine.literal_of_kind same fixed
  simp only [Recast.outline, Recast.spelled, literal]

mutual

/-- The outline of an expression can be told without its tokens. -/
theorem Expr.MadeOf.outline : ∀ {expr : Expr}, expr.MadeOf Token.Genuine →
    expr.recast .outline = (expr.recast .erase).recast .spelled
  | .ident _, _ | .int _ _, _ | .bool _ _, _ | .str _ _, _ | .null _, _ => rfl
  | .unary _ _ _, ⟨_, _, _, operand⟩ => by
    simp only [Expr.recast, operand.outline]
    rfl
  | .binary _ _ _ _, ⟨_, _, _, left, right⟩ => by
    simp only [Expr.recast, left.outline, right.outline]
    rfl
  | .choice _ _ _ no, ⟨_, _, test, yes, missing⟩ => by
    have alternative : no.recast .outline = (no.recast .erase).recast .spelled := by
      rcases missing with absent | made
      · cases no with
        | absent => rfl
        | braces => cases absent
      · exact made.outline
    simp only [Expr.recast, test.outline, yes.outline, alternative]
    rfl
  | .procedure token params _, ⟨genuine, kind, _, body⟩ => by
    have word := genuine.outline_word kind (by decide) .blank
    simp only [Expr.recast, List.map_map, word, body.outline]
    rfl
  | .call _ _ _, ⟨_, _, callee, args⟩ => by
    simp only [Expr.recast, callee.outline, Expr.MadeOfAll.outline args]
    rfl

/-- The outlines of expressions can be told without their tokens. -/
theorem Expr.MadeOfAll.outline : ∀ {exprs : List Expr}, Expr.MadeOfAll Token.Genuine exprs →
    Expr.recastAll .outline exprs = Expr.recastAll .spelled (Expr.recastAll .erase exprs)
  | [], _ => rfl
  | _ :: _, ⟨first, rest⟩ => by
    simp only [Expr.recastAll, first.outline, Expr.MadeOfAll.outline rest]

/-- The outline of a statement can be told without its tokens. -/
theorem Stmt.MadeOf.outline : ∀ {stmt : Stmt}, stmt.MadeOf Token.Genuine →
    stmt.recast .outline = (stmt.recast .erase).recast .spelled
  | .declare _ _ _, ⟨genuine, kind, _, value⟩ => by
    have word := genuine.outline_word kind (by decide) .blank
    simp only [Stmt.recast, Option.map_map, word, value.outline]
    rfl
  | .assign _ _ _, ⟨_, _, _, value⟩ => by
    simp only [Stmt.recast, Option.map_map, value.outline]
    rfl
  | .giveBack _ _, ⟨genuine, kind, value⟩ => by
    have word := genuine.outline_word kind (by decide) .blank
    simp only [Stmt.recast, word, value.outline]
    rfl
  | .expr _ _, ⟨_, value⟩ => by
    simp only [Stmt.recast, value.outline]
    rfl

/-- The outlines of statements can be told without their tokens. -/
theorem Stmt.MadeOfAll.outline : ∀ {stmts : List Stmt}, Stmt.MadeOfAll Token.Genuine stmts →
    Stmt.recastAll .outline stmts = Stmt.recastAll .spelled (Stmt.recastAll .erase stmts)
  | [], _ => rfl
  | _ :: _, ⟨first, rest⟩ => by
    simp only [Stmt.recastAll, first.outline, Stmt.MadeOfAll.outline rest]

/-- The outline of a block can be told without its tokens. -/
theorem Block.MadeOf.outline : ∀ {block : Block}, block.MadeOf Token.Genuine →
    block.recast .outline = (block.recast .erase).recast .spelled
  | .braces _ _, ⟨_, _, stmts⟩ => by
    simp only [Block.recast, Stmt.MadeOfAll.outline stmts]
    rfl

end

/-- Programs made of genuine tokens that are equal up to tokens have one outline. -/
theorem Program.MadeOf.outline_eq {first second : Program} (made : first.MadeOf Token.Genuine)
    (other : second.MadeOf Token.Genuine) (same : first.erased = second.erased) :
    first.outline = second.outline := by
  have firstOutline : first.outline = first.erased.recast .spelled :=
    congrArg Program.mk (Stmt.MadeOfAll.outline made)
  have secondOutline : second.outline = second.erased.recast .spelled :=
    congrArg Program.mk (Stmt.MadeOfAll.outline other)
  rw [firstOutline, secondOutline, same]

/-- The outline of a complete program is reported at the first line. -/
theorem Program.MadeOf.line_outline {p : Token → Prop} {program : Program}
    (made : program.MadeOf p) : program.outline.line = 1 := by
  obtain ⟨stmts⟩ := program
  cases stmts with
  | nil => rfl
  | cons stmt rest =>
    cases stmt with
    | absent => exact absurd made.1 id
    | _ => rfl

/-! ## Outcomes that are alike -/

/-- The canonical text of the body of a procedure. -/
def Value.bodyText? : Value → Option Text
  | .procedure _ body _ => some body.render
  | _ => none

/-- Texts that differ at most in a number that both mention at the same place. -/
def Text.EqualUpTo (number other : Int) (first second : Text) : Prop :=
  first = second ∨ ∃ before after, first = before ++ Text.ofInt number ++ after ∧
    second = before ++ Text.ofInt other ++ after

/-- Results that differ at most in the line of an error. -/
inductive Value.Alike : Value → Value → Prop where
  /-- The same fault, on lines that the texts differ in. -/
  | error (fault : Fault) (line other : Int)
    (texts : Text.EqualUpTo line other (fault.message line) (fault.message other)) :
    Alike (.error fault line) (.error fault other)
  /-- Values of one type that are shown alike, with bodies of the same text. -/
  | plain {first second : Value} (fine : first.isError = false) (otherFine : second.isError = false)
    (type : first.type = second.type) (shown : first.inspect = second.inspect)
    (body : first.bodyText? = second.bodyText?) : Alike first second

/-- What a scope shows of its bindings: the names with the types and the texts of the values. -/
def Forest.shown (forest : Forest) (id : ScopeId) : List (Text × ValueType × Text) :=
  (forest.bindings id).map fun binding => (binding.1, binding.2.type, binding.2.inspect)

/-- Outcomes of which the results are alike and the first scopes show the same. -/
def OutcomesAlike (first second : Value × Forest) : Prop :=
  first.1.Alike second.1 ∧ first.2.shown 0 = second.2.shown 0

/-- The reports of one fault at two lines differ at most in the lines. -/
theorem Fault.message_equalUpTo (fault : Fault) (line other : Int) :
    Text.EqualUpTo line other (fault.message line) (fault.message other) := by
  have atEnd (lead : Text) : Text.EqualUpTo line other
      (lead ++ (utf8 "cerca de la línea " ++ Text.ofInt line))
      (lead ++ (utf8 "cerca de la línea " ++ Text.ofInt other)) := by
    refine .inr ⟨lead ++ utf8 "cerca de la línea ", [], ?_, ?_⟩ <;>
    simp only [List.append_assoc, List.append_nil]
  cases fault with
  | reported words => exact .inl rfl
  | wrongArity wanted given =>
    refine .inr ⟨utf8 "Cantidad errónea de argumentos para la función " ++
      utf8 "cerca de la línea ", utf8 ", se esperaban " ++ Text.ofNat wanted ++
      utf8 " pero se obtuvo " ++ Text.ofNat given, ?_, ?_⟩ <;>
    simp only [Fault.message, List.append_assoc]
  | _ => exact atEnd _

/-- A plain value is no error. -/
theorem Value.isError_of_plain {value : Value} (plain : value.isSignal = false) :
    value.isError = false := by
  cases value with
  | error => cases plain
  | _ => rfl

/-- The body of a procedure has its text in the outline. -/
theorem Value.bodyText_outline (value : Value) :
    (value.recast .outline).bodyText? = value.bodyText? := by
  cases value with
  | procedure params body scope => exact congrArg some body.render_outline
  | _ => rfl

/-- A value with the outline of a plain value or of an error is like it. -/
theorem Value.alike_of_outline {first second : Value}
    (settled : first.isSignal = false ∨ first.isError = true)
    (same : first.recast .outline = second.recast .outline) : first.Alike second := by
  have type : first.type = second.type := by
    rw [← first.type_recast, same, second.type_recast]
  rcases settled with plain | isError
  · have otherPlain : second.isSignal = false := by
      rw [← second.isSignal_recast, ← same, first.isSignal_recast, plain]
    have shown : first.inspect = second.inspect := by
      rw [← Value.inspect_recast plain, same, Value.inspect_recast otherPlain]
    have body : first.bodyText? = second.bodyText? := by
      rw [← first.bodyText_outline, same, second.bodyText_outline]
    exact .plain (Value.isError_of_plain plain) (Value.isError_of_plain otherPlain) type shown body
  · cases first with
    | error fault line =>
      cases second with
      | error other otherLine =>
        have sameFault : fault = other := (Value.error.inj same).1
        rw [← sameFault]
        exact .error fault line otherLine (fault.message_equalUpTo line otherLine)
      | _ => cases type
    | _ => cases isError

/-- Clean scopes show the same in the outline. -/
theorem Forest.Clean.shown_outline {forest : Forest} (clean : forest.Clean) (id : ScopeId) :
    (forest.recast .outline).shown id = forest.shown id := by
  rw [Forest.shown, forest.bindings_recast, List.map_map, Forest.shown]
  apply List.map_congr_left
  intro binding mem
  have plain : binding.2.isSignal = false := by
    cases found : forest.scopes[id]? with
    | none =>
      rw [Forest.bindings, found] at mem
      cases mem
    | some scope =>
      rw [Forest.bindings, found] at mem
      exact clean id scope found binding mem
  simp only [Function.comp_apply, Value.type_recast, Value.inspect_recast plain]

/-! ## Evaluating a program and its outline -/

/-- In an outline the lines of words follow. -/
theorem Recast.line_outline_word (kind : Kind) (token : Token) :
    (Recast.outline.word kind token).line = Recast.outline.line token.line := rfl

/-- In an outline the lines of other tokens follow. -/
theorem Recast.line_outline_other (token : Token) :
    (Recast.outline.other token).line = Recast.outline.line token.line := rfl

/-- The limits do not look at tokens or lines. -/
def Simulation.outlined (limits : Limits) :
    Simulation (Machine.counted ⟨limits.meter, .empty⟩)
      (Machine.counted ⟨limits.meter, .empty⟩) where
  change := .outline
  view := id
  word_line := Recast.line_outline_word
  other_line := Recast.line_outline_other
  visit _ _ _ := (Option.map_id_apply ..).symm
  enter _ _ := (Option.map_id_apply ..).symm
  leave _ := rfl
  find _ := rfl
  answer _ _ _ := rfl

/-- An evaluation with the tokens of the outline in place of its own. -/
def Limits.outlined (account : Value × Forest × Nat) : Value × Forest × Nat :=
  (account.1.recast .outline, account.2.1.recast .outline, account.2.2)

/-- The evaluation of the outline of a complete program mirrors that of the program. -/
theorem Limits.account_outline {p : Token → Prop} {program : Program} (made : program.MadeOf p)
    (limits : Limits) (fallback : Nat) :
    limits.account .empty fallback (.program program.outline) 0 .single =
      (limits.account .empty fallback (.program program) 0 .single).map Limits.outlined := by
  let sim := Simulation.outlined limits
  have follows : ((Node.program program).recast sim.change).line =
      sim.change.line (Node.program program).line := made.line_outline
  have mirrors := Simulation.node (sim.invoke (limits.nesting fallback)) 0 follows
    ⟨.single, limits.budget, 0⟩
  have start : sim.world ⟨.single, limits.budget, 0⟩ = ⟨.single, limits.budget, 0⟩ := by
    rw [Simulation.world, Forest.recast_single]
    rfl
  rw [start] at mirrors
  unfold Limits.account
  dsimp only
  rw [show Node.program program.outline = (Node.program program).recast sim.change from rfl,
    mirrors]
  cases (Node.program program).eval (Machine.counted ⟨limits.meter, .empty⟩)
      ((Machine.counted ⟨limits.meter, .empty⟩).invoke (limits.nesting fallback)) 0
      ⟨.single, limits.budget, 0⟩ with
  | none => rfl
  | some found => rfl

/-- A program ends with clean scopes, in a plain value or in an error. -/
theorem Limits.account_clean {limits : Limits} {fallback : Nat} {program : Program} {value : Value}
    {forest : Forest} {visits : Nat}
    (ended : limits.account .empty fallback (.program program) 0 .single =
      some (value, forest, visits)) :
    forest.Clean ∧ (value.isSignal = false ∨ value.isError = true) := by
  unfold Limits.account at ended
  dsimp only at ended
  split at ended
  · cases ended
  · next result world ran =>
    cases ended
    have confines : (Machine.counted ⟨limits.meter, .empty⟩).host.Confines Value.Settled :=
      Host.empty_confines
    obtain ⟨clean, before, settled, rfl⟩ :=
      Program.eval_maintains confines.clean Forest.Clean.single ran
    exact ⟨clean, settled.unwrapped⟩

/-- What the canonical text of a program is read back to means what the program means. Under all
limits, and however many nested calls are followed, one ends exactly if the other does; then both
visit equally many nodes, give results that differ at most in the line of an error, and leave the
same bindings. -/
theorem Program.evaluate_render (source : Text) (limits : Limits) (fallback : Nat) :
    let program := (Program.ofText source).program
    let again := (Program.ofText program.render).program
    Option.Rel OutcomesAlike (limits.evaluate .empty fallback (.program program) 0 .single)
        (limits.evaluate .empty fallback (.program again) 0 .single) ∧
      limits.visits .empty fallback (.program program) 0 .single =
        limits.visits .empty fallback (.program again) 0 .single := by
  intro program again
  have made : program.MadeOf Token.Genuine := Program.ofText_genuine source
  have madeAgain : again.MadeOf Token.Genuine := Program.ofText_genuine program.render
  have outline := made.outline_eq madeAgain made.ofText_render.2.symm
  have mirrored := Limits.account_outline made limits fallback
  rw [outline, Limits.account_outline madeAgain limits fallback] at mirrored
  rw [limits.evaluate_eq_account, limits.evaluate_eq_account, Limits.visits, Limits.visits]
  cases ended : limits.account .empty fallback (.program program) 0 .single with
  | none =>
    cases endedAgain : limits.account .empty fallback (.program again) 0 .single with
    | none => exact ⟨.none, rfl⟩
    | some account =>
      rw [ended, endedAgain] at mirrored
      cases mirrored
  | some account =>
    cases endedAgain : limits.account .empty fallback (.program again) 0 .single with
    | none =>
      rw [ended, endedAgain] at mirrored
      cases mirrored
    | some other =>
      obtain ⟨value, forest, visits⟩ := account
      obtain ⟨otherValue, otherForest, otherVisits⟩ := other
      obtain ⟨clean, settled⟩ := Limits.account_clean ended
      obtain ⟨otherClean, -⟩ := Limits.account_clean endedAgain
      rw [ended, endedAgain] at mirrored
      simp only [Option.map_some, Option.some.injEq, Limits.outlined, Prod.mk.injEq] at mirrored
      obtain ⟨sameValue, sameForest, sameVisits⟩ := mirrored
      have alike := Value.alike_of_outline settled sameValue.symm
      have shown : forest.shown 0 = otherForest.shown 0 := by
        rw [← clean.shown_outline, ← sameForest, otherClean.shown_outline]
      exact ⟨.some ⟨alike, shown⟩, congrArg some sameVisits.symm⟩

end Lengua
