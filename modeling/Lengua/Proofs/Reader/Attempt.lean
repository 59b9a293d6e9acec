import Lengua.Proofs.Reader.Turn

/-!
# Attempts at statements

A reader makes one attempt at a statement after the other, and a block in a statement is a list of
further attempts inside that one. An attempt begins with a token that does not end its list of
statements, and ends when the reader is between the statements of that list again; the token that
ended it may come after it, and then it is the first token of what follows.

The attempts of a run are taken from its turns: `Tries` goes through the tokens as the reader does,
with the state at the start and at the end of each attempt. So what it says about an attempt, that
it was dropped for one fault of its own or kept for none, is a fact about the reader and not a
definition. Every run that ends the program has such attempts, since each turn is one of those that
`Turn` tells apart and the tokens get fewer.
-/

namespace Lengua

namespace Reader

/-! ## Attempts -/

/-- An attempt at a statement. -/
structure Attempt where
  /-- The reader before its first token. -/
  before : Reader
  /-- The reader after it, between statements again. -/
  after : Reader
  /-- The attempts in its blocks, in order. -/
  inner : List Attempt

namespace Attempt

/-- Whether no statement came of an attempt. -/
def isDropped (attempt : Attempt) : Bool :=
  attempt.after.stmts.length == attempt.before.stmts.length

/-- The faults found during an attempt, latest first. -/
def found (attempt : Attempt) : List SyntaxError :=
  attempt.after.errors.take (attempt.after.errors.length - attempt.before.errors.length)

/-- The faults found during attempts, latest first. -/
def foundIn (attempts : List Attempt) : List SyntaxError := attempts.reverse.flatMap found

mutual

/-- An attempt and all attempts inside it, at any depth. -/
def all : Attempt → List Attempt
  | ⟨before, after, inner⟩ => ⟨before, after, inner⟩ :: allOf inner

/-- Attempts and all attempts inside them, at any depth. -/
def allOf : List Attempt → List Attempt
  | [] => []
  | attempt :: rest => attempt.all ++ allOf rest

end

/-- Faults are found in attempts one after the other. -/
theorem foundIn_cons (attempt : Attempt) (attempts : List Attempt) :
    foundIn (attempt :: attempts) = foundIn attempts ++ attempt.found := by
  simp [foundIn]

/-- Faults are found in attempts before others and then in those. -/
theorem foundIn_append (first second : List Attempt) :
    foundIn (first ++ second) = foundIn second ++ foundIn first := by
  simp [foundIn]

/-- The attempts inside attempts are those inside each. -/
theorem allOf_append (first second : List Attempt) :
    allOf (first ++ second) = allOf first ++ allOf second := by
  induction first with
  | nil => rfl
  | cons attempt rest ih => rw [List.cons_append, allOf, allOf, ih, List.append_assoc]

/-- The faults found during an attempt, given the state after it. -/
theorem found_eq {attempt : Attempt} {errors : List SyntaxError}
    (added : attempt.after.errors = errors ++ attempt.before.errors) : attempt.found = errors := by
  rw [found, added, List.length_append, Nat.add_sub_cancel, List.take_left]

/-- What the account of an attempt says: a dropped one adds one fault to those of the attempts
inside it, and any other adds none and a statement to its list. -/
structure Accounts (attempt : Attempt) : Prop where
  /-- What a dropped attempt adds. -/
  dropped : attempt.isDropped = true →
    attempt.after.stmts = attempt.before.stmts ∧
      ∃ error, attempt.after.errors =
        error :: (foundIn attempt.inner ++ attempt.before.errors)
  /-- What any other attempt adds. -/
  kept : attempt.isDropped = false →
    (∃ stmt, attempt.after.stmts = stmt :: attempt.before.stmts) ∧
      attempt.after.errors = foundIn attempt.inner ++ attempt.before.errors

end Attempt

/-- Where a reader is. -/
inductive Stage where
  /-- Between the statements of a list. -/
  | between
  /-- Within a statement. -/
  | within

/-- The attempts that a reader makes: between statements, those up to the token that ends the
list; within a statement, those in the blocks of its rest. With them come the reader after them
and the tokens that are left. -/
inductive Tries : Stage → Reader → List Token → List Attempt → Reader → List Token → Prop where
  /-- A token ends the list. -/
  | ended {reader : Reader} {token : Token} {rest : List Token}
      (between : reader.mode = .statement) (ends : reader.Ends token.kind) :
      Tries .between reader (token :: rest) [] reader (token :: rest)
  /-- A token begins a statement. -/
  | begun {reader after last : Reader} {token : Token} {tokens middle rest : List Token}
      {inner attempts : List Attempt}
      (between : reader.mode = .statement) (begins : ¬ reader.Ends token.kind)
      (attempt : Tries .within reader (token :: tokens) inner after middle)
      (others : Tries .between after middle attempts last rest) :
      Tries .between reader (token :: tokens) (⟨reader, after, inner⟩ :: attempts) last rest
  /-- The statement goes on. -/
  | goes {reader after : Reader} {token : Token} {tokens rest : List Token}
      {inner : List Attempt} {mode : Mode} (within : mode.Within)
      (taken : reader.take token = { reader with mode })
      (others : Tries .within (reader.step token) tokens inner after rest) :
      Tries .within reader (token :: tokens) inner after rest
  /-- The statement goes on with a block. -/
  | block {reader last after : Reader} {token mark : Token} {tokens middle rest : List Token}
      {attempts inner : List Attempt} {pending : Pending} {site : Site}
      (taken : reader.take token = reader.openBlock pending site token)
      (inside : Tries .between (reader.step token) tokens attempts last (mark :: middle))
      (others : Tries .within (last.step mark) middle inner after rest) :
      Tries .within reader (token :: tokens) (attempts ++ inner) after rest
  /-- The statement is dropped with a token. -/
  | dropped {reader : Reader} {token : Token} {rest : List Token} {error : SyntaxError}
      (taken : reader.take token = reader.fail error) :
      Tries .within reader (token :: rest) [] (reader.step token) rest
  /-- The statement is kept with a token. -/
  | kept {reader : Reader} {token : Token} {rest : List Token} {stmt : Stmt}
      (taken : reader.take token = reader.keep stmt) :
      Tries .within reader (token :: rest) [] (reader.step token) rest
  /-- The statement is dropped before a token. -/
  | droppedBefore {reader : Reader} {token : Token} {rest : List Token} {error : SyntaxError}
      (taken : reader.take token = (reader.fail error).takeStatement token) :
      Tries .within reader (token :: rest) [] (reader.fail error) (token :: rest)
  /-- The statement is kept before a token. -/
  | keptBefore {reader : Reader} {token : Token} {rest : List Token} {stmt : Stmt}
      (taken : reader.take token = (reader.keep stmt).takeStatement token) :
      Tries .within reader (token :: rest) [] (reader.keep stmt) (token :: rest)

/-! ## The state after attempts -/

variable {stage : Stage} {reader last : Reader} {tokens rest : List Token}
  {attempts : List Attempt}

/-- After attempts the reader is between statements. -/
theorem Tries.mode (tries : Tries stage reader tokens attempts last rest) :
    last.mode = .statement := by
  induction tries with
  | ended between ends => exact between
  | begun between begins attempt others ihAttempt ihOthers => exact ihOthers
  | goes within taken others ih => exact ih
  | block taken inside others ihInside ihOthers => exact ihOthers
  | dropped taken | kept taken =>
    rw [step, taken]
    rfl
  | droppedBefore taken | keptBefore taken => rfl

/-- The attempts at the statements of a list go up to a token that ends it. -/
theorem Tries.ends (tries : Tries .between reader tokens attempts last rest) :
    ∃ token tail, rest = token :: tail ∧ last.Ends token.kind := by
  generalize found : Stage.between = stage at tries
  induction tries with
  | ended between ends => exact ⟨_, _, rfl, ends⟩
  | begun between begins attempt others ihAttempt ihOthers => exact ihOthers rfl
  | _ => cases found

/-- Taking the tokens that are left is taking all tokens. -/
theorem Tries.run_eq (tries : Tries stage reader tokens attempts last rest) :
    last.run rest = reader.run tokens := by
  induction tries with
  | ended between ends => rfl
  | begun between begins attempt others ihAttempt ihOthers => rw [ihOthers, ihAttempt]
  | goes within taken others ih => exact ih
  | block taken inside others ihInside ihOthers => rw [ihOthers, run_cons, ← ihInside, run_cons]
  | dropped taken | kept taken => rfl
  | droppedBefore taken | keptBefore taken =>
    rw [run_cons, run_cons, step, step, taken]
    rfl

/-- No tokens are added to those that are left. -/
theorem Tries.length_le (tries : Tries stage reader tokens attempts last rest) :
    rest.length ≤ tokens.length := by
  induction tries with
  | ended between ends => exact Nat.le_refl _
  | begun between begins attempt others ihAttempt ihOthers => exact Nat.le_trans ihOthers ihAttempt
  | goes within taken others ih => exact Nat.le_succ_of_le ih
  | block taken inside others ihInside ihOthers =>
    simp only [List.length_cons] at ihInside ⊢
    omega
  | dropped taken | kept taken => exact Nat.le_succ _
  | droppedBefore taken | keptBefore taken => exact Nat.le_refl _

/-- The token after the attempts in a block goes on with the statement around it. -/
theorem Tries.take_closing {mark : Token}
    (inside : Tries .between reader tokens attempts last (mark :: rest)) {level : Level}
    {outer : List Level} (levels : last.levels = level :: outer) :
    last.take mark = last.closeBlock level outer := by
  obtain ⟨_, _, ⟨⟩, ends⟩ := inside.ends
  have taken : last.take mark = last.takeStatement mark := by rw [take, inside.mode]
  rcases takeStatement_of_ends ends with ⟨none, -⟩ | ⟨found, others, same, closes⟩
  · rw [levels] at none
    cases none
  · rw [levels] at same
    cases same
    rw [taken, closes]

/-- After attempts the reader is in the same block. -/
theorem Tries.levels (tries : Tries stage reader tokens attempts last rest) :
    last.levels = reader.levels := by
  induction tries with
  | ended between ends => rfl
  | begun between begins attempt others ihAttempt ihOthers => exact ihOthers.trans ihAttempt
  | goes within taken others ih => rw [ih, step, taken]
  | block taken inside others ihInside ihOthers =>
    have opened := congrArg Reader.levels taken
    rw [ihOthers, step, inside.take_closing (ihInside.trans opened)]
    rfl
  | dropped taken | kept taken =>
    rw [step, taken]
    rfl
  | droppedBefore taken | keptBefore taken => rfl

/-! ## The account of an attempt -/

/-- What a reader has after the rest of a statement that it was within: the statement and the
faults of the attempts inside it, or those and one fault of its own. -/
def Closed (reader after : Reader) (inner : List Attempt) : Prop :=
  (∃ stmt, after.stmts = stmt :: reader.stmts ∧
      after.errors = Attempt.foundIn inner ++ reader.errors) ∨
    ∃ error, after.stmts = reader.stmts ∧
      after.errors = error :: (Attempt.foundIn inner ++ reader.errors)

/-- The end of a statement gives the account of the attempt at it. -/
theorem Closed.accounts {reader after : Reader} {inner : List Attempt}
    (closed : reader.Closed after inner) : (Attempt.mk reader after inner).Accounts := by
  rcases closed with ⟨stmt, stmts, errors⟩ | ⟨error, stmts, errors⟩
  · have longer : (Attempt.mk reader after inner).isDropped = false := by
      simp [Attempt.isDropped, stmts]
    constructor
    · intro dropped
      rw [longer] at dropped
      cases dropped
    · intro _
      exact ⟨⟨stmt, stmts⟩, errors⟩
  · have same : (Attempt.mk reader after inner).isDropped = true := by
      simp [Attempt.isDropped, stmts]
    constructor
    · intro _
      exact ⟨stmts, error, errors⟩
    · intro kept
      rw [same] at kept
      cases kept

/-- An attempt adds the faults found during it. -/
theorem Attempt.Accounts.errors {attempt : Attempt} (accounts : attempt.Accounts) :
    attempt.after.errors = attempt.found ++ attempt.before.errors := by
  cases dropped : attempt.isDropped with
  | true =>
    obtain ⟨-, error, added⟩ := accounts.dropped dropped
    have own : attempt.after.errors = (error :: foundIn attempt.inner) ++ attempt.before.errors :=
      added
    rw [found_eq own, own]
  | false =>
    obtain ⟨-, added⟩ := accounts.kept dropped
    rw [found_eq added, added]

/-- A dropped attempt finds one fault more than the attempts inside it, and any other as many. -/
theorem Attempt.Accounts.length_found {attempt : Attempt} (accounts : attempt.Accounts) :
    attempt.found.length =
      (foundIn attempt.inner).length + if attempt.isDropped = true then 1 else 0 := by
  have added := congrArg List.length accounts.errors
  rw [List.length_append] at added
  cases dropped : attempt.isDropped with
  | true =>
    obtain ⟨-, error, errors⟩ := accounts.dropped dropped
    rw [errors, List.length_cons, List.length_append] at added
    show attempt.found.length = (foundIn attempt.inner).length + 1
    omega
  | false =>
    obtain ⟨-, errors⟩ := accounts.kept dropped
    rw [errors, List.length_append] at added
    show attempt.found.length = (foundIn attempt.inner).length + 0
    omega

/-- What a reader has after attempts: between statements, the faults found during them; within a
statement, what comes with its end. -/
def Settles : Stage → Reader → List Attempt → Reader → Prop
  | .between, reader, attempts, last => last.errors = Attempt.foundIn attempts ++ reader.errors
  | .within, reader, attempts, last => reader.Closed last attempts

/-- Attempts are accounted for by the faults and statements that the reader has after them. -/
theorem Tries.settles (tries : Tries stage reader tokens attempts last rest) :
    Settles stage reader attempts last := by
  induction tries with
  | ended between ends => rfl
  | begun between begins attempt others ihAttempt ihOthers =>
    have errors := ihAttempt.accounts.errors
    rw [Settles] at ihOthers ⊢
    rw [ihOthers, Attempt.foundIn_cons, List.append_assoc, ← errors]
  | goes within taken others ih =>
    rw [step, taken] at ih
    exact ih
  | @block reader last after token mark _ _ _ attempts _ _ _ taken inside others ihInside
      ihOthers =>
    -- The block is closed with the statements from before it and with the faults from inside it.
    have opened := congrArg Reader.levels taken
    have closes := inside.take_closing (inside.levels.trans opened)
    have stmts : (last.step mark).stmts = reader.stmts := by
      rw [step, closes]
      rfl
    have errors : (last.step mark).errors = Attempt.foundIn attempts ++ reader.errors := by
      rw [step, closes]
      exact ihInside.trans (by rw [step, taken]; rfl)
    rw [Settles, Closed, stmts, errors] at ihOthers
    rw [Settles, Closed, Attempt.foundIn_append, List.append_assoc]
    exact ihOthers
  | dropped taken =>
    rw [step, taken]
    exact .inr ⟨_, rfl, rfl⟩
  | kept taken =>
    rw [step, taken]
    exact .inl ⟨_, rfl, rfl⟩
  | droppedBefore taken => exact .inr ⟨_, rfl, rfl⟩
  | keptBefore taken => exact .inl ⟨_, rfl, rfl⟩

/-- Every attempt at any depth is accounted for. -/
theorem Tries.accounts (tries : Tries stage reader tokens attempts last rest) :
    ∀ attempt ∈ Attempt.allOf attempts, attempt.Accounts := by
  induction tries with
  | begun between begins attempt others ihAttempt ihOthers =>
    rw [Attempt.allOf, Attempt.all, List.cons_append, List.forall_mem_cons, List.forall_mem_append]
    exact ⟨attempt.settles.accounts, ihAttempt, ihOthers⟩
  | goes within taken others ih => exact ih
  | block taken inside others ihInside ihOthers =>
    rw [Attempt.allOf_append, List.forall_mem_append]
    exact ⟨ihInside, ihOthers⟩
  | _ => simp [Attempt.allOf]

/-- Attempts find as many faults as they drop statements at any depth. -/
theorem Tries.length_foundIn (tries : Tries stage reader tokens attempts last rest) :
    (Attempt.foundIn attempts).length = (Attempt.allOf attempts).countP Attempt.isDropped := by
  induction tries with
  | @begun reader after _ _ _ _ _ inner _ between begins attempt others ihAttempt ihOthers =>
    have own : (Attempt.mk reader after inner).found.length =
        (Attempt.mk reader after inner).all.countP Attempt.isDropped := by
      rw [Attempt.all, List.countP_cons, ← ihAttempt]
      exact attempt.settles.accounts.length_found
    rw [Attempt.foundIn_cons, Attempt.allOf, List.length_append, List.countP_append, ihOthers, own]
    omega
  | goes within taken others ih => exact ih
  | block taken inside others ihInside ihOthers =>
    rw [Attempt.foundIn_append, Attempt.allOf_append, List.length_append, List.countP_append,
      ihInside, ihOthers]
    omega
  | _ => rfl

/-! ## Every run makes attempts -/

/-- The reader is within a statement after a block of it. -/
theorem Site.within_mode (site : Site) (pending : Pending) (block : Block) :
    (site.mode pending block).Within := by
  cases site <;> exact trivial

/-- A token that belongs to a statement is part of the attempt at it, if the attempt goes on after
the token whenever the statement does. -/
theorem Advance.exists_tries {next : Reader} {token : Token} {held : Nat}
    (advance : reader.Advance held next) (taken : reader.take token = next)
    (further : (reader.step token).mode.Within →
      ∃ inner after rest, Tries .within (reader.step token) tokens inner after rest) :
    ∃ inner after rest, Tries .within reader (token :: tokens) inner after rest ∧
      rest.length ≤ tokens.length := by
  cases advance with
  | goes within fewer =>
    have going : (reader.step token).mode.Within := by
      rw [step, taken]
      exact within
    obtain ⟨inner, after, rest, others⟩ := further going
    exact ⟨inner, after, rest, .goes within taken others, others.length_le⟩
  | drops error => exact ⟨[], _, tokens, .dropped taken, Nat.le_refl _⟩

mutual

/-- A reader between statements that comes to the end of the program makes attempts up to the end
of the list. -/
theorem exists_tries_between : ∀ (tokens : List Token) (reader : Reader),
    reader.mode = .statement → (reader.run tokens).mode = .finished →
    ∃ attempts last rest, Tries .between reader tokens attempts last rest
  | [], reader, between, done => by
    rw [run_nil, between] at done
    cases done
  | token :: tokens, reader, between, done => by
    by_cases ends : reader.Ends token.kind
    · exact ⟨[], reader, _, .ended between ends⟩
    have taken : reader.take token = reader.takeStatement token := by rw [take, between]
    obtain ⟨inner, after, middle, attempt, fewer⟩ :=
      (takeStatement_advance ends).exists_tries taken fun within =>
        exists_tries_within tokens (reader.step token) within done
    have goesOn : (after.run middle).mode = .finished := by
      rw [attempt.run_eq]
      exact done
    obtain ⟨attempts, last, rest, others⟩ :=
      exists_tries_between middle after attempt.mode goesOn
    exact ⟨_, last, rest, .begun between ends attempt others⟩
termination_by tokens => tokens.length

/-- A reader within a statement that comes to the end of the program comes to the end of the
statement. -/
theorem exists_tries_within : ∀ (tokens : List Token) (reader : Reader),
    reader.mode.Within → (reader.run tokens).mode = .finished →
    ∃ inner after rest, Tries .within reader tokens inner after rest
  | [], reader, within, done => by
    rw [run_nil] at done
    rw [done] at within
    exact within.elim
  | token :: tokens, reader, within, done => by
    have turn : reader.Turn token _ (reader.take token) := take_turn within
    generalize taken : reader.take token = next at turn
    cases turn with
    | advances advance =>
      obtain ⟨inner, after, rest, whole, -⟩ := advance.exists_tries taken fun within =>
        exists_tries_within tokens (reader.step token) within done
      exact ⟨inner, after, rest, whole⟩
    | @opens pending site brace fewer =>
      have opened : (reader.step token).mode = .statement ∧
          (reader.step token).levels = ⟨reader.stmts, pending, site, token⟩ :: reader.levels := by
        rw [step, taken]
        exact ⟨rfl, rfl⟩
      -- The attempts in the block end at a token that closes it, and from there the rest of the
      -- statement has fewer tokens left.
      obtain ⟨attempts, last, left, inside⟩ :=
        exists_tries_between tokens (reader.step token) opened.1 done
      obtain ⟨mark, middle, rfl, ends⟩ := inside.ends
      have shorter := inside.length_le
      have closes := inside.take_closing (inside.levels.trans opened.2)
      have around : (last.step mark).mode.Within := by
        rw [step, closes]
        exact site.within_mode _ _
      have goesOn : ((last.step mark).run middle).mode = .finished := by
        rw [← run_cons, inside.run_eq]
        exact done
      obtain ⟨inner, after, rest, others⟩ :=
        exists_tries_within middle (last.step mark) around goesOn
      exact ⟨_, after, rest, .block taken inside others⟩
    | keeps fewer => exact ⟨[], _, tokens, .kept taken⟩
    | dropsBefore error => exact ⟨[], _, _, .droppedBefore taken⟩
    | keepsBefore fewer => exact ⟨[], _, _, .keptBefore taken⟩
termination_by tokens => tokens.length
decreasing_by
  all_goals simp only [List.length_cons] at *
  all_goals omega

end

/-- Attempts at the statements of the outermost list go up to an end mark. What was read then is
what was read when the program has ended. -/
theorem Tries.reading_eq (tries : Tries .between start tokens attempts last rest) :
    (∃ mark tail, rest = mark :: tail ∧ mark.kind = .eof) ∧ last.levels = [] ∧
      last.reading = (start.run tokens).reading := by
  obtain ⟨mark, tail, rfl, ends⟩ := tries.ends
  have outermost : last.levels = [] := tries.levels
  have taken : last.take mark = last.takeStatement mark := by rw [take, tries.mode]
  rcases takeStatement_of_ends ends with ⟨-, isMark, finishes⟩ | ⟨level, outer, levels, -⟩
  · refine ⟨⟨mark, tail, rfl, isMark⟩, outermost, ?_⟩
    have finished : (last.step mark).mode = .finished ∧
        (last.step mark).reading = last.reading := by
      rw [step, taken, finishes]
      exact ⟨rfl, rfl⟩
    rw [← tries.run_eq, run_cons, reading_run_finished _ finished.1, finished.2]
  · rw [outermost] at levels
    cases levels

end Reader

/-- Reading a list of tokens ends, and all faults are accounted for. After the tokens and some end
marks the reader has made attempts at the statements of the outermost list up to an end mark, and
what it then has is what was read. However its attempts are told apart, each at any depth is
dropped with one fault besides those of the attempts inside it, or kept with none besides those; so
there are no faults exactly if none of them was dropped. The faults and the statements at any depth
are together no more than the tokens that are no end marks. -/
theorem Program.ofTokens_accounts (tokens : List Token) :
    (∃ count,
      let marked := tokens ++ List.replicate count (Token.eof (Token.lastLine tokens))
      (∃ attempts last rest, Reader.Tries .between Reader.start marked attempts last rest) ∧
      ∀ attempts last rest, Reader.Tries .between Reader.start marked attempts last rest →
        (∃ mark tail, rest = mark :: tail ∧ mark.kind = .eof) ∧ last.levels = [] ∧
        last.reading = Program.ofTokens tokens ∧
        (∀ attempt ∈ Reader.Attempt.allOf attempts, attempt.Accounts) ∧
        ((Program.ofTokens tokens).errors = [] ↔
          ∀ attempt ∈ Reader.Attempt.allOf attempts, attempt.isDropped = false)) ∧
    (Program.ofTokens tokens).errors.length + (Program.ofTokens tokens).program.statements ≤
      tokens.countP fun token => token.kind ≠ .eof := by
  refine ⟨⟨(Reader.start.run tokens).levels.length + 2, ?_, ?_⟩, statements_ofTokens_le tokens⟩
  · apply Reader.exists_tries_between _ _ rfl
    rw [Reader.run_append]
    exact Reader.finish_mode _ _
  · intro attempts last rest tries
    obtain ⟨ends, outermost, same⟩ := tries.reading_eq
    have read : last.reading = Program.ofTokens tokens := by
      rw [same, Reader.run_append]
      rfl
    refine ⟨ends, outermost, read, tries.accounts, ?_⟩
    have found : last.errors = Reader.Attempt.foundIn attempts :=
      tries.settles.trans (List.append_nil _)
    have counted := tries.length_foundIn
    rw [← read]
    show last.errors.reverse = [] ↔ _
    rw [List.reverse_eq_nil_iff, found, ← List.length_eq_zero_iff, counted, List.countP_eq_zero]
    simp only [Bool.not_eq_true]

end Lengua
