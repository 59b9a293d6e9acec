import Lengua.Proofs.FrontEnd
import Lengua.Proofs.Numeral

/-!
# The bounds of a run

The bounds on a run come from its flags and from the settings. A bound that is given and not
negative holds, and the configured one holds where none is given. A negative bound is passed
over, but it gives way to the bound that holds without any settings and not to the configured
one. So it takes a configured bound away, unless the two are the same.

The argument goes over the flags from the left. One flag and its value take in the value and
leave the rest of the arguments (`FlagSet.read_written`); all flags of a run together give the
options by their last values (`Command.Gives.read`).
-/

namespace Lengua

/-! ## Flags as they are written -/

namespace Text

/-- The bytes of a text are other than one that is not in it. -/
theorem bne_of_not_mem {byte : UInt8} {text : Text} (plain : byte ∉ text) :
    ∀ other ∈ text, (fun other => other != byte) other = true := by
  intro other member
  rw [bne_iff_ne]
  rintro rfl
  exact plain member

/-- A text is not cut at a byte that is not in it. -/
theorem cut_of_not_mem {byte : UInt8} {text : Text} (plain : byte ∉ text) :
    text.cut byte = (text, none) := by
  rw [cut, List.dropWhile_eq_nil_iff.mpr (bne_of_not_mem plain)]

/-- A text is cut at the first occurrence of a byte. -/
theorem cut_append {byte : UInt8} {before : Text} (plain : byte ∉ before) (after : Text) :
    (before ++ byte :: after).cut byte = (before, some after) := by
  have passes := bne_of_not_mem plain
  have fails : ¬ (byte != byte) = true := by simp
  rw [cut, List.dropWhile_append_of_pos passes,
    List.dropWhile_cons_of_neg (p := fun other => other != byte) fails]
  dsimp only
  rw [List.takeWhile_append_of_pos passes,
    List.takeWhile_cons_of_neg (p := fun other => other != byte) fails, List.append_nil]

end Text

namespace Argument

/-- A text that can name a flag: it is not empty, it does not begin with a dash, and it holds no
equals sign. -/
def IsName (name : Text) : Prop := name ≠ [] ∧ name.head? ≠ some 0x2D ∧ 0x3D ∉ name

instance (name : Text) : Decidable (IsName name) :=
  inferInstanceAs (Decidable (¬ name = [] ∧ ¬ name.head? = some 0x2D ∧ ¬ 0x3D ∈ name))

/-- A flag that is written as a list of arguments, with one dash or two, and with its value after
an equals sign or as the next argument. -/
inductive Written (name value : Text) : List Text → Prop where
  /-- The value is the next argument. -/
  | apart {dashes : Text} (dashed : dashes = utf8 "-" ∨ dashes = utf8 "--") :
      Written name value [dashes ++ name, value]
  /-- The value stands after an equals sign. -/
  | joined {dashes : Text} (dashed : dashes = utf8 "-" ∨ dashes = utf8 "--") :
      Written name value [dashes ++ (name ++ 0x3D :: value)]

variable {name : Text}

/-- The first byte of a name and the others. -/
theorem IsName.cases (isName : IsName name) :
    ∃ first rest, name = first :: rest ∧ first ≠ 0x2D ∧ first ≠ 0x3D ∧ 0x3D ∉ rest := by
  obtain ⟨solid, head, plain⟩ := isName
  obtain ⟨first, rest, rfl⟩ := List.exists_cons_of_ne_nil solid
  obtain ⟨noEquals, restPlain⟩ := not_or.mp (mt List.mem_cons.mpr plain)
  exact ⟨first, rest, rfl, fun same => head (congrArg some same), Ne.symm noEquals, restPlain⟩

/-- One dash or two before a text that does not begin with another. -/
theorem ofText_dashed {dashes : Text} (dashed : dashes = utf8 "-" ∨ dashes = utf8 "--")
    {first : UInt8} (other : first ≠ 0x2D) (rest : Text) :
    ofText (dashes ++ first :: rest) = ofName (first :: rest) := by
  rcases dashed with rfl | rfl
  · have one : utf8 "-" ++ first :: rest = 0x2D :: first :: rest := rfl
    rw [one]
    unfold ofText
    split
    · next same => exact absurd (List.cons.inj (List.cons.inj same).2).1 other
    · next same => exact absurd (List.cons.inj (List.cons.inj same).2).1 other
    · next same => rw [(List.cons.inj same).2]
    · next single => exact absurd rfl (single first rest)
  · rfl

/-- A name with dashes before it is a flag without a value. -/
theorem ofText_alone {dashes : Text} (dashed : dashes = utf8 "-" ∨ dashes = utf8 "--")
    (isName : IsName name) : ofText (dashes ++ name) = .flag name none := by
  obtain ⟨first, rest, rfl, noDash, noEquals, plain⟩ := isName.cases
  rw [ofText_dashed dashed noDash, ofName, if_neg (by simp [noDash, noEquals]),
    Text.cut_of_not_mem plain]

/-- A name with dashes before it and an equals sign behind it is a flag with a value. -/
theorem ofText_joined {dashes : Text} (dashed : dashes = utf8 "-" ∨ dashes = utf8 "--")
    (isName : IsName name) (value : Text) :
    ofText (dashes ++ (name ++ 0x3D :: value)) = .flag name (some value) := by
  obtain ⟨first, rest, rfl, noDash, noEquals, plain⟩ := isName.cases
  rw [List.cons_append, ofText_dashed dashed noDash, ofName, if_neg (by simp [noDash, noEquals]),
    Text.cut_append plain]

end Argument

/-- A flag that is written out is taken in, and the arguments behind it are read after it. -/
theorem FlagSet.read_written {Options : Type} {flags : FlagSet Options} {options changed : Options}
    {name value : Text} {arguments : List Text} (isName : Argument.IsName name)
    (written : Argument.Written name value arguments)
    (taken : flags.set options name value = .ok changed) (rest : List Text) :
    flags.read options (arguments ++ rest) = flags.read changed rest := by
  cases written with
  | apart dashed =>
    simp only [List.cons_append, List.nil_append, read, Argument.ofText_alone dashed isName, taken]
  | joined dashed =>
    simp only [List.cons_append, List.nil_append, read, Argument.ofText_joined dashed isName, taken]

namespace Command

/-! ## The flags of a run -/

/-- Flags of a run with the bounds they give. A bound may be given more than once, and then the
last one counts. The flags end with the arguments, before one that is no flag, or at the mark. -/
inductive Gives : List Text → Option Int → Option Int → Prop where
  /-- There are no flags at the front. -/
  | ends {arguments : List Text}
      (ends : ∀ argument ∈ arguments.head?,
        Argument.ofText argument = .word ∨ Argument.ofText argument = .mark) :
      Gives arguments none none
  /-- A bound on visits comes first. -/
  | gas {arguments rest : List Text} {numeral : Text} {most : Int} {gas depth : Option Int}
      (written : Argument.Written (utf8 "gas") numeral arguments)
      (read : Text.readSigned true numeral = .ok most) (more : Gives rest gas depth) :
      Gives (arguments ++ rest) (some (gas.getD most)) depth
  /-- A bound on active calls comes first. -/
  | depth {arguments rest : List Text} {numeral : Text} {most : Int} {gas depth : Option Int}
      (written : Argument.Written (utf8 "depth") numeral arguments)
      (read : Text.readSigned true numeral = .ok most) (more : Gives rest gas depth) :
      Gives (arguments ++ rest) gas (some (depth.getD most))

/-- Every pair of 64-bit integers can be given, by their decimal forms. -/
theorem Gives.decimal (gas depth : Int64) :
    Gives [utf8 "-gas", Text.ofInt gas.toInt, utf8 "-depth", Text.ofInt depth.toInt]
      (some gas.toInt) (some depth.toInt) :=
  .gas (.apart (.inl rfl)) (Text.readSigned_ofInt gas)
    (.depth (.apart (.inl rfl)) (Text.readSigned_ofInt depth) (.ends (by simp)))

/-- The options of a run are the bounds that its flags give, and those from before where they give
none. -/
theorem Gives.read {flags : List Text} {gas depth : Option Int} (given : Gives flags gas depth)
    (options : RunOptions) :
    ∃ rest, runFlags.read options flags =
      .ok (⟨gas.getD options.gas, depth.getD options.depth⟩, rest) := by
  induction given generalizing options with
  | @ends arguments ends =>
    cases arguments with
    | nil => exact ⟨[], rfl⟩
    | cons argument rest =>
      rcases ends argument rfl with word | mark
      · exact ⟨argument :: rest, by simp only [FlagSet.read, word, Option.getD_none]⟩
      · exact ⟨rest, by simp only [FlagSet.read, mark, Option.getD_none]⟩
  | @gas arguments rest numeral most gas depth written read more ih =>
    have taken : runFlags.set options (utf8 "gas") numeral = .ok { options with gas := most } := by
      simp only [FlagSet.set, FlagSet.find, runFlags, if_true, read]
      rfl
    obtain ⟨after, same⟩ := ih { options with gas := most }
    exact ⟨after, (FlagSet.read_written (by decide) written taken rest).trans same⟩
  | @depth arguments rest numeral most gas depth written read more ih =>
    have taken : runFlags.set options (utf8 "depth") numeral =
        .ok { options with depth := most } := by
      have other : utf8 "depth" ≠ utf8 "gas" := by decide
      simp only [FlagSet.set, FlagSet.find, runFlags, if_neg other, if_true, read]
      rfl
    obtain ⟨after, same⟩ := ih { options with depth := most }
    exact ⟨after, (FlagSet.read_written (by decide) written taken rest).trans same⟩

/-! ## The bounds that hold -/

/-- The bound that holds in a run, from one that may be given: it holds itself unless it is
negative, and then the one that holds without any settings does. If none is given, the configured
one holds. -/
def held (unset : Nat) (configured : Int) : Option Int → Int
  | some most => if 0 ≤ most then most else unset
  | none => configured

/-- The bound that is meant by one that may be given: it is meant itself unless it is negative, and
in every other case the configured one is. -/
def meant (configured : Int) : Option Int → Int
  | some most => if 0 ≤ most then most else configured
  | none => configured

/-- The bound that holds is the one that is meant, unless a negative one is given and another is
configured than the one that holds without any settings. -/
theorem held_eq_meant_iff {unset : Nat} {configured : Int} {given : Option Int} :
    held unset configured given = meant configured given ↔
      ∀ most ∈ given, most < 0 → configured = unset := by
  cases given with
  | none => simp [held, meant]
  | some most =>
    have single : (∀ other ∈ some most, other < 0 → configured = unset) ↔
        (most < 0 → configured = unset) := by simp
    rw [held, meant, single]
    by_cases positive : 0 ≤ most
    · rw [if_pos positive, if_pos positive]
      exact iff_of_true rfl fun negative => absurd positive (Int.not_le.mpr negative)
    · rw [if_neg positive, if_neg positive]
      exact ⟨fun same _ => same.symm, fun same => (same (Int.not_le.mp positive)).symm⟩

/-- What holds by an option of a run, which has the configured bound where none is given. -/
theorem held_eq_ite {unset : Nat} {configured : Int} (nonneg : 0 ≤ configured)
    (given : Option Int) :
    held unset configured given =
      if 0 ≤ given.getD configured then given.getD configured else unset := by
  cases given with
  | none => exact (if_pos nonneg).symm
  | some most => rfl

end Command

/-- Bounds that are not negative replace others. -/
theorem Limits.cast_override (limits : Limits) (gas depth : Int) :
    let limited := limits.override (some gas) (some depth)
    (limited.gas : Int) = (if 0 ≤ gas then gas else limits.gas) ∧
      (limited.depth : Int) = if 0 ≤ depth then depth else limits.depth := by
  cases gas <;> cases depth <;> simp [override]

/-- Settings without issues configure no negative bound. -/
theorem Settings.nonneg_of_issues {settings : Settings} (valid : settings.issues = []) :
    0 ≤ settings.gasLimit ∧ 0 ≤ settings.maxDepth := by
  simp only [issues, List.append_eq_nil_iff, ite_eq_right_iff, List.cons_ne_nil, imp_false] at valid
  omega

namespace Command

/-- A run under settings without issues is bounded by what its flags give, and where they give
nothing by the settings; but a negative bound that is given is replaced by the one that holds
without any settings. So the bounds are those that are meant exactly if a negative bound on visits
is given only where none is configured, and a negative bound on active calls only where the
configured one is the one that holds without any settings. -/
theorem action_bounds {settings : Settings} (valid : settings.issues = []) {flags : List Text}
    {gas depth : Option Int} (given : Gives flags gas depth) (path : Text) :
    ∃ limits : Limits,
      action settings (utf8 "run" :: path :: flags) = .run path limits ∧
      (∀ arguments invocation surroundings fallback,
        Invocation.ofArguments arguments = .ok invocation →
        invocation.words = utf8 "run" :: path :: flags →
        invocation.load surroundings = .ok settings →
        execute arguments fallback surroundings =
          onSource path (surroundings.read path) (runSource limits fallback)) ∧
      limits.gas = held 0 settings.gasLimit gas ∧
      limits.depth = held 1024 settings.maxDepth depth ∧
      (limits.gas = meant settings.gasLimit gas ∧ limits.depth = meant settings.maxDepth depth ↔
        (∀ most ∈ gas, most < 0 → settings.gasLimit = 0) ∧
          ∀ most ∈ depth, most < 0 → settings.maxDepth = 1024) := by
  obtain ⟨gasNonneg, depthNonneg⟩ := Settings.nonneg_of_issues valid
  obtain ⟨rest, read⟩ := given.read ⟨settings.gasLimit, settings.maxDepth⟩
  have asked : action settings (utf8 "run" :: path :: flags) = .run path
      (Limits.default.override (some (gas.getD settings.gasLimit))
        (some (depth.getD settings.maxDepth))) := by
    simp only [action, if_true, runAction, read]
  obtain ⟨gasHeld, depthHeld⟩ :=
    Limits.default.cast_override (gas.getD settings.gasLimit) (depth.getD settings.maxDepth)
  have gasBound := gasHeld.trans (held_eq_ite gasNonneg gas).symm
  have depthBound := depthHeld.trans (held_eq_ite depthNonneg depth).symm
  refine ⟨_, asked, ?_, gasBound, depthBound, ?_⟩
  · intro arguments invocation surroundings fallback invoked words loaded
    rw [execute_of_load invoked loaded, words, asked]
    rfl
  · rw [gasBound, depthBound, held_eq_meant_iff, held_eq_meant_iff]
    rfl

/-- A bound on visits in another base after one that it replaces, and a negative bound on active
calls where the configured one is the one that holds without any settings. The source is run under
these bounds. -/
theorem action_bounds_given :
    let settings := { Settings.default with gasLimit := 3 }
    let flags := [utf8 "--gas=7", utf8 "-depth", utf8 "-1", utf8 "-gas", utf8 "0x10"]
    let source := utf8 "1 + 2 + 3 + 4"
    let surroundings := configured (utf8 "gas_limit: 3\n")
      (fun settings => { settings with gasLimit := 3 }) source
    settings.issues = [] ∧ Gives flags (some 16) (some (-1)) ∧
      ∃ limits, action settings (utf8 "run" :: utf8 "p.lpp" :: flags) = .run (utf8 "p.lpp") limits ∧
        execute ([utf8 "--config", utf8 "c.yaml", utf8 "run", utf8 "p.lpp"] ++ flags) 0
          surroundings = runSource limits 0 source ∧
        (limits.gas : Int) = meant 3 (some 16) ∧ (limits.depth : Int) = meant 1024 (some (-1)) := by
  intro settings flags source surroundings
  have valid : settings.issues = [] := List.isEmpty_iff.mp (by decide +kernel)
  have first : Argument.Written (utf8 "gas") (utf8 "7") [utf8 "--gas=7"] := .joined (.inr rfl)
  have given : Gives flags (some 16) (some (-1)) :=
    .gas first rfl (.depth (.apart (.inl rfl)) rfl (.gas (.apart (.inl rfl)) rfl (.ends (by simp))))
  obtain ⟨limits, asked, executed, -, -, kept⟩ := action_bounds valid given (utf8 "p.lpp")
  have carriedOut := executed ([utf8 "--config", utf8 "c.yaml", utf8 "run", utf8 "p.lpp"] ++ flags)
    ⟨utf8 "c.yaml", utf8 "run" :: utf8 "p.lpp" :: flags⟩ surroundings 0 rfl rfl rfl
  exact ⟨valid, given, limits, asked, carriedOut, kept.mpr (by decide)⟩

/-- A negative bound on visits takes away the one from a settings file: a sum of four numbers that
visits more nodes than that is evaluated. -/
theorem action_bounds_loosened :
    let settings := { Settings.default with gasLimit := 3 }
    let source := utf8 "1 + 2 + 3 + 4"
    let surroundings := configured (utf8 "gas_limit: 3\n")
      (fun settings => { settings with gasLimit := 3 }) source
    let flags := [utf8 "-gas", utf8 "-1"]
    let ran (limits : Limits) := (runSource limits 0 source).map Outcome.output
    settings.issues = [] ∧ Gives flags (some (-1)) none ∧
      action settings (utf8 "run" :: utf8 "p.lpp" :: flags) = .run (utf8 "p.lpp") ⟨0, 1024⟩ ∧
      meant settings.gasLimit (some (-1)) = 3 ∧
      ran ⟨0, 1024⟩ = some (utf8 "10\n") ∧ ran ⟨3, 1024⟩ = some [] ∧
      (execute ([utf8 "--config", utf8 "c.yaml", utf8 "run", utf8 "p.lpp"] ++ flags) 0
        surroundings).map Outcome.output = some (utf8 "10\n") := by
  intro settings source surroundings flags ran
  have valid : settings.issues = [] := List.isEmpty_iff.mp (by decide +kernel)
  have given : Gives flags (some (-1)) none := .gas (.apart (.inl rfl)) rfl (.ends (by simp))
  exact ⟨valid, given, rfl, rfl, by decide +kernel, by decide +kernel, by decide +kernel⟩

end Command

end Lengua
