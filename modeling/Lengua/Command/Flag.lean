import Lengua.Text.Integer
import Lengua.Text.Quoted

/-!
# Flags

Options at the front of an argument list. A flag starts with one dash or two, and its value
stands after an equals sign or is the next argument. Flags end at the first argument that is
none, at a lone dash, and after two dashes alone. A later value replaces an earlier one, and
the first fault from the left is the one reported.
-/

namespace Lengua

/-- Why flags cannot be read. -/
inductive FlagFault where
  /-- A flag without a name. -/
  | malformed (argument : Text)
  /-- A flag with an unknown name. -/
  | unknown (name : Text)
  /-- A flag without a value. -/
  | noValue (name : Text)
  /-- A flag with a value it does not take. -/
  | badValue (name value : Text) (fault : Text.NumeralFault)
  /-- No fault: help was asked for. -/
  | help

/-- The report of a fault, empty for a request for help. -/
def FlagFault.message : FlagFault → Text
  | .malformed argument => utf8 "bad flag syntax: " ++ argument ++ utf8 "\n"
  | .unknown name => utf8 "flag provided but not defined: -" ++ name ++ utf8 "\n"
  | .noValue name => utf8 "flag needs an argument: -" ++ name ++ utf8 "\n"
  | .badValue name value fault =>
    utf8 "invalid value " ++ Text.quoted value ++ utf8 " for flag -" ++ name ++
      (match fault with
        | .malformed => utf8 ": parse error\n"
        | .outOfRange => utf8 ": value out of range\n")
  | .help => []

/-- What an argument is. -/
inductive Argument where
  /-- No flag. -/
  | word
  /-- The mark after which there are no flags. -/
  | mark
  /-- A flag without a name. -/
  | malformed
  /-- A flag and its value, if that is part of it. -/
  | flag (name : Text) (value : Option Text)

namespace Argument

/-- The flag a name without its dashes stands for. An equals sign cannot come first. -/
def ofName : Text → Argument
  | [] => .malformed
  | first :: rest =>
    if first == 0x2D || first == 0x3D then .malformed
    else
      let (more, value) := Text.cut 0x3D rest
      .flag (first :: more) value

/-- What an argument is. -/
def ofText : Text → Argument
  | 0x2D :: 0x2D :: [] => .mark
  | 0x2D :: 0x2D :: name => ofName name
  | 0x2D :: first :: rest => ofName (first :: rest)
  | _ => .word

end Argument

/-- The flags a command takes: what a flag does with its value, by its name. -/
abbrev FlagSet (Options : Type) : Type :=
  Text → Option (Options → Text → Except Text.NumeralFault Options)

namespace FlagSet

/-- What a flag does, or why it has no meaning. -/
def find {Options : Type} (flags : FlagSet Options) (name : Text) :
    Except FlagFault (Options → Text → Except Text.NumeralFault Options) :=
  match flags name with
  | some change => .ok change
  | none => if name = utf8 "help" || name = utf8 "h" then .error .help else .error (.unknown name)

/-- Takes one value in. -/
def set {Options : Type} (flags : FlagSet Options) (options : Options) (name value : Text) :
    Except FlagFault Options :=
  match flags.find name with
  | .error fault => .error fault
  | .ok change =>
    match change options value with
    | .ok changed => .ok changed
    | .error fault => .error (.badValue name value fault)

/-- Takes in the flags at the front of a list of arguments, and gives the arguments after. -/
def read {Options : Type} (flags : FlagSet Options) (options : Options) :
    List Text → Except FlagFault (Options × List Text)
  | [] => .ok (options, [])
  | argument :: rest =>
    match Argument.ofText argument with
    | .word => .ok (options, argument :: rest)
    | .mark => .ok (options, rest)
    | .malformed => .error (.malformed argument)
    | .flag name (some value) =>
      match flags.set options name value with
      | .ok changed => flags.read changed rest
      | .error fault => .error fault
    | .flag name none =>
      match rest with
      | value :: others =>
        match flags.set options name value with
        | .ok changed => flags.read changed others
        | .error fault => .error fault
      | [] =>
        match flags.find name with
        | .ok _ => .error (.noValue name)
        | .error fault => .error fault

end FlagSet

end Lengua
