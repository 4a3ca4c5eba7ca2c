/-!
Arguments of a command line: options by their long or short names, with or without a value, and the
words between them. Behind two dashes all are words.
-/

set_option autoImplicit false
set_option relaxedAutoImplicit false

namespace ControlLogic.Command

/-- An option. -/
structure OptionSpec where
  long : String
  short : Option Char := none
  takesValue : Bool := false
  repeats : Bool := false
  deriving DecidableEq, Repr, Inhabited

/-- Options that were given, by their long names, with their values, and words, both in order. -/
structure Arguments where
  options : List (String × String) := []
  words : List String := []
  deriving DecidableEq, Repr, Inhabited

namespace Arguments

def has (a : Arguments) (long : String) : Bool :=
  a.options.any (·.1 == long)

def value? (a : Arguments) (long : String) : Option String :=
  a.options.lookup long

def values (a : Arguments) (long : String) : List String :=
  (a.options.filter (·.1 == long)).map Prod.snd

def consOption (long value : String) (a : Arguments) : Arguments :=
  { a with options := (long, value) :: a.options }

def consWord (word : String) (a : Arguments) : Arguments :=
  { a with words := word :: a.words }

end Arguments

/-- Whether an argument is an option by its looks. A single dash is a word. -/
def isDashed (arg : String) : Bool :=
  match arg.toList with
  | '-' :: _ :: _ => true
  | _ => false

/-- An option as it is written: what it is, and the value that is part of the same argument. -/
def readOption? (specs : List OptionSpec) (arg : String) :
    Option (OptionSpec × Option String) :=
  match arg.toList with
  | '-' :: '-' :: cs => do
    let spec ← specs.find? (·.long.toList == cs.takeWhile (· != '='))
    match cs.dropWhile (· != '=') with
    | [] => return (spec, none)
    | _ :: value => return (spec, some (String.ofList value))
  | '-' :: c :: cs => do
    let spec ← specs.find? (·.short == some c)
    match cs with
    | [] => return (spec, none)
    | '=' :: value => return (spec, some (String.ofList value))
    | value => return (spec, some (String.ofList value))
  | _ => none

/-- Sorts arguments into options and words; `none` if an option is not known, lacks its value or has
one it does not take. -/
def sort? (specs : List OptionSpec) : List String → Option Arguments
  | [] => some {}
  | "--" :: rest => some { words := rest }
  | arg :: rest =>
    if isDashed arg then
      match readOption? specs arg with
      | none => none
      | some (spec, some value) =>
        if spec.takesValue then (sort? specs rest).map (.consOption spec.long value) else none
      | some (spec, none) =>
        if spec.takesValue then
          match rest with
          | [] => none
          | value :: rest =>
            if isDashed value then none
            else (sort? specs rest).map (.consOption spec.long value)
        else (sort? specs rest).map (.consOption spec.long "")
    else (sort? specs rest).map (.consWord arg)

def countsOnce (specs : List OptionSpec) (a : Arguments) : Bool :=
  specs.all fun spec => spec.repeats || (a.values spec.long).length ≤ 1

/-- Sorts arguments into options and words; `none` as well if an option that counts once was given
twice. -/
def arguments? (specs : List OptionSpec) (args : List String) : Option Arguments :=
  (sort? specs args).filter (countsOnce specs)

end ControlLogic.Command
