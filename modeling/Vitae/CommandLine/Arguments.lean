import Vitae.Job

/-!
# Arguments

The options of the command line and how the arguments are told apart. The value of an option and the input
paths are looked at only when the next option starts or the arguments end; until then they are `pending`, so
of two faults the earlier one is not always the one that is told.
-/

namespace Vitae.CommandLine

inductive Opt where
  | output
  | layout
  | tex
  | compileUrl
  | seed
  | listLayouts
  | watch
  | verbose
  | help
  | version
  deriving DecidableEq, Repr

namespace Opt

def all : List Opt :=
  [.output, .layout, .tex, .compileUrl, .seed, .listLayouts, .watch, .verbose, .help, .version]

def long : Opt → String
  | .output => "output"
  | .layout => "layout"
  | .tex => "tex"
  | .compileUrl => "compile-url"
  | .seed => "seed"
  | .listLayouts => "list-layouts"
  | .watch => "watch"
  | .verbose => "verbose"
  | .help => "help"
  | .version => "version"

def short? : Opt → Option Char
  | .output => some 'o'
  | .layout => some 'l'
  | .watch => some 'w'
  | .verbose => some 'v'
  | .help => some 'h'
  | .version => some 'V'
  | .tex | .compileUrl | .seed | .listLayouts => none

def value? : Opt → Option String
  | .output => some "OUTPUT"
  | .layout => some "layout"
  | .compileUrl => some "url"
  | _ => none

def display (o : Opt) : String :=
  "--" ++ o.long ++ (match o.value? with
    | some v => " <" ++ v ++ ">"
    | none => "")

end Opt

inductive Target where
  | option (o : Opt)
  | inputs
  deriving DecidableEq, Repr

def Target.display : Target → String
  | .option o => o.display
  | .inputs => "[INPUTS]..."

inductive UsageError where
  | unexpectedArgument (text : String)
  | unexpectedValue (value : String) (target : Target)
  | missingValue (target : Target)
  | invalidValue (value : String) (target : Target)
  | repeated (target : Target)
  | conflict (first second : Target)
  deriving DecidableEq, Repr

def UsageError.message : UsageError → String
  | .unexpectedArgument text => "unexpected argument '" ++ text ++ "' found"
  | .unexpectedValue value t =>
    "unexpected value '" ++ value ++ "' for '" ++ t.display ++ "' found; no more were expected"
  | .missingValue t => "a value is required for '" ++ t.display ++ "' but none was supplied"
  | .invalidValue value t => "invalid value '" ++ value ++ "' for '" ++ t.display ++ "'"
  | .repeated t => "the argument '" ++ t.display ++ "' cannot be used multiple times"
  | .conflict a b => "the argument '" ++ a.display ++ "' cannot be used with '" ++ b.display ++ "'"

structure Invocation where
  inputs : List Path := []
  output : Option Path := none
  layout : String := Layout.classic.id
  tex : Bool := false
  endpoint : Option String := none
  seed : Bool := false
  listLayouts : Bool := false
  watch : Bool := false
  verbose : Bool := false

inductive Stop where
  | usage (e : UsageError)
  | help
  | version
  deriving DecidableEq, Repr

namespace Arguments

structure State where
  invocation : Invocation := {}
  given : List Target := []
  pending : Option (Target × List String) := none
  onlyInputs : Bool := false

def fault {α : Type} (e : UsageError) : Except Stop α :=
  .error (.usage e)

def note (s : State) (o : Opt) : Except Stop State :=
  if s.given.contains (.option o) then fault (.repeated (.option o))
  else .ok { s with given := .option o :: s.given }

def pathOf (t : Target) (value : String) : Except Stop Path :=
  if value.isEmpty then fault (.missingValue t) else .ok (.ofString value)

def setValue (s : State) (o : Opt) (value : String) : Except Stop State := do
  let s ← note s o
  match o with
  | .output => do
    let path ← pathOf (.option o) value
    return { s with invocation := { s.invocation with output := some path } }
  | .layout =>
    match Layout.ofId value with
    | .ok _ => return { s with invocation := { s.invocation with layout := value } }
    | .error _ =>
      fault (if value.isEmpty then .missingValue (.option o) else .invalidValue value (.option o))
  | .compileUrl => return { s with invocation := { s.invocation with endpoint := some value } }
  | _ => return s

def resolve (s : State) : Except Stop State := do
  match s.pending with
  | none => return s
  | some (.option o, values) => do
    match values.head? with
    | none => fault (.missingValue (.option o))
    | some value => setValue { s with pending := none } o value
  | some (.inputs, values) => do
    let paths ← values.mapM (pathOf .inputs)
    return { s with
      pending := none
      given := .inputs :: s.given
      invocation := { s.invocation with inputs := s.invocation.inputs ++ paths } }

def setFlag (s : State) (o : Opt) : Except Stop State := do
  let s ← note (← resolve s) o
  match o with
  | .tex => return { s with invocation := { s.invocation with tex := true } }
  | .seed => return { s with invocation := { s.invocation with seed := true } }
  | .listLayouts => return { s with invocation := { s.invocation with listLayouts := true } }
  | .watch => return { s with invocation := { s.invocation with watch := true } }
  | .verbose => return { s with invocation := { s.invocation with verbose := true } }
  | .help => throw .help
  | .version => throw .version
  | .output | .layout | .compileUrl => return s

def startOption (s : State) (o : Opt) (attached : Option String) : Except Stop State := do
  let s ← resolve s
  match attached with
  | some value => setValue s o value
  | none => return { s with pending := some (.option o, []) }

def long (s : State) (text : List Char) : Except Stop State :=
  let name := text.takeWhile (· != '=')
  let attached := if name.length < text.length then some (String.ofList (text.drop (name.length + 1)))
    else none
  match Opt.all.find? (·.long.toList == name) with
  | none => fault (.unexpectedArgument ("--" ++ String.ofList name))
  | some o =>
    if o.value?.isSome then startOption s o attached
    else match attached with
      | some value => fault (.unexpectedValue value (.option o))
      | none => setFlag s o

/-- The letters of an argument behind its dash. What follows the letter of an option that has a value is its
value. -/
def shorts (s : State) : List Char → Except Stop State
  | [] => .ok s
  | c :: cs =>
    match Opt.all.find? (·.short? == some c) with
    | none => fault (.unexpectedArgument (String.ofList ['-', c]))
    | some o =>
      if o.value?.isSome then
        startOption s o (match cs with
          | [] => none
          | '=' :: value => some (String.ofList value)
          | value => some (String.ofList value))
      else do shorts (← setFlag s o) cs

def plain (s : State) (text : String) : Except Stop State :=
  match s.pending with
  | some (.option o, []) =>
    if s.onlyInputs then do
      let s ← resolve s
      return { s with pending := some (.inputs, [text]) }
    else .ok { s with pending := some (.option o, [text]) }
  | some (.inputs, values) => .ok { s with pending := some (.inputs, values ++ [text]) }
  | _ => do
    let s ← resolve s
    return { s with pending := some (.inputs, [text]) }

def step (s : State) (text : String) : Except Stop State :=
  if s.onlyInputs then plain s text
  else match text.toList with
    | ['-', '-'] => .ok { s with onlyInputs := true }
    | '-' :: '-' :: rest => long s rest
    | '-' :: c :: rest => shorts s (c :: rest)
    | _ => plain s text

/-- The built-in example takes no inputs. Of the two, the one given first is told first. -/
def checkConflict (s : State) : Except Stop Unit :=
  let both := s.given.reverse.filter fun t => t == .inputs || t == .option .seed
  match both.eraseDups with
  | [a, b] => fault (.conflict a b)
  | _ => .ok ()

end Arguments

def Invocation.ofArguments (arguments : List String) : Except Stop Invocation := do
  let s ← Arguments.resolve (← arguments.foldlM Arguments.step {})
  Arguments.checkConflict s
  return s.invocation

end Vitae.CommandLine
