import TableLint.Text.Split

/-!
Reading the arguments of the command line. Arguments are read from left to right: options first of
the tool, then, after the name of a command, of that command. Options with a value take it from the
same argument or from the next one.
-/
namespace TableLint.CommandLine

open Text

inductive Format where
  | text
  | json
  | compact
  | pretty
deriving DecidableEq, Repr

def Format.ofName? (name : List Char) : Option Format :=
  match String.ofList name with
  | "text" => some .text
  | "json" => some .json
  | "compact" => some .compact
  | "pretty" => some .pretty
  | _ => none

structure CheckRequest where
  path : List Char := ['.']
  format : Format := .text
  rules : Option (List Char) := none
  exclude : List (List Char) := []
  permitFilepath : Bool := false
  config : Option (List Char) := none
deriving DecidableEq, Repr

inductive Request where
  | check (request : CheckRequest)
  | listRules
  | init (force : Bool)
  | version
  | help
deriving DecidableEq, Repr

/-- The commands, and the place before a command. -/
inductive Scope where
  | top
  | check
  | listRules
  | init
deriving DecidableEq, Repr

def Scope.ofName? (name : List Char) : Option Scope :=
  match String.ofList name with
  | "check" => some .check
  | "list-rules" => some .listRules
  | "init" => some .init
  | _ => none

inductive Opt where
  | verbose
  | config
  | help
  | version
  | format
  | rules
  | exclude
  | permitFilepath
  | force
deriving DecidableEq, Repr

namespace Opt

def takesValue : Opt → Bool
  | config | format | rules | exclude => true
  | _ => false

/-- The options that may stand in a scope, each with its long name and, if it has one, its
letter. -/
def inScope (scope : Scope) : List (Opt × String × Option Char) :=
  [(verbose, "verbose", some 'v'), (config, "config", some 'c'), (help, "help", some 'h')] ++
    match scope with
    | .top => [(version, "version", some 'V')]
    | .check =>
      [(format, "format", some 'f'), (rules, "rules", none), (exclude, "exclude", some 'e'),
        (permitFilepath, "permit-dj-filepath", none)]
    | .listRules => []
    | .init => [(force, "force", none)]

def ofName? (scope : Scope) (name : List Char) : Option Opt :=
  ((inScope scope).find? fun (_, long, _) => long.toList == name).map Prod.fst

def ofLetter? (scope : Scope) (letter : Char) : Option Opt :=
  ((inScope scope).find? fun (_, _, short) => short == some letter).map Prod.fst

end Opt

structure Reading where
  scope : Scope := .top
  /-- An option whose value comes next. -/
  pending : Option Opt := none
  /-- No options follow any more. -/
  trailing : Bool := false
  /-- The options of this scope that were given. -/
  seen : List Opt := []
  path : Option (List Char) := none
  config : Option (List Char) := none
  format : Format := .text
  rules : Option (List Char) := none
  exclude : List (List Char) := []
deriving DecidableEq, Repr

inductive Stop where
  | usage
  | help
  | version
deriving DecidableEq, Repr

namespace Reading

/-- Notes that an option was given. Only exclusions may be repeated. -/
def note (r : Reading) (o : Opt) : Except Stop Reading :=
  if r.seen.contains o && o != .exclude then .error .usage else .ok { r with seen := o :: r.seen }

def setFlag (r : Reading) (o : Opt) : Except Stop Reading :=
  if o == .help then .error .help
  else if o == .version then .error .version
  else r.note o

def setValue (r : Reading) (o : Opt) (value : List Char) : Except Stop Reading := do
  let r ← r.note o
  match o with
  | .config => if value.isEmpty then throw .usage else return { r with config := some value }
  | .format =>
    match Format.ofName? value with
    | some format => return { r with format }
    | none => throw .usage
  | .rules => return { r with rules := some value }
  | .exclude => return { r with exclude := r.exclude ++ [value] }
  | _ => throw .usage

def positional (r : Reading) (value : List Char) : Except Stop Reading :=
  if r.scope != .check || r.path.isSome || r.pending.isSome || value.isEmpty then .error .usage
  else .ok { r with path := some value }

/-- An option with a long name, given without its dashes. -/
def long (r : Reading) (arg : List Char) : Except Stop Reading :=
  let name := arg.takeWhile (· != '=')
  let value := arg.drop name.length
  match Opt.ofName? r.scope name with
  | none => .error .usage
  | some o =>
    match value, o.takesValue with
    | [], true => .ok { r with pending := some o }
    | [], false => r.setFlag o
    | _ :: value, true => r.setValue o value
    | _ :: _, false => .error .usage

/-- Options by their letters, given without the dash. The rest of the argument is the value of the
first that takes one. -/
def letters (r : Reading) : List Char → Except Stop Reading
  | [] => .ok r
  | c :: rest =>
    match Opt.ofLetter? r.scope c with
    | none => .error .usage
    | some o =>
      if o.takesValue then
        match rest with
        | [] => .ok { r with pending := some o }
        | '=' :: value => r.setValue o value
        | value => r.setValue o value
      else do letters (← r.setFlag o) rest

/-- Enters a command. What was given before it stays in force unless it is given again. -/
def enter (r : Reading) (scope : Scope) : Reading := { r with scope, seen := [] }

def option (r : Reading) (arg : List Char) : Except Stop Reading :=
  match arg with
  | ['-', '-'] => .ok { r with trailing := true }
  | '-' :: '-' :: rest => if r.pending.isSome then .error .usage else r.long rest
  | ['-'] | [] =>
    match r.pending with
    | some o => ({ r with pending := none } : Reading).setValue o arg
    | none => r.positional arg
  | '-' :: rest => if r.pending.isSome then .error .usage else r.letters rest
  | _ =>
    match r.pending with
    | some o => ({ r with pending := none } : Reading).setValue o arg
    | none => r.positional arg

def step (r : Reading) (arg : List Char) : Except Stop Reading :=
  if r.trailing then r.positional arg
  else if r.scope == .top && r.pending.isNone then
    if arg == "help".toList then .error .help
    else
      match Scope.ofName? arg with
      | some scope => .ok (r.enter scope)
      | none => r.option arg
  else r.option arg

def finish (r : Reading) : Except Stop Request :=
  if r.pending.isSome then .error .usage
  else
    match r.scope with
    | .top => .error .usage
    | .check =>
      let base : CheckRequest := {}
      .ok (.check {
        path := r.path.getD base.path
        format := r.format
        rules := r.rules
        exclude := r.exclude
        permitFilepath := r.seen.contains .permitFilepath
        config := r.config })
    | .listRules => .ok .listRules
    | .init => .ok (.init (r.seen.contains .force))

end Reading

/-- Reads the arguments. None are answered for arguments that cannot be understood. -/
def Request.ofArguments? (args : List (List Char)) : Option Request :=
  match args.foldlM Reading.step {} >>= Reading.finish with
  | .ok request => some request
  | .error .usage => none
  | .error .help => some .help
  | .error .version => some .version

end TableLint.CommandLine
