import TableLint.Source.Node

/-!
Which node lists are expressions. One pass from left to right decides: a state says what may come
next and which constructs are still open, `step` moves over one node, and a group that stands where
one may stand is checked by the same pass with the rules of its brackets.

Main definition: `scan ground state nodes` answers the nodes after the longest expression, or none
if the nodes do not start with one.
-/
namespace TableLint.Source

/-- Where the pieces being read stand. -/
inductive Ground where
  /-- Outside brackets; `commas` says whether several expressions may stand here. -/
  | plain (commas : Bool)
  | round
  | arguments
  /-- The base list of a class: arguments, but no comprehension. -/
  | bases
  | square
  | subscript
  | curly
  | parameters
  /-- Type parameters, each with an optional bound. -/
  | types
  /-- A replacement field of a formatted string. -/
  | field
  /-- The text of a formatted string. -/
  | text
deriving DecidableEq, Repr

inductive Frame where
  /-- The parameters of a lambda. -/
  | lambda
  /-- A condition, up to its `else`. -/
  | ternary
  /-- The targets of a `for`, up to its `in`. -/
  | targets
  /-- A comprehension after its first `in`. -/
  | clause
  /-- The value of a dictionary entry or of a parameter. -/
  | value
  /-- The annotation of a parameter. -/
  | noted
deriving DecidableEq, Repr

inductive Last where
  /-- A name that is all there is of its item. -/
  | label
  | name
  | string
  | other
deriving DecidableEq, Repr

inductive Expect where
  /-- An item of a list; `mayEnd` says whether the list may end instead. -/
  | item (mayEnd : Bool)
  /-- An operand; `low` says whether it may be a negation or a lambda. -/
  | operand (low : Bool)
  /-- A part of a slice, or none. -/
  | part
  /-- A name after a dot. -/
  | member
  | operator (last : Last)
  /-- The second word of `not in`. -/
  | afterNot
  /-- An operand, or the second word of `is not`. -/
  | afterIs
  | yielded
  /-- An operand after `await`, or what follows `await` as a name that is the operand `last`. -/
  | awaited (last : Last)
  /-- The second word of `async for`. -/
  | afterAsync
  | parameter (mayEnd : Bool)
  | named
  | starred
  | doubleStarred
  | slashed
  | text
  | format
  | conversion
  | converted
deriving DecidableEq, Repr

/-- The state of the pass. `single` says that no comma has been read. -/
structure State where
  frames : List Frame := []
  expect : Expect
  single : Bool := true
deriving Repr

inductive Move where
  | next (state : State)
  /-- The node is a group whose body is read with the rules of the ground. -/
  | enter (ground : Ground) (state : State)
  | stop
deriving Repr

namespace State

def goes (s : State) (expect : Expect) : Move := .next { s with expect }

def turns (s : State) (frames : List Frame) (expect : Expect) : Move :=
  .next { s with frames, expect }

def isFinal (s : State) : Bool :=
  s.frames.all (fun f => f == .clause || f == .value || f == .noted) &&
    match s.expect with
    | .item mayEnd | .parameter mayEnd => mayEnd
    | .operator _ | .part | .yielded | .awaited _ | .named | .starred | .slashed | .text | .format
    | .converted => true
    | _ => false

end State

def Ground.start : Ground → State
  | .plain _ | .subscript | .types | .field => { expect := .item false }
  | .parameters => { expect := .parameter true }
  | .text => { expect := .text }
  | _ => { expect := .item true }

/-- The rules for a group that is an operand. -/
def groundOfOperand (opening : Token) : Ground :=
  match opening.text with
  | ['('] => .round
  | ['['] => .square
  | ['{'] => .curly
  | _ => .text

def lastOfGroup (opening : Token) : Last :=
  if groundOfOperand opening == .text then .string else .other

def inTargets : List Frame → Bool
  | .targets :: _ => true
  | _ => false

/-- Operators between two operands, written as marks. -/
def binaryMarks : List String :=
  ["+", "-", "*", "/", "%", "@", "//", "**", "<<", ">>", "&", "|", "^", "<", ">", "<=", ">=", "==",
    "!=", "<>"]

def wordAsOperand (s : State) (t : Token) (low item : Bool) : Move :=
  match String.ofList t.text with
  | "True" | "False" | "None" => s.goes (.operator .other)
  | "not" => if low then s.goes (.operand true) else .stop
  | "await" => s.goes (.awaited (if item then .label else .name))
  | "lambda" => if low then s.turns (.lambda :: s.frames) (.parameter true) else .stop
  | "yield" => if item then s.goes .yielded else .stop
  | _ => if t.isName then s.goes (.operator (if item then .label else .name)) else .stop

def markAsOperand (ground : Ground) (s : State) (t : Token) (item : Bool) : Move :=
  match String.ofList t.text with
  | "-" | "+" | "~" => s.goes (.operand false)
  | "..." => s.goes (.operator .other)
  | "*" => if item then s.goes (.operand true) else .stop
  | "**" =>
    if item && (ground == .arguments || ground == .bases || ground == .curly || ground == .types)
    then s.goes (.operand true)
    else .stop
  | ":" =>
    if ground == .subscript && s.frames.isEmpty && (item || s.expect == .part) then s.goes .part
    else .stop
  | "," => if s.expect == .part then s.goes (.item true) else .stop
  | _ => .stop

/-- A node where an operand may start. -/
def operandStep (ground : Ground) (s : State) (low item : Bool) : Node → Move
  | .group opening _ _ =>
    .enter (groundOfOperand opening) { s with expect := .operator (lastOfGroup opening) }
  | .leaf t =>
    if inTargets s.frames && !(t.isName || t.isMark "*" || (t.isWord "in" && item)) then .stop
    else
      match t.kind with
      | .number => s.goes (.operator .other)
      | .string => s.goes (.operator .string)
      | .word => wordAsOperand s t low item
      | .mark => markAsOperand ground s t item
      | _ => .stop

/-- The `in` after the targets of a `for`: in brackets it starts a comprehension. -/
def inStep (ground : Ground) (s : State) : Move :=
  match s.frames, ground with
  | .targets :: frames, .plain _ => s.turns frames (.item false)
  | .targets :: frames, _ => s.turns (.clause :: frames) (.operand true)
  | _, _ => s.goes (.operand false)

/-- The `for` of a comprehension. It follows the only item of its brackets, or another clause. -/
def forStep (ground : Ground) (s : State) : Move :=
  if s.single && (ground == .round || ground == .arguments || ground == .square || ground == .curly)
  then
    match s.frames with
    | [] => s.turns [.targets] (.item false)
    | .clause :: frames => s.turns (.targets :: frames) (.item false)
    | .value :: frames => s.turns (.targets :: .value :: frames) (.item false)
    | _ => .stop
  else .stop

def commaStep (ground : Ground) (s : State) : Move :=
  match s.frames with
  | .lambda :: _ => s.goes (.parameter true)
  | .targets :: _ => s.goes (.item true)
  | .ternary :: _ | .clause :: _ => .stop
  | _ =>
    match ground with
    | .plain false | .text => .stop
    | .parameters => s.turns [] (.parameter true)
    | _ => .next { frames := [], expect := .item true, single := false }

def colonStep (ground : Ground) (s : State) : Move :=
  match s.frames, ground with
  | .lambda :: frames, _ => s.turns frames (.operand true)
  | [], .subscript => s.goes .part
  | [], .curly => s.turns [.value] (.operand true)
  | [], .types => s.goes (.operand true)
  | [], .field => s.goes .format
  | _, _ => .stop

def equalsStep (ground : Ground) (s : State) (last : Last) : Move :=
  match s.frames, ground with
  | [], .arguments | [], .bases => if last == .label then s.goes (.operand true) else .stop
  | [.noted], .parameters => s.turns [.value] (.operand true)
  | [], .field => s.goes .converted
  | _, _ => .stop

def wordStep (ground : Ground) (s : State) (t : Token) : Move :=
  match String.ofList t.text with
  | "and" | "or" => s.goes (.operand true)
  | "in" => inStep ground s
  | "not" => s.goes .afterNot
  | "is" => s.goes .afterIs
  | "as" => s.goes (.operand false)
  | "if" =>
    match s.frames with
    | .clause :: _ => s.goes (.operand true)
    | frames => s.turns (.ternary :: frames) (.operand true)
  | "else" =>
    match s.frames with
    | .ternary :: frames => s.turns frames (.operand true)
    | _ => .stop
  | "for" => forStep ground s
  | "async" => s.goes .afterAsync
  | _ => .stop

def markStep (ground : Ground) (s : State) (last : Last) (t : Token) : Move :=
  match String.ofList t.text with
  | "." => s.goes .member
  | "," => commaStep ground s
  | ":" => colonStep ground s
  | "=" => equalsStep ground s last
  | ":=" => if last == .label || last == .name then s.goes (.operand true) else .stop
  | "!" => if ground == .field && s.frames.isEmpty then s.goes .conversion else .stop
  | mark => if binaryMarks.contains mark then s.goes (.operand false) else .stop

/-- A node after an operand. -/
def operatorStep (ground : Ground) (s : State) (last : Last) : Node → Move
  | .group opening _ _ =>
    match groundOfOperand opening with
    | .round => .enter .arguments { s with expect := .operator .other }
    | .square => .enter .subscript { s with expect := .operator .other }
    | .text => if last == .string then .enter .text s else .stop
    | _ => .stop
  | .leaf t =>
    if inTargets s.frames && !(t.isWord "in" || t.isMark "." || t.isMark ",") then .stop
    else
      match t.kind with
      | .string => if last == .string then .next s else .stop
      | .word => wordStep ground s t
      | .mark => markStep ground s last t
      | _ => .stop

/-- The body of a lambda follows. -/
def bodyStep (s : State) : Move :=
  match s.frames with
  | .lambda :: frames => s.turns frames (.operand true)
  | _ => .stop

def parameterStep (s : State) (mayEnd : Bool) : Node → Move
  | .group opening _ _ =>
    if opening.text == ['('] then .enter .round { s with expect := .named } else .stop
  | .leaf t =>
    if t.isName then s.goes .named
    else if t.isMark "*" then s.goes .starred
    else if t.isMark "**" then s.goes .doubleStarred
    else if t.isMark "/" then s.goes .slashed
    else if t.isMark ":" && mayEnd then bodyStep s
    else .stop

def namedStep (ground : Ground) (s : State) (n : Node) : Move :=
  if n.isMark "," then s.goes (.parameter true)
  else if n.isMark "=" then
    s.turns (if ground == .parameters && s.frames.isEmpty then [.value] else s.frames)
      (.operand true)
  else if n.isMark ":" then
    if ground == .parameters && s.frames.isEmpty then s.turns [.noted] (.item false)
    else bodyStep s
  else .stop

/-- A node in the text of a formatted string or in the format of a field. -/
def textStep (s : State) : Node → Move
  | .group _ _ _ => .enter .field s
  | .leaf t => if t.kind == .formatText then .next s else .stop

def step (ground : Ground) (s : State) (n : Node) : Move :=
  match s.expect with
  | .item _ =>
    if n.isWord "in" && s.expect == .item true then
      if inTargets s.frames then inStep ground s else .stop
    else operandStep ground s true true n
  | .operand low => operandStep ground s low false n
  | .part => operandStep ground s true false n
  | .afterIs =>
    if n.isWord "not" then s.goes (.operand false) else operandStep ground s false false n
  | .yielded =>
    if n.isWord "from" then s.goes (.operand true) else operandStep ground s true true n
  | .awaited last =>
    match operandStep ground s false false n with
    | .stop => operatorStep ground s last n
    | move => move
  | .member =>
    match n with
    | .leaf t => if t.kind == .word then s.goes (.operator .other) else .stop
    | .group _ _ _ => .stop
  | .operator last => operatorStep ground s last n
  | .afterNot => if n.isWord "in" then s.goes (.operand false) else .stop
  | .afterAsync => if n.isWord "for" then forStep ground s else .stop
  | .parameter mayEnd => parameterStep s mayEnd n
  | .named => namedStep ground s n
  | .starred =>
    if n.isName then s.goes .named
    else if n.isMark "," then s.goes (.parameter true)
    else .stop
  | .doubleStarred => if n.isName then s.goes .named else .stop
  | .slashed =>
    if n.isMark "," then s.goes (.parameter true)
    else if n.isMark ":" then bodyStep s
    else .stop
  | .text | .format => textStep s n
  | .conversion => if n.isName then s.goes .converted else .stop
  | .converted =>
    if n.isMark "!" then s.goes .conversion
    else if n.isMark ":" then s.goes .format
    else .stop

mutual

/-- The body of a group keeps the rules of its ground. -/
def Node.isWellFormed (ground : Ground) : Node → Bool
  | .leaf _ => true
  | .group _ body _ => (scan ground ground.start body).any List.isEmpty

/-- Reads as far as the nodes belong together and answers the rest. -/
def scan (ground : Ground) (s : State) : List Node → Option (List Node)
  | [] => if s.isFinal then some [] else none
  | n :: ns =>
    match step ground s n with
    | .next s => scan ground s ns
    | .enter inner s => if n.isWellFormed inner then scan ground s ns else none
    | .stop => if s.isFinal then some (n :: ns) else none

end

def afterExpression? (nodes : List Node) : Option (List Node) :=
  scan (.plain false) (Ground.plain false).start nodes

/-- What follows the expressions, separated by commas, that the nodes start with. -/
def afterExpressions? (nodes : List Node) : Option (List Node) :=
  scan (.plain true) (Ground.plain true).start nodes

/-- What follows the targets, the `in` and the expressions of a loop. -/
def afterLoop? (nodes : List Node) : Option (List Node) :=
  scan (.plain true) { frames := [.targets], expect := .item false } nodes

end TableLint.Source
