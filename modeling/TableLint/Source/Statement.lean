import TableLint.Source.Expression
import TableLint.Source.Layout
import TableLint.Source.Literal
import TableLint.Text.Blank

/-!
Statements. `statements? entries` reads the block structure of a module into statements and keeps of
each what an outline needs: imports, classes, functions, and assignments to a name. It answers none
if something is not well formed.
-/
namespace TableLint.Source

/-- A name brought in by an import, and the name it gets instead. -/
structure ImportedName where
  name : List Char
  alias? : Option (List Char)
deriving DecidableEq, Repr

namespace ImportedName

def bound (n : ImportedName) : List Char := n.alias?.getD n.name

end ImportedName

inductive Imported where
  | modules (names : List ImportedName)
  | names (source : List Char) (names : List ImportedName)
  | wildcard (source : List Char)
deriving DecidableEq, Repr

structure Import where
  imported : Imported
  span : Span
deriving DecidableEq, Repr

inductive Value where
  | literal (text : List Char)
  | nonLiteral
deriving DecidableEq, Repr

structure ClassHead where
  name : List Char
  bases : List (List Char)
  span : Span
deriving DecidableEq, Repr

/-- A statement, as far as an outline needs it. -/
inductive Statement where
  | imports (statement : Import)
  | assignment (name : List Char) (value : Value)
  | function (body : List Statement)
  | classDef (head : ClassHead) (body : List Statement)
  /-- Any other statement with a body. -/
  | compound (body : List Statement)
  | other
deriving Repr

/-! ### Literal values -/

/-- The text of a string literal, without a gap before it. A formatted string counts if it has no
replacement field. -/
def stringPiece? : Node → Option (List Char)
  | .leaf t => if t.kind == .string then decode? t.text else none
  | .group opening body closing =>
    if groundOfOperand opening == .text &&
      body.all (fun n => match n with | .leaf _ => true | .group _ _ _ => false) then
      decode? (opening.text ++ (rawText body ++ closing.raw))
    else none

def joinedPieces? : List Node → Option (List Char)
  | [] => some []
  | n :: ns => do return (← stringPiece? n) ++ (← joinedPieces? ns)

mutual

/-- The text that a node stands for: a string literal, or one in parentheses. -/
def Node.literal? : Node → Option (List Char)
  | .leaf t => stringPiece? (.leaf t)
  | .group opening body closing =>
    if opening.text == ['('] then literalText? body else stringPiece? (.group opening body closing)

def literalText? : List Node → Option (List Char)
  | [] => none
  | n :: ns => if ns.isEmpty then n.literal? else joinedPieces? (n :: ns)

end

def valueOf (nodes : List Node) : Value :=
  match literalText? nodes with
  | some text => .literal text
  | none => .nonLiteral

/-! ### Targets -/

/-- Calls, elements and members follow one another and end in an element or a member. -/
def endsInPlace : List Node → Bool
  | [] => false
  | [n] => n.isGroup "["
  | n :: m :: ns =>
    if n.isMark "." then m.isAnyWord && (ns.isEmpty || endsInPlace ns)
    else (n.isGroup "[" || n.isGroup "(") && endsInPlace (m :: ns)

/-- Something that can be assigned to: a name, several in brackets, an element or a member. -/
def isTarget : List Node → Bool
  | [] => false
  | n :: ns =>
    if ns.isEmpty then n.isName || n.isGroup "(" || n.isGroup "["
    else !n.isAnyMark && endsInPlace ns

/-- The pieces between commas, without the empty one after a last comma. -/
def commaPieces (nodes : List Node) : List (List Node) :=
  let pieces := splitAtMark "," nodes
  if pieces.length > 1 && pieces.getLast?.any List.isEmpty then pieces.dropLast else pieces

def areTargets (nodes : List Node) : Bool :=
  (commaPieces nodes).all fun piece =>
    match piece with
    | [] => false
    | n :: ns => if n.isMark "*" then isTarget ns else isTarget (n :: ns)

/-! ### Imports -/

def isDotted : List Node → Bool
  | [] => false
  | [n] => n.isName
  | n :: m :: ns => n.isName && m.isMark "." && isDotted ns

/-- A module: dots, a dotted name, or dots before one. -/
def isModule (nodes : List Node) : Bool :=
  let path := nodes.dropWhile fun n => n.isMark "." || n.isMark "..."
  isDotted path || (path.isEmpty && !nodes.isEmpty)

/-- A dotted name, possibly with another name after `as`. -/
def importedName? (nodes : List Node) : Option ImportedName :=
  let name := nodes.takeWhile fun n => !n.isWord "as"
  if isDotted name then
    match nodes.drop name.length with
    | [] => some ⟨sourceText name, none⟩
    | [_, n] => if n.isName then some ⟨sourceText name, some (sourceText [n])⟩ else none
    | _ => none
  else none

def importedNames? (nodes : List Node) : Option (List ImportedName) :=
  (commaPieces nodes).mapM importedName?

/-- The imported names of a `from` import, which may stand in parentheses. -/
def importList? : List Node → Option (List ImportedName)
  | [.group opening body _] => if opening.text == ['('] then importedNames? body else none
  | nodes => importedNames? nodes

/-- An import from a module, given what stands after `from`. Imports from `__future__` bring in no
names. -/
def fromImport? (span : Span) (nodes : List Node) : Option Statement := do
  let path := nodes.takeWhile fun n => !n.isWord "import"
  guard (isModule path)
  let list := nodes.drop path.length
  guard !list.isEmpty
  let list := list.drop 1
  let source := sourceText path
  if source == "__future__".toList then
    let _ ← importList? list
    return .other
  else if list.length == 1 && list.all (·.isMark "*") then
    return .imports ⟨.wildcard source, span⟩
  else return .imports ⟨.names source (← importList? list), span⟩

/-! ### Simple statements -/

def augmentedMarks : List String :=
  ["+=", "-=", "*=", "/=", "%=", "&=", "|=", "^=", "@=", "**=", "//=", ">>=", "<<="]

def areExpressions (nodes : List Node) : Bool := (afterExpressions? nodes).any List.isEmpty

/-- The right side of an assignment: expressions, or another assignment. -/
def isAssigned (nodes : List Node) : Bool :=
  match afterExpressions? nodes with
  | none => false
  | some [] => true
  | some (n :: rest) =>
    n.isMark "=" && areTargets (nodes.take (nodes.length - (rest.length + 1))) &&
      if _h : rest.length < nodes.length then isAssigned rest else false
termination_by nodes.length

def assignTo (left : List Node) (value : Value) : Statement :=
  match left with
  | [.leaf t] => .assignment t.text value
  | _ => .other

def annotatedValue? (nodes : List Node) : Option Value :=
  match nodes with
  | [] => some .nonLiteral
  | n :: value => if n.isMark "=" && isAssigned value then some (valueOf value) else none

def expressionStatement? (nodes : List Node) : Option Statement := do
  let rest ← afterExpressions? nodes
  let left := nodes.take (nodes.length - rest.length)
  match rest with
  | [] => return .other
  | n :: value =>
    guard (areTargets left)
    if n.isMark "=" then
      guard (isAssigned value)
      return assignTo left (valueOf value)
    else if n.isMark ":" then
      let tail ← afterExpression? value
      return assignTo left (← annotatedValue? tail)
    else
      guard (augmentedMarks.any (n.isMark ·) && areExpressions value)
      return .other

/-- A statement that has no value for an outline, if it is well formed. -/
def plainIf (ok : Bool) : Option Statement := if ok then some .other else none

def isRaised (nodes : List Node) : Bool :=
  nodes.isEmpty ||
    match afterExpressions? nodes with
    | some [] => true
    | some (n :: cause) => n.isWord "from" && (afterExpression? cause).any List.isEmpty
    | none => false

/-- What follows `type`: a name, possibly with parameters, and its meaning. -/
def isTypeAlias : List Node → Bool
  | n :: ns =>
    let rest := match ns with
      | m :: more => if m.isGroup "[" && m.isWellFormed .types then more else ns
      | [] => []
    n.isName && match rest with
      | m :: value => m.isMark "=" && (afterExpression? value).any List.isEmpty
      | [] => false
  | [] => false

/-- What follows the word of a printing statement: expressions, possibly after a destination. -/
def isPrinted : List Node → Bool
  | n :: ns => areExpressions (if n.isMark ">>" then ns else n :: ns)
  | [] => false

def simple? (nodes : List Node) : Option Statement :=
  match nodes with
  | .leaf t :: rest =>
    if t.kind == .word then
      match String.ofList t.text with
      | "pass" | "break" | "continue" => plainIf rest.isEmpty
      | "return" => plainIf (rest.isEmpty || areExpressions rest)
      | "del" | "assert" => plainIf (areExpressions rest)
      | "raise" => plainIf (isRaised rest)
      | "global" | "nonlocal" => plainIf ((splitAtMark "," rest).all fun piece =>
          match piece with
          | [n] => n.isName
          | _ => false)
      | "import" => (importedNames? rest).map fun names =>
          .imports ⟨.modules names, spanOfNodes nodes⟩
      | "from" => fromImport? (spanOfNodes nodes) rest
      | "type" => if isTypeAlias rest then some .other else expressionStatement? nodes
      | "print" | "exec" => expressionStatement? nodes <|> plainIf (isPrinted rest)
      | _ => expressionStatement? nodes
    else expressionStatement? nodes
  | _ => expressionStatement? nodes

/-- Statements without bodies, separated by semicolons. One may stand at the end. -/
def simpleLine? (nodes : List Node) : Option (List Statement) :=
  let pieces := splitAtMark ";" nodes
  (if pieces.length > 1 && pieces.getLast?.any List.isEmpty then pieces.dropLast else pieces).mapM
    simple?

/-! ### Lines -/

inductive Header where
  | condition
  | otherCondition
  | otherwise
  | loop
  | attempt
  | handler
  | ending
  | context
  | function
  | classDef (head : ClassHead)
  | choice
  | option
deriving Repr

/-- A line: statements, a decorator, or a head with the statements after its colon. -/
inductive Line where
  | simple (statements : List Statement)
  | decorator
  | header (header : Header) (suite : List Statement)
deriving Repr

/-- A colon and the statements after it. -/
def suite? : List Node → Option (List Statement)
  | [] => none
  | n :: ns =>
    if n.isMark ":" then if ns.isEmpty then some [] else simpleLine? ns
    else none

def headed (header : Header) (rest : Option (List Node)) : Option Line := do
  return .header header (← suite? (← rest))

def afterTypeParameters : List Node → List Node
  | [] => []
  | n :: ns => if n.isGroup "[" && n.isWellFormed .types then ns else n :: ns

/-- What follows the name, the parameters and the result type of a function. -/
def afterFunction? : List Node → Option (List Node)
  | [] => none
  | name :: rest => do
    guard name.isName
    match afterTypeParameters rest with
    | [] => none
    | parameters :: rest =>
      guard (parameters.isGroup "(" && parameters.isWellFormed .parameters)
      match rest with
      | [] => none
      | n :: ns => if n.isMark "->" then afterExpression? ns else some rest

/-- The items between the commas of an argument list. A comma between the parameters of a lambda
does not separate items; `pending` counts lambdas whose colon has not come yet. -/
def argumentItems (pending : Nat) : List Node → List (List Node)
  | [] => [[]]
  | n :: ns =>
    if n.isMark "," && pending == 0 then [] :: argumentItems 0 ns
    else
      let pending :=
        if n.isWord "lambda" then pending + 1 else if n.isMark ":" then pending - 1 else pending
      match argumentItems pending ns with
      | [] => [[n]]
      | item :: items => (n :: item) :: items

def isKeywordItem : List Node → Bool
  | _ :: n :: _ => n.isMark "="
  | _ => false

/-- The base expressions of a class, without blanks. Keyword arguments are no bases. -/
def basesOf (body : List Node) : List (List Char) :=
  ((argumentItems 0 body).filter fun item => !item.isEmpty && !isKeywordItem item).map
    fun item => (sourceText item).filter (!Text.isBlank ·)

def classLine? (word : Node) : List Node → Option Line
  | [] => none
  | name :: rest => do
    guard name.isName
    let span := spanOfNodes [word, name]
    match afterTypeParameters rest with
    | [] => none
    | n :: ns =>
      match n with
      | .group opening body _ =>
        guard (opening.text == ['('] && n.isWellFormed .bases)
        headed (.classDef ⟨name.first.text, basesOf body, span⟩) (some ns)
      | .leaf _ => headed (.classDef ⟨name.first.text, [], span⟩) (some (n :: ns))

def handlerLine? (nodes : List Node) : Option Line :=
  let nodes := match nodes with
    | n :: ns => if n.isMark "*" then ns else nodes
    | [] => []
  match nodes with
  | [] => none
  | n :: _ => headed .handler (if n.isMark ":" then some nodes else afterExpressions? nodes)

def optionLine? (nodes : List Node) : Option Line :=
  let pattern := nodes.takeWhile fun n => !n.isWord "if"
  match nodes.drop pattern.length with
  | [] => headed .option (afterExpressions? nodes)
  | _ :: condition =>
    if areExpressions pattern then headed .option (afterExpression? condition)
    else headed .option (afterExpressions? nodes)

/-- A line that is not inside a `match`. -/
def line? (nodes : List Node) : Option Line :=
  match nodes with
  | [] => none
  | n :: rest =>
    if n.isMark "@" then
      if (afterExpression? rest).any List.isEmpty then some .decorator else none
    else if n.isAnyWord then
      match String.ofList n.first.text with
      | "if" => headed .condition (afterExpression? rest)
      | "elif" => headed .otherCondition (afterExpression? rest)
      | "else" => headed .otherwise (some rest)
      | "while" => headed .loop (afterExpression? rest)
      | "for" => headed .loop (afterLoop? rest)
      | "try" => headed .attempt (some rest)
      | "except" => handlerLine? rest
      | "finally" => headed .ending (some rest)
      | "with" => headed .context (afterExpressions? rest)
      | "def" => headed .function (afterFunction? rest)
      | "class" => classLine? n rest
      | "async" =>
        match rest with
        | [] => (simpleLine? nodes).map .simple
        | m :: rest =>
          if m.isWord "def" then headed .function (afterFunction? rest)
          else if m.isWord "for" then headed .loop (afterLoop? rest)
          else if m.isWord "with" then headed .context (afterExpressions? rest)
          else (simpleLine? nodes).map .simple
      | "match" =>
        if opensBlock nodes && rest.length > 1 then headed .choice (afterExpressions? rest)
        else (simpleLine? nodes).map .simple
      | _ => (simpleLine? nodes).map .simple
    else (simpleLine? nodes).map .simple

/-- A line inside a `match`. -/
def choiceLine? : List Node → Option Line
  | [] => none
  | n :: rest => if n.isWord "case" then optionLine? rest else none

/-! ### Blocks -/

/-- What came before in a block, as far as it decides what may follow. -/
inductive After where
  | free
  | condition
  | loop
  | attempt
  | handler
  | attemptElse
  | decorator
deriving DecidableEq, Repr

namespace After

def isOpen (a : After) : Bool := a != .attempt && a != .decorator

/-- The place after a line, if the line may stand here. -/
def next? (a : After) : Line → Option After
  | .simple _ => if a.isOpen then some .free else none
  | .decorator => if a != .attempt then some .decorator else none
  | .header header _ =>
    match header, a with
    | .otherCondition, .condition => some .condition
    | .otherCondition, _ => none
    | .otherwise, .condition | .otherwise, .loop => some .free
    | .otherwise, .handler => some .attemptElse
    | .otherwise, _ => none
    | .handler, .attempt | .handler, .handler => some .handler
    | .handler, _ => none
    | .ending, .attempt | .ending, .handler | .ending, .attemptElse => some .free
    | .ending, _ => none
    | .function, a | .classDef _, a => if a != .attempt then some .free else none
    | .condition, a => if a.isOpen then some .condition else none
    | .loop, a => if a.isOpen then some .loop else none
    | .attempt, a => if a.isOpen then some .attempt else none
    | _, a => if a.isOpen then some .free else none

end After

def Line.statements (block : List Statement) : Line → List Statement
  | .simple statements => statements
  | .decorator => []
  | .header .function suite => [.function (suite ++ block)]
  | .header (.classDef head) suite => [.classDef head (suite ++ block)]
  | .header _ suite => [.compound (suite ++ block)]

/-- The lines of the block below are those of a `match`. -/
def Line.isChoice : Line → Bool
  | .header .choice _ => true
  | _ => false

mutual

def Entry.statements? (inChoice : Bool) (after : After) : Entry → Option (List Statement × After)
  | .entry nodes block => do
    let line ← if inChoice then choiceLine? nodes else line? nodes
    let next ← after.next? line
    let below ← statements? line.isChoice .free block
    return (line.statements below, next)

def statements? (inChoice : Bool) (after : After) : List Entry → Option (List Statement)
  | [] => if after.isOpen then some [] else none
  | e :: es => do
    let (statements, next) ← e.statements? inChoice after
    return statements ++ (← statements? inChoice next es)

end

end TableLint.Source
