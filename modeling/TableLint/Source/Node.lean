import TableLint.Source.Token
import TableLint.Text.Split

/-!
Tokens grouped by brackets. A formatted string is a group too: its quotes are the brackets, its
fields are groups inside it.
-/
namespace TableLint.Source

inductive Node where
  | leaf (token : Token)
  | group (opening : Token) (body : List Node) (closing : Token)
deriving Repr

namespace Node

def first : Node → Token
  | leaf t => t
  | group opening _ _ => opening

def isWord (n : Node) (word : String) : Bool :=
  match n with
  | leaf t => t.isWord word
  | group _ _ _ => false

def isMark (n : Node) (mark : String) : Bool :=
  match n with
  | leaf t => t.isMark mark
  | group _ _ _ => false

def isName : Node → Bool
  | leaf t => t.isName
  | group _ _ _ => false

/-- The node is a name or a keyword. -/
def isAnyWord : Node → Bool
  | leaf t => t.kind == .word
  | group _ _ _ => false

def isAnyMark : Node → Bool
  | leaf t => t.kind == .mark
  | group _ _ _ => false

def isGroup (n : Node) (bracket : String) : Bool :=
  match n with
  | leaf _ => false
  | group opening _ _ => opening.text == bracket.toList

end Node

mutual

/-- The text of a node with its gaps. -/
def Node.raw : Node → List Char
  | .leaf t => t.raw
  | .group opening body closing => opening.raw ++ (rawText body ++ closing.raw)

def rawText : List Node → List Char
  | [] => []
  | n :: ns => n.raw ++ rawText ns

end

/-- The text of nodes from the first token on. -/
def sourceText (nodes : List Node) : List Char :=
  match nodes with
  | [] => []
  | n :: _ => (rawText nodes).drop n.first.gap.length

def spanOfNodes (nodes : List Node) : Span :=
  match nodes with
  | [] => {}
  | n :: _ => n.first.start.spanOf (Text.byteLength (sourceText nodes))

/-- Groups tokens. `outer` holds the groups that are open, innermost first, each with the nodes
before it in reverse; `done` the nodes of the current group in reverse. -/
def nest (outer : List (Token × List Node)) (done : List Node) : List Token → Option (List Node)
  | [] => if outer.isEmpty then some done.reverse else none
  | t :: ts =>
    match t.kind with
    | .opening => nest ((t, done) :: outer) [] ts
    | .closing =>
      match outer with
      | (opening, before) :: outer => nest outer (.group opening done.reverse t :: before) ts
      | [] => none
    | _ => nest outer (.leaf t :: done) ts

/-- The pieces of a node list between the marks. -/
def splitAtMark (mark : String) : List Node → List (List Node)
  | [] => [[]]
  | n :: ns =>
    if n.isMark mark then [] :: splitAtMark mark ns
    else match splitAtMark mark ns with
      | [] => [[n]]
      | piece :: pieces => (n :: piece) :: pieces

end TableLint.Source
