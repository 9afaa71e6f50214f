import TableLint.Source.Node

/-!
Logical lines and the blocks that indentation makes of them. A line that ends in a colon opens a
block if the next line is indented deeper than the block the line stands in; the block goes on until
a line is indented less than its first line. Other indentation means nothing.
-/
namespace TableLint.Source

/-- A line with the block below it. -/
inductive Entry where
  | entry (line : List Node) (block : List Entry)
deriving Repr

def indentOf (line : List Node) : Nat :=
  match line with
  | [] => 0
  | n :: _ => n.first.indent.getD 0

def startsLine (n : Node) : Bool := n.first.indent.isSome

def logicalLines : List Node → List (List Node)
  | [] => []
  | n :: ns =>
    match logicalLines ns with
    | [] => [[n]]
    | line :: lines =>
      match line with
      | m :: _ => if startsLine m then [n] :: line :: lines else (n :: line) :: lines
      | [] => [n] :: lines

/-- The line ends in a colon. -/
def opensBlock (line : List Node) : Bool := line.getLast?.any (·.isMark ":")

/-- A block being read: its indentation and its entries in reverse. -/
structure Level where
  indent : Nat
  entries : List Entry

/-- Closes the innermost block: it becomes the block of the last entry around it. -/
def closeLevel : Level → List Level → List Level
  | inner, outer :: levels =>
    match outer.entries with
    | .entry line _ :: entries =>
      { outer with entries := .entry line inner.entries.reverse :: entries } :: levels
    | [] => outer :: levels
  | inner, [] => [inner]

/-- Closes the blocks that are indented deeper than `indent`. The outermost stays. -/
def closeDeeper (indent : Nat) : List Level → List Level
  | inner :: outer :: levels =>
    if indent < inner.indent then closeDeeper indent (closeLevel inner (outer :: levels))
    else inner :: outer :: levels
  | levels => levels
termination_by levels => levels.length
decreasing_by
  simp only [closeLevel]
  split <;> simp

def addEntry (levels : List Level) (line : List Node) : List Level :=
  match closeDeeper (indentOf line) levels with
  | [] => []
  | level :: outer =>
    match level.entries with
    | .entry header [] :: _ =>
      if opensBlock header && level.indent < indentOf line then
        { indent := indentOf line, entries := [.entry line []] } :: level :: outer
      else { level with entries := .entry line [] :: level.entries } :: outer
    | _ => { level with entries := .entry line [] :: level.entries } :: outer

def closeAll : List Level → List Entry
  | [] => []
  | [level] => level.entries.reverse
  | inner :: outer :: levels => closeAll (closeLevel inner (outer :: levels))
termination_by levels => levels.length
decreasing_by
  simp only [closeLevel]
  split <;> simp

def layout (lines : List (List Node)) : List Entry :=
  closeAll (lines.foldl addEntry [{ indent := 0, entries := [] }])

end TableLint.Source
