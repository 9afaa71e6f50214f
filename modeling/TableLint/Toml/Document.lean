import TableLint.Toml.Number
import TableLint.Toml.Quoted

/-!
Reading a TOML document. `parse? text` answers the entries of the root table, or none if the text is
not a document.
-/
namespace TableLint.Toml

/-- The depth up to which values and keys may be nested. -/
def depthLimit : Nat := 80

def isBareKey (c : Char) : Bool := c.isAlphanum || c == '_' || c == '-'

def simpleKey? (s : List Char) : Option (List Char × List Char) :=
  match s with
  | '"' :: rest => basic? rest
  | '\'' :: rest => literal? rest
  | _ =>
    let key := s.takeWhile isBareKey
    if key.isEmpty then none else some (key, s.drop key.length)

/-- A key as a path: simple keys joined by dots, with spaces around them. -/
def keyPath? : (fuel : Nat) → List Char → Option (List (List Char) × List Char)
  | 0, _ => none
  | fuel + 1, s => do
    let (key, rest) ← simpleKey? (skipSpace s)
    match skipSpace rest with
    | '.' :: rest => do
      let (path, rest) ← keyPath? fuel rest
      return (key :: path, rest)
    | rest => return ([key], rest)

def key? (s : List Char) : Option (List (List Char) × List Char) := keyPath? (depthLimit - 1) s

/-- What follows a comment, if the text starts with one. Its line end is not part of it. -/
def skipComment (s : List Char) : List Char :=
  match s with
  | '#' :: rest => rest.dropWhile (!isControl ·)
  | _ => s

def skipLines : (fuel : Nat) → List Char → Option (List Char)
  | 0, s => some s
  | fuel + 1, s =>
    match skipSpace s with
    | '#' :: rest => do
      let after ← afterNewline? (skipComment ('#' :: rest))
      skipLines fuel after
    | rest =>
      match afterNewline? rest with
      | some after => skipLines fuel after
      | none => some rest

def inlineEntries (pairs : List (List (List Char) × Value)) : Option Entries :=
  pairs.foldlM (fun entries (path, value) => addEntry path value entries) []

mutual

/-- A value, nested in `depth` others. -/
def value? : (fuel depth : Nat) → List Char → Option (Value × List Char)
  | 0, _, _ => none
  | fuel + 1, depth, s =>
    match s with
    | '[' :: rest =>
      if depth + 1 < depthLimit then do
        let (items, rest) ← items? fuel (depth + 1) rest
        return (.array items, rest)
      else none
    | '{' :: rest =>
      if depth + 1 < depthLimit then do
        let (pairs, rest) ←
          match skipSpace rest with
          | '}' :: after => some ([], after)
          | rest => pairs? fuel (depth + 1) rest
        return (.table .inline (← inlineEntries pairs), rest)
      else none
    | 't' :: 'r' :: 'u' :: 'e' :: rest => some (.boolean true, rest)
    | 'f' :: 'a' :: 'l' :: 's' :: 'e' :: rest => some (.boolean false, rest)
    | c :: _ =>
      if c == '"' || c == '\'' then (string? s).map fun (text, rest) => (.string text, rest)
      else numeric? s
    | [] => none

/-- The items of an array up to its closing bracket. A comma may stand after the last. -/
def items? : (fuel depth : Nat) → List Char → Option (List Value × List Char)
  | 0, _, _ => none
  | fuel + 1, depth, s => do
    match ← skipLines s.length s with
    | ']' :: rest => return ([], rest)
    | start =>
      let (item, rest) ← value? fuel depth start
      match ← skipLines rest.length rest with
      | ',' :: rest =>
        let (items, rest) ← items? fuel depth rest
        return (item :: items, rest)
      | ']' :: rest => return ([item], rest)
      | _ => none

/-- The entries of an inline table up to its closing brace; there is at least one. -/
def pairs? : (fuel depth : Nat) → List Char → Option (List (List (List Char) × Value) × List Char)
  | 0, _, _ => none
  | fuel + 1, depth, s => do
    let (path, rest) ← key? s
    let rest ← after? '=' rest
    let (value, rest) ← value? fuel depth (skipSpace rest)
    match skipSpace rest with
    | ',' :: rest =>
      let (pairs, rest) ← pairs? fuel depth rest
      return ((path, value) :: pairs, rest)
    | '}' :: rest => return ([(path, value)], rest)
    | _ => none

end

/-- What follows the end of a line: blanks, an optional comment, and a line end or the end of the
text. -/
def afterLine? (s : List Char) : Option (List Char) :=
  match skipComment (skipSpace s) with
  | [] => some []
  | rest => afterNewline? rest

/-- A document being read: the path of the table that is open, and the entries so far. -/
structure Document where
  place : List (List Char) := []
  entries : Entries := []
deriving Repr

namespace Document

def header? (d : Document) (s : List Char) : Option (Document × List Char) :=
  match s with
  | '[' :: rest => do
    let (path, rest) ← key? rest
    let rest ← after? ']' (← after? ']' rest)
    return ({ place := path, entries := ← openItem path d.entries }, ← afterLine? rest)
  | _ => do
    let (path, rest) ← key? s
    let rest ← after? ']' rest
    return ({ place := path, entries := ← openTable path d.entries }, ← afterLine? rest)

def pair? (d : Document) (s : List Char) : Option (Document × List Char) := do
  let (path, rest) ← key? s
  let rest ← after? '=' rest
  let (value, rest) ← value? s.length 0 (skipSpace rest)
  return ({ d with entries := ← addEntryAt d.place path value d.entries }, ← afterLine? rest)

def lines? : (fuel : Nat) → Document → List Char → Option Document
  | 0, d, s => if s.isEmpty then some d else none
  | fuel + 1, d, s =>
    match skipSpace s with
    | [] => some d
    | '[' :: rest => do
      let (d, rest) ← d.header? rest
      lines? fuel d rest
    | '#' :: rest => do lines? fuel d (← afterLine? ('#' :: rest))
    | rest =>
      match afterNewline? rest with
      | some rest => lines? fuel d rest
      | none => do
        let (d, rest) ← d.pair? rest
        lines? fuel d rest

end Document

/-- The entries of the root table of a document. A byte order mark may stand in front. -/
def parse? (text : List Char) : Option Entries :=
  let s := match text with
    | '\uFEFF' :: rest => rest
    | _ => text
  (Document.lines? (s.length + 1) {} s).map (·.entries)

end TableLint.Toml
