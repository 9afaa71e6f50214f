import TableLint.Report.Violation

/-!
Reports as JSON, laid out over lines with two blanks for each level. Keys come in a fixed order; a
violation without arguments has no key for them.
-/
namespace TableLint.Report

open Text

/-- A value laid out as text, given how many levels it stands below the top. -/
abbrev Layout := Nat → List Char

namespace Layout

def hexChar (n : Nat) : Char := (Nat.toDigits 16 n).headD '0'

def escape (c : Char) : List Char :=
  match c with
  | '"' => ['\\', '"']
  | '\\' => ['\\', '\\']
  | '\x08' => ['\\', 'b']
  | '\x0c' => ['\\', 'f']
  | '\n' => ['\\', 'n']
  | '\r' => ['\\', 'r']
  | '\t' => ['\\', 't']
  | _ =>
    if c.toNat < 0x20 then
      ['\\', 'u', '0', '0', hexChar (c.toNat / 16), hexChar (c.toNat % 16)]
    else [c]

def quoted (s : List Char) : List Char := '"' :: s.flatMap escape ++ ['"']

def string (s : List Char) : Layout := fun _ => quoted s

def number (n : Nat) : Layout := fun _ => decimal n

def null : Layout := fun _ => "null".toList

def newline (level : Nat) : List Char := '\n' :: List.replicate (2 * level) ' '

/-- Items between brackets, each on a line of its own. -/
def enclosed (opening closing : Char) (items : List Layout) : Layout := fun level =>
  match items with
  | [] => [opening, closing]
  | item :: items =>
    opening :: newline (level + 1) ++ item (level + 1) ++
      items.flatMap (fun item => ',' :: newline (level + 1) ++ item (level + 1)) ++
      newline level ++ [closing]

def array (items : List Layout) : Layout := enclosed '[' ']' items

def entry (key : String) (value : Layout) : Layout := fun level =>
  quoted key.toList ++ ": ".toList ++ value level

def object (entries : List Layout) : Layout := enclosed '{' '}' entries

end Layout

open Layout

def Location.json (l : Location) : Layout :=
  object [entry "file" (string l.file), entry "line" (number l.line),
    entry "column" (number l.column), entry "offset" (number l.offset),
    entry "length" (number l.length)]

def Violation.json (v : Violation) : Layout :=
  object ([entry "code" (string v.code), entry "rule" (string v.rule),
    entry "severity" (string v.severity.word), entry "location" v.location.json,
    entry "message" (string v.message)] ++
    (if v.args.isEmpty then [] else [entry "args" (array (v.args.map string))]) ++
    [entry "suggestion"
      (match v.suggestion with
        | some help => object [entry "message" (string help)]
        | none => null)])

def json (r : Report) : List Char :=
  object [entry "violations" (array (r.violations.map Violation.json)),
    entry "files_checked" (number r.filesChecked)] 0

end TableLint.Report
