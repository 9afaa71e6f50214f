import TableLint.Text.Digit

/-!
What can be wrong with a table definition. Each cause keeps what its wording needs; the wording
itself is in one place, `Problem.message`, because the review of unresolved references reads it.
-/
namespace TableLint.Definition

open Text

/-- What an attribute line lacks at the place where reading it stopped. -/
inductive Expected where
  | name
  | colon
  | dataType
  | hash
deriving DecidableEq, Repr

def Expected.text : Expected → List Char
  | .name => "Expected W:(a-z, a-z0-9_)".toList
  | .colon => "Expected \":\"".toList
  | .dataType => "Expected data type".toList
  | .hash => "Expected \"#\"".toList

inductive Problem where
  /-- The table comment starts with a colon. -/
  | tableComment
  /-- An attribute line breaks off; `line` is shown with the hash that ends it. -/
  | attributeLine (position : Nat) (line : List Char) (expected : Expected)
  | nullableKey (line : List Char)
  | attributeComment (comment : List Char)
  | unsupportedType (type : List Char)
  | filepathDisabled
  | unknownAdapter (adapter : List Char)
  /-- A blob or attachment has a default other than null. -/
  | serializedDefault (line : List Char)
  /-- A reference line does not start with the arrow; `found` is the character there instead. -/
  | arrowMissing (line : List Char) (position : Nat) (found : Option Char)
  | unresolvedReference (reference : List Char)
  | invalidOption (option : List Char)
  | nullableDependency (line : List Char)
  | indexLine (line : List Char)
deriving DecidableEq, Repr

def filepathDisabledText : List Char :=
  ("The filepath data type is disabled until complete validation.\n" ++
    "    To turn it on as experimental feature, set the environment variable\n" ++
    "    DJ_SUPPORT_FILEPATH_MANAGEMENT = TRUE or upgrade datajoint.\n    ").toList

def Problem.message : Problem → List Char
  | .tableComment => "Table comment must not start with a colon \":\"".toList
  | .attributeLine position line expected =>
    "Declaration error in position ".toList ++ decimal position ++ " in line:\n  ".toList ++ line ++
      ['\n'] ++ expected.text
  | .nullableKey line =>
    "Primary key attributes cannot be nullable in line \"".toList ++ line ++ ['"']
  | .attributeComment comment =>
    "An attribute comment must not start with a colon in comment \"".toList ++ comment ++ ['"']
  | .unsupportedType type => "Unsupported attribute type ".toList ++ type
  | .filepathDisabled => filepathDisabledText
  | .unknownAdapter adapter =>
    "Attribute adapter '".toList ++ adapter ++ "' is not defined.".toList
  | .serializedDefault line =>
    ("The default value for a blob or attachment attributes can only be NULL in:\n").toList ++ line
  | .arrowMissing line position found =>
    "Parsing error in line \"".toList ++ line ++ "\". Expected \"->\", found ".toList ++
      (match found with
        | some c => ['\'', c, '\'']
        | none => "end of text".toList) ++
      "  (at char ".toList ++ decimal position ++ "), (line:1, col:".toList ++
      decimal (position + 1) ++ ").".toList
  | .unresolvedReference reference =>
    "Foreign key reference ".toList ++ reference ++ " could not be resolved".toList
  | .invalidOption option => "Invalid foreign key option \"".toList ++ option ++ ['"']
  | .nullableDependency line =>
    "Primary dependencies cannot be nullable in line \"".toList ++ line ++ ['"']
  | .indexLine line => "Parsing error in index line \"".toList ++ line ++ ['"']

end TableLint.Definition
