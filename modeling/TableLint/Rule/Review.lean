import TableLint.Definition.Declaration
import TableLint.Rule.Catalog
import TableLint.Rule.Kind
import TableLint.Rule.Visible

/-!
A second look at references that could not be resolved. A definition is read without knowing other
tables, so every reference fails; the review takes the name from the wording of the problem, reports
what is wrong with the line, and decides whether the name is visible in the file after all.
-/
namespace TableLint.Rule

open Text

def isReferenceProblem (message : List Char) : Bool := "Foreign".toList.isPrefixOf message

/-- The table that the wording of a problem names: what follows the word and any options, up to the
end of the sentence or a projection. -/
def namedReference? (message : List Char) : Option (List Char) :=
  (cut? "reference ".toList message).map fun (_, after) =>
    trim (upTo ".proj".toList (upTo " could ".toList (afterLast ']' after)))

/-- The reference occurs in the text before the first separator. -/
def occursInKey (reference definition : List Char) : Bool :=
  occursIn reference (upTo "___".toList (upTo "---".toList definition))

/-- The lines with the reference after a space. -/
def referenceLines (reference definition : List Char) : List (List Char) :=
  (splitAt '\n' definition).filter (occursIn (' ' :: reference))

def optionFindings (mode : Settings.NullableMode) (table : List Char) (inKey : Bool)
    (options : List (List Char)) : List Finding :=
  let bad (option : List Char) : Finding := ⟨.badOption, [table, option]⟩
  let nullable : Finding := ⟨.nullableKeyReference, [table]⟩
  let isNullable (option : List Char) : Bool := option == "NULLABLE".toList
  match mode with
  | .afterOptions =>
    (options.filter (!Definition.isValidOption ·)).map bad ++
      if inKey && options.any isNullable then [nullable] else []
  | .perOption =>
    options.flatMap fun option =>
      if !Definition.isValidOption option then [bad option]
      else if inKey && isNullable option then [nullable]
      else []

/-- The reference means something visible: the enclosing table, a class, or something of a
module. -/
def isVisible (names : VisibleNames) (kind : TableKind) (reference : List Char) : Bool :=
  (reference == "master".toList && kind == .part) || names.hasClass reference ||
    names.hasModule (reference.takeWhile (· != '.'))

/-- What a review found, and whether the reference is good after all. -/
structure Review where
  findings : List Finding := []
  resolved : Bool := false
deriving DecidableEq, Repr

def review (names : VisibleNames) (mode : Settings.NullableMode) (table : Table)
    (message definition : List Char) : Review :=
  match if isReferenceProblem message then namedReference? message else none with
  | none => {}
  | some reference =>
    let lines := referenceLines reference definition
    let repeated : List Finding :=
      if lines.length != 1 then [⟨.repeatedReference, [table.name]⟩] else []
    let options := (lines.head?.map fun line =>
      (Definition.ReferenceLine.optionsOf line).map upper).getD []
    { findings :=
        repeated ++ optionFindings mode table.name (occursInKey reference definition) options
      resolved := isVisible names table.kind reference }

end TableLint.Rule
