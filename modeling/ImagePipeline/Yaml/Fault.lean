/-! What can be wrong with the text of a document. -/
namespace ImagePipeline.Yaml

inductive Fault where
  | forbiddenCharacter (c : Char)
  | forbiddenStart (line : Nat)
  | keyWithoutValue (line : Nat)
  | misplacedEntry (line : Nat)
  | misplacedKey (line : Nat)
  | misplacedValue (line : Nat)
  | tabInIndentation (line : Nat)
  | malformedDirective (line : Nat)
  | malformedAnchor (line : Nat)
  | malformedTag (line : Nat)
  | malformedHeader (line : Nat)
  | malformedEscape (line : Nat)
  | unclosedQuote (line : Nat)
  | unexpectedColon (line : Nat)
  | unexpectedToken
  | repeatedDirective
  | unsupportedVersion
  | undefinedHandle (handle : String)
  | undefinedAlias (name : String)
  | severalDocuments
  | tooDeep
  deriving DecidableEq, Repr

end ImagePipeline.Yaml
