/-
  ClusterAgent/Yaml/Fault.lean
  ============================
  **What can be wrong with a YAML text.**
-/
namespace ClusterAgent.Yaml

/-- Why a text is no YAML document that stands for a value. -/
inductive Fault where
  | forbiddenCharacter
  | noToken
  /-- A line that must be a mapping key has no colon. -/
  | missingColon
  | entryNotAllowed
  | keyNotAllowed
  | valueNotAllowed
  | badDirective
  | repeatedDirective
  | badAnchor
  | badTag
  | undefinedHandle
  | badBlockHeader
  | tabInIndentation
  | badEscape
  | unclosedQuote
  | documentMarkInQuote
  /-- A colon inside a flow collection that neither ends nor continues a scalar. -/
  | strayColon
  /-- A token that the grammar has no place for. -/
  | unexpectedToken
  | severalDocuments
  | unknownAlias
  | tooDeep
  | tooManyAliases
  | taggedValue
  /-- A scalar that is not of the type its tag demands. -/
  | tagMismatch
  | numberTooLarge
  | keyNotScalar
deriving DecidableEq, Repr

def Fault.message : Fault → String
  | .forbiddenCharacter => "control characters are not allowed"
  | .noToken => "found character that cannot start any token"
  | .missingColon => "could not find expected ':'"
  | .entryNotAllowed => "block sequence entries are not allowed in this context"
  | .keyNotAllowed => "mapping keys are not allowed in this context"
  | .valueNotAllowed => "mapping values are not allowed in this context"
  | .badDirective => "malformed directive"
  | .repeatedDirective => "found duplicate directive"
  | .badAnchor => "did not find expected alphabetic or numeric character"
  | .badTag => "malformed tag"
  | .undefinedHandle => "found undefined tag handle"
  | .badBlockHeader => "malformed block scalar header"
  | .tabInIndentation => "found a tab character that violates indentation"
  | .badEscape => "malformed escape sequence"
  | .unclosedQuote => "found unexpected end of stream"
  | .documentMarkInQuote => "found unexpected document indicator"
  | .strayColon => "found unexpected ':'"
  | .unexpectedToken => "did not find expected node content"
  | .severalDocuments =>
    "deserializing from YAML containing more than one document is not supported"
  | .unknownAlias => "unknown anchor"
  | .tooDeep => "recursion limit exceeded"
  | .tooManyAliases => "repetition limit exceeded"
  | .taggedValue => "invalid type: enum"
  | .tagMismatch => "invalid value for its tag"
  | .numberTooLarge => "invalid type: integer"
  | .keyNotScalar => "invalid type: expected a string key"

end ClusterAgent.Yaml
