/-
  WorkflowCatalog/Yaml/Fault.lean
  ===============================
  **Everything that can be wrong with a YAML document**, by cause.

    * `Problem` — a violation of the grammar or of the rules for tags, anchors and
      mapping keys; it is found at a `Mark`;
    * `ValueProblem` — a scalar that does not denote a value of its kind, or a
      nesting that is too deep;
    * `Breakdown` — a scalar for which reading has no answer at all, because the
      value of the tag is undefined for its text.

  The wording of the first two stands in `Problem.message` and
  `ValueProblem.message`.
-/
import WorkflowCatalog.Text.Quoted
import WorkflowCatalog.Text.Utf8

namespace WorkflowCatalog.Yaml

open Text

/-- A place in a document: line and column, both counted from zero. -/
structure Mark where
  line : Nat
  column : Nat
  deriving DecidableEq, Repr, Inhabited

/-! ### Kinds of tokens and nodes, as messages name them -/

inductive TokenKind where
  | streamEnd
  | directive
  | documentStart
  | documentEnd
  | blockSequenceStart
  | blockMappingStart
  | blockEnd
  | flowSequenceStart
  | flowSequenceEnd
  | flowMappingStart
  | flowMappingEnd
  | blockEntry
  | flowEntry
  | key
  | value
  | alias
  | anchor
  | tag
  | scalar
  deriving DecidableEq, Repr

def TokenKind.name : TokenKind → String
  | .streamEnd => "<stream end>"
  | .directive => "<directive>"
  | .documentStart => "<document start>"
  | .documentEnd => "<document end>"
  | .blockSequenceStart => "<block sequence start>"
  | .blockMappingStart => "<block mapping start>"
  | .blockEnd => "<block end>"
  | .flowSequenceStart => "["
  | .flowSequenceEnd => "]"
  | .flowMappingStart => "\x7b"
  | .flowMappingEnd => "\x7d"
  | .blockEntry => "-"
  | .flowEntry => ","
  | .key => "?"
  | .value => ":"
  | .alias => "<alias>"
  | .anchor => "<anchor>"
  | .tag => "<tag>"
  | .scalar => "<scalar>"

inductive NodeKind where
  | scalar
  | sequence
  | mapping
  deriving DecidableEq, Repr

def NodeKind.name : NodeKind → String
  | .scalar => "scalar"
  | .sequence => "sequence"
  | .mapping => "mapping"

/-! ### Problems with a place -/

/-- A violation of the rules of a document.  A character argument is the one that was
    found; the end of the document counts as the character U+0000. -/
inductive Problem where
  -- tokens
  | noTokenStart (found : Char)
  | missingColon
  | entryNotAllowed
  | keyNotAllowed
  | valueNotAllowed
  | nameExpected (found : Char)
  | majorVersionEnd (found : Char)
  | minorVersionEnd (found : Char)
  | digitExpected (found : Char)
  | blankExpected (found : Char)
  | lineEndExpected (found : Char)
  | tagEndExpected (found : Char)
  | tagMarkExpected (found : Char)
  | uriExpected (found : Char)
  | uriEscapeExpected (found : Char)
  | uriBytes (fault : Utf8.Fault)
  | zeroIndentation
  | blockHeader (found : Char)
  | escapeDigits (count : Nat) (found : Char)
  | unknownEscape (found : Char)
  | unclosedQuote
  | separatorInQuote
  -- structure
  | documentStartExpected (found : TokenKind)
  | secondVersion
  | wrongVersion
  | secondHandle (handle : String)
  | undefinedHandle (handle : String)
  | contentExpected (found : TokenKind)
  | blockEndExpected (found : TokenKind)
  | sequenceGoesOn (found : TokenKind)
  | mappingGoesOn (found : TokenKind)
  -- documents and anchors
  | secondDocument
  | undefinedAlias (name : String)
  | secondAnchor
  -- values
  | unknownTag (tag : String)
  | unhashableKey
  | scalarNodeExpected (found : NodeKind)
  | sequenceNodeExpected (found : NodeKind)
  | mappingNodeExpected (found : NodeKind)
  | mergeItem (found : NodeKind)
  | mergeValue (found : NodeKind)
  | sequenceExpected (found : NodeKind)
  | pairExpected (found : NodeKind)
  | singlePairExpected (count : Nat)
  | base64NotAscii (detail : String)
  | base64Malformed (detail : String)
  deriving Repr

def quotedChar (c : Char) : String := String.ofList (quote [c])

def Problem.message : Problem → String
  | .noTokenStart c => "found character " ++ quotedChar c ++ " that cannot start any token"
  | .missingColon => "could not find expected ':'"
  | .entryNotAllowed => "sequence entries are not allowed here"
  | .keyNotAllowed => "mapping keys are not allowed here"
  | .valueNotAllowed => "mapping values are not allowed here"
  | .nameExpected c => "expected alphabetic or numeric character, but found " ++ quotedChar c
  | .majorVersionEnd c => "expected a digit or '.', but found " ++ quotedChar c
  | .minorVersionEnd c => "expected a digit or ' ', but found " ++ quotedChar c
  | .digitExpected c => "expected a digit, but found " ++ quotedChar c
  | .blankExpected c => "expected ' ', but found " ++ quotedChar c
  | .lineEndExpected c => "expected a comment or a line break, but found " ++ quotedChar c
  | .tagEndExpected c => "expected '>', but found " ++ quotedChar c
  | .tagMarkExpected c => "expected '!', but found " ++ quotedChar c
  | .uriExpected c => "expected URI, but found " ++ quotedChar c
  | .uriEscapeExpected c =>
    "expected URI escape sequence of 2 hexadecimal numbers, but found " ++ quotedChar c
  | .uriBytes f => f.message
  | .zeroIndentation => "expected indentation indicator in the range 1-9, but found 0"
  | .blockHeader c => "expected chomping or indentation indicators, but found " ++ quotedChar c
  | .escapeDigits n c =>
    "expected escape sequence of " ++ toString n ++ " hexadecimal numbers, but found " ++
      quotedChar c
  | .unknownEscape c => "found unknown escape character " ++ quotedChar c
  | .unclosedQuote => "found unexpected end of stream"
  | .separatorInQuote => "found unexpected document separator"
  | .documentStartExpected t => "expected '<document start>', but found " ++ quoteString t.name
  | .secondVersion => "found duplicate YAML directive"
  | .wrongVersion => "found incompatible YAML document (version 1.* is required)"
  | .secondHandle h => "duplicate tag handle " ++ quoteString h
  | .undefinedHandle h => "found undefined tag handle " ++ quoteString h
  | .contentExpected t => "expected the node content, but found " ++ quoteString t.name
  | .blockEndExpected t => "expected <block end>, but found " ++ quoteString t.name
  | .sequenceGoesOn t => "expected ',' or ']', but got " ++ quoteString t.name
  | .mappingGoesOn t => "expected ',' or '\x7d', but got " ++ quoteString t.name
  | .secondDocument => "but found another document"
  | .undefinedAlias n => "found undefined alias " ++ quoteString n
  | .secondAnchor => "second occurrence"
  | .unknownTag t => "could not determine a constructor for the tag " ++ quoteString t
  | .unhashableKey => "found unhashable key"
  | .scalarNodeExpected k => "expected a scalar node, but found " ++ k.name
  | .sequenceNodeExpected k => "expected a sequence node, but found " ++ k.name
  | .mappingNodeExpected k => "expected a mapping node, but found " ++ k.name
  | .mergeItem k => "expected a mapping for merging, but found " ++ k.name
  | .mergeValue k => "expected a mapping or list of mappings for merging, but found " ++ k.name
  | .sequenceExpected k => "expected a sequence, but found " ++ k.name
  | .pairExpected k => "expected a mapping of length 1, but found " ++ k.name
  | .singlePairExpected n => "expected a single mapping item, but found " ++ toString n ++ " items"
  | .base64NotAscii d => "failed to convert base64 data into ascii: " ++ d
  | .base64Malformed d => "failed to decode base64 data: " ++ d

/-! ### Problems of values -/

/-- A scalar that denotes no value of its kind, or a nesting without end. -/
inductive ValueProblem where
  | codePoint
  | nesting
  | integer (base : Nat) (text : List CodePoint)
  | integerLength (digits : Nat)
  | float (text : List CodePoint)
  | year (year : Nat)
  | month
  | day
  | hour
  | minute
  | second
  | offset (minutes : Int)
  deriving DecidableEq, Repr

/-- A time span of whole minutes, written by days and seconds with the sign on the
    days. -/
def spanText (minutes : Int) : String :=
  let days := Int.fdiv minutes 1440
  let seconds := Int.fmod minutes 1440 * 60
  let parts :=
    (if days = 0 then [] else ["days=" ++ toString days]) ++
      (if seconds = 0 then [] else ["seconds=" ++ toString seconds])
  "datetime.timedelta(" ++ (if parts.isEmpty then "0" else String.intercalate ", " parts) ++ ")"

def ValueProblem.message : ValueProblem → String
  | .codePoint => "chr() arg not in range(0x110000)"
  | .nesting => "<recursion>"
  | .integer base text =>
    "invalid literal for int() with base " ++ toString base ++ ": " ++
      String.ofList ((quotePoints text).take 200)
  | .integerLength digits =>
    "Exceeds the limit (4300 digits) for integer string conversion: value has " ++
      toString digits ++ " digits; use sys.set_int_max_str_digits() to increase the limit"
  | .float text => "could not convert string to float: " ++ String.ofList (quotePoints text)
  | .year y => "year " ++ toString y ++ " is out of range"
  | .month => "month must be in 1..12"
  | .day => "day is out of range for month"
  | .hour => "hour must be in 0..23"
  | .minute => "minute must be in 0..59"
  | .second => "second must be in 0..59"
  | .offset minutes =>
    "offset must be a timedelta strictly between -timedelta(hours=24) and " ++
      "timedelta(hours=24), not " ++ spanText minutes ++ "."

/-! ### Breakdowns and faults -/

/-- A scalar for which reading has no answer. -/
inductive Breakdown where
  /-- A number without a single character after its sign. -/
  | emptyNumber
  /-- A truth value by tag, with a word that is none. -/
  | unknownTruthWord
  /-- A point in time by tag, with a text that has not its form. -/
  | malformedTime
  /-- A point in time by tag, on a mapping. -/
  | timeOnMapping
  /-- A character number or a power of sixty beyond the machine's range. -/
  | outOfRange
  /-- An integer that has too many digits to be written. -/
  | integerTooLong
  deriving DecidableEq, Repr

inductive Fault where
  /-- It holds a character that no document may hold. -/
  | unprintable
  /-- It breaks a rule, at a place. -/
  | invalid (problem : Problem) (mark : Mark)
  /-- A scalar denotes no value. -/
  | unusable (problem : ValueProblem)
  /-- A scalar leaves reading without an answer. -/
  | broken (breakdown : Breakdown)
  deriving Repr

end WorkflowCatalog.Yaml
