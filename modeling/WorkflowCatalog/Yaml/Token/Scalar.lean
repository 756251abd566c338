/-
  WorkflowCatalog/Yaml/Token/Scalar.lean
  ======================================
  **Scalars in their four written forms**: plain, between single quotes, between
  double quotes, and as a block of indented lines.  In the first three a line end
  between two words counts as a space, and empty lines count as line ends.

  The loops take one unit of fuel a round and every round moves the cursor forward,
  so the number of characters that are left is enough.
-/
import WorkflowCatalog.Yaml.Token.Basic
import WorkflowCatalog.Decimal.Read

namespace WorkflowCatalog.Yaml

open Text Decimal

structure ScannedScalar where
  text : List CodePoint
  /-- Where the scalar ends. -/
  finish : Mark
  /-- Where reading goes on. -/
  cursor : Cursor
  /-- May a mapping key begin there? -/
  keyAllowed : Bool

/-- A folded line end: one line end alone counts as a space; if empty lines follow,
    or the line ends with one of the two separators, it counts as written. -/
def foldBreak (first more : List Char) : List Char :=
  if first != ['\n'] then first ++ more
  else if more.isEmpty then [' ']
  else more

/-! ### Plain scalars -/

/-- Does a plain scalar end in front of this character?  `next` is the one after. -/
def endsPlain (inFlow : Bool) (c next : Char) : Bool :=
  isBlankOrEnd c ||
    (c == ':' && (isBlankOrEnd next || (inFlow && [',', '[', ']', '{', '}'].contains next))) ||
    (inFlow && [',', '?', '[', ']', '{', '}'].contains c)

/-- The characters in front of the end of a plain scalar or of a gap in it. -/
def plainWord (inFlow : Bool) : List Char → List Char
  | [] => []
  | c :: cs =>
    if endsPlain inFlow c (cs.headD endMark) then [] else c :: plainWord inFlow cs

/-- The spaces and line ends inside a plain scalar after its first line end.  `none`
    stands for a line that separates documents. -/
def plainBreaks : Nat → List Char → Cursor → Option (List Char) × Cursor
  | 0, acc, c => (some acc, c)
  | fuel + 1, acc, c =>
    if c.peek == ' ' then plainBreaks fuel acc c.advance
    else if isBreak c.peek then
      let (b, c) := c.takeBreak
      if c.atSeparator then (none, c) else plainBreaks fuel (acc ++ b) c
    else (some acc, c)

/-- The gap after a word of a plain scalar: its text, the place behind it, and
    whether it holds a line end. -/
def plainGap (c : Cursor) : Option (List Char) × Cursor × Bool :=
  let (blanks, c) := c.takeWhile (· == ' ')
  if isBreak c.peek then
    let (first, c) := c.takeBreak
    if c.atSeparator then (none, c, true)
    else
      let (more, c) := plainBreaks (c.rest.length + 1) [] c
      (more.map (foldBreak first), c, true)
  else (some blanks, c, false)

/-- The words of a plain scalar from here on; `gap` is the text between the word
    before and this one. -/
def plainFrom (inFlow : Bool) (indent : Int) :
    Nat → List Char → ScannedScalar → ScannedScalar
  | 0, _, s => s
  | fuel + 1, gap, s =>
    let word := if s.cursor.peek == '#' then [] else plainWord inFlow s.cursor.rest
    if word.isEmpty then s
    else
      let c := s.cursor.advanceBy word.length
      let (next, after, broken) := plainGap c
      let s := ⟨s.text ++ ofChars (gap ++ word), c.mark, after, broken⟩
      match next with
      | none => s
      | some [] => s
      | some gap =>
        if after.peek == '#' || (!inFlow && decide ((after.column : Int) < indent)) then s
        else plainFrom inFlow indent fuel gap s

/-- A plain scalar.  Outside flow collections its later lines stand deeper than
    `indent`. -/
def scanPlain (inFlow : Bool) (indent : Int) (c : Cursor) : ScannedScalar :=
  plainFrom inFlow (indent + 1) (c.rest.length + 1) [] ⟨[], c.mark, c, false⟩

/-! ### Quoted scalars -/

/-- The characters that a letter after a backslash stands for. -/
def escapeLetter? : Char → Option Char
  | '0' => some '\x00'
  | 'a' => some '\x07'
  | 'b' => some '\x08'
  | 't' => some '\t'
  | '\t' => some '\t'
  | 'n' => some '\n'
  | 'v' => some '\x0b'
  | 'f' => some '\x0c'
  | 'r' => some '\r'
  | 'e' => some '\x1b'
  | ' ' => some ' '
  | '"' => some '"'
  | '\\' => some '\\'
  | '/' => some '/'
  | 'N' => some '\x85'
  | '_' => some '\xa0'
  | 'L' => some '\u2028'
  | 'P' => some '\u2029'
  | _ => none

/-- The number of hexadecimal digits after a letter that gives a character by number. -/
def escapeLength? : Char → Option Nat
  | 'x' => some 2
  | 'u' => some 4
  | 'U' => some 8
  | _ => none

/-- The code point with a number of `count` hexadecimal digits. -/
def scanCodePoint (count : Nat) (c : Cursor) : Read (CodePoint × Cursor) :=
  let digits := (List.range count).map c.peekAt
  match digits.find? fun d => !isDigitOf 16 d with
  | some d => c.fail (.escapeDigits count d)
  | none =>
    let n := natOfBase 16 digits
    match CodePoint.ofNumber? n with
    | some p => .ok (p, c.advanceBy count)
    | none => .error (if n < 0x80000000 then .unusable .codePoint else .broken .outOfRange)

/-- The line ends inside a quoted scalar, and the spaces in front of its next word. -/
def quotedBreaks : Nat → List Char → Cursor → Read (List Char × Cursor)
  | 0, acc, c => .ok (acc, c)
  | fuel + 1, acc, c =>
    if c.atSeparator then c.fail .separatorInQuote
    else
      let c := c.skipWhile fun x => x == ' ' || x == '\t'
      if isBreak c.peek then
        let (b, c) := c.takeBreak
        quotedBreaks fuel (acc ++ b) c
      else .ok (acc, c)

/-- Does the character stand for itself inside either kind of quotes? -/
def isQuotedPlain (c : Char) : Bool :=
  !(c == '\'' || c == '"' || c == '\\' || isBlankOrEnd c)

/-- The characters of a quoted scalar up to the next space, line end or closing
    quote. -/
def quotedWord (double : Bool) :
    Nat → List CodePoint → Cursor → Read (List CodePoint × Cursor)
  | 0, acc, c => .ok (acc, c)
  | fuel + 1, acc, c =>
    let (run, c) := c.takeWhile isQuotedPlain
    let acc := acc ++ ofChars run
    let x := c.peek
    if !double && x == '\'' && c.peekAt 1 == '\'' then
      quotedWord double fuel (acc ++ [.char '\'']) (c.advanceBy 2)
    else if (double && x == '\'') || (!double && (x == '"' || x == '\\')) then
      quotedWord double fuel (acc ++ [.char x]) c.advance
    else if double && x == '\\' then
      let c := c.advance
      let e := c.peek
      match escapeLetter? e, escapeLength? e with
      | some y, _ => quotedWord double fuel (acc ++ [.char y]) c.advance
      | none, some n => do
        let (y, c) ← scanCodePoint n c.advance
        quotedWord double fuel (acc ++ [y]) c
      | none, none =>
        if isBreak e then do
          let (_, c) := c.takeBreak
          let (breaks, c) ← quotedBreaks (c.rest.length + 1) [] c
          quotedWord double fuel (acc ++ ofChars breaks) c
        else c.fail (.unknownEscape e)
    else .ok (acc, c)

def quotedGap (c : Cursor) : Read (List Char × Cursor) :=
  let (blanks, c) := c.takeWhile fun x => x == ' ' || x == '\t'
  if c.rest.isEmpty then c.fail .unclosedQuote
  else if isBreak c.peek then do
    let (first, c) := c.takeBreak
    let (more, c) ← quotedBreaks (c.rest.length + 1) [] c
    .ok (foldBreak first more, c)
  else .ok (blanks, c)

/-- The words of a quoted scalar up to its closing quote. -/
def quotedFrom (double : Bool) :
    Nat → List CodePoint → Cursor → Read (List CodePoint × Cursor)
  | 0, acc, c => .ok (acc, c)
  | fuel + 1, acc, c => do
    let (word, c) ← quotedWord double (c.rest.length + 1) [] c
    let acc := acc ++ word
    if c.peek == (if double then '"' else '\'') then .ok (acc, c)
    else
      let (gap, c) ← quotedGap c
      quotedFrom double fuel (acc ++ ofChars gap) c

def scanQuoted (double : Bool) (c : Cursor) : Read ScannedScalar := do
  let c := c.advance
  let (text, c) ← quotedFrom double (c.rest.length + 2) [] c
  let c := c.advance
  .ok ⟨text, c.mark, c, false⟩

/-! ### Block scalars -/

/-- What becomes of the line ends at the end of a block. -/
inductive Chomping where
  /-- None is kept. -/
  | strip
  /-- The first is kept. -/
  | clip
  /-- All are kept. -/
  | keep
  deriving DecidableEq, Repr

def scanChomping (c : Cursor) : Chomping × Cursor :=
  if c.peek == '+' then (.keep, c.advance)
  else if c.peek == '-' then (.strip, c.advance)
  else (.clip, c)

def scanIndentation (c : Cursor) : Read (Option Nat × Cursor) :=
  if isAsciiDigit c.peek then
    if c.peek == '0' then c.fail .zeroIndentation
    else .ok (some (c.peek.toNat - 48), c.advance)
  else .ok (none, c)

/-- The head of a block: the two indicators in either order. -/
def scanBlockHeader (c : Cursor) : Read (Chomping × Option Nat × Cursor) := do
  let (chomping, digit, c) ←
    if c.peek == '+' || c.peek == '-' then do
      let (chomping, c) := scanChomping c
      let (digit, c) ← scanIndentation c
      pure (chomping, digit, c)
    else do
      let (digit, c) ← scanIndentation c
      let (chomping, c) := if digit.isSome then scanChomping c else (Chomping.clip, c)
      pure (chomping, digit, c)
  if isSpaceOrEnd c.peek then .ok (chomping, digit, c) else c.fail (.blockHeader c.peek)

/-- The rest of a line that may hold nothing but spaces and a comment, and its end. -/
def scanLineRest (c : Cursor) : Read Cursor :=
  let c := c.skipSpaces
  let c := if c.peek == '#' then c.skipLine else c
  if isBreakOrEnd c.peek then .ok c.takeBreak.2 else c.fail (.lineEndExpected c.peek)

/-- Empty lines and spaces in front of a block without a digit: the line ends, the
    deepest column reached, the place of the last line end. -/
def blockIndentation : Nat → List Char → Nat → Mark → Cursor → List Char × Nat × Mark × Cursor
  | 0, acc, deepest, finish, c => (acc, deepest, finish, c)
  | fuel + 1, acc, deepest, finish, c =>
    if c.peek == ' ' then
      let c := c.advance
      blockIndentation fuel acc (max deepest c.column) finish c
    else if isBreak c.peek then
      let (b, c) := c.takeBreak
      blockIndentation fuel (acc ++ b) deepest c.mark c
    else (acc, deepest, finish, c)

/-- Spaces up to a column. -/
def skipToColumn (column : Nat) (c : Cursor) : Cursor :=
  c.advanceBy (min (column - c.column) (c.rest.takeWhile (· == ' ')).length)

def blockBreaks (indent : Nat) : Nat → List Char → Mark → Cursor → List Char × Mark × Cursor
  | 0, acc, finish, c => (acc, finish, c)
  | fuel + 1, acc, finish, c =>
    let c := skipToColumn indent c
    if isBreak c.peek then
      let (b, c) := c.takeBreak
      blockBreaks indent fuel (acc ++ b) c.mark c
    else (acc, finish, c)

/-- The lines of a block.  `breaks` are the empty lines in front of the next line.
    The result is the text with the last line end and the empty lines after it
    apart. -/
def blockLines (folded : Bool) (indent : Nat) :
    Nat → List Char → List Char → List Char → Mark → Cursor →
      List Char × List Char × List Char × Mark × Cursor
  | 0, acc, last, breaks, finish, c => (acc, last, breaks, finish, c)
  | fuel + 1, acc, last, breaks, finish, c =>
    if c.column == indent && !c.rest.isEmpty then
      let wordFirst := !(c.peek == ' ' || c.peek == '\t')
      let (line, c') := c.takeWhile fun x => !isBreak x
      let acc := acc ++ breaks ++ line
      let (last, c') := c'.takeBreak
      let (breaks, finish, c') := blockBreaks indent (c'.rest.length + 1) [] c'.mark c'
      if c'.column == indent && !c'.rest.isEmpty then
        let joined :=
          if folded && last == ['\n'] && wordFirst && !(c'.peek == ' ' || c'.peek == '\t') then
            if breaks.isEmpty then [' '] else []
          else last
        blockLines folded indent fuel (acc ++ joined) [] breaks finish c'
      else (acc, last, breaks, finish, c')
    else (acc, last, breaks, finish, c)

/-- A block scalar, from its indicator on; `indent` is the indentation of the
    collection around it. -/
def scanBlock (folded : Bool) (indent : Int) (c : Cursor) : Read ScannedScalar := do
  let (chomping, digit, c) ← scanBlockHeader c.advance
  let c ← scanLineRest c
  let least := (max (indent + 1) 1).toNat
  let (column, breaks, finish, c) :=
    match digit with
    | none =>
      let (breaks, deepest, finish, c) := blockIndentation (c.rest.length + 1) [] 0 c.mark c
      (max least deepest, breaks, finish, c)
    | some d =>
      let column := least + d - 1
      let (breaks, finish, c) := blockBreaks column (c.rest.length + 1) [] c.mark c
      (column, breaks, finish, c)
  let (text, last, breaks, finish, c) :=
    blockLines folded column (c.rest.length + 1) [] [] breaks finish c
  let text := match chomping with
    | .strip => text
    | .clip => text ++ last
    | .keep => text ++ last ++ breaks
  .ok ⟨ofChars text, finish, c, true⟩

end WorkflowCatalog.Yaml
