/-
  WorkflowCatalog/Yaml/Token/Property.lean
  ========================================
  **Directives, tags, anchors and aliases**: the tokens that speak about nodes and
  documents.
-/
import WorkflowCatalog.Yaml.Token.Scalar

namespace WorkflowCatalog.Yaml

open Text Decimal

/-! ### Addresses -/

def isUriChar (c : Char) : Bool :=
  isAsciiAlnum c || "-;/?:@&=+$,_.!~*'()[]%".toList.contains c

def uriBytes : Nat → List Nat → Cursor → Read (List Nat × Cursor)
  | 0, acc, c => .ok (acc, c)
  | fuel + 1, acc, c =>
    if c.peek == '%' then
      let c := c.advance
      let digits := [c.peek, c.peekAt 1]
      match digits.find? fun d => !isDigitOf 16 d with
      | some d => c.fail (.uriEscapeExpected d)
      | none => uriBytes fuel (acc ++ [natOfBase 16 digits]) (c.advanceBy 2)
    else .ok (acc, c)

def uriFrom : Nat → List Char → Cursor → Read (List Char × Cursor)
  | 0, acc, c => .ok (acc, c)
  | fuel + 1, acc, c =>
    let (run, c) := c.takeWhile fun x => isUriChar x && x != '%'
    let acc := acc ++ run
    if c.peek == '%' then do
      let (bytes, after) ← uriBytes (c.rest.length + 1) [] c
      match Utf8.decode bytes with
      | .ok chars => uriFrom fuel (acc ++ chars) after
      | .error f => c.fail (.uriBytes f)
    else .ok (acc, c)

/-- An address; it is not empty. -/
def scanUri (c : Cursor) : Read (List Char × Cursor) := do
  if isUriChar c.peek then uriFrom (c.rest.length + 1) [] c else c.fail (.uriExpected c.peek)

/-! ### Tags -/

/-- A tag handle: `!`, `!!` or `!name!`. -/
def scanHandle (c : Cursor) : Read (List Char × Cursor) :=
  if c.peek != '!' then c.fail (.tagMarkExpected c.peek)
  else if c.peekAt 1 == ' ' then .ok (['!'], c.advance)
  else
    let (name, after) := c.advance.takeWhile isNameChar
    if after.peek == '!' then .ok ('!' :: name ++ ['!'], after.advance)
    else after.fail (.tagMarkExpected after.peek)

/-- Is the tag that begins here written with a handle that is closed by a mark? -/
def hasHandle (c : Cursor) : Bool :=
  (c.rest.drop 1).takeWhile (fun x => !isSpaceOrEnd x) |>.contains '!'

/-- The body of a tag: between angle brackets, a mark alone, or a handle and a rest. -/
def scanTagBody (c : Cursor) : Read (TokenBody × Cursor) :=
  if c.peekAt 1 == '<' then do
    let (uri, c) ← scanUri (c.advanceBy 2)
    if c.peek == '>' then .ok (.tag none (String.ofList uri), c.advance)
    else c.fail (.tagEndExpected c.peek)
  else if isBlankOrEnd (c.peekAt 1) then .ok (.tag none "!", c.advance)
  else do
    let (handle, c) ← if hasHandle c then scanHandle c else .ok (['!'], c.advance)
    let (uri, c) ← scanUri c
    .ok (.tag (some (String.ofList handle)) (String.ofList uri), c)

def scanTag (c : Cursor) : Read (Token × Cursor) := do
  let (body, after) ← scanTagBody c
  if isSpaceOrEnd after.peek then .ok (⟨body, c.mark, after.mark⟩, after)
  else after.fail (.blankExpected after.peek)

/-! ### Anchors and aliases -/

def endsAnchor (c : Char) : Bool :=
  isBlankOrEnd c || ['?', ':', ',', ']', '}', '%', '@', '\x60'].contains c

def scanAnchor (body : String → TokenBody) (c : Cursor) : Read (Token × Cursor) :=
  let (name, after) := c.advance.takeWhile isNameChar
  if name.isEmpty then after.fail (.nameExpected after.peek)
  else if endsAnchor after.peek then
    .ok (⟨body (String.ofList name), c.mark, after.mark⟩, after)
  else after.fail (.nameExpected after.peek)

/-! ### Directives -/

def scanDirectiveName (c : Cursor) : Read (String × Cursor) :=
  let (name, after) := c.takeWhile isNameChar
  if name.isEmpty || !isSpaceOrEnd after.peek then after.fail (.nameExpected after.peek)
  else .ok (String.ofList name, after)

def scanVersionNumber (c : Cursor) : Read (Nat × Cursor) :=
  let (digits, after) := c.takeWhile isAsciiDigit
  if digits.isEmpty then c.fail (.digitExpected c.peek)
  else if maxIntegerDigits < digits.length then .error (.unusable (.integerLength digits.length))
  else .ok (natOfDigits digits, after)

def scanVersion (c : Cursor) : Read (Directive × Cursor) := do
  let (major, c) ← scanVersionNumber c.skipSpaces
  if c.peek != '.' then c.fail (.majorVersionEnd c.peek)
  else
    let (minor, c) ← scanVersionNumber c.advance
    if isSpaceOrEnd c.peek then .ok (.version major minor, c)
    else c.fail (.minorVersionEnd c.peek)

/-- A short form for tags: its handle and what the handle stands for. -/
def scanTagDirective (c : Cursor) : Read (Directive × Cursor) := do
  let (handle, c) ← scanHandle c.skipSpaces
  if c.peek != ' ' then c.fail (.blankExpected c.peek)
  else
    let (uri, c) ← scanUri c.skipSpaces
    if isSpaceOrEnd c.peek then .ok (.tag (String.ofList handle) (String.ofList uri), c)
    else c.fail (.blankExpected c.peek)

def scanDirective (c : Cursor) : Read (Token × Cursor) := do
  let (name, body) ← scanDirectiveName c.advance
  let (directive, after) ←
    if name == "YAML" then scanVersion body
    else if name == "TAG" then scanTagDirective body
    else .ok (.other, body)
  let rest := if directive matches .other then after.skipLine else after
  let next ← scanLineRest rest
  .ok (⟨.directive directive, c.mark, after.mark⟩, next)

end WorkflowCatalog.Yaml
