/-
  WorkflowCatalog/Proofs/JsonGrammar.lean
  =======================================
  **Documents follow the grammar of JSON.**  The grammar is told apart from the writer, as
  relations on lists of characters: it leaves open how values are laid out, which characters
  of a string are escaped and how, and how numbers are written (`Grammar.IsText`).

  The values here are the plain ones, without fractions and without halves of surrogate
  pairs; in none of their objects does a key stand twice (`IsPlain`).  What is written for
  them are characters only (`pretty_eq_ofChars`).  Main statement: the written form of a
  plain value is a value of the grammar (`isValue_written`).
-/
import WorkflowCatalog.Proofs.Delimiting
import WorkflowCatalog.Proofs.Encoding

namespace WorkflowCatalog.Json

open Text (CodePoint CodeText ofChars isAsciiDigit)
open Text.CodeText

/-! ### The grammar -/

namespace Grammar

/-- Blanks, tabulators and the two characters of line ends. -/
def IsBlank (cs : List Char) : Prop := ∀ c ∈ cs, c ∈ [' ', '\t', '\n', '\r']

/-- A character that structures values, with blanks around it. -/
def IsMark (c : Char) (cs : List Char) : Prop :=
  ∃ before after, IsBlank before ∧ IsBlank after ∧ cs = before ++ c :: after

def AreDigits (cs : List Char) : Prop := cs ≠ [] ∧ ∀ c ∈ cs, isAsciiDigit c = true

/-- A whole number without a needless zero in front. -/
inductive IsWhole : List Char → Prop where
  | zero : IsWhole ['0']
  | digits {c : Char} {cs : List Char} (hc : isAsciiDigit c = true) (hne : c ≠ '0')
    (hcs : ∀ d ∈ cs, isAsciiDigit d = true) : IsWhole (c :: cs)

inductive IsFraction : List Char → Prop where
  | none : IsFraction []
  | some {ds : List Char} (hds : AreDigits ds) : IsFraction ('.' :: ds)

inductive IsExponent : List Char → Prop where
  | none : IsExponent []
  | some {e : Char} {sign ds : List Char} (he : e = 'e' ∨ e = 'E')
    (hsign : sign ∈ [[], ['+'], ['-']]) (hds : AreDigits ds) : IsExponent (e :: (sign ++ ds))

inductive IsNumber : List Char → Prop where
  | mk {sign whole fraction exponent : List Char} (hsign : sign ∈ [[], ['-']])
    (hwhole : IsWhole whole) (hfraction : IsFraction fraction) (hexponent : IsExponent exponent) :
    IsNumber (sign ++ whole ++ fraction ++ exponent)

def isHexDigit (c : Char) : Bool :=
  isAsciiDigit c || 'a' ≤ c && c ≤ 'f' || 'A' ≤ c && c ≤ 'F'

/-- What stands for one character in a string, or for half of a pair. -/
inductive IsStringPart : List Char → Prop where
  | plain {c : Char} (hcontrol : 0x20 ≤ c.toNat) (hquote : c ≠ '"') (hbackslash : c ≠ '\\') :
    IsStringPart [c]
  | letter {c : Char} (hc : c ∈ ['"', '\\', '/', 'b', 'f', 'n', 'r', 't']) :
    IsStringPart ['\\', c]
  | number {a b c d : Char} (h : ∀ x ∈ [a, b, c, d], isHexDigit x = true) :
    IsStringPart ['\\', 'u', a, b, c, d]

inductive IsString : List Char → Prop where
  | mk {parts : List (List Char)} (h : ∀ p ∈ parts, IsStringPart p) :
    IsString ('"' :: (parts.flatten ++ ['"']))

mutual

inductive IsValue : List Char → Prop where
  | word {w : List Char}
    (hw : w ∈ [['f', 'a', 'l', 's', 'e'], ['n', 'u', 'l', 'l'], ['t', 'r', 'u', 'e']]) : IsValue w
  | number {w : List Char} (hw : IsNumber w) : IsValue w
  | string {w : List Char} (hw : IsString w) : IsValue w
  | emptyArray {start stop : List Char} (hstart : IsMark '[' start) (hstop : IsMark ']' stop) :
    IsValue (start ++ stop)
  | array {start items stop : List Char} (hstart : IsMark '[' start) (hitems : IsItems items)
    (hstop : IsMark ']' stop) : IsValue (start ++ items ++ stop)
  | emptyObject {start stop : List Char} (hstart : IsMark '{' start) (hstop : IsMark '}' stop) :
    IsValue (start ++ stop)
  | object {start members stop : List Char} (hstart : IsMark '{' start)
    (hmembers : IsMembers members) (hstop : IsMark '}' stop) :
    IsValue (start ++ members ++ stop)

/-- Values with commas between them, at least one. -/
inductive IsItems : List Char → Prop where
  | one {v : List Char} (hv : IsValue v) : IsItems v
  | more {v comma vs : List Char} (hv : IsValue v) (hcomma : IsMark ',' comma)
    (hvs : IsItems vs) : IsItems (v ++ comma ++ vs)

/-- Members with commas between them, at least one. -/
inductive IsMembers : List Char → Prop where
  | one {k colon v : List Char} (hk : IsString k) (hcolon : IsMark ':' colon) (hv : IsValue v) :
    IsMembers (k ++ colon ++ v)
  | more {k colon v comma ms : List Char} (hk : IsString k) (hcolon : IsMark ':' colon)
    (hv : IsValue v) (hcomma : IsMark ',' comma) (hms : IsMembers ms) :
    IsMembers (k ++ colon ++ v ++ comma ++ ms)

end

/-- A value with blanks around it. -/
def IsText (cs : List Char) : Prop :=
  ∃ before v after, IsBlank before ∧ IsValue v ∧ IsBlank after ∧ cs = before ++ v ++ after

end Grammar

/-! ### Plain values -/

/-- A value without fractions and without halves of surrogate pairs, in whose objects no key
    stands twice. -/
inductive IsPlain : Json → Prop where
  | null : IsPlain .null
  | bool (b : Bool) : IsPlain (.bool b)
  | int (n : Int) : IsPlain (.int n)
  | string (s : String) : IsPlain (.str s)
  | arr {items : List Json} (h : ∀ v ∈ items, IsPlain v) : IsPlain (.arr items)
  | obj {members : List (String × Json)} (hkeys : (members.map (·.1)).Nodup)
    (h : ∀ m ∈ members, IsPlain m.2) : IsPlain (.obj members)

theorem areWhole_of_forall {xs : List Json} (h : ∀ x ∈ xs, x.isWhole = true) :
    areWhole xs = true := by
  induction xs with
  | nil => rfl
  | cons x xs ih =>
    rw [List.forall_mem_cons] at h
    rw [areWhole, h.1, ih h.2]
    rfl

theorem haveWhole_of_forall {ms : List (String × Json)} (h : ∀ m ∈ ms, m.2.isWhole = true) :
    haveWhole ms = true := by
  induction ms with
  | nil => rfl
  | cons m ms ih =>
    rw [List.forall_mem_cons] at h
    rw [haveWhole, h.1, ih h.2]
    rfl

/-- No half of a surrogate pair stands in a plain value. -/
theorem IsPlain.isWhole {v : Json} (hv : IsPlain v) : v.isWhole = true := by
  induction hv with
  | null | bool b | int n => rfl
  | string s => simp [str, Json.isWhole, CodeText.ofString, ofChars, CodePoint.char?]
  | arr _ ih => exact areWhole_of_forall ih
  | obj _ _ ih => exact haveWhole_of_forall ih

/-! ### What is written -/

/-- The characters of code points. -/
def charsOf (ps : List CodePoint) : List Char := ps.map CodePoint.standIn

/-- The characters that are written for a value. -/
def written (level : Nat) (v : Json) : List Char := charsOf (pretty level v)

def writtenItems (level : Nat) (xs : List Json) : List Char := charsOf (prettyItems level xs)

def writtenMembers (level : Nat) (ms : List (String × Json)) : List Char :=
  charsOf (prettyMembers level ms)

def writtenString (s : String) : List Char := '"' :: (s.toList.flatMap escapeChar ++ ['"'])

def lineStart (level : Nat) : List Char := '\n' :: List.replicate (2 * level) ' '

theorem charsOf_ofChars (cs : List Char) : charsOf (ofChars cs) = cs := by
  rw [charsOf, ofChars, List.map_map]
  exact List.map_id cs

theorem charsOf_append (ps qs : List CodePoint) :
    charsOf (ps ++ qs) = charsOf ps ++ charsOf qs := List.map_append

theorem charsOf_cons (c : Char) (ps : List CodePoint) :
    charsOf (.char c :: ps) = c :: charsOf ps := rfl

theorem written_int (level : Nat) (n : Int) : written level (.int n) = intText n :=
  charsOf_ofChars (intText n)

theorem charsOf_quoted (s : String) : charsOf (quoted s) = writtenString s := by
  have hinner : charsOf ((ofString s).points.flatMap escapePoint) =
      s.toList.flatMap escapeChar := by
    change charsOf ((ofChars s.toList).flatMap escapePoint) = _
    induction s.toList with
    | nil => rfl
    | cons c cs ih =>
      change charsOf (ofChars (escapeChar c) ++ (ofChars cs).flatMap escapePoint) = _
      rw [charsOf_append, charsOf_ofChars, ih]
      rfl
  rw [quoted, List.cons_append, charsOf_cons, charsOf_append, hinner]
  rfl

theorem written_str (level : Nat) (s : String) : written level (str s) = writtenString s :=
  charsOf_quoted s

/-- Code points without halves are those of their characters. -/
theorem ofChars_charsOf {ps : List CodePoint} (h : IsWhole ⟨ps⟩) : ofChars (charsOf ps) = ps := by
  induction ps with
  | nil => rfl
  | cons p ps ih =>
    have hrest : ofChars (charsOf ps) = ps := ih fun q hq => h q (List.mem_cons_of_mem _ hq)
    cases p with
    | char c =>
      change .char c :: ofChars (charsOf ps) = _
      rw [hrest]
    | half n => exact absurd rfl (h _ List.mem_cons_self)

/-- **Nothing but characters is written for a plain value.** -/
theorem pretty_eq_ofChars {v : Json} (hv : IsPlain v) (level : Nat) :
    pretty level v = ofChars (written level v) :=
  (ofChars_charsOf (isWhole_pretty level v hv.isWhole)).symm

section

variable (level : Nat) (x : Json) (xs : List Json) (k : String) (v : Json)
  (ms : List (String × Json))

theorem written_arr : written level (.arr (x :: xs)) =
    '[' :: (lineStart (level + 1) ++ (written (level + 1) x ++
      (writtenItems (level + 1) xs ++ (lineStart level ++ [']'])))) := by
  simp [written, writtenItems, pretty, charsOf_append, charsOf_cons, newLine, charsOf_ofChars,
    lineStart]
  rfl

theorem writtenItems_cons : writtenItems level (x :: xs) =
    ',' :: (lineStart level ++ (written level x ++ writtenItems level xs)) := by
  simp [written, writtenItems, prettyItems, charsOf_append, charsOf_cons, newLine, charsOf_ofChars,
    lineStart]

theorem written_obj : written level (.obj ((k, v) :: ms)) =
    '{' :: (lineStart (level + 1) ++ (writtenString k ++ (':' :: ' ' :: (written (level + 1) v ++
      (writtenMembers (level + 1) ms ++ (lineStart level ++ ['}'])))))) := by
  simp [written, writtenMembers, pretty, charsOf_append, charsOf_cons, newLine, charsOf_ofChars,
    lineStart, charsOf_quoted, keyEnd]
  rfl

theorem writtenMembers_cons : writtenMembers level ((k, v) :: ms) =
    ',' :: (lineStart level ++ (writtenString k ++ (':' :: ' ' ::
      (written level v ++ writtenMembers level ms)))) := by
  simp [written, writtenMembers, prettyMembers, charsOf_append, charsOf_cons, newLine,
    charsOf_ofChars, lineStart, charsOf_quoted, keyEnd]

end

/-! ### Numbers -/

theorem isAsciiDigit_eq_isDigit (c : Char) : isAsciiDigit c = c.isDigit := by
  simp [isAsciiDigit, Char.isDigit, Char.le_def]

theorem isAsciiDigit_of_mem_toDigits {n : Nat} {c : Char} (h : c ∈ Nat.toDigits 10 n) :
    isAsciiDigit c = true := by
  rw [isAsciiDigit_eq_isDigit]
  exact Nat.isDigit_of_mem_toDigits (by decide) (by decide) h

/-- The first digit of a number above zero is not a zero. -/
theorem toDigits_eq_cons {n : Nat} (h : 0 < n) :
    ∃ c cs, Nat.toDigits 10 n = c :: cs ∧ c ≠ '0' := by
  induction n using Nat.strongRecOn with
  | _ n ih =>
    by_cases hlt : n < 10
    · refine ⟨n.digitChar, [], Nat.toDigits_of_lt_base hlt, ?_⟩
      have hdigit : ∀ n < 10, 0 < n → n.digitChar ≠ '0' := by decide
      exact hdigit n hlt h
    · obtain ⟨c, cs, heq, hne⟩ := ih (n / 10) (by omega) (by omega)
      refine ⟨c, cs ++ [(n % 10).digitChar], ?_, hne⟩
      rw [Nat.toDigits_of_base_le (by decide) (by omega), heq, List.cons_append]

theorem isWhole_toDigits (n : Nat) : Grammar.IsWhole (Nat.toDigits 10 n) := by
  rcases Nat.eq_zero_or_pos n with rfl | hpos
  · exact .zero
  · obtain ⟨c, cs, heq, hne⟩ := toDigits_eq_cons hpos
    have hdigits : ∀ d ∈ c :: cs, isAsciiDigit d = true := by
      rw [← heq]
      exact fun d hd => isAsciiDigit_of_mem_toDigits hd
    rw [List.forall_mem_cons] at hdigits
    rw [heq]
    exact .digits hdigits.1 hne hdigits.2

/-- An integer is written as its digits, with a minus sign in front if it is below zero. -/
theorem intText_eq (n : Int) :
    intText n = (if n < 0 then ['-'] else []) ++ Nat.toDigits 10 n.natAbs := by
  unfold intText
  split <;> rfl

theorem isNumber_intText (n : Int) : Grammar.IsNumber (intText n) := by
  have hsign : (if n < 0 then ['-'] else []) ∈ [[], ['-']] := by
    split <;> decide
  have hnumber := Grammar.IsNumber.mk hsign (isWhole_toDigits n.natAbs) .none .none
  rw [List.append_nil, List.append_nil] at hnumber
  rwa [intText_eq]

/-! ### Strings -/

theorem isHexDigit_hex4 : ∀ n < 0x20, (hex4 n).all Grammar.isHexDigit = true := by decide

theorem mem_of_escapeLetter? {l c : Char} (h : escapeLetter? l = some c) :
    l ∈ ['"', '\\', '/', 'b', 'f', 'n', 'r', 't'] := by
  unfold escapeLetter? at h
  split at h
  all_goals first | decide | cases h

/-- What stands for a character is a part of a string. -/
theorem StandsAs.isStringPart {c : Char} {w : List Char} (h : StandsAs c w) :
    Grammar.IsStringPart w := by
  cases h with
  | letter hl => exact .letter (mem_of_escapeLetter? hl)
  | number hcontrol => exact .number (List.all_eq_true.1 (isHexDigit_hex4 _ hcontrol))
  | itself hquote hbackslash hcontrol => exact .plain (by omega) hquote hbackslash

theorem isString_writtenString (s : String) : Grammar.IsString (writtenString s) := by
  rw [writtenString, List.flatMap_def]
  refine .mk fun p hp => ?_
  obtain ⟨c, -, rfl⟩ := List.mem_map.1 hp
  exact (standsAs_escapeChar c).isStringPart

/-! ### Values -/

theorem isBlank_lineStart (level : Nat) : Grammar.IsBlank (lineStart level) := by
  intro c hc
  rcases List.mem_cons.1 hc with rfl | hc
  · decide
  · rw [List.eq_of_mem_replicate hc]
    decide

/-- What opens a container, and what parts its items, stands in front of a line start. -/
theorem isMark_lineStart (c : Char) (level : Nat) : Grammar.IsMark c (c :: lineStart level) :=
  ⟨[], lineStart level, nofun, isBlank_lineStart level, rfl⟩

/-- What closes a container stands behind a line start. -/
theorem lineStart_isMark (c : Char) (level : Nat) : Grammar.IsMark c (lineStart level ++ [c]) :=
  ⟨lineStart level, [], isBlank_lineStart level, nofun, rfl⟩

theorem isMark_singleton (c : Char) : Grammar.IsMark c [c] := ⟨[], [], nofun, nofun, rfl⟩

theorem isMark_keyEnd : Grammar.IsMark ':' [':', ' '] :=
  ⟨[], [' '], nofun, List.forall_mem_singleton.2 (by decide), rfl⟩

section

variable {level : Nat}

/-- The item that stands first, with those behind it. -/
theorem isItems_written {x : Json} {xs : List Json}
    (h : ∀ y ∈ x :: xs, Grammar.IsValue (written level y)) :
    Grammar.IsItems (written level x ++ writtenItems level xs) := by
  induction xs generalizing x with
  | nil =>
    rw [List.forall_mem_singleton] at h
    change Grammar.IsItems (written level x ++ [])
    rw [List.append_nil]
    exact .one h
  | cons y ys ih =>
    rw [List.forall_mem_cons] at h
    have hmore := Grammar.IsItems.more h.1 (isMark_lineStart ',' level) (ih h.2)
    rw [writtenItems_cons]
    simpa only [List.append_assoc, List.cons_append] using hmore

/-- The member that stands first, with those behind it. -/
theorem isMembers_written {k : String} {v : Json} {ms : List (String × Json)}
    (h : ∀ m ∈ (k, v) :: ms, Grammar.IsValue (written level m.2)) :
    Grammar.IsMembers (writtenString k ++ (':' :: ' ' :: (written level v ++
      writtenMembers level ms))) := by
  induction ms generalizing k v with
  | nil =>
    rw [List.forall_mem_singleton] at h
    have hone := Grammar.IsMembers.one (isString_writtenString k) isMark_keyEnd h
    change Grammar.IsMembers (writtenString k ++ (':' :: ' ' :: (written level v ++ [])))
    rw [List.append_nil]
    simpa only [List.append_assoc, List.cons_append, List.nil_append] using hone
  | cons m ms ih =>
    obtain ⟨l, w⟩ := m
    rw [List.forall_mem_cons] at h
    have hmore := Grammar.IsMembers.more (isString_writtenString k) isMark_keyEnd h.1
      (isMark_lineStart ',' level) (ih h.2)
    rw [writtenMembers_cons]
    simpa only [List.append_assoc, List.cons_append, List.nil_append] using hmore

end

/-- **The written form of a plain value is a value of the grammar**, at every level. -/
theorem isValue_written {v : Json} (hv : IsPlain v) (level : Nat) :
    Grammar.IsValue (written level v) := by
  induction hv generalizing level with
  | null => exact .word (w := ['n', 'u', 'l', 'l']) (by decide)
  | bool b =>
    cases b with
    | false => exact .word (w := ['f', 'a', 'l', 's', 'e']) (by decide)
    | true => exact .word (w := ['t', 'r', 'u', 'e']) (by decide)
  | int n =>
    rw [written_int]
    exact .number (isNumber_intText n)
  | string s =>
    rw [written_str]
    exact .string (isString_writtenString s)
  | @arr items _ ih =>
    cases items with
    | nil => exact .emptyArray (isMark_singleton '[') (isMark_singleton ']')
    | cons x xs =>
      have hitems := isItems_written fun y hy => ih y hy (level + 1)
      have hvalue := Grammar.IsValue.array (isMark_lineStart '[' (level + 1)) hitems
        (lineStart_isMark ']' level)
      rw [written_arr]
      simpa only [List.append_assoc, List.cons_append] using hvalue
  | @obj members _ _ ih =>
    cases members with
    | nil => exact .emptyObject (isMark_singleton '{') (isMark_singleton '}')
    | cons m ms =>
      obtain ⟨k, v⟩ := m
      have hmembers := isMembers_written fun m hm => ih m hm (level + 1)
      have hvalue := Grammar.IsValue.object (isMark_lineStart '{' (level + 1)) hmembers
        (lineStart_isMark '}' level)
      rw [written_obj]
      simpa only [List.append_assoc, List.cons_append] using hvalue

end WorkflowCatalog.Json
