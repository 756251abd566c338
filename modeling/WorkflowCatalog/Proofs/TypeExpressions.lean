/-
  WorkflowCatalog/Proofs/TypeExpressions.lean
  ===========================================
  **A type expression tells its type.**  An expression has no parentheses but the angle
  brackets of a list, and the mark of null stands behind whatever admits it.  Two things
  make it readable all the same:

    * it begins with a word that tells the kind of the type, unless an entity has the name
      of a kind (`IsEntityName`);
    * behind an expression stands nothing or a closing bracket (`IsEnd`), so nothing there
      can be taken for a part of it.

  Main statement: types with the same expression are the same (`expression_eq_iff`).
-/
import WorkflowCatalog.Schema.Basic
import WorkflowCatalog.Text.Digit

namespace WorkflowCatalog.Schema

open Text (isAsciiAlnum)

/-! ### Names of entities -/

/-- A letter, a digit, an underscore or a dollar sign. -/
def isIdentifierChar (c : Char) : Bool := isAsciiAlnum c || c == '_' || c == '$'

/-- A name with the characters of an identifier that is not the name of a kind.  What it
    begins with makes no difference. -/
structure IsEntityName (s : String) : Prop where
  chars : ∀ c ∈ s.toList, isIdentifierChar c = true
  ne_text : s ≠ "string"
  ne_truth : s ≠ "boolean"

namespace ValueType

/-- All references in a type, at any depth, are to names of entities. -/
def NamesEntities : ValueType → Prop
  | .text _ => True
  | .truth _ => True
  | .list items _ => NamesEntities items
  | .reference e _ => IsEntityName e

/-! ### Words -/

/-- The word that the expression of a type begins with. -/
def word : ValueType → String
  | .text _ => "string"
  | .truth _ => "boolean"
  | .list _ _ => "Array"
  | .reference e _ => e

/-- What stands behind the word. -/
def behindWord : ValueType → List Char
  | .list items n => '<' :: (items.expression.toList ++ '>' :: (nullSuffix n).toList)
  | t => (nullSuffix t.nullable).toList

/-- What may stand behind an expression: nothing, or a bracket that closes a list. -/
def IsEnd (r : List Char) : Prop := ∀ c ∈ r.head?, c = '>'

section

variable {t u : ValueType} {n m : Bool} {r s w w' : List Char}

theorem toList_expression (t : ValueType) :
    t.expression.toList = t.word.toList ++ t.behindWord := by
  cases t with
  | list items n => simp [expression, word, behindWord, String.toList_append]
  | text n | truth n | reference e n => exact String.toList_append

theorem isIdentifierChar_word (ht : t.NamesEntities) :
    ∀ c ∈ t.word.toList, isIdentifierChar c = true := by
  have hkinds : ∀ w ∈ ["string", "boolean", "Array"], w.toList.all isIdentifierChar = true := by
    decide +kernel
  cases t with
  | text n | truth n | list items n => exact List.all_eq_true.1 (hkinds _ (by simp [word]))
  | reference e n => exact ht.chars

/-- The mark of null begins with a blank. -/
theorem head_nullSuffix (hr : IsEnd r) :
    ∀ c ∈ ((nullSuffix n).toList ++ r).head?, c = ' ' ∨ c = '>' := by
  cases n with
  | true => simp [nullSuffix]
  | false => exact fun c hc => .inr (hr c hc)

theorem head_behindWord (hr : IsEnd r) :
    ∀ c ∈ (t.behindWord ++ r).head?, isIdentifierChar c = false := by
  intro c hc
  cases t with
  | list items n =>
    obtain rfl : '<' = c := Option.some.inj hc
    decide
  | text n | truth n | reference e n =>
    rcases head_nullSuffix hr c hc with rfl | rfl <;> decide

/-- A word ends where a character follows that is none of an identifier. -/
theorem word_append_inj (hw : ∀ c ∈ w, isIdentifierChar c = true)
    (hw' : ∀ c ∈ w', isIdentifierChar c = true)
    (hr : ∀ c ∈ r.head?, isIdentifierChar c = false)
    (hs : ∀ c ∈ s.head?, isIdentifierChar c = false) (h : w ++ r = w' ++ s) :
    w = w' ∧ r = s := by
  have hword : ∀ {v q : List Char}, (∀ c ∈ v, isIdentifierChar c = true) →
      (∀ c ∈ q.head?, isIdentifierChar c = false) → (v ++ q).takeWhile isIdentifierChar = v := by
    intro v q hv hq
    rw [List.takeWhile_append_of_pos hv]
    cases q with
    | nil => exact List.append_nil v
    | cons c cs => simp [hq c rfl]
  obtain rfl : w = w' := by rw [← hword hw hr, h, hword hw' hs]
  exact ⟨rfl, List.append_cancel_left h⟩

/-- What stands behind an expression tells whether null is admitted. -/
theorem nullSuffix_append_inj (hr : IsEnd r) (hs : IsEnd s)
    (h : (nullSuffix n).toList ++ r = (nullSuffix m).toList ++ s) : n = m ∧ r = s := by
  have hblank : ∀ {q q' : List Char}, IsEnd q → (nullSuffix true).toList ++ q' ≠ q := by
    rintro q q' hq rfl
    exact absurd (hq ' ' rfl) (by decide)
  cases n with
  | true =>
    cases m with
    | true => exact ⟨rfl, List.append_cancel_left h⟩
    | false => exact absurd h (hblank hs)
  | false =>
    cases m with
    | true => exact absurd h.symm (hblank hr)
    | false => exact ⟨rfl, h⟩

/-- Only the word of a list has an opening bracket behind it. -/
theorem open_ne_nullSuffix {q : List Char} (hr : IsEnd r) :
    '<' :: q ≠ (nullSuffix n).toList ++ r := by
  intro h
  have hhead := head_nullSuffix (n := n) hr '<' (by rw [← h]; rfl)
  revert hhead
  decide

/-! ### Expressions -/

/-- Equal texts begin with equal words. -/
theorem word_eq_of_append (ht : t.NamesEntities) (hu : u.NamesEntities) (hr : IsEnd r)
    (hs : IsEnd s) (h : t.expression.toList ++ r = u.expression.toList ++ s) :
    t.word = u.word ∧ t.behindWord ++ r = u.behindWord ++ s := by
  rw [toList_expression, toList_expression, List.append_assoc, List.append_assoc] at h
  obtain ⟨hword, hbehind⟩ := word_append_inj (isIdentifierChar_word ht)
    (isIdentifierChar_word hu) (head_behindWord hr) (head_behindWord hs) h
  exact ⟨String.toList_inj.1 hword, hbehind⟩

/-- **An expression tells its type and where it ends.**  The induction is on the type, and what
    stands behind the items of a list begins with the bracket that closes it. -/
theorem expression_append_inj (ht : t.NamesEntities) (hu : u.NamesEntities) (hr : IsEnd r)
    (hs : IsEnd s) (h : t.expression.toList ++ r = u.expression.toList ++ s) : t = u ∧ r = s := by
  induction t generalizing u r s with
  | text n =>
    obtain ⟨hword, hbehind⟩ := word_eq_of_append ht hu hr hs h
    cases u with
    | text m =>
      obtain ⟨rfl, hend⟩ := nullSuffix_append_inj hr hs hbehind
      exact ⟨rfl, hend⟩
    | reference e m => exact absurd hword.symm hu.ne_text
    | truth m | list items m => exact absurd hword (by simp [word])
  | truth n =>
    obtain ⟨hword, hbehind⟩ := word_eq_of_append ht hu hr hs h
    cases u with
    | truth m =>
      obtain ⟨rfl, hend⟩ := nullSuffix_append_inj hr hs hbehind
      exact ⟨rfl, hend⟩
    | reference e m => exact absurd hword.symm hu.ne_truth
    | text m | list items m => exact absurd hword (by simp [word])
  | reference e n =>
    obtain ⟨hword, hbehind⟩ := word_eq_of_append ht hu hr hs h
    cases u with
    | reference e' m =>
      obtain rfl : e = e' := hword
      obtain ⟨rfl, hend⟩ := nullSuffix_append_inj hr hs hbehind
      exact ⟨rfl, hend⟩
    | text m => exact absurd hword ht.ne_text
    | truth m => exact absurd hword ht.ne_truth
    -- an entity may be named like the word of a list, but no bracket stands behind its name
    | list items m => exact absurd hbehind.symm (open_ne_nullSuffix hr)
  | list items n ih =>
    obtain ⟨hword, hbehind⟩ := word_eq_of_append ht hu hr hs h
    cases u with
    | list items' m =>
      have hu' : items'.NamesEntities := hu
      have hinner : items.expression.toList ++ '>' :: ((nullSuffix n).toList ++ r) =
          items'.expression.toList ++ '>' :: ((nullSuffix m).toList ++ s) := by
        simpa [behindWord] using hbehind
      have hclosed : ∀ q, IsEnd ('>' :: q) := fun q c hc => (Option.some.inj hc).symm
      obtain ⟨rfl, hrest⟩ := ih ht hu' (hclosed _) (hclosed _) hinner
      obtain ⟨rfl, hend⟩ := nullSuffix_append_inj hr hs (List.cons.inj hrest).2
      exact ⟨rfl, hend⟩
    | text m | truth m | reference e m => exact absurd hbehind (open_ne_nullSuffix hs)

end

/-- **Types with the same expression are the same**, at every depth. -/
theorem expression_eq_iff {t u : ValueType} (ht : t.NamesEntities) (hu : u.NamesEntities) :
    t.expression = u.expression ↔ t = u := by
  constructor
  · intro h
    have hend : IsEnd [] := nofun
    refine (expression_append_inj ht hu hend hend ?_).1
    rw [h]
  · rintro rfl
    rfl

/-- It makes a difference whether the items of a list or the list itself may be null. -/
theorem expression_eq_iff_nullPlaced :
    (ValueType.list (.reference "Workflow" true) false).NamesEntities ∧
      (ValueType.list (.reference "Workflow" false) true).NamesEntities ∧
      (ValueType.list (.reference "Workflow" true) false).expression ≠
        (ValueType.list (.reference "Workflow" false) true).expression := by
  have hname : ∀ n m, (ValueType.list (.reference "Workflow" n) m).NamesEntities :=
    fun _ _ => ⟨List.all_eq_true.1 (by decide +kernel), by decide, by decide⟩
  exact ⟨hname _ _, hname _ _, mt (expression_eq_iff (hname _ _) (hname _ _)).1 (by decide)⟩

/-- An entity with the name of a kind is taken for that kind. -/
example : (reference "string" true).expression = (text true).expression := rfl

end ValueType

end WorkflowCatalog.Schema
