/-
  WorkflowCatalog/Proofs/Encoding.lean
  ====================================
  **Which texts have a UTF-8 form.**  A text has one exactly if no half of a surrogate
  pair stands in it (`utf8_ne_none_iff`), so texts that are put together from strings can
  always be written to a file.  A JSON document is whole if all strings in its value are
  (`isWhole_pretty`).
-/
import WorkflowCatalog.Artifact.Emit

namespace WorkflowCatalog

namespace Text.CodeText

/-- No code point of the text is a half. -/
def IsWhole (t : CodeText) : Prop := ∀ p ∈ t.points, p.char? ≠ none

theorem mapM_char_ne_none_iff {ps : List CodePoint} :
    ps.mapM CodePoint.char? ≠ none ↔ ∀ p ∈ ps, p.char? ≠ none := by
  induction ps with
  | nil => simp
  | cons p ps ih =>
    rw [List.forall_mem_cons, ← ih, List.mapM_cons]
    cases p.char? with
    | none => simp
    | some c => cases ps.mapM CodePoint.char? <;> simp

/-- **A text has a UTF-8 form exactly if it is whole.** -/
theorem utf8_ne_none_iff {t : CodeText} : t.utf8? ≠ none ↔ t.IsWhole := by
  unfold utf8? toString? chars? IsWhole
  rw [← mapM_char_ne_none_iff]
  cases t.points.mapM CodePoint.char? <;> simp

theorem isWhole_ofString (s : String) : (ofString s).IsWhole := by
  intro p hp
  obtain ⟨c, -, rfl⟩ := List.mem_map.1 hp
  nofun

/-- A whole text is that of a string. -/
theorem IsWhole.exists_ofString {t : CodeText} (h : t.IsWhole) : ∃ s : String, t = ofString s := by
  obtain ⟨ps⟩ := t
  have hchars : ∃ cs : List Char, ps = ofChars cs := by
    induction ps with
    | nil => exact ⟨[], rfl⟩
    | cons p ps ih =>
      obtain ⟨cs, rfl⟩ := ih fun q hq => h q (List.mem_cons_of_mem _ hq)
      cases p with
      | char c => exact ⟨c :: cs, rfl⟩
      | half n => exact absurd rfl (h _ List.mem_cons_self)
  obtain ⟨cs, rfl⟩ := hchars
  exact ⟨String.ofList cs, by rw [ofString, String.toList_ofList]⟩

theorem isWhole_append {t u : CodeText} (ht : t.IsWhole) (hu : u.IsWhole) : (t ++ u).IsWhole := by
  intro p hp
  rcases List.mem_append.1 hp with hp | hp
  · exact ht p hp
  · exact hu p hp

theorem isWhole_join {separator : CodeText} {ts : List CodeText} (h : separator.IsWhole)
    (hts : ∀ t ∈ ts, t.IsWhole) : (join separator ts).IsWhole := by
  unfold join
  induction ts with
  | nil => exact nofun
  | cons t rest ih =>
    rw [List.forall_mem_cons] at hts
    cases rest with
    | nil =>
      intro p hp
      apply hts.1 p
      simpa using hp
    | cons u us =>
      intro p hp
      rw [List.map_cons, List.map_cons, List.intersperse_cons_cons, List.flatten_cons,
        List.flatten_cons, List.mem_append, List.mem_append] at hp
      rcases hp with hp | hp | hp
      · exact hts.1 p hp
      · exact h p hp
      · exact ih hts.2 p hp

end Text.CodeText

namespace Json

open Text (CodePoint CodeText ofChars)
open Text.CodeText

/-! ### Documents -/

mutual

/-- No string in a value holds half of a surrogate pair. -/
def isWhole : Json → Bool
  | .string t => t.points.all fun p => p.char?.isSome
  | .arr xs => areWhole xs
  | .obj ms => haveWhole ms
  | _ => true

def areWhole : List Json → Bool
  | [] => true
  | x :: xs => isWhole x && areWhole xs

/-- The values of members are whole; their keys always are. -/
def haveWhole : List (String × Json) → Bool
  | [] => true
  | (_, v) :: ms => isWhole v && haveWhole ms

end

theorem isWhole_ofChars (cs : List Char) : IsWhole ⟨ofChars cs⟩ := by
  intro p hp
  obtain ⟨c, -, rfl⟩ := List.mem_map.1 hp
  nofun

theorem isWhole_nil : IsWhole ⟨[]⟩ := fun _ hp => absurd hp List.not_mem_nil

theorem isWhole_cons (c : Char) {ps : List CodePoint} (h : IsWhole ⟨ps⟩) :
    IsWhole ⟨.char c :: ps⟩ :=
  List.forall_mem_cons.2 ⟨nofun, h⟩

theorem isWhole_points {ps qs : List CodePoint} (hp : IsWhole ⟨ps⟩) (hq : IsWhole ⟨qs⟩) :
    IsWhole ⟨ps ++ qs⟩ :=
  isWhole_append hp hq

theorem isWhole_quoted {t : CodeText} (h : t.IsWhole) : IsWhole ⟨quoted t⟩ := by
  refine isWhole_points (isWhole_cons _ fun q hq => ?_) (isWhole_cons _ isWhole_nil)
  obtain ⟨p, hp, hq⟩ := List.mem_flatMap.1 hq
  cases p with
  | char c => exact isWhole_ofChars _ q hq
  | half n => exact absurd rfl (h _ hp)

theorem isWhole_newLine (level : Nat) : IsWhole ⟨newLine level⟩ := isWhole_ofChars _

mutual

/-- **A document is whole if the strings in it are.** -/
theorem isWhole_pretty (level : Nat) (v : Json) (h : v.isWhole = true) :
    IsWhole ⟨pretty level v⟩ := by
  cases v with
  | null => exact isWhole_ofChars _
  | bool b => cases b <;> exact isWhole_ofChars _
  | int n => exact isWhole_ofChars _
  | float x => exact isWhole_ofChars _
  | string t =>
    apply isWhole_quoted
    intro p hp
    exact Option.isSome_iff_ne_none.1 (List.all_eq_true.1 h p hp)
  | arr xs =>
    cases xs with
    | nil => exact isWhole_ofChars _
    | cons x xs =>
      obtain ⟨hx, hxs⟩ := (Bool.and_eq_true _ _).mp h
      refine isWhole_points (isWhole_points ?_ (isWhole_newLine level)) (isWhole_cons _ isWhole_nil)
      refine isWhole_points (isWhole_cons _ ?_) (isWhole_prettyItems (level + 1) xs hxs)
      exact isWhole_points (isWhole_newLine _) (isWhole_pretty (level + 1) x hx)
  | obj ms =>
    cases ms with
    | nil => exact isWhole_ofChars _
    | cons m ms =>
      obtain ⟨k, v⟩ := m
      obtain ⟨hv, hms⟩ := (Bool.and_eq_true _ _).mp h
      refine isWhole_points (isWhole_points ?_ (isWhole_newLine level)) (isWhole_cons _ isWhole_nil)
      refine isWhole_points ?_ (isWhole_prettyMembers (level + 1) ms hms)
      refine isWhole_points (isWhole_points (isWhole_cons _ ?_) (isWhole_ofChars _))
        (isWhole_pretty (level + 1) v hv)
      exact isWhole_points (isWhole_newLine _) (isWhole_quoted (isWhole_ofString k))

theorem isWhole_prettyItems (level : Nat) (xs : List Json) (h : areWhole xs = true) :
    IsWhole ⟨prettyItems level xs⟩ := by
  cases xs with
  | nil => exact isWhole_nil
  | cons x xs =>
    obtain ⟨hx, hxs⟩ := (Bool.and_eq_true _ _).mp h
    refine isWhole_points (isWhole_cons _ ?_) (isWhole_prettyItems level xs hxs)
    exact isWhole_points (isWhole_newLine level) (isWhole_pretty level x hx)

theorem isWhole_prettyMembers (level : Nat) (ms : List (String × Json))
    (h : haveWhole ms = true) : IsWhole ⟨prettyMembers level ms⟩ := by
  cases ms with
  | nil => exact isWhole_nil
  | cons m ms =>
    obtain ⟨k, v⟩ := m
    obtain ⟨hv, hms⟩ := (Bool.and_eq_true _ _).mp h
    refine isWhole_points ?_ (isWhole_prettyMembers level ms hms)
    refine isWhole_points (isWhole_points (isWhole_cons _ ?_) (isWhole_ofChars _))
      (isWhole_pretty level v hv)
    exact isWhole_points (isWhole_newLine level) (isWhole_quoted (isWhole_ofString k))

end

theorem utf8_of_isWhole {v : Json} (h : v.isWhole = true) : v.document.utf8? ≠ none :=
  utf8_ne_none_iff.2 (isWhole_append (isWhole_pretty 0 v h) (isWhole_ofString _))

end Json

namespace Artifact

open Text (CodeText)
open Text.CodeText

/-- The data module is whole if the three documents in it are. -/
theorem isWhole_dataModule {config : Config} {c : Collection} (hworkflows : c.workflowsJson.text.IsWhole)
    (hsearch : c.searchIndexJson.text.IsWhole) (htags : (Json.ofTexts c.tags).text.IsWhole) :
    (dataModule config c).IsWhole := by
  have hconstant : ∀ (name type : String) (value : Json), value.text.IsWhole →
      (constant name type value).IsWhole := by
    intro name type value h
    exact isWhole_append (isWhole_append (isWhole_ofString _) h) (isWhole_ofString _)
  refine isWhole_append (isWhole_join (isWhole_ofString _) ?_) (isWhole_ofString _)
  intro t ht
  rcases List.mem_append.1 ht with ht | ht
  · simp only [List.mem_cons, List.not_mem_nil, or_false] at ht
    rcases ht with rfl | rfl | rfl | rfl | rfl
    · exact isWhole_ofString _
    · exact hconstant _ _ _ hworkflows
    · exact hconstant _ _ _ hsearch
    · exact hconstant _ _ _ htags
    · exact isWhole_ofString _
  · obtain ⟨s, -, rfl⟩ := List.mem_map.1 ht
    exact isWhole_ofString s

/-- All texts have a UTF-8 form if the documents in them are whole. -/
theorem utf8_of_texts {config : Config} {c : Collection} (hworkflows : c.workflowsJson.text.IsWhole)
    (hsearch : c.searchIndexJson.text.IsWhole) (htags : (Json.ofTexts c.tags).text.IsWhole)
    (hschema : config.schemaFile = none) : ∀ t ∈ (texts config c).list, t.utf8? ≠ none := by
  unfold texts Texts.list
  rw [hschema]
  intro t ht
  rw [utf8_ne_none_iff]
  simp only [Option.map_none, Option.toList_none, List.append_nil, List.mem_cons, List.not_mem_nil,
    or_false] at ht
  rcases ht with rfl | rfl | rfl
  · exact isWhole_dataModule hworkflows hsearch htags
  · exact isWhole_ofString _
  · exact isWhole_append hsearch (isWhole_ofString _)

/-- The texts of the collection without workflows. -/
theorem utf8_of_empty {config : Config} (hschema : config.schemaFile = none) :
    ∀ t ∈ (texts config .empty).list, t.utf8? ≠ none :=
  have hnil : (Json.arr []).text.IsWhole := isWhole_ofString "[]"
  utf8_of_texts hnil hnil hnil hschema

theorem utf8_of_schema : (Json.document Schema.collectionSchema).utf8? ≠ none :=
  Json.utf8_of_isWhole (by decide +kernel)

end Artifact

end WorkflowCatalog
