/-
  WorkflowCatalog/Proofs/Idempotence.lean
  =======================================
  **Normalising what has been normalised.**  The dump of a canonical workflow, its slug left
  out, is also one of what a manifest says (`ofJson_withoutSlug`).  If the file of that
  manifest is named by the slug, its workflow is the same again:

    * what a manifest may leave out has been filled in, and what is there is kept;
    * the name of the file, its suffix dropped, is the slug;
    * a slug comes from itself letter by letter (`comesFrom_self`), and only one text comes
      from a stem.

  Main statement: `normalises_again`.
-/
import WorkflowCatalog.Proofs.Canonical
import WorkflowCatalog.Proofs.Description
import WorkflowCatalog.Workflow.Json

namespace WorkflowCatalog

open Text

namespace Slug

/-! ### The slug of a slug -/

section

variable {s before gap after : List Char} {c d : Char}

theorem isAsciiAlnum_of_isWordChar (hc : isWordChar c = true) : isAsciiAlnum c = true := by
  unfold isWordChar at hc
  unfold isAsciiAlnum
  rw [Bool.or_comm (isAsciiDigit c), hc, Bool.true_or]

theorem isAsciiUpper_of_isWordChar (hc : isWordChar c = true) : isAsciiUpper c = false := by
  simp only [isWordChar, isAsciiLower, isAsciiDigit, Bool.or_eq_true, Bool.and_eq_true,
    decide_eq_true_eq, Char.le_def, UInt32.le_iff_toNat_le] at hc
  simp only [isAsciiUpper, Bool.and_eq_false_iff, decide_eq_false_iff_not, Char.le_def,
    UInt32.le_iff_toNat_le]
  simp at hc ⊢
  omega

theorem lowerLetter_of_isWordChar (hc : isWordChar c = true) : lowerLetter c = c := by
  unfold lowerLetter
  rw [isAsciiUpper_of_isWordChar hc]
  rfl

/-- The characters of a slug, or of a part of one. -/
def IsSlugChar (c : Char) : Prop := isWordChar c = true ∨ c = '-'

theorem MatchesPattern.chars (h : MatchesPattern s) : ∀ c ∈ s, IsSlugChar c := by
  obtain ⟨first, rest, hfirst, hrest, rfl⟩ := h
  intro c hc
  rcases List.mem_append.1 hc with hc | hc
  · exact .inl (hfirst.2 c hc)
  · obtain ⟨w, hw, hc⟩ := List.mem_flatMap.1 hc
    rcases List.mem_cons.1 hc with rfl | hc
    · exact .inr rfl
    · exact .inl ((hrest w hw).2 c hc)

theorem IsSlugChar.isWordChar (h : IsSlugChar c) (hc : isAsciiAlnum c = true) :
    isWordChar c = true := by
  rcases h with h | rfl
  · exact h
  · revert hc
    decide

/-- Parts of a slug have no capitals, so they lose nothing but hyphens. -/
theorem withoutHyphens_eq_lowered (h : ∀ c ∈ s, IsSlugChar c) : withoutHyphens s = lowered s := by
  induction s with
  | nil => rfl
  | cons c cs ih =>
    rw [List.forall_mem_cons] at h
    rcases h.1 with hc | rfl
    · have halnum := isAsciiAlnum_of_isWordChar hc
      have hkeep := withoutHyphens_lowerLetter halnum cs
      rw [lowered_cons_alnum halnum, ← ih h.2, ← hkeep, lowerLetter_of_isWordChar hc]
    · rw [lowered_cons_other (by decide), ← ih h.2]
      rfl

theorem wellFormedFrom_behind {b : Bool} (hc : isWordChar c = true)
    (h : wellFormedFrom b (before ++ c :: after) = true) : wellFormedFrom false after = true := by
  induction before generalizing b with
  | nil => simpa [wellFormedFrom, hc] using h
  | cons x before ih =>
    rw [List.cons_append, wellFormedFrom] at h
    split at h
    · exact ih h
    · exact ih ((Bool.and_eq_true _ _).mp h).2

/-- Between two letters or digits of a slug that follow one another stands at most one hyphen. -/
theorem MatchesPattern.atMostHyphen (h : MatchesPattern (before ++ c :: (gap ++ d :: after)))
    (hc : isWordChar c = true) (hgap : ∀ x ∈ gap, isWordChar x = false) :
    gap = [] ∨ gap = ['-'] := by
  have hform := wellFormedFrom_behind hc (wellFormedFrom_true_iff.2 h)
  cases gap with
  | nil => exact .inl rfl
  | cons x gap =>
    rw [List.forall_mem_cons] at hgap
    obtain ⟨rfl, hform⟩ : x = '-' ∧ wellFormedFrom true (gap ++ d :: after) = true := by
      simpa [wellFormedFrom, hgap.1] using hform
    cases gap with
    | nil => exact .inr rfl
    | cons y gap =>
      rw [List.forall_mem_cons] at hgap
      have hhyphen : isWordChar '-' = false := by decide
      simp [wellFormedFrom, hgap.2.1] at hform
      simp [hhyphen] at hform

/-- **A slug comes from itself.** -/
theorem comesFrom_self (h : MatchesPattern s) : ComesFrom s s where
  pattern := h
  unknown := by
    intro hnone
    obtain ⟨first, rest, ⟨hne, hfirst⟩, -, rfl⟩ := h
    obtain ⟨c, first, rfl⟩ := List.exists_cons_of_ne_nil hne
    have hc := isAsciiAlnum_of_isWordChar (hfirst c List.mem_cons_self)
    rw [hnone c (by simp)] at hc
    cases hc
  letters := fun _ => withoutHyphens_eq_lowered h.chars
  hyphens := by
    rintro before c gap d after rfl hc hd hgap
    have hchars := h.chars
    have hc' := (hchars c (by simp)).isWordChar hc
    have hd' := (hchars d (by simp)).isWordChar hd
    have hword : ∀ x ∈ gap, isWordChar x = false := by
      intro x hx
      have hother := hgap x hx
      rw [Bool.eq_false_iff] at hother ⊢
      exact mt isAsciiAlnum_of_isWordChar hother
    refine ⟨before, gap, after, ?_, withoutHyphens_eq_lowered fun x hx => hchars x (by simp [hx]),
      withoutHyphens_eq_lowered fun x hx => hchars x (by simp [hx]), h.atMostHyphen hc' hword, ?_⟩
    · rw [lowerLetter_of_isWordChar hc', lowerLetter_of_isWordChar hd']
    · constructor
      · rintro rfl
        exact .inl (by simp)
      -- no word begins at a capital, for there are none
      · rintro (hne | ⟨-, hupper⟩ | ⟨-, hupper, -⟩)
        · exact (h.atMostHyphen hc' hword).resolve_left hne
        · rw [isAsciiUpper_of_isWordChar hd'] at hupper
          cases hupper
        · rw [isAsciiUpper_of_isWordChar hd'] at hupper
          cases hupper

theorem ofStem_self (h : MatchesPattern s) : ofStem s = s :=
  (comesFrom_iff.1 (comesFrom_self h)).symm

/-- A file that is named by a slug, or by a slug and a suffix, has this slug. -/
theorem text_ofFilename {name : String} {t : String} (hname : IsName name)
    (hcut : (Path.cutSuffix '.' name.toList).1 = t.toList) (ht : MatchesPattern t.toList) :
    (ofFilename name).text = t := by
  have hstem : (Path.ofString name).stem = t := by
    rw [Path.stem, Path.name_ofString hname, hcut, String.ofList_toList]
  change String.ofList (ofStem (Path.ofString name).stem.toList) = t
  rw [hstem, ofStem_self ht, String.ofList_toList]

theorem MatchesPattern.notMem (h : MatchesPattern s) (hc : ¬ IsSlugChar c) : c ∉ s :=
  fun hmem => hc (h.chars c hmem)

theorem MatchesPattern.ne_nil (h : MatchesPattern s) : s ≠ [] := by
  rintro rfl
  have hform := wellFormedFrom_true_iff.2 h
  cases hform

/-- **The slug of a slug is itself.** -/
theorem text_ofFilename_self {t : String} (ht : MatchesPattern t.toList) :
    (ofFilename t).text = t := by
  have hdot : '.' ∉ t.toList := ht.notMem (by unfold IsSlugChar; decide)
  refine text_ofFilename ⟨?_, ?_, ht.notMem (by unfold IsSlugChar; decide)⟩ ?_ ht
  · rintro rfl
    exact ht.ne_nil rfl
  · rintro rfl
    exact hdot (by simp)
  · rw [Path.cutSuffix_of_notMem hdot]

/-- **And so is that of a file which is named by a slug.** -/
theorem text_ofFilename_yaml {t : String} (ht : MatchesPattern t.toList) :
    (ofFilename (t ++ ".yaml")).text = t := by
  have hlist : (t ++ ".yaml").toList = t.toList ++ '.' :: ['y', 'a', 'm', 'l'] :=
    String.toList_append
  refine text_ofFilename ⟨?_, ?_, ?_⟩ ?_ ht
  · intro h
    rw [h] at hlist
    simp at hlist
  · intro h
    rw [h] at hlist
    have hlength := congrArg List.length hlist
    simp at hlength
  · rw [hlist, List.mem_append]
    rintro (h | h)
    · exact ht.notMem (by unfold IsSlugChar; decide) h
    · revert h
      decide
  · rw [hlist, Path.cutSuffix_append ht.ne_nil (List.cons_ne_nil _ _) (by decide)]

end

end Slug

namespace Validation

/-! ### Dumps that are read -/

theorem fieldOr_eq_ok {α : Type} {members : Members} {name : String} {v : Json} {fallback x : α}
    {check : Json → Checked α} (hv : Json.lookup name members = some v) (hx : check v = .ok x) :
    fieldOr members name fallback check = .ok x := by
  unfold fieldOr
  rw [hv]
  dsimp only
  rw [hx]
  rfl

theorem nullable_ofText? (t : Option CodeText) : nullable codeText (.ofText? t) = .ok t := by
  cases t <;> rfl

theorem nullable_ofBool? (b : Option Bool) : nullable bool (.ofBool? b) = .ok b := by
  cases b <;> rfl

/-- The dumps of some records, each of which is read as another one. -/
theorem items_map {α β : Type} {check : Json → Checked β} {dump : α → Json} {f : α → β}
    (h : ∀ a, check (dump a) = .ok (f a)) (i : Nat) (as : List α) :
    items check i (as.map dump) = .ok (as.map f) := by
  induction as generalizing i with
  | nil => rfl
  | cons a rest ih =>
    rw [List.map_cons, items, h, ih]
    rfl

theorem nullable_ofTexts? (ts : Option (List CodeText)) :
    nullable (list codeText) (.ofTexts? ts) = .ok ts := by
  cases ts with
  | none => rfl
  | some ts =>
    have hread : ∀ t, codeText (.string t) = .ok (id t) := fun _ => rfl
    change (items codeText 0 (ts.map Json.string)).map some = _
    rw [items_map hread, List.map_id]
    rfl

end Validation

namespace Workflow

open Validation

/-! ### The dump of a workflow as that of a manifest -/

/-- What a manifest says that declares the argument. -/
def declaredArgument (a : WorkflowArgument) : RawArgument :=
  ⟨↑a.name, a.description, a.defaultValue, a.required⟩

/-- What a manifest says that declares the workflow. -/
def declared (w : Workflow) : RawWorkflow where
  name := some w.name
  command := some w.command
  description := w.description
  tags := w.tags
  arguments := w.arguments.map (·.map declaredArgument)
  sourceUrl := w.sourceUrl
  author := w.author
  authorUrl := w.authorUrl
  shells := w.shells

/-- The dump of a workflow, the slug left out. -/
def withoutSlug (w : Workflow) : Json := .obj (w.toJson.members.filter (·.1 != "slug"))

theorem ofJson_argument (a : WorkflowArgument) :
    RawArgument.ofJson a.toJson = .ok (declaredArgument a) := by
  have hdescription : fieldOr a.toJson.members "description" none (nullable codeText) =
      .ok a.description := fieldOr_eq_ok rfl (nullable_ofText? _)
  have hdefault : fieldOr a.toJson.members "default_value" none (nullable codeText) =
      .ok a.defaultValue := fieldOr_eq_ok rfl (nullable_ofText? _)
  have hrequired : fieldOr a.toJson.members "required" none (nullable bool) =
      .ok a.required := fieldOr_eq_ok rfl (nullable_ofBool? _)
  have hread : RawArgument.ofJson a.toJson = RawArgument.mk
      <$> .ok ↑a.name
      <*> fieldOr a.toJson.members "description" none (nullable codeText)
      <*> fieldOr a.toJson.members "default_value" none (nullable codeText)
      <*> fieldOr a.toJson.members "required" none (nullable bool) := rfl
  rw [hread, hdescription, hdefault, hrequired]
  rfl

theorem nullable_arguments (l : Option (List WorkflowArgument)) :
    nullable (list RawArgument.ofJson) (Schema.argumentsJson l) =
      .ok (l.map (·.map declaredArgument)) := by
  cases l with
  | none => rfl
  | some l =>
    change (items RawArgument.ofJson 0 (l.map WorkflowArgument.toJson)).map some = _
    rw [items_map ofJson_argument]
    rfl

theorem lookup_arguments (w : Workflow) :
    Json.lookup "arguments" w.withoutSlug.members = some (Schema.argumentsJson w.arguments) := by
  obtain ⟨_, _, _, _, arguments, _, _, _, _, _⟩ := w
  cases arguments <;> rfl

/-- **The dump of a workflow without its slug is read as what a manifest says.** -/
theorem ofJson_withoutSlug (w : Workflow) : RawWorkflow.ofJson w.withoutSlug = .ok w.declared := by
  have htext : ∀ {name t}, Json.lookup name w.withoutSlug.members = some (.ofText? t) →
      fieldOr w.withoutSlug.members name none (nullable codeText) = .ok t :=
    fun h => fieldOr_eq_ok h (nullable_ofText? _)
  have htexts : ∀ {name ts}, Json.lookup name w.withoutSlug.members = some (.ofTexts? ts) →
      fieldOr w.withoutSlug.members name none (nullable (list codeText)) = .ok ts :=
    fun h => fieldOr_eq_ok h (nullable_ofTexts? _)
  have hname := @htext "name" (some w.name) rfl
  have hcommand := @htext "command" (some w.command) rfl
  have hdescription := @htext "description" w.description rfl
  have htags := @htexts "tags" w.tags rfl
  have harguments : fieldOr w.withoutSlug.members "arguments" none
      (nullable (list RawArgument.ofJson)) = .ok (w.arguments.map (·.map declaredArgument)) :=
    fieldOr_eq_ok (lookup_arguments w) (nullable_arguments _)
  have hsource := @htext "source_url" w.sourceUrl rfl
  have hauthor := @htext "author" w.author rfl
  have hurl := @htext "author_url" w.authorUrl rfl
  have hshells := @htexts "shells" w.shells rfl
  -- the nine fields are all there is, so no key is unknown
  have hread : RawWorkflow.ofJson w.withoutSlug = RawWorkflow.mk
      <$> fieldOr w.withoutSlug.members "name" none (nullable codeText)
      <*> fieldOr w.withoutSlug.members "command" none (nullable codeText)
      <*> fieldOr w.withoutSlug.members "description" none (nullable codeText)
      <*> fieldOr w.withoutSlug.members "tags" none (nullable (list codeText))
      <*> fieldOr w.withoutSlug.members "arguments" none (nullable (list RawArgument.ofJson))
      <*> fieldOr w.withoutSlug.members "source_url" none (nullable codeText)
      <*> fieldOr w.withoutSlug.members "author" none (nullable codeText)
      <*> fieldOr w.withoutSlug.members "author_url" none (nullable codeText)
      <*> fieldOr w.withoutSlug.members "shells" none (nullable (list codeText)) := rfl
  rw [hread, hname, hcommand, hdescription, htags, harguments, hsource, hauthor, hurl, hshells]
  rfl

/-! ### Normalising again -/

/-- In a canonical workflow every argument has its mark. -/
theorem isArgumentOf_declaredArgument {a : RawArgument} {w : WorkflowArgument}
    (h : IsArgumentOf a w) : IsArgumentOf (declaredArgument w) w where
  name := rfl
  name_ne := w.name_ne
  description := rfl
  defaultValue := rfl
  required := by
    rw [declaredArgument, h.required]
    rfl

theorem forall₂_declaredArgument {as : List RawArgument} {ws : List WorkflowArgument}
    (h : List.Forall₂ IsArgumentOf as ws) :
    List.Forall₂ IsArgumentOf (ws.map declaredArgument) ws := by
  induction h with
  | nil => exact .nil
  | cons hw _ ih => exact .cons (isArgumentOf_declaredArgument hw) ih

theorem rel_declaredArgument {as : Option (List RawArgument)} {ws : Option (List WorkflowArgument)}
    (h : Option.Rel (List.Forall₂ IsArgumentOf) as ws) :
    Option.Rel (List.Forall₂ IsArgumentOf) (ws.map (·.map declaredArgument)) ws := by
  cases h with
  | none => exact .none
  | some hws => exact .some (forall₂_declaredArgument hws)

/-- **A canonical workflow is that of what it declares**, in the file that its slug names. -/
theorem isCanonicalOf_declared {raw : RawWorkflow} {filename : String} {w : Workflow}
    (h : IsCanonicalOf raw filename w) : IsCanonicalOf w.declared (w.slug.text ++ ".yaml") w where
  slug := by
    refine Collection.slugText_inj ?_
    rw [Slug.text_ofFilename_yaml h.pattern]
  pattern := h.pattern
  name := rfl
  command := rfl
  arguments := rel_declaredArgument h.arguments
  description := rfl
  tags := rfl
  sourceUrl := rfl
  author := rfl
  authorUrl := rfl
  shells := rfl

/-- **What has been normalised is normalised to itself**, and slugs are the slugs of themselves
    and of the files that they name. -/
theorem normalises_again :
    (∀ raw filename w, normalize raw filename = .ok w →
      ∃ again, RawWorkflow.ofJson w.withoutSlug = .ok again ∧
        normalize again (w.slug.text ++ ".yaml") = .ok w) ∧
    ∀ s : String, Slug.MatchesPattern s.toList →
      (Slug.ofFilename s).text = s ∧ (Slug.ofFilename (s ++ ".yaml")).text = s := by
  refine ⟨?_, fun s hs => ⟨Slug.text_ofFilename_self hs, Slug.text_ofFilename_yaml hs⟩⟩
  intro raw filename w h
  refine ⟨w.declared, ofJson_withoutSlug w, ?_⟩
  exact normalize_eq_ok_iff.2 (isCanonicalOf_declared (normalize_eq_ok_iff.1 h))

/-- The workflow has been given its name and the mark of its first argument. -/
theorem normalises_again_listFiles :
    ∃ w, normalize nameTold "listFiles.yaml" = .ok w ∧ w.name = ↑"list-files" ∧
      (∃ again, RawWorkflow.ofJson w.withoutSlug = .ok again ∧ again ≠ nameTold ∧
        normalize again (w.slug.text ++ ".yaml") = .ok w) ∧
      Slug.MatchesPattern "list-files".toList ∧
      (Slug.ofFilename "list-files").text = "list-files" := by
  obtain ⟨w, hw⟩ : ∃ w, normalize nameTold "listFiles.yaml" = .ok w := ⟨_, rfl⟩
  have hname : w.name = ↑"list-files" := by
    rw [(normalize_eq_ok_iff.1 hw).name, (normalize_eq_ok_iff.1 hw).slug]
    decide +kernel
  have hslug : Slug.MatchesPattern "list-files".toList :=
    Slug.wellFormedFrom_true_iff.1 (by decide +kernel)
  obtain ⟨again, hread, hagain⟩ := normalises_again.1 _ _ _ hw
  refine ⟨w, hw, hname, ⟨again, hread, ?_, hagain⟩, hslug, (normalises_again.2 _ hslug).1⟩
  rw [ofJson_withoutSlug] at hread
  rintro rfl
  cases hread

end Workflow

end WorkflowCatalog
