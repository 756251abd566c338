/-
  WorkflowCatalog/Proofs/Canonical.lean
  =====================================
  **What a manifest says becomes a canonical workflow.**  The workflow of what a manifest
  says keeps every field that is there.  It has a name, a command and a slug, and every
  argument that is declared, in order, with a mark of its own (`IsCanonicalOf`).  Nothing
  else is the outcome of normalisation (`normalize_eq_ok_iff`).

  What a manifest says is less narrow than a workflow: the name of an argument may hold
  halves of surrogate pairs there, and no argument of a workflow has such a name.  Reading a
  manifest does not look at this, though it does see to it that no name is empty.  So
  normalisation fails for some manifests that have been read, and for this reason only.

  Main statement: `canonicalises_iff`.
-/
import WorkflowCatalog.Proofs.Isolation
import WorkflowCatalog.Proofs.PerFile
import WorkflowCatalog.Proofs.Policies
import WorkflowCatalog.Proofs.SlugDerivation

namespace WorkflowCatalog.Workflow

open Manifest (Options parse)
open Text (CodeText)
open Validation (Mismatch)

/-! ### Canonical records -/

/-- The argument of a workflow for one that a manifest declares. -/
structure IsArgumentOf (a : RawArgument) (w : WorkflowArgument) : Prop where
  name : a.name = ↑w.name
  name_ne : w.name ≠ ""
  description : w.description = a.description
  defaultValue : w.defaultValue = a.defaultValue
  required : w.required = some (a.required.getD true)

/-- The workflow for what the manifest with a file name says. -/
structure IsCanonicalOf (raw : RawWorkflow) (filename : String) (w : Workflow) : Prop where
  /-- The slug comes from the file name alone, whatever the manifest says. -/
  slug : w.slug = Slug.ofFilename filename
  pattern : Slug.MatchesPattern w.slug.text.toList
  name : w.name = raw.name.getD w.slug.text
  command : w.command = raw.command.getD ""
  /-- There are arguments if some are declared, and then all of them in order. -/
  arguments : Option.Rel (List.Forall₂ IsArgumentOf) raw.arguments w.arguments
  description : w.description = raw.description
  tags : w.tags = raw.tags
  sourceUrl : w.sourceUrl = raw.sourceUrl
  author : w.author = raw.author
  authorUrl : w.authorUrl = raw.authorUrl
  shells : w.shells = raw.shells

/-! ### What normalisation gives -/

section

variable {a : RawArgument} {as : List RawArgument} {w : WorkflowArgument}
  {ws : List WorkflowArgument} {raw : RawWorkflow} {filename : String} {m : Mismatch}

theorem normalizeArgument_eq_ok_iff : normalizeArgument a = .ok w ↔ IsArgumentOf a w := by
  unfold normalizeArgument
  constructor
  · intro h
    cases hs : a.name.toString? with
    | none =>
      rw [hs] at h
      cases h
    | some s =>
      rw [hs] at h
      dsimp only at h
      split at h
      · cases h
      · rename_i hne
        cases h
        exact ⟨(CodeText.ofString_of_toString? hs).symm, hne, rfl, rfl, rfl⟩
  · intro h
    obtain ⟨name, description, defaultValue, required, name_ne⟩ := w
    obtain ⟨hname, -, hdescription, hdefault, hrequired⟩ := h
    dsimp only at hname hdescription hdefault hrequired
    subst hdescription hdefault hrequired
    rw [hname, CodeText.toString?_ofString]
    dsimp only
    rw [dif_neg name_ne]

theorem normalizeArguments_eq_ok_iff :
    normalizeArguments as = .ok ws ↔ List.Forall₂ IsArgumentOf as ws := by
  induction as generalizing ws with
  | nil =>
    rw [List.forall₂_nil_left_iff]
    constructor
    · rintro ⟨⟩
      rfl
    · rintro rfl
      rfl
  | cons a rest ih =>
    constructor
    · intro h
      obtain ⟨w, hw, h⟩ := bind_eq_ok.1 h
      obtain ⟨ws', hws', h⟩ := bind_eq_ok.1 h
      cases h
      exact .cons (normalizeArgument_eq_ok_iff.1 hw) (ih.1 hws')
    · intro h
      obtain ⟨w, ws', hw, hws', rfl⟩ := List.forall₂_cons_left_iff.1 h
      refine bind_eq_ok.2 ⟨w, normalizeArgument_eq_ok_iff.2 hw, ?_⟩
      exact bind_eq_ok.2 ⟨ws', ih.2 hws', rfl⟩

/-- The workflow with the arguments that have been normalised. -/
def withArguments (raw : RawWorkflow) (filename : String)
    (arguments : Option (List WorkflowArgument)) : Workflow where
  name := raw.name.getD (Slug.ofFilename filename).text
  command := raw.command.getD ""
  description := raw.description
  tags := raw.tags
  arguments
  sourceUrl := raw.sourceUrl
  author := raw.author
  authorUrl := raw.authorUrl
  shells := raw.shells
  slug := .ofFilename filename

theorem isCanonicalOf_iff {w : Workflow} : IsCanonicalOf raw filename w ↔
    ∃ args, Option.Rel (List.Forall₂ IsArgumentOf) raw.arguments args ∧
      withArguments raw filename args = w := by
  constructor
  · rintro ⟨hslug, -, hname, hcommand, harguments, hdescription, htags, hsource, hauthor, hurl,
      hshells⟩
    refine ⟨w.arguments, harguments, ?_⟩
    obtain ⟨name, command, description, tags, arguments, sourceUrl, author, authorUrl, shells,
      slug⟩ := w
    dsimp only at *
    subst hslug hname hcommand hdescription htags hsource hauthor hurl hshells
    rfl
  · rintro ⟨args, harguments, rfl⟩
    have hpattern : Slug.MatchesPattern (Slug.ofFilename filename).text.toList :=
      Slug.wellFormedFrom_true_iff.1 (Slug.ofFilename filename).text_ok
    exact ⟨rfl, hpattern, rfl, rfl, harguments, rfl, rfl, rfl, rfl, rfl, rfl⟩

/-- **The outcome of normalisation** is the canonical workflow, and no other one. -/
theorem normalize_eq_ok_iff {w : Workflow} :
    normalize raw filename = .ok w ↔ IsCanonicalOf raw filename w := by
  rw [isCanonicalOf_iff]
  unfold normalize
  cases hraw : raw.arguments with
  | none =>
    constructor
    · rintro ⟨⟩
      exact ⟨none, .none, rfl⟩
    · rintro ⟨args, hargs, rfl⟩
      cases hargs
      rfl
  | some as =>
    dsimp only
    constructor
    · intro h
      cases hws : normalizeArguments as with
      | error m =>
        rw [hws] at h
        cases h
      | ok ws =>
        rw [hws] at h
        cases h
        exact ⟨some ws, .some (normalizeArguments_eq_ok_iff.1 hws), rfl⟩
    · rintro ⟨args, hargs, rfl⟩
      cases hargs with
      | some hws =>
        rw [normalizeArguments_eq_ok_iff.2 hws]
        rfl

/-! ### What normalisation fails for -/

theorem eq_notUnicode_of_normalizeArgument (ha : a.name.isEmpty = false)
    (h : normalizeArgument a = .error m) : m = argumentNameMismatch .notUnicode := by
  unfold normalizeArgument at h
  cases hs : a.name.toString? with
  | none =>
    rw [hs] at h
    exact (Except.error.inj h).symm
  | some s =>
    rw [hs] at h
    dsimp only at h
    split at h
    · rename_i hempty
      subst hempty
      rw [CodeText.isEmpty, CodeText.points_eq_nil hs] at ha
      cases ha
    · cases h

theorem eq_notUnicode_of_normalizeArguments (has : ∀ a ∈ as, a.name.isEmpty = false)
    (h : normalizeArguments as = .error m) : m = argumentNameMismatch .notUnicode := by
  induction as with
  | nil => cases h
  | cons a rest ih =>
    rw [List.forall_mem_cons] at has
    rcases bind_eq_error.1 h with hfirst | ⟨w, -, h⟩
    · exact eq_notUnicode_of_normalizeArgument has.1 hfirst
    rcases bind_eq_error.1 h with hrest | ⟨ws, -, h⟩
    · exact ih has.2 hrest
    · cases h

theorem eq_notUnicode_of_normalize (has : ∀ a ∈ raw.arguments.getD [], a.name.isEmpty = false)
    (h : normalize raw filename = .error m) : m = argumentNameMismatch .notUnicode := by
  unfold normalize at h
  cases hraw : raw.arguments with
  | none =>
    rw [hraw] at h
    cases h
  | some as =>
    rw [hraw] at h has
    dsimp only at h
    cases hws : normalizeArguments as with
    | error m' =>
      rw [hws] at h
      cases h
      exact eq_notUnicode_of_normalizeArguments has hws
    | ok ws =>
      rw [hws] at h
      cases h

end

/-! ### What a manifest says -/

/-- There is a workflow for what the manifest says, and it is the canonical one. -/
def Canonicalises (raw : RawWorkflow) (filename : String) : Prop :=
  ∃ w, normalize raw filename = .ok w ∧ IsCanonicalOf raw filename w

/-- **What has been read of a manifest has a canonical workflow** exactly if the names of its
    arguments are strings, and normalisation fails for no other reason. -/
theorem canonicalises_iff {options : Options} {file text : String} {raw : RawWorkflow}
    (h : (parse options file text).outcome = .ok raw) (filename : String) :
    (Canonicalises raw filename ↔
      ∀ a ∈ raw.arguments.getD [], a.name.toString?.isSome = true) ∧
    ∀ m, normalize raw filename = .error m → m = argumentNameMismatch .notUnicode := by
  have hnames : ∀ a ∈ raw.arguments.getD [], a.name.isEmpty = false :=
    fun a ha => Manifest.name_of_parse h ha
  refine ⟨?_, fun m hm => eq_notUnicode_of_normalize hnames hm⟩
  have hnormal : (∃ w, normalize raw filename = .ok w) ↔
      ∀ a ∈ raw.arguments.getD [], a.name.toString?.isSome = true := exists_normalize hnames
  rw [← hnormal]
  exact exists_congr fun w => and_iff_left_of_imp normalize_eq_ok_iff.1

/-- A manifest with an argument of which nothing but the name is told. -/
def tellingName : String :=
  "command: ls\narguments:\n- name: depth\n- name: all\n  required: no\n  default_value: 1\n"

/-- What it says. -/
def nameTold : RawWorkflow :=
  { Manifest.nothingDeclared with
    command := some "ls"
    arguments := some [⟨"depth", none, none, none⟩, ⟨"all", none, some "1", some false⟩] }

theorem canonicalises_nameTold :
    (parse ⟨.refuse, true⟩ "d/listFiles.yaml" tellingName).outcome = .ok nameTold ∧
      Canonicalises nameTold "listFiles.yaml" := by
  have h : (parse ⟨.refuse, true⟩ "d/listFiles.yaml" tellingName).outcome = .ok nameTold := by
    decide +kernel
  exact ⟨h, (canonicalises_iff h "listFiles.yaml").1.2 (by decide +kernel)⟩

/-- What a manifest says whose only argument is named by half a surrogate pair. -/
def halfDeclared : RawWorkflow :=
  { Manifest.nothingDeclared with
    arguments := some [⟨⟨(Text.CodePoint.ofNumber? 0xd800).toList⟩, none, none, none⟩] }

/-- The manifest is read, strictly too, and has no workflow, whatever the name of its file. -/
theorem not_canonicalises_halfDeclared :
    (parse ⟨.refuse, true⟩ "d/m.yaml" "arguments:\n- name: \"\\ud800\"\n").outcome =
        .ok halfDeclared ∧
      ∀ filename, normalize halfDeclared filename = .error (argumentNameMismatch .notUnicode) ∧
        ¬ Canonicalises halfDeclared filename := by
  refine ⟨by decide +kernel, fun filename => ?_⟩
  have herror : normalize halfDeclared filename = .error (argumentNameMismatch .notUnicode) := rfl
  refine ⟨herror, ?_⟩
  rintro ⟨w, hw, -⟩
  rw [herror] at hw
  cases hw

end WorkflowCatalog.Workflow
