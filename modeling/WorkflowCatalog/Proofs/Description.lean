/-
  WorkflowCatalog/Proofs/Description.lean
  =======================================
  **The exported schema describes the collections.**  The list of entities is kept by
  hand, apart from the records; that the two agree is shown entity by entity.  A value has
  the type of a field exactly if it is the dump of what the field can hold
  (`admits_text`, `admits_texts` and so on), so an object that the entity admits has a
  record with that dump, and the other way round.

  The schema knows nothing of three things: slugs have a form, and the name of an argument
  is neither empty nor does it hold half a surrogate pair.  Main statement: a value with
  these three properties fits the schema exactly if it is the dump of a collection, up to
  the order of keys (`describes_collections`).
-/
import WorkflowCatalog.Proofs.Encoding
import WorkflowCatalog.Proofs.KeyOrder
import WorkflowCatalog.Schema.Catalog
import WorkflowCatalog.Workflow.Json

namespace WorkflowCatalog.Schema

open Json (Same DistinctKeys same_null same_bool same_string same_records_iff same_orNull_iff
  same_obj_iff)
open Text (CodeText)

/-! ### Entities -/

theorem nodup_fieldNames : ∀ e ∈ entities, e.fieldNames.Nodup := by decide

theorem definition?_collectionSchema :
    ∀ e ∈ entities, definition? collectionSchema e.name = some e.schema := by
  intro e he
  simp only [entities, List.mem_cons, List.not_mem_nil, or_false] at he
  rcases he with rfl | rfl | rfl | rfl <;> rfl

/-- The definition of an entity is fit by its objects. -/
theorem isA_iff {e : Entity} (he : e ∈ entities) {v : Json} (hv : DistinctKeys v) :
    IsA collectionSchema e.name v ↔ e.Admits (IsA collectionSchema) v := by
  rw [← isReading_fits.entity (nodup_fieldNames e he) rfl hv.keys]
  unfold IsA
  rw [definition?_collectionSchema e he]
  simp [Entity.schema]

/-- The document as a whole is fit by the objects of the root entity. -/
theorem validates_iff {v : Json} (hv : DistinctKeys v) :
    Validates collectionSchema v ↔ collectionEntity.Admits (IsA collectionSchema) v := by
  have hroot : collectionSchema.members.filter isAssertion =
      collectionEntity.schemaMembers.filter isAssertion := rfl
  exact isReading_fits.entity (by decide) hroot hv.keys

/-! ### Types of fields -/

section

variable {isA : String → Json → Prop} {v : Json}

theorem admits_text : (ValueType.text false).Admits isA v ↔ ∃ t, Same (.string t) v := by
  simp [ValueType.Admits, same_string]

theorem admits_textOrNull : textOrNull.Admits isA v ↔ ∃ t, Same (.ofText? t) v := by
  rw [← same_orNull_iff Json.ofText? rfl (fun _ => rfl) (@admits_text isA v)]
  simp [textOrNull, ValueType.Admits]

theorem admits_truthOrNull :
    (ValueType.truth true).Admits isA v ↔ ∃ b, Same (.ofBool? b) v := by
  have hbool : (∃ b, v = .bool b) ↔ ∃ b, Same (.bool b) v := by simp [same_bool]
  rw [← same_orNull_iff Json.ofBool? rfl (fun _ => rfl) hbool]
  simp [ValueType.Admits]

theorem admits_texts : texts.Admits isA v ↔ ∃ ts, Same (.ofTexts ts) v := by
  have hrecords := same_records_iff (v := v) fun y _ => @admits_text isA y
  simpa [texts, ValueType.listOf, ValueType.Admits, Json.ofTexts] using hrecords

theorem admits_textsOrNull : texts.orNull.Admits isA v ↔ ∃ ts, Same (.ofTexts? ts) v := by
  rw [← same_orNull_iff Json.ofTexts? rfl (fun _ => rfl) (@admits_texts isA v)]
  simp [texts, ValueType.listOf, ValueType.orNull, ValueType.Admits]

end

/-! ### Parts of a collection -/

/-- The values under a key of an object. -/
def valuesAt (key : String) (v : Json) : List Json := (v.members.filter (·.1 == key)).map (·.2)

theorem mem_valuesAt {key : String} {v x : Json} : x ∈ valuesAt key v ↔ (key, x) ∈ v.members := by
  simp [valuesAt]

def workflowsIn (v : Json) : List Json := (valuesAt "workflows" v).flatMap Json.items

def argumentsIn (w : Json) : List Json := (valuesAt "arguments" w).flatMap Json.items

/-- The slugs of the workflows. -/
def slugsIn (v : Json) : List Json := (workflowsIn v).flatMap (valuesAt "slug")

/-- The names of the arguments of the workflows. -/
def argumentNamesIn (v : Json) : List Json :=
  ((workflowsIn v).flatMap argumentsIn).flatMap (valuesAt "name")

def IsSlug (x : Json) : Prop := ∃ s : String, x = .str s ∧ Slug.wellFormed s = true

/-- The name is not empty, and no half of a surrogate pair stands in it. -/
def IsArgumentName (x : Json) : Prop := x ≠ .str "" ∧ ∀ t, x = .string t → t.IsWhole

theorem isArgumentName_iff {t : CodeText} :
    IsArgumentName (.string t) ↔ ∃ s : String, s ≠ "" ∧ t = .ofString s := by
  constructor
  · rintro ⟨hne, hwhole⟩
    obtain ⟨s, rfl⟩ := (hwhole t rfl).exists_ofString
    refine ⟨s, ?_, rfl⟩
    rintro rfl
    exact hne rfl
  · rintro ⟨s, hne, rfl⟩
    refine ⟨fun h => hne (Json.str_inj h), ?_⟩
    rintro t ⟨⟩
    exact CodeText.isWhole_ofString s

/-! ### Records -/

section

variable {v : Json}

theorem mem_entities_argument : argumentEntity ∈ entities := by decide

theorem mem_entities_workflow : workflowEntity ∈ entities := by decide

theorem mem_entities_searchEntry : searchEntryEntity ∈ entities := by decide

theorem mem_entities_collection : collectionEntity ∈ entities := by decide

/-- What is the same as the dump of a record is an object with the fields of its entity, and
    the same values under them. -/
theorem same_dump_iff {e : Entity} (he : e ∈ entities) {ms : List (String × Json)}
    (hms : ms.map (·.1) = e.fieldNames) (hv : DistinctKeys v) :
    Same (.obj ms) v ↔ ∃ ns, v = .obj ns ∧ (∀ n ∈ ns, n.1 ∈ e.fieldNames) ∧
      ∀ m ∈ ms, ∃ x, (m.1, x) ∈ ns ∧ Same m.2 x := by
  have hnodup : (ms.map (·.1)).Nodup := by
    rw [hms]
    exact nodup_fieldNames e he
  rw [← hms]
  constructor
  · intro h
    obtain ⟨ns, rfl⟩ := h.exists_obj
    exact ⟨ns, rfl, (same_obj_iff hnodup hv.keys).1 h⟩
  · rintro ⟨ns, rfl, h⟩
    exact (same_obj_iff hnodup hv.keys).2 h

/-- There is one value under a key. -/
theorem eq_of_mem_valuesAt {ns : List (String × Json)} (hns : DistinctKeys (.obj ns))
    {key : String} {x y : Json} (hx : (key, x) ∈ ns) (hy : y ∈ valuesAt key (.obj ns)) : y = x :=
  congrArg Prod.snd (List.inj_on_of_nodup_map hns.keys (mem_valuesAt.1 hy) hx rfl)

/-- **Arguments.** -/
theorem argument_iff (hv : DistinctKeys v) :
    (IsA collectionSchema "WorkflowArgument" v ∧ ∀ n ∈ valuesAt "name" v, IsArgumentName n) ↔
      ∃ a : WorkflowArgument, Same a.toJson v := by
  have hisA := isA_iff mem_entities_argument hv
  change IsA collectionSchema "WorkflowArgument" v ↔ _ at hisA
  rw [hisA]
  constructor
  · rintro ⟨⟨ns, rfl, hkeys, hfields⟩, hname⟩
    simp only [argumentEntity, List.forall_mem_cons] at hfields
    obtain ⟨⟨n, hn, hn'⟩, ⟨d, hd, hd'⟩, ⟨u, hu, hu'⟩, ⟨r, hr, hr'⟩, -⟩ := hfields
    obtain ⟨name, hn'⟩ := admits_text.1 hn'
    rw [same_string] at hn'
    subst hn'
    obtain ⟨name, hne, rfl⟩ := isArgumentName_iff.1 (hname _ (mem_valuesAt.2 hn))
    obtain ⟨description, hd'⟩ := admits_textOrNull.1 hd'
    obtain ⟨value, hu'⟩ := admits_textOrNull.1 hu'
    obtain ⟨required, hr'⟩ := admits_truthOrNull.1 hr'
    refine ⟨⟨name, description, value, required, hne⟩, ?_⟩
    refine (same_dump_iff mem_entities_argument rfl hv).2 ⟨ns, rfl, hkeys, ?_⟩
    simp only [List.forall_mem_cons]
    exact ⟨⟨_, hn, .string _⟩, ⟨d, hd, hd'⟩, ⟨u, hu, hu'⟩, ⟨r, hr, hr'⟩, nofun⟩
  · rintro ⟨a, ha⟩
    obtain ⟨ns, rfl, hkeys, hfields⟩ := (same_dump_iff mem_entities_argument rfl hv).1 ha
    simp only [List.forall_mem_cons] at hfields
    obtain ⟨⟨n, hn, hn'⟩, ⟨d, hd, hd'⟩, ⟨u, hu, hu'⟩, ⟨r, hr, hr'⟩, -⟩ := hfields
    refine ⟨⟨ns, rfl, hkeys, ?_⟩, ?_⟩
    · simp only [argumentEntity, List.forall_mem_cons]
      exact ⟨⟨n, hn, admits_text.2 ⟨_, hn'⟩⟩, ⟨d, hd, admits_textOrNull.2 ⟨_, hd'⟩⟩,
        ⟨u, hu, admits_textOrNull.2 ⟨_, hu'⟩⟩, ⟨r, hr, admits_truthOrNull.2 ⟨_, hr'⟩⟩, nofun⟩
    · intro n' hname
      rw [eq_of_mem_valuesAt hv hn hname, same_string.1 hn']
      exact isArgumentName_iff.2 ⟨a.name, a.name_ne, rfl⟩

/-- **Search entries.** -/
theorem searchEntry_iff (hv : DistinctKeys v) :
    IsA collectionSchema "SearchIndexEntry" v ↔ ∃ e : SearchEntry, Same e.toJson v := by
  have hisA := isA_iff mem_entities_searchEntry hv
  change IsA collectionSchema "SearchIndexEntry" v ↔ _ at hisA
  rw [hisA]
  constructor
  · rintro ⟨ns, rfl, hkeys, hfields⟩
    simp only [searchEntryEntity, List.forall_mem_cons] at hfields
    obtain ⟨⟨s, hs, hs'⟩, ⟨n, hn, hn'⟩, ⟨d, hd, hd'⟩, ⟨t, ht, ht'⟩, ⟨c, hc, hc'⟩, ⟨a, ha, ha'⟩,
      ⟨x, hx, hx'⟩, -⟩ := hfields
    obtain ⟨slug, hs'⟩ := admits_text.1 hs'
    obtain ⟨name, hn'⟩ := admits_text.1 hn'
    obtain ⟨description, hd'⟩ := admits_text.1 hd'
    obtain ⟨tags, ht'⟩ := admits_texts.1 ht'
    obtain ⟨command, hc'⟩ := admits_text.1 hc'
    obtain ⟨author, ha'⟩ := admits_textOrNull.1 ha'
    obtain ⟨searched, hx'⟩ := admits_text.1 hx'
    refine ⟨⟨slug, name, description, tags, command, author, searched⟩, ?_⟩
    refine (same_dump_iff mem_entities_searchEntry rfl hv).2 ⟨ns, rfl, hkeys, ?_⟩
    simp only [List.forall_mem_cons]
    exact ⟨⟨s, hs, hs'⟩, ⟨n, hn, hn'⟩, ⟨d, hd, hd'⟩, ⟨t, ht, ht'⟩, ⟨c, hc, hc'⟩, ⟨a, ha, ha'⟩,
      ⟨x, hx, hx'⟩, nofun⟩
  · rintro ⟨e, he⟩
    obtain ⟨ns, rfl, hkeys, hfields⟩ := (same_dump_iff mem_entities_searchEntry rfl hv).1 he
    simp only [List.forall_mem_cons] at hfields
    obtain ⟨⟨s, hs, hs'⟩, ⟨n, hn, hn'⟩, ⟨d, hd, hd'⟩, ⟨t, ht, ht'⟩, ⟨c, hc, hc'⟩, ⟨a, ha, ha'⟩,
      ⟨x, hx, hx'⟩, -⟩ := hfields
    refine ⟨ns, rfl, hkeys, ?_⟩
    simp only [searchEntryEntity, List.forall_mem_cons]
    exact ⟨⟨s, hs, admits_text.2 ⟨_, hs'⟩⟩, ⟨n, hn, admits_text.2 ⟨_, hn'⟩⟩,
      ⟨d, hd, admits_text.2 ⟨_, hd'⟩⟩, ⟨t, ht, admits_texts.2 ⟨_, ht'⟩⟩,
      ⟨c, hc, admits_text.2 ⟨_, hc'⟩⟩, ⟨a, ha, admits_textOrNull.2 ⟨_, ha'⟩⟩,
      ⟨x, hx, admits_text.2 ⟨_, hx'⟩⟩, nofun⟩

/-- Lists of references, of which more may be asked. -/
theorem admits_references_iff {e : String} {P : Json → Prop} :
    ((ValueType.list (.reference e false) false).Admits (IsA collectionSchema) v ∧
      ∀ x ∈ v.items, P x) ↔
        ∃ xs, v = .arr xs ∧ ∀ x ∈ xs, IsA collectionSchema e x ∧ P x := by
  simp only [ValueType.Admits, Bool.false_eq_true, false_and, or_false]
  constructor
  · rintro ⟨⟨xs, rfl, hxs⟩, hP⟩
    exact ⟨xs, rfl, fun x hx => ⟨hxs x hx, hP x hx⟩⟩
  · rintro ⟨xs, rfl, hxs⟩
    exact ⟨⟨xs, rfl, fun x hx => (hxs x hx).1⟩, fun x hx => (hxs x hx).2⟩

/-- The dump of the arguments of a workflow. -/
def argumentsJson (arguments : Option (List WorkflowArgument)) : Json :=
  (arguments.map fun l => .arr (l.map WorkflowArgument.toJson)).getD .null

theorem arguments_iff (hv : DistinctKeys v) :
    ((ValueType.list (.reference "WorkflowArgument" false) true).Admits
        (IsA collectionSchema) v ∧
      ∀ a ∈ v.items, ∀ n ∈ valuesAt "name" a, IsArgumentName n) ↔
        ∃ arguments, Same (argumentsJson arguments) v := by
  have hrecords := same_records_iff fun a ha => argument_iff (hv.item ha)
  rw [← admits_references_iff] at hrecords
  rw [← same_orNull_iff argumentsJson rfl (fun _ => rfl) hrecords]
  simp only [ValueType.Admits, Bool.false_eq_true, false_and, or_false, true_and]
  constructor
  · rintro ⟨hxs | hnull, hnames⟩
    · exact .inl ⟨hxs, hnames⟩
    · exact .inr hnull
  · rintro (⟨hxs, hnames⟩ | rfl)
    · exact ⟨.inl hxs, hnames⟩
    · exact ⟨.inr rfl, nofun⟩

/-- What the schema does not say of a workflow. -/
def IsNamed (w : Json) : Prop :=
  (∀ s ∈ valuesAt "slug" w, IsSlug s) ∧
    ∀ a ∈ argumentsIn w, ∀ n ∈ valuesAt "name" a, IsArgumentName n

/-- The values under the key of a list of arguments are the only arguments. -/
theorem forall_mem_argumentsIn {ns : List (String × Json)} (hns : DistinctKeys (.obj ns))
    {x : Json} (hx : ("arguments", x) ∈ ns) {P : Json → Prop} :
    (∀ a ∈ argumentsIn (.obj ns), P a) ↔ ∀ a ∈ x.items, P a := by
  unfold argumentsIn
  rw [List.forall_mem_flatMap]
  constructor
  · intro h
    exact h x (mem_valuesAt.2 hx)
  · intro h y hy
    rwa [eq_of_mem_valuesAt hns hx hy]

/-- **Workflows.** -/
theorem workflow_iff (hv : DistinctKeys v) :
    (IsA collectionSchema "Workflow" v ∧ IsNamed v) ↔ ∃ w : Workflow, Same w.toJson v := by
  have hisA := isA_iff mem_entities_workflow hv
  change IsA collectionSchema "Workflow" v ↔ _ at hisA
  rw [hisA]
  constructor
  · rintro ⟨⟨ns, rfl, hkeys, hfields⟩, hslug, hnames⟩
    simp only [workflowEntity, List.forall_mem_cons] at hfields
    obtain ⟨⟨n, hn, hn'⟩, ⟨c, hc, hc'⟩, ⟨d, hd, hd'⟩, ⟨t, ht, ht'⟩, ⟨l, hl, hl'⟩, ⟨u, hu, hu'⟩,
      ⟨a, ha, ha'⟩, ⟨b, hb, hb'⟩, ⟨h, hh, hh'⟩, ⟨s, hs, -⟩, -⟩ := hfields
    obtain ⟨name, hn'⟩ := admits_text.1 hn'
    obtain ⟨command, hc'⟩ := admits_text.1 hc'
    obtain ⟨description, hd'⟩ := admits_textOrNull.1 hd'
    obtain ⟨tags, ht'⟩ := admits_textsOrNull.1 ht'
    have hl'' := (forall_mem_argumentsIn hv hl).1 hnames
    obtain ⟨arguments, hl'⟩ := (arguments_iff (hv.member hl)).1 ⟨hl', hl''⟩
    obtain ⟨sourceUrl, hu'⟩ := admits_textOrNull.1 hu'
    obtain ⟨author, ha'⟩ := admits_textOrNull.1 ha'
    obtain ⟨authorUrl, hb'⟩ := admits_textOrNull.1 hb'
    obtain ⟨shells, hh'⟩ := admits_textsOrNull.1 hh'
    obtain ⟨slug, rfl, hslug⟩ := hslug s (mem_valuesAt.2 hs)
    refine ⟨⟨name, command, description, tags, arguments, sourceUrl, author, authorUrl, shells,
      ⟨slug, hslug⟩⟩, ?_⟩
    refine (same_dump_iff mem_entities_workflow rfl hv).2 ⟨ns, rfl, hkeys, ?_⟩
    have hdump : Same (argumentsJson arguments) l := hl'
    simp only [List.forall_mem_cons]
    refine ⟨⟨n, hn, hn'⟩, ⟨c, hc, hc'⟩, ⟨d, hd, hd'⟩, ⟨t, ht, ht'⟩, ⟨l, hl, ?_⟩, ⟨u, hu, hu'⟩,
      ⟨a, ha, ha'⟩, ⟨b, hb, hb'⟩, ⟨h, hh, hh'⟩, ⟨_, hs, .string _⟩, nofun⟩
    cases arguments <;> exact hdump
  · rintro ⟨w, hw⟩
    obtain ⟨ns, rfl, hkeys, hfields⟩ := (same_dump_iff mem_entities_workflow rfl hv).1 hw
    simp only [List.forall_mem_cons] at hfields
    obtain ⟨⟨n, hn, hn'⟩, ⟨c, hc, hc'⟩, ⟨d, hd, hd'⟩, ⟨t, ht, ht'⟩, ⟨l, hl, hl'⟩, ⟨u, hu, hu'⟩,
      ⟨a, ha, ha'⟩, ⟨b, hb, hb'⟩, ⟨h, hh, hh'⟩, ⟨s, hs, hs'⟩, -⟩ := hfields
    have hdump : Same (argumentsJson w.arguments) l := by
      cases hargs : w.arguments <;> rw [hargs] at hl' <;> exact hl'
    obtain ⟨hl', hnames⟩ := (arguments_iff (hv.member hl)).2 ⟨_, hdump⟩
    refine ⟨⟨ns, rfl, hkeys, ?_⟩, ?_, (forall_mem_argumentsIn hv hl).2 hnames⟩
    · simp only [workflowEntity, List.forall_mem_cons]
      exact ⟨⟨n, hn, admits_text.2 ⟨_, hn'⟩⟩, ⟨c, hc, admits_text.2 ⟨_, hc'⟩⟩,
        ⟨d, hd, admits_textOrNull.2 ⟨_, hd'⟩⟩, ⟨t, ht, admits_textsOrNull.2 ⟨_, ht'⟩⟩,
        ⟨l, hl, hl'⟩, ⟨u, hu, admits_textOrNull.2 ⟨_, hu'⟩⟩,
        ⟨a, ha, admits_textOrNull.2 ⟨_, ha'⟩⟩, ⟨b, hb, admits_textOrNull.2 ⟨_, hb'⟩⟩,
        ⟨h, hh, admits_textsOrNull.2 ⟨_, hh'⟩⟩, ⟨s, hs, admits_text.2 ⟨_, hs'⟩⟩, nofun⟩
    · intro s' hslug
      rw [eq_of_mem_valuesAt hv hs hslug]
      exact ⟨w.slug.text, same_string.1 hs', w.slug.text_ok⟩

/-- **Collections.** -/
theorem collection_iff (hv : DistinctKeys v) :
    (Validates collectionSchema v ∧ ∀ w ∈ workflowsIn v, IsNamed w) ↔
      ∃ c : Collection, Same c.toJson v := by
  rw [validates_iff hv]
  have hworkflows : ∀ {ns x}, v = .obj ns → ("workflows", x) ∈ ns →
      ((∀ w ∈ workflowsIn v, IsNamed w) ↔ ∀ w ∈ x.items, IsNamed w) := by
    rintro ns x rfl hx
    unfold workflowsIn
    rw [List.forall_mem_flatMap]
    constructor
    · intro h
      exact h x (mem_valuesAt.2 hx)
    · intro h y hy
      rwa [eq_of_mem_valuesAt hv hx hy]
  constructor
  · rintro ⟨⟨ns, rfl, hkeys, hfields⟩, hnamed⟩
    simp only [collectionEntity, List.forall_mem_cons] at hfields
    obtain ⟨⟨w, hw, hw'⟩, ⟨i, hi, hi'⟩, ⟨t, ht, ht'⟩, -⟩ := hfields
    have hws := admits_references_iff.1 ⟨hw', (hworkflows rfl hw).1 hnamed⟩
    obtain ⟨workflows, hw'⟩ :=
      (same_records_iff fun x hx => workflow_iff ((hv.member hw).item hx)).1 hws
    have his := admits_references_iff.1 ⟨hi', fun _ _ => trivial⟩
    simp only [and_true] at his
    obtain ⟨index, hi'⟩ :=
      (same_records_iff fun x hx => searchEntry_iff ((hv.member hi).item hx)).1 his
    obtain ⟨tags, ht'⟩ := admits_texts.1 ht'
    refine ⟨⟨workflows, index, tags⟩, ?_⟩
    refine (same_dump_iff mem_entities_collection rfl hv).2 ⟨ns, rfl, hkeys, ?_⟩
    simp only [List.forall_mem_cons]
    exact ⟨⟨w, hw, hw'⟩, ⟨i, hi, hi'⟩, ⟨t, ht, ht'⟩, nofun⟩
  · rintro ⟨c, hc⟩
    obtain ⟨ns, rfl, hkeys, hfields⟩ := (same_dump_iff mem_entities_collection rfl hv).1 hc
    simp only [List.forall_mem_cons] at hfields
    obtain ⟨⟨w, hw, hw'⟩, ⟨i, hi, hi'⟩, ⟨t, ht, ht'⟩, -⟩ := hfields
    have hws := (same_records_iff fun x hx =>
      workflow_iff ((hv.member hw).item hx)).2 ⟨_, hw'⟩
    obtain ⟨hw', hnamed⟩ := admits_references_iff.2 hws
    obtain ⟨xs, rfl, hxs⟩ := (same_records_iff fun x hx =>
      searchEntry_iff ((hv.member hi).item hx)).2 ⟨_, hi'⟩
    refine ⟨⟨ns, rfl, hkeys, ?_⟩, (hworkflows rfl hw).2 hnamed⟩
    simp only [collectionEntity, List.forall_mem_cons]
    refine ⟨⟨w, hw, hw'⟩, ⟨_, hi, .inl ⟨xs, rfl, ?_⟩⟩, ⟨t, ht, admits_texts.2 ⟨_, ht'⟩⟩, nofun⟩
    exact fun x hx => .inl (hxs x hx)

/-- The slugs and the names of all workflows. -/
theorem forall_isNamed_iff :
    (∀ w ∈ workflowsIn v, IsNamed w) ↔
      (∀ s ∈ slugsIn v, IsSlug s) ∧ ∀ n ∈ argumentNamesIn v, IsArgumentName n := by
  unfold slugsIn argumentNamesIn IsNamed
  rw [List.forall_mem_flatMap, List.forall_mem_flatMap, List.forall_mem_flatMap]
  constructor
  · intro h
    exact ⟨fun w hw => (h w hw).1, fun w hw => (h w hw).2⟩
  · rintro ⟨hslugs, hnames⟩ w hw
    exact ⟨hslugs w hw, hnames w hw⟩

end

/-! ### Dumps -/

section

theorem distinctKeys_ofText? (t : Option CodeText) : DistinctKeys (.ofText? t) := by
  cases t with
  | none => exact .null
  | some t => exact .string t

theorem distinctKeys_ofBool? (b : Option Bool) : DistinctKeys (.ofBool? b) := by
  cases b with
  | none => exact .null
  | some b => exact .bool b

theorem distinctKeys_records {α : Type} {dump : α → Json} (h : ∀ a, DistinctKeys (dump a))
    (as : List α) : DistinctKeys (.arr (as.map dump)) := by
  refine .arr ?_
  rw [List.forall_mem_map]
  exact fun a _ => h a

theorem distinctKeys_ofTexts (ts : List CodeText) : DistinctKeys (.ofTexts ts) :=
  distinctKeys_records .string ts

theorem distinctKeys_ofTexts? (ts : Option (List CodeText)) : DistinctKeys (.ofTexts? ts) := by
  cases ts with
  | none => exact .null
  | some ts => exact distinctKeys_ofTexts ts

theorem distinctKeys_argument (a : WorkflowArgument) : DistinctKeys a.toJson := by
  refine .obj (by simp) ?_
  simp only [List.forall_mem_cons]
  exact ⟨.string _, distinctKeys_ofText? _, distinctKeys_ofText? _, distinctKeys_ofBool? _, nofun⟩

theorem distinctKeys_searchEntry (e : SearchEntry) : DistinctKeys e.toJson := by
  refine .obj (by simp) ?_
  simp only [List.forall_mem_cons]
  exact ⟨.string _, .string _, .string _, distinctKeys_ofTexts _, .string _,
    distinctKeys_ofText? _, .string _, nofun⟩

theorem distinctKeys_workflow (w : Workflow) : DistinctKeys w.toJson := by
  refine .obj (by simp) ?_
  simp only [List.forall_mem_cons]
  refine ⟨.string _, .string _, distinctKeys_ofText? _, distinctKeys_ofTexts? _, ?_,
    distinctKeys_ofText? _, distinctKeys_ofText? _, distinctKeys_ofText? _,
    distinctKeys_ofTexts? _, .string _, nofun⟩
  cases w.arguments with
  | none => exact .null
  | some l => exact distinctKeys_records distinctKeys_argument l

theorem distinctKeys_collection (c : Collection) : DistinctKeys c.toJson := by
  refine .obj (by simp) ?_
  simp only [List.forall_mem_cons]
  exact ⟨distinctKeys_records distinctKeys_workflow _,
    distinctKeys_records distinctKeys_searchEntry _, distinctKeys_ofTexts _, nofun⟩

end

/-- **The exported schema describes the collections.**  A value whose slugs are slugs, and
    whose arguments have names that are not empty and hold no half of a surrogate pair, fits
    the schema exactly if it is the dump of a collection, up to the order of keys.  The dump
    of every collection fits. -/
theorem describes_collections :
    (∀ v, DistinctKeys v →
      (Validates collectionSchema v ∧ (∀ s ∈ slugsIn v, IsSlug s) ∧
          (∀ n ∈ argumentNamesIn v, IsArgumentName n) ↔
        ∃ c : Collection, Same c.toJson v)) ∧
    ∀ c : Collection, Validates collectionSchema c.toJson := by
  constructor
  · intro v hv
    rw [← forall_isNamed_iff, collection_iff hv]
  · intro c
    exact ((collection_iff (distinctKeys_collection c)).2 ⟨c, .refl _⟩).1

/-- A collection of one workflow with one argument. -/
def oneArgument : Collection :=
  .ofWorkflows [{
    name := "A", command := "ls \x7b\x7bdir\x7d\x7d", description := none, tags := some ["x"],
    arguments := some [⟨"dir", none, some ".", some true, by decide⟩], sourceUrl := none,
    author := none, authorUrl := none, shells := none, slug := ⟨"a", by decide⟩ }]

/-- Its dump with the keys in the opposite order fits the schema. -/
theorem describes_collections_oneArgument :
    DistinctKeys (.obj oneArgument.toJson.members.reverse) ∧
      Validates collectionSchema (.obj oneArgument.toJson.members.reverse) ∧
      argumentNamesIn (.obj oneArgument.toJson.members.reverse) = [.str "dir"] := by
  have hkeys : DistinctKeys (.obj oneArgument.toJson.members.reverse) := by
    have hdump := distinctKeys_collection oneArgument
    refine .obj ?_ fun m hm => hdump.member (List.mem_reverse.1 hm)
    rw [List.map_reverse, List.nodup_reverse]
    exact hdump.keys
  have hsame : Same oneArgument.toJson (.obj oneArgument.toJson.members.reverse) :=
    .obj (.refl _) (List.reverse_perm _).symm
  exact ⟨hkeys, ((describes_collections.1 _ hkeys).2 ⟨_, hsame⟩).1, rfl⟩

/-! ### Names with halves -/

/-- An argument whose name is half a surrogate pair. -/
def halfNamed : Json :=
  .obj [("name", .string ⟨[.half 0]⟩), ("description", .null), ("default_value", .null),
    ("required", .bool true)]

/-- A workflow with the argument. -/
def halfNaming : Json :=
  .obj [("name", .str "A"), ("command", .str ""), ("description", .null), ("tags", .null),
    ("arguments", .arr [halfNamed]), ("source_url", .null), ("author", .null),
    ("author_url", .null), ("shells", .null), ("slug", .str "a")]

/-- The search entry of the workflow. -/
def halfNamingEntry : SearchEntry where
  slug := "a"
  name := "A"
  description := ""
  tags := []
  command := ""
  author := none
  searchableText := "a    "

def halfCollection : Json :=
  .obj [("workflows", .arr [halfNaming]), ("search_index", .arr [halfNamingEntry.toJson]),
    ("tags", .arr [])]

theorem distinctKeys_halfNamed : DistinctKeys halfNamed := by
  refine .obj (by simp) ?_
  simp only [List.forall_mem_cons]
  exact ⟨.string _, .null, .null, .bool _, nofun⟩

theorem distinctKeys_halfNaming : DistinctKeys halfNaming := by
  refine .obj (by simp) ?_
  simp only [List.forall_mem_cons]
  exact ⟨.string _, .string _, .null, .null,
    .arr (List.forall_mem_singleton.2 distinctKeys_halfNamed), .null, .null, .null, .null,
    .string _, nofun⟩

theorem distinctKeys_halfCollection : DistinctKeys halfCollection := by
  refine .obj (by simp) ?_
  simp only [List.forall_mem_cons]
  exact ⟨.arr (List.forall_mem_singleton.2 distinctKeys_halfNaming),
    .arr (List.forall_mem_singleton.2 (distinctKeys_searchEntry _)), .arr nofun, nofun⟩

theorem isA_halfNamed : IsA collectionSchema "WorkflowArgument" halfNamed := by
  refine (isA_iff mem_entities_argument distinctKeys_halfNamed).2 ⟨_, rfl, ?_, ?_⟩
  · simp [argumentEntity, Entity.fieldNames]
  · simp [argumentEntity, textOrNull, ValueType.Admits]

theorem isA_halfNaming : IsA collectionSchema "Workflow" halfNaming := by
  refine (isA_iff mem_entities_workflow distinctKeys_halfNaming).2 ⟨_, rfl, ?_, ?_⟩
  · simp [workflowEntity, Entity.fieldNames]
  · have harguments := isA_halfNamed
    simp [workflowEntity, textOrNull, texts, ValueType.listOf, ValueType.orNull,
      ValueType.Admits, Json.str, harguments]

theorem validates_halfCollection : Validates collectionSchema halfCollection := by
  refine (validates_iff distinctKeys_halfCollection).2 ⟨_, rfl, ?_, ?_⟩
  · simp [collectionEntity, Entity.fieldNames]
  · have hworkflow := isA_halfNaming
    have hentry : IsA collectionSchema "SearchIndexEntry" halfNamingEntry.toJson :=
      (searchEntry_iff (distinctKeys_searchEntry _)).2 ⟨_, .refl _⟩
    simp [collectionEntity, texts, ValueType.listOf, ValueType.Admits, hworkflow, hentry]

/-- A name with half a surrogate pair is not empty, and the schema takes it for a text like
    any other; but no argument can have it. -/
theorem not_dump_halfCollection :
    DistinctKeys halfCollection ∧ Validates collectionSchema halfCollection ∧
      (∀ s ∈ slugsIn halfCollection, IsSlug s) ∧
      (∀ n ∈ argumentNamesIn halfCollection, n ≠ .str "") ∧
      ¬ ∃ c : Collection, Same c.toJson halfCollection := by
  have hslugs : slugsIn halfCollection = [.str "a"] := rfl
  have hnames : argumentNamesIn halfCollection = [.string ⟨[.half 0]⟩] := rfl
  rw [hslugs, hnames, List.forall_mem_singleton, List.forall_mem_singleton]
  refine ⟨distinctKeys_halfCollection, validates_halfCollection, ⟨"a", rfl, by decide⟩, ?_, ?_⟩
  · simp [Json.str, CodeText.ofString, Text.ofChars]
  · intro hdump
    obtain ⟨-, hnamed⟩ := (collection_iff distinctKeys_halfCollection).2 hdump
    rw [forall_isNamed_iff, hnames, List.forall_mem_singleton] at hnamed
    obtain ⟨-, -, hwhole⟩ := hnamed
    exact hwhole _ rfl (.half 0) List.mem_cons_self rfl

end WorkflowCatalog.Schema
