/-
  WorkflowCatalog/Proofs/DataModule.lean
  ======================================
  **No text of a manifest breaks out of the data module.**  The module is a fixed text
  with three documents in it, and what stands in a document comes from the manifests,
  whatever it is.  Still the module tells each of the three documents: two collections
  with the same module have the same workflows, the same search index and the same
  tags (`dataModule_eq_iff`).

  There are two halves to this.  Behind the text of a constant the rest of the module is
  the rest that was written, since the document in it tells where it ends; and a document
  tells the records it was made from, since it lists every field of each of them.
-/
import WorkflowCatalog.Artifact.Render
import WorkflowCatalog.Proofs.Delimiting

namespace WorkflowCatalog

open Text (CodeText CodePoint)

/-! ### Fields -/

namespace Json

theorem ofText?_injective : Function.Injective ofText? := by
  intro t u h
  cases t <;> cases u <;> cases h <;> rfl

theorem ofBool?_injective : Function.Injective ofBool? := by
  intro b c h
  cases b <;> cases c <;> cases h <;> rfl

theorem ofTexts_injective : Function.Injective ofTexts := by
  intro ts us h
  have hmap : ts.map string = us.map string := Json.arr.inj h
  exact (List.map_inj_right fun _ _ => Json.string.inj).1 hmap

theorem ofTexts?_injective : Function.Injective ofTexts? := by
  intro ts us h
  cases ts with
  | none =>
    cases us with
    | none => rfl
    | some us => cases h
  | some ts =>
    cases us with
    | none => cases h
    | some us => rw [ofTexts_injective h]

theorem numberFree_ofText? (t : Option CodeText) : NumberFree (ofText? t) := by
  cases t with
  | none => exact .null
  | some t => exact .string t

theorem numberFree_ofBool? (b : Option Bool) : NumberFree (ofBool? b) := by
  cases b with
  | none => exact .null
  | some b => exact .bool b

/-- A list of values made by one function. -/
theorem numberFree_map {α : Type} {f : α → Json} (hf : ∀ a, NumberFree (f a)) (l : List α) :
    NumberFree (.arr (l.map f)) := by
  refine .arr ?_
  intro v hv
  obtain ⟨a, -, rfl⟩ := List.mem_map.1 hv
  exact hf a

theorem numberFree_ofTexts (ts : List CodeText) : NumberFree (ofTexts ts) :=
  numberFree_map .string ts

theorem numberFree_ofTexts? (ts : Option (List CodeText)) : NumberFree (ofTexts? ts) := by
  cases ts with
  | none => exact .null
  | some ts => exact numberFree_ofTexts ts

end Json

open Json (NumberFree numberFree_ofText? numberFree_ofBool? numberFree_map numberFree_ofTexts
  numberFree_ofTexts?)

/-! ### Records -/

theorem WorkflowArgument.toJson_injective : Function.Injective WorkflowArgument.toJson := by
  intro a b h
  obtain ⟨name, description, defaultValue, required, hname⟩ := a
  obtain ⟨name', description', defaultValue', required', hname'⟩ := b
  simp only [WorkflowArgument.toJson, Json.str, Json.obj.injEq, List.cons.injEq, Prod.mk.injEq,
    true_and, and_true, Json.string.injEq] at h
  obtain ⟨h₁, h₂, h₃, h₄⟩ := h
  cases CodeText.ofString_inj h₁
  cases Json.ofText?_injective h₂
  cases Json.ofText?_injective h₃
  cases Json.ofBool?_injective h₄
  rfl

theorem SearchEntry.toJson_injective : Function.Injective SearchEntry.toJson := by
  intro e f h
  obtain ⟨slug, name, description, tags, command, author, searchableText⟩ := e
  obtain ⟨slug', name', description', tags', command', author', searchableText'⟩ := f
  simp only [SearchEntry.toJson, Json.obj.injEq, List.cons.injEq, Prod.mk.injEq, true_and,
    and_true, Json.string.injEq] at h
  obtain ⟨rfl, rfl, rfl, htags, rfl, hauthor, rfl⟩ := h
  cases Json.ofTexts_injective htags
  cases Json.ofText?_injective hauthor
  rfl

theorem Workflow.toJson_injective : Function.Injective Workflow.toJson := by
  intro v w h
  obtain ⟨name, command, description, tags, arguments, sourceUrl, author, authorUrl, shells,
    slug⟩ := v
  obtain ⟨name', command', description', tags', arguments', sourceUrl', author', authorUrl',
    shells', slug'⟩ := w
  simp only [Workflow.toJson, Json.str, Json.obj.injEq, List.cons.injEq, Prod.mk.injEq, true_and,
    and_true, Json.string.injEq] at h
  obtain ⟨rfl, rfl, hdescription, htags, harguments, hsourceUrl, hauthor, hauthorUrl, hshells,
    hslug⟩ := h
  have harguments' : arguments = arguments' := by
    cases arguments with
    | none =>
      cases arguments' with
      | none => rfl
      | some l => cases harguments
    | some l =>
      cases arguments' with
      | none => cases harguments
      | some l' =>
        have hmap : l.map WorkflowArgument.toJson = l'.map WorkflowArgument.toJson :=
          Json.arr.inj harguments
        rw [(List.map_inj_right fun _ _ h => WorkflowArgument.toJson_injective h).1 hmap]
  have hslug' : slug = slug' := by
    cases slug
    cases slug'
    cases CodeText.ofString_inj hslug
    rfl
  rw [Json.ofText?_injective hdescription, Json.ofTexts?_injective htags, harguments',
    Json.ofText?_injective hsourceUrl, Json.ofText?_injective hauthor,
    Json.ofText?_injective hauthorUrl, Json.ofTexts?_injective hshells, hslug']

theorem WorkflowArgument.numberFree_toJson (a : WorkflowArgument) : NumberFree a.toJson := by
  refine .obj ?_
  simp only [List.forall_mem_cons]
  exact ⟨.string _, numberFree_ofText? _, numberFree_ofText? _, numberFree_ofBool? _, nofun⟩

theorem SearchEntry.numberFree_toJson (e : SearchEntry) : NumberFree e.toJson := by
  refine .obj ?_
  simp only [List.forall_mem_cons]
  exact ⟨.string _, .string _, .string _, numberFree_ofTexts _, .string _, numberFree_ofText? _,
    .string _, nofun⟩

theorem Workflow.numberFree_toJson (w : Workflow) : NumberFree w.toJson := by
  refine .obj ?_
  simp only [List.forall_mem_cons]
  refine ⟨.string _, .string _, numberFree_ofText? _, numberFree_ofTexts? _, ?_,
    numberFree_ofText? _, numberFree_ofText? _, numberFree_ofText? _, numberFree_ofTexts? _,
    .string _, nofun⟩
  cases w.arguments with
  | none => exact .null
  | some l => exact numberFree_map WorkflowArgument.numberFree_toJson l

/-! ### The module -/

namespace Text.CodeText

theorem points_append (t u : CodeText) : (t ++ u).points = t.points ++ u.points := rfl

theorem points_join_cons_cons (separator t u : CodeText) (ts : List CodeText) :
    (join separator (t :: u :: ts)).points =
      t.points ++ (separator.points ++ (join separator (u :: ts)).points) := by
  simp only [join, List.map_cons, List.intersperse_cons_cons, List.flatten_cons]

theorem append_right_cancel {t u v : CodeText} (h : t ++ v = u ++ v) : t = u := by
  obtain ⟨ps⟩ := t
  obtain ⟨qs⟩ := u
  have hpoints : ps ++ v.points = qs ++ v.points := congrArg points h
  rw [List.append_cancel_right hpoints]

end Text.CodeText

namespace Artifact

/-- **A constant tells its value and where it ends.** -/
theorem constant_append_inj {name type : String} {v w : Json} {r s : List CodePoint}
    (hv : NumberFree v) (hw : NumberFree w)
    (h : (constant name type v).points ++ r = (constant name type w).points ++ s) :
    v = w ∧ r = s := by
  simp only [constant, CodeText.points_append, List.append_assoc] at h
  obtain ⟨hvalue, hend⟩ := hv.delimits 0 w _ _ hw (List.append_cancel_left h)
  exact ⟨hvalue, List.append_cancel_left hend⟩

/-- A constant in front of other sections, likewise. -/
theorem join_constant_inj {name type : String} {v w : Json} {separator t u : CodeText}
    {ts us : List CodeText} (hv : NumberFree v) (hw : NumberFree w)
    (h : (CodeText.join separator (constant name type v :: t :: ts)).points =
      (CodeText.join separator (constant name type w :: u :: us)).points) :
    v = w ∧ (CodeText.join separator (t :: ts)).points =
      (CodeText.join separator (u :: us)).points := by
  rw [CodeText.points_join_cons_cons, CodeText.points_join_cons_cons] at h
  obtain ⟨hvalue, hrest⟩ := constant_append_inj hv hw h
  exact ⟨hvalue, List.append_cancel_left hrest⟩

/-- **The module tells the collection.**  Two collections have the same data module exactly
    if they have the same workflows, the same search index and the same tags. -/
theorem dataModule_eq_iff {config : Config} {c d : Collection} :
    dataModule config c = dataModule config d ↔
      c.workflows = d.workflows ∧ c.searchIndex = d.searchIndex ∧ c.tags = d.tags := by
  constructor
  · intro h
    have hjoin := congrArg CodeText.points (CodeText.append_right_cancel h)
    simp only [dataSections, List.cons_append, List.nil_append] at hjoin
    rw [CodeText.points_join_cons_cons, CodeText.points_join_cons_cons] at hjoin
    have hconstants := List.append_cancel_left (List.append_cancel_left hjoin)
    obtain ⟨hworkflows, hrest⟩ := join_constant_inj
      (numberFree_map Workflow.numberFree_toJson _) (numberFree_map Workflow.numberFree_toJson _)
      hconstants
    obtain ⟨hindex, hrest⟩ := join_constant_inj
      (numberFree_map SearchEntry.numberFree_toJson _)
      (numberFree_map SearchEntry.numberFree_toJson _) hrest
    obtain ⟨htags, -⟩ := join_constant_inj (numberFree_ofTexts _) (numberFree_ofTexts _) hrest
    refine ⟨?_, ?_, Json.ofTexts_injective htags⟩
    · exact (List.map_inj_right fun _ _ h => Workflow.toJson_injective h).1
        (Json.arr.inj hworkflows)
    · exact (List.map_inj_right fun _ _ h => SearchEntry.toJson_injective h).1
        (Json.arr.inj hindex)
  · rintro ⟨hworkflows, hindex, htags⟩
    unfold dataModule dataSections Collection.workflowsJson Collection.searchIndexJson
    rw [hworkflows, hindex, htags]

end Artifact

end WorkflowCatalog
