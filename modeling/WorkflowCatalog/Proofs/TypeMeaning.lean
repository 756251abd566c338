/-
  WorkflowCatalog/Proofs/TypeMeaning.lean
  =======================================
  **A type and its schema mean the same values.**  A schema refers to entities by their
  names only, so it means something as soon as it is known which values belong to which
  entity, whatever these values are.  What satisfies a schema then is the least relation
  that agrees with the keywords (`Satisfies`), and it is a reading of schemas
  (`isReading_satisfies`).

  Main statement: a value satisfies the schema of a type exactly if the type admits it,
  and that of an entity exactly if it is an object with the fields of the entity and with
  values of their types (`satisfies_iff_admits`).
-/
import WorkflowCatalog.Proofs.SchemaMeaning

namespace WorkflowCatalog.Schema

variable {isA : String → Json → Prop} {fits fits' : Json → Json → Prop}

/-! ### Schemas with references left open -/

/-- Does a value satisfy a schema, if it is known which values belong to which entity? -/
def Satisfies (isA : String → Json → Prop) : Json → Json → Prop := Least (FitsUnder isA)

theorem asksUnder_iff {schema : List (String × Json)} {v argument : Json} {k : Keyword}
    (hk : k ≠ .reference) :
    AsksUnder isA fits schema v argument k ↔ Asks .null fits schema v argument k := by
  cases k with
  | reference => exact absurd rfl hk
  | _ => exact Iff.rfl

/-- If more values fit the schemas inside, no keyword asks more; a reference has none inside. -/
theorem AsksUnder.mono (h : ∀ s v, fits s v → fits' s v) {schema : List (String × Json)}
    {v argument : Json} {k : Keyword} (ha : AsksUnder isA fits schema v argument k) :
    AsksUnder isA fits' schema v argument k := by
  by_cases hk : k = .reference
  · subst hk
    exact ha
  · rw [asksUnder_iff hk] at ha ⊢
    exact ha.mono h

theorem FitsUnder.mono (h : ∀ s v, fits s v → fits' s v) {s v : Json}
    (hs : FitsUnder isA fits s v) : FitsUnder isA fits' s v := by
  cases s with
  | obj schema => exact fun m hm k hk => (hs m hm k hk).mono h
  | bool b => exact hs
  | _ => exact hs.elim

/-- **To satisfy schemas is a reading of them.** -/
theorem isReading_satisfies : IsReading isA (Satisfies isA) :=
  fun _ _ => least_iff fun _ _ h _ _ hs => hs.mono h

/-! ### Objects -/

/-- The objects of an entity are those whose keys are the names of its fields, each with a
    value of its type. -/
theorem Entity.admits_obj_iff {e : Entity} {ms : List (String × Json)}
    (hms : (ms.map (·.1)).Nodup) :
    e.Admits isA (.obj ms) ↔ (∀ key, key ∈ ms.map (·.1) ↔ key ∈ e.fieldNames) ∧
      ∀ f ∈ e.fields, ∀ x, (f.name, x) ∈ ms → f.type.Admits isA x := by
  constructor
  · rintro ⟨_, ⟨⟩, hkeys, hfields⟩
    refine ⟨fun key => ⟨?_, ?_⟩, ?_⟩
    · intro hkey
      obtain ⟨m, hm, rfl⟩ := List.mem_map.1 hkey
      exact hkeys m hm
    · intro hkey
      obtain ⟨f, hf, rfl⟩ := List.mem_map.1 hkey
      obtain ⟨x, hx, -⟩ := hfields f hf
      exact List.mem_map.2 ⟨_, hx, rfl⟩
    · intro f hf x hx
      obtain ⟨y, hy, hadmits⟩ := hfields f hf
      have hsame : y = x := congrArg Prod.snd (List.inj_on_of_nodup_map hms hy hx rfl)
      exact hsame ▸ hadmits
  · rintro ⟨hkeys, hfields⟩
    refine ⟨ms, rfl, fun m hm => (hkeys m.1).1 (List.mem_map_of_mem hm), ?_⟩
    intro f hf
    obtain ⟨m, hm, hname⟩ := List.mem_map.1 ((hkeys f.name).2 (List.mem_map_of_mem hf))
    have hmem : (f.name, m.2) ∈ ms := hname ▸ hm
    exact ⟨m.2, hmem, hfields f hf m.2 hmem⟩

/-! ### Types and entities -/

/-- **Types and their schemas mean the same values**, and so do entities and theirs, whichever
    values belong to the entities that are referred to. -/
theorem satisfies_iff_admits :
    (∀ (isA : String → Json → Prop) (t : ValueType) (v : Json),
      Satisfies isA t.schema v ↔ t.Admits isA v) ∧
    ∀ (isA : String → Json → Prop) (e : Entity), e.fieldNames.Nodup →
      ∀ ms : List (String × Json), (ms.map (·.1)).Nodup →
        (Satisfies isA e.schema (.obj ms) ↔
          (∀ key, key ∈ ms.map (·.1) ↔ key ∈ e.fieldNames) ∧
            ∀ f ∈ e.fields, ∀ x, (f.name, x) ∈ ms → f.type.Admits isA x) := by
  refine ⟨fun isA t v => isReading_satisfies.type, ?_⟩
  intro isA e he ms hms
  rw [← Entity.admits_obj_iff hms]
  exact isReading_satisfies.entity he rfl hms

/-- An entity with a field that is described and one that is not. -/
def stepEntity : Entity where
  name := "Step"
  description := ""
  fields := [⟨"title", .text false, "Shown first"⟩,
    ⟨"tools", .list (.reference "Tool" true) true, ""⟩]

/-- A step in which the fields stand in another order. -/
def builtStep : List (String × Json) := [("tools", .arr [.null, .int 7]), ("title", .str "Build")]

theorem satisfies_iff_admits_builtStep :
    stepEntity.fieldNames.Nodup ∧ (builtStep.map (·.1)).Nodup ∧
      Satisfies (fun name v => name = "Tool" ∧ v = .int 7) stepEntity.schema (.obj builtStep) := by
  have he : stepEntity.fieldNames.Nodup := by decide
  have hms : (builtStep.map (·.1)).Nodup := by decide
  refine ⟨he, hms, (satisfies_iff_admits.2 _ stepEntity he builtStep hms).2 ⟨?_, ?_⟩⟩
  · intro key
    simp [builtStep, stepEntity, Entity.fieldNames, or_comm]
  · simp [builtStep, stepEntity, ValueType.Admits, Json.str]

end WorkflowCatalog.Schema
