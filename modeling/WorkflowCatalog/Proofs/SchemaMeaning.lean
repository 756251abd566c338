/-
  WorkflowCatalog/Proofs/SchemaMeaning.lean
  =========================================
  **What a JSON schema means.**  A schema is a set of keywords, and a value fits it if it
  does what every keyword asks; keywords that only describe ask nothing.  A reference
  leads to another schema of the same document, maybe to the one it stands in, so what
  fits is the least relation that agrees with the keywords (`Fits`, `fits_iff`).

  Where a reference leads makes no difference to the other keywords.  A reading (`IsReading`) is
  any relation that agrees with the keywords, given which values belong to which entity, and
  to fit the schemas of a document is one (`isReading_fits`).  In every reading the schema
  of a type is fit by the values that the type admits (`IsReading.type`), and that of an
  entity by the objects that have its fields and no others (`IsReading.entity`).
-/
import Mathlib.Data.List.Nodup
import WorkflowCatalog.Schema.Basic

namespace WorkflowCatalog

open Text (CodeText)
open Decimal (Binary64)

namespace Json

/-! ### Parts of values -/

/-- The members of an object; no other value has any. -/
def members : Json → List (String × Json)
  | .obj ms => ms
  | _ => []

/-- The items of an array; no other value has any. -/
def items : Json → List Json
  | .arr xs => xs
  | _ => []

/-- Is the number an integer? -/
def isIntegral : Binary64 → Bool
  | .finite _ mantissa exponent => mantissa % Nat.pow 2 (-exponent).toNat == 0
  | _ => false

/-- The names of the types that a value has. -/
def typeNames : Json → List String
  | .null => ["null"]
  | .bool _ => ["boolean"]
  | .int _ => ["integer", "number"]
  | .float x => if isIntegral x then ["integer", "number"] else ["number"]
  | .string _ => ["string"]
  | .arr _ => ["array"]
  | .obj _ => ["object"]

theorem str_inj {s t : String} (h : str s = str t) : s = t :=
  CodeText.ofString_inj (Json.string.inj h)

theorem mem_typeNames_object {v : Json} : "object" ∈ v.typeNames ↔ ∃ ms, v = .obj ms := by
  cases v <;> simp [typeNames]
  split <;> simp

theorem mem_typeNames_array {v : Json} : "array" ∈ v.typeNames ↔ ∃ xs, v = .arr xs := by
  cases v <;> simp [typeNames]
  split <;> simp

theorem mem_typeNames_string {v : Json} : "string" ∈ v.typeNames ↔ ∃ t, v = .string t := by
  cases v <;> simp [typeNames]
  split <;> simp

theorem mem_typeNames_boolean {v : Json} : "boolean" ∈ v.typeNames ↔ ∃ b, v = .bool b := by
  cases v <;> simp [typeNames]
  split <;> simp

theorem mem_typeNames_null {v : Json} : "null" ∈ v.typeNames ↔ v = .null := by
  cases v <;> simp [typeNames]
  split <;> simp

/-! ### Looking up -/

/-- A key that stands once in a list is looked up. -/
theorem lookup_eq_some_iff {ms : List (String × Json)} (h : (ms.map (·.1)).Nodup) {key : String}
    {x : Json} : lookup key ms = some x ↔ (key, x) ∈ ms := by
  induction ms with
  | nil => simp [lookup]
  | cons m rest ih =>
    obtain ⟨k, y⟩ := m
    rw [List.map_cons, List.nodup_cons] at h
    by_cases hk : k = key
    · subst hk
      have hnot : (k, x) ∉ rest := fun hmem => h.1 (List.mem_map.2 ⟨(k, x), hmem, rfl⟩)
      simp [lookup, hnot, eq_comm]
    · have hne : ¬ key = k := fun he => hk he.symm
      simp only [lookup] at ih
      simp [lookup, hk, hne, ih h.2]

theorem lookup_eq_none_iff {ms : List (String × Json)} {key : String} :
    lookup key ms = none ↔ key ∉ ms.map (·.1) := by
  unfold lookup
  rw [Option.map_eq_none_iff, List.find?_eq_none, List.mem_map]
  constructor
  · rintro h ⟨m, hm, rfl⟩
    exact h m hm (by simp)
  · intro h m hm he
    exact h ⟨m, hm, by simpa using he⟩

theorem insert_of_new {key : String} {value : Json} {ms : List (String × Json)}
    (h : key ∉ ms.map (·.1)) : insert key value ms = ms ++ [(key, value)] := by
  induction ms with
  | nil => rfl
  | cons m rest ih =>
    rw [List.map_cons, List.mem_cons, not_or] at h
    rw [insert, if_neg (Ne.symm h.1), ih h.2]
    rfl

/-- Assignments to different keys are the members that they leave. -/
theorem ofAssignments_of_nodup {ms : List (String × Json)} (h : (ms.map (·.1)).Nodup) :
    ofAssignments ms = ms := by
  have key : ∀ front, ((front ++ ms).map (·.1)).Nodup →
      ms.foldl (fun members kv => insert kv.1 kv.2 members) front = front ++ ms := by
    clear h
    induction ms with
    | nil => simp
    | cons m rest ih =>
      intro front hfront
      have hnew : m.1 ∉ front.map (·.1) := by
        rw [List.map_append, List.map_cons] at hfront
        intro hmem
        exact (List.nodup_append.1 hfront).2.2 _ hmem _ List.mem_cons_self rfl
      rw [List.append_cons] at hfront ⊢
      rw [List.foldl_cons, insert_of_new hnew, ih _ hfront]
  exact key [] h

end Json

namespace Schema

open Json (lookup)

/-! ### Keywords -/

/-- The keywords that ask something of a value. -/
inductive Keyword where
  | type
  | properties
  | required
  | additionalProperties
  | items
  | anyOf
  | reference
  deriving DecidableEq, Repr

def Keyword.name : Keyword → String
  | .type => "type"
  | .properties => "properties"
  | .required => "required"
  | .additionalProperties => "additionalProperties"
  | .items => "items"
  | .anyOf => "anyOf"
  | .reference => "$ref"

/-- The keyword with a name, if there is one; other names only describe. -/
def Keyword.ofName? (name : String) : Option Keyword :=
  [Keyword.type, .properties, .required, .additionalProperties, .items, .anyOf,
    .reference].find? (·.name == name)

theorem Keyword.ofName?_name (k : Keyword) : Keyword.ofName? k.name = some k := by
  cases k <;> decide

section

variable (document : Json) (fits : Json → Json → Prop)

/-- The schema of an entity in the definitions of a document. -/
def definition? (name : String) : Option Json :=
  (lookup "$defs" document.members).bind fun definitions => lookup name definitions.members

/-- The properties that a schema lists. -/
def propertiesOf (schema : List (String × Json)) : List (String × Json) :=
  ((lookup "properties" schema).getD .null).members

/-- What a keyword of a schema asks of a value, by its argument.  It may leave the value or
    a part of it to the schemas inside, which `fits` speaks of. -/
def Asks (schema : List (String × Json)) (v argument : Json) : Keyword → Prop
  | .type => ∃ name ∈ v.typeNames, argument = .str name ∨ .str name ∈ argument.items
  | .properties => ∀ m ∈ v.members, ∀ s, lookup m.1 argument.members = some s → fits s m.2
  | .required => "object" ∈ v.typeNames →
    ∀ name ∈ argument.items, ∃ m ∈ v.members, name = .str m.1
  | .additionalProperties =>
    ∀ m ∈ v.members, lookup m.1 (propertiesOf schema) = none → fits argument m.2
  | .items => ∀ x ∈ v.items, fits argument x
  | .anyOf => ∃ s ∈ argument.items, fits s v
  | .reference => ∃ name s, argument = .str ("#/$defs/" ++ name) ∧
    definition? document name = some s ∧ fits s v

/-- Does a value do what a member of a schema asks? -/
def Obeys (schema : List (String × Json)) (v : Json) (m : String × Json) : Prop :=
  ∀ k, Keyword.ofName? m.1 = some k → Asks document fits schema v m.2 k

/-- What a schema means, one level deep. -/
def FitsOneLevel : Json → Json → Prop
  | .bool b, _ => b = true
  | .obj schema, v => ∀ m ∈ schema, Obeys document fits schema v m
  | _, _ => False

/-- Does a value fit a schema of a document?  It is the least relation that is right at
    every level. -/
def Fits (schema v : Json) : Prop :=
  ∀ fits : Json → Json → Prop, (∀ s w, FitsOneLevel document fits s w → fits s w) →
    fits schema v

/-- Does a value fit the document as a whole? -/
def Validates (v : Json) : Prop := Fits document document v

/-- Does a value fit the definition of an entity? -/
def IsA (name : String) (v : Json) : Prop :=
  ∃ s, definition? document name = some s ∧ Fits document s v

end

variable {document : Json} {fits fits' : Json → Json → Prop}

/-- If more values fit the schemas inside, no keyword asks more. -/
theorem Asks.mono (h : ∀ s v, fits s v → fits' s v) {schema : List (String × Json)}
    {v argument : Json} {k : Keyword} (ha : Asks document fits schema v argument k) :
    Asks document fits' schema v argument k := by
  cases k with
  | type => exact ha
  | properties => exact fun m hm s hs => h _ _ (ha m hm s hs)
  | required => exact ha
  | additionalProperties => exact fun m hm hnone => h _ _ (ha m hm hnone)
  | items => exact fun x hx => h _ _ (ha x hx)
  | anyOf =>
    obtain ⟨s, hs, hfits⟩ := ha
    exact ⟨s, hs, h _ _ hfits⟩
  | reference =>
    obtain ⟨name, s, hname, hs, hfits⟩ := ha
    exact ⟨name, s, hname, hs, h _ _ hfits⟩

theorem FitsOneLevel.mono (h : ∀ s v, fits s v → fits' s v) {s v : Json}
    (hs : FitsOneLevel document fits s v) : FitsOneLevel document fits' s v := by
  cases s with
  | obj schema => exact fun m hm k hk => (hs m hm k hk).mono h
  | bool b => exact hs
  | _ => exact hs.elim

/-- The least relation that is right at every level, where `F` tells what is right at one. -/
def Least (F : (Json → Json → Prop) → Json → Json → Prop) (schema v : Json) : Prop :=
  ∀ fits : Json → Json → Prop, (∀ s w, F fits s w → fits s w) → fits schema v

theorem least_iff {F : (Json → Json → Prop) → Json → Json → Prop}
    (hF : ∀ fits fits', (∀ s v, fits s v → fits' s v) → ∀ s v, F fits s v → F fits' s v)
    {s v : Json} : Least F s v ↔ F (Least F) s v := by
  have hback : ∀ s v, F (Least F) s v → Least F s v := by
    intro s v h fits hfits
    refine hfits s v (hF _ _ ?_ s v h)
    intro s' v' h'
    exact h' fits hfits
  constructor
  · intro h
    refine h (F (Least F)) ?_
    intro s' v' h'
    exact hF _ _ hback s' v' h'
  · exact hback s v

/-- **A value fits a schema if it does at one level**, and its parts fit the schemas
    inside. -/
theorem fits_iff {s v : Json} : Fits document s v ↔ FitsOneLevel document (Fits document) s v :=
  least_iff fun _ _ h _ _ hs => hs.mono h

/-! ### Readings -/

section

variable (isA : String → Json → Prop) (fits : Json → Json → Prop)

/-- What a keyword asks if it is known which values belong to which entity.  No keyword but
    that of a reference looks at the document. -/
def AsksUnder (schema : List (String × Json)) (v argument : Json) : Keyword → Prop
  | .reference => ∃ name, argument = .str (ValueType.entityPointer name) ∧ isA name v
  | k => Asks .null fits schema v argument k

def ObeysUnder (schema : List (String × Json)) (v : Json) (m : String × Json) : Prop :=
  ∀ k, Keyword.ofName? m.1 = some k → AsksUnder isA fits schema v m.2 k

/-- What a schema means, one level deep, if it is known which values belong to which
    entity. -/
def FitsUnder : Json → Json → Prop
  | .bool b, _ => b = true
  | .obj schema, v => ∀ m ∈ schema, ObeysUnder isA fits schema v m
  | _, _ => False

/-- The relation between schemas and values is right at every level. -/
def IsReading : Prop := ∀ s v, fits s v ↔ FitsUnder isA fits s v

end

/-- **To fit the schemas of a document is a reading of them.** -/
theorem isReading_fits : IsReading (IsA document) (Fits document) := by
  have hasks : ∀ (schema : List (String × Json)) (v argument : Json) (k : Keyword),
      Asks document (Fits document) schema v argument k ↔
        AsksUnder (IsA document) (Fits document) schema v argument k := by
    intro schema v argument k
    cases k with
    | reference =>
      constructor
      · rintro ⟨name, s, hname, hs⟩
        exact ⟨name, hname, s, hs⟩
      · rintro ⟨name, hname, s, hs⟩
        exact ⟨name, s, hname, hs⟩
    | _ => exact Iff.rfl
  intro s v
  rw [fits_iff]
  cases s with
  | obj schema =>
    exact forall_congr' fun m => forall_congr' fun _ => forall_congr' fun k =>
      forall_congr' fun _ => hasks schema v m.2 k
  | _ => exact Iff.rfl

section

variable {isA : String → Json → Prop} (hread : IsReading isA fits)

theorem obeysUnder_name {k : Keyword} {schema : List (String × Json)} {v argument : Json} :
    ObeysUnder isA fits schema v (k.name, argument) ↔
      AsksUnder isA fits schema v argument k := by
  unfold ObeysUnder
  rw [Keyword.ofName?_name]
  simp

include hread

theorem IsReading.not_false {v : Json} : ¬ fits (.bool false) v := by
  rw [hread]
  exact Bool.false_ne_true

/-- A schema of one keyword. -/
theorem IsReading.single {k : Keyword} {v argument : Json} :
    fits (.obj [(k.name, argument)]) v ↔
      AsksUnder isA fits [(k.name, argument)] v argument k := by
  rw [hread, ← obeysUnder_name]
  exact List.forall_mem_singleton

end

/-! ### Descriptions ask nothing -/

/-- Does the member of a schema ask something? -/
def isAssertion (m : String × Json) : Bool := (Keyword.ofName? m.1).isSome

theorem obeysUnder_of_not_isAssertion {isA : String → Json → Prop} {m : String × Json}
    (h : isAssertion m = false) {schema : List (String × Json)} {v : Json} :
    ObeysUnder isA fits schema v m := by
  intro k hk
  rw [isAssertion, hk] at h
  cases h

theorem propertiesOf_filter (schema : List (String × Json)) :
    propertiesOf (schema.filter isAssertion) = propertiesOf schema := by
  have hassert : ∀ m : String × Json, m.1 = "properties" → isAssertion m = true := by
    intro m hm
    rw [isAssertion, hm]
    exact congrArg Option.isSome (Keyword.ofName?_name .properties)
  have hfind : (schema.filter isAssertion).find? (·.1 == "properties") =
      schema.find? (·.1 == "properties") := by
    rw [List.find?_filter]
    congr 1
    funext m
    by_cases hm : m.1 = "properties"
    · simp [hm, hassert m hm]
    · simp [hm]
  unfold propertiesOf lookup
  rw [hfind]

/-- Schemas that differ only in what asks nothing are fit by the same values. -/
theorem IsReading.congr {isA : String → Json → Prop} (hread : IsReading isA fits)
    {schema schema' : List (String × Json)}
    (h : schema.filter isAssertion = schema'.filter isAssertion) {v : Json} :
    fits (.obj schema) v ↔ fits (.obj schema') v := by
  have key : ∀ ms : List (String × Json), fits (.obj ms) v ↔
      ∀ m ∈ ms.filter isAssertion, ObeysUnder isA fits (ms.filter isAssertion) v m := by
    intro ms
    have hsame : ∀ m, ObeysUnder isA fits (ms.filter isAssertion) v m ↔
        ObeysUnder isA fits ms v m := by
      intro m
      refine forall_congr' fun k => forall_congr' fun _ => ?_
      cases k <;> simp only [AsksUnder, Asks, propertiesOf_filter]
    rw [hread]
    constructor
    · intro hall m hm
      exact (hsame m).2 (hall m (List.mem_filter.1 hm).1)
    · intro hall m hm
      cases hassert : isAssertion m with
      | false => exact obeysUnder_of_not_isAssertion hassert
      | true => exact (hsame m).1 (hall m (List.mem_filter.2 ⟨hm, hassert⟩))
  rw [key schema, key schema', h]

theorem filter_descriptionMember (d : String) :
    (descriptionMember d).filter isAssertion = [] := by
  unfold descriptionMember
  split
  · rfl
  · rfl

/-! ### The schemas of types -/

/-- The values of a type, given those of the entities. -/
def ValueType.Admits (isA : String → Json → Prop) : ValueType → Json → Prop
  | .text n, v => (∃ t, v = .string t) ∨ n = true ∧ v = .null
  | .truth n, v => (∃ b, v = .bool b) ∨ n = true ∧ v = .null
  | .list items n, v =>
    (∃ xs, v = .arr xs ∧ ∀ x ∈ xs, Admits isA items x) ∨ n = true ∧ v = .null
  | .reference e n, v => isA e v ∨ n = true ∧ v = .null

section

variable {isA : String → Json → Prop}

/-- A type that is given by its name. -/
theorem asksUnder_type_str {schema : List (String × Json)} {v : Json} {name : String} :
    AsksUnder isA fits schema v (.str name) .type ↔ name ∈ v.typeNames := by
  constructor
  · rintro ⟨name', hname, h | h⟩
    · rwa [Json.str_inj h]
    · cases h
  · intro h
    exact ⟨name, h, .inl rfl⟩

/-- A type that is given by two names, one of them that of null. -/
theorem asksUnder_type_orNull {schema : List (String × Json)} {v : Json} {name : String} :
    AsksUnder isA fits schema v (.ofStrings [name, "null"]) .type ↔
      name ∈ v.typeNames ∨ v = .null := by
  rw [← Json.mem_typeNames_null]
  constructor
  · rintro ⟨name', hname, h | h⟩
    · cases h
    rcases List.mem_cons.1 h with h | h
    · exact .inl (Json.str_inj h ▸ hname)
    · exact .inr (Json.str_inj (List.mem_singleton.1 h) ▸ hname)
  · rintro (h | h)
    · exact ⟨name, h, .inr List.mem_cons_self⟩
    · exact ⟨"null", h, .inr (List.mem_cons_of_mem _ List.mem_cons_self)⟩

variable (hread : IsReading isA fits)

include hread

namespace IsReading

theorem namedSchema {name : String} {n : Bool} {v : Json} :
    fits (.obj (ValueType.namedSchema name n)) v ↔
      name ∈ v.typeNames ∨ n = true ∧ v = .null := by
  cases n with
  | false =>
    change fits (.obj [(Keyword.type.name, .str name)]) v ↔ _
    rw [hread.single, asksUnder_type_str]
    simp
  | true =>
    change fits (.obj [(Keyword.type.name, .ofStrings [name, "null"])]) v ↔ _
    rw [hread.single, asksUnder_type_orNull]
    simp

theorem null {v : Json} : fits (.obj [("type", .str "null")]) v ↔ v = .null := by
  rw [← Json.mem_typeNames_null]
  change fits (.obj [(Keyword.type.name, .str "null")]) v ↔ _
  rw [hread.single, asksUnder_type_str]

theorem schemaOrNull {schema : List (String × Json)} {n : Bool} {v : Json} :
    fits (.obj (ValueType.schemaOrNull schema n)) v ↔
      fits (.obj schema) v ∨ n = true ∧ v = .null := by
  cases n with
  | false => simp [ValueType.schemaOrNull]
  | true =>
    change fits (.obj [(Keyword.anyOf.name,
      .arr [.obj schema, .obj [("type", .str "null")]])]) v ↔ _
    rw [hread.single, ← hread.null]
    simp [AsksUnder, Asks, Json.items]

/-- A reference leads to the values of its entity. -/
theorem reference {e : String} {v : Json} :
    fits (.obj [("$ref", .str (ValueType.entityPointer e))]) v ↔ isA e v := by
  change fits (.obj [(Keyword.reference.name, .str (ValueType.entityPointer e))]) v ↔ _
  rw [hread.single]
  constructor
  · rintro ⟨name, hname, hname'⟩
    have htext := congrArg String.toList (Json.str_inj hname)
    rw [ValueType.entityPointer, ValueType.entityPointer, String.toList_append,
      String.toList_append] at htext
    have he : e = name := String.toList_inj.1 (List.append_cancel_left htext)
    exact he ▸ hname'
  · intro h
    exact ⟨e, rfl, h⟩

theorem array {items v : Json} :
    fits (.obj [("type", .str "array"), ("items", items)]) v ↔
      ∃ xs, v = .arr xs ∧ ∀ x ∈ xs, fits items x := by
  rw [hread]
  change (∀ m ∈ [(Keyword.type.name, Json.str "array"), (Keyword.items.name, items)], _) ↔ _
  rw [List.forall_mem_cons, List.forall_mem_singleton, obeysUnder_name, obeysUnder_name,
    asksUnder_type_str, Json.mem_typeNames_array]
  constructor
  · rintro ⟨⟨xs, rfl⟩, hitems⟩
    exact ⟨xs, rfl, hitems⟩
  · rintro ⟨xs, rfl, hitems⟩
    exact ⟨⟨xs, rfl⟩, hitems⟩

/-- **The schema of a type is fit by the values that the type admits.** -/
theorem type {t : ValueType} {v : Json} : fits (.obj t.schemaMembers) v ↔ t.Admits isA v := by
  induction t generalizing v with
  | text n =>
    rw [ValueType.schemaMembers, hread.namedSchema, Json.mem_typeNames_string]
    exact Iff.rfl
  | truth n =>
    rw [ValueType.schemaMembers, hread.namedSchema, Json.mem_typeNames_boolean]
    exact Iff.rfl
  | list items n ih =>
    rw [ValueType.schemaMembers, hread.schemaOrNull, hread.array]
    simp only [ih]
    exact Iff.rfl
  | reference e n =>
    rw [ValueType.schemaMembers, hread.schemaOrNull, hread.reference]
    exact Iff.rfl

theorem field {f : Field} {v : Json} : fits f.schema v ↔ f.type.Admits isA v := by
  rw [← hread.type]
  refine hread.congr ?_
  rw [List.filter_append, filter_descriptionMember, List.append_nil]

end IsReading

end

/-! ### The schemas of entities -/

/-- The objects of an entity: they have all of its fields, with values of their types, and
    no others. -/
def Entity.Admits (isA : String → Json → Prop) (e : Entity) (v : Json) : Prop :=
  ∃ ms, v = .obj ms ∧ (∀ m ∈ ms, m.1 ∈ e.fieldNames) ∧
    ∀ f ∈ e.fields, ∃ x, (f.name, x) ∈ ms ∧ f.type.Admits isA x

/-- The properties of the schema of an entity. -/
def Entity.properties (e : Entity) : List (String × Json) := e.fields.map fun f => (f.name, f.schema)

/-- What the schema of an entity asks. -/
def Entity.asserted (e : Entity) : List (String × Json) :=
  [(Keyword.type.name, .str "object"), (Keyword.properties.name, .obj e.properties),
    (Keyword.required.name, .ofStrings e.fieldNames),
    (Keyword.additionalProperties.name, .bool false)]

section

variable {e : Entity} (he : e.fieldNames.Nodup)

include he

theorem nodup_properties : (e.properties.map (·.1)).Nodup := by
  rw [Entity.properties, List.map_map]
  exact he

theorem filter_schemaMembers : e.schemaMembers.filter isAssertion = e.asserted := by
  have hproperties : Json.ofAssignments (e.fields.map fun f => (f.name, f.schema)) =
      e.properties := Json.ofAssignments_of_nodup (nodup_properties he)
  rw [Entity.schemaMembers, hproperties, List.filter_append, List.filter_append,
    filter_descriptionMember, List.append_nil]
  rfl

theorem lookup_properties_eq_some {name : String} {s : Json} :
    lookup name e.properties = some s ↔ ∃ f ∈ e.fields, f.name = name ∧ f.schema = s := by
  rw [Json.lookup_eq_some_iff (nodup_properties he), Entity.properties, List.mem_map]
  simp only [Prod.mk.injEq]

omit he in
theorem lookup_properties_eq_none {name : String} :
    lookup name e.properties = none ↔ name ∉ e.fieldNames := by
  rw [Json.lookup_eq_none_iff, Entity.properties, List.map_map]
  exact Iff.rfl

/-- **The schema of an entity is fit by its objects.**  It makes no difference what else is
    in it that asks nothing. -/
theorem IsReading.entity {isA : String → Json → Prop} (hread : IsReading isA fits)
    {schema : List (String × Json)}
    (hschema : schema.filter isAssertion = e.schemaMembers.filter isAssertion) {v : Json}
    (hv : (v.members.map (·.1)).Nodup) : fits (.obj schema) v ↔ e.Admits isA v := by
  rw [filter_schemaMembers he] at hschema
  have hasserted : schema.filter isAssertion = e.asserted.filter isAssertion := hschema
  rw [hread.congr hasserted, hread]
  change (∀ m ∈ [_, _, _, _], ObeysUnder isA fits e.asserted v m) ↔ _
  simp only [List.forall_mem_cons, obeysUnder_name, asksUnder_type_str, Json.mem_typeNames_object]
  constructor
  · rintro ⟨⟨ms, rfl⟩, hproperties, hrequired, hadditional, -⟩
    refine ⟨ms, rfl, ?_, ?_⟩
    · intro m hm
      by_contra hnot
      exact hread.not_false (hadditional m hm (lookup_properties_eq_none.2 hnot))
    · intro f hf
      have hname : Json.str f.name ∈ (Json.ofStrings e.fieldNames).items :=
        List.mem_map_of_mem (List.mem_map_of_mem hf)
      obtain ⟨m, hm, heq⟩ := hrequired List.mem_cons_self _ hname
      have hkey := Json.str_inj heq
      refine ⟨m.2, hkey ▸ hm, hread.field.1 (hproperties m hm _ ?_)⟩
      exact (lookup_properties_eq_some he).2 ⟨f, hf, hkey, rfl⟩
  · rintro ⟨ms, rfl, hkeys, hfields⟩
    refine ⟨⟨ms, rfl⟩, ?_, ?_, ?_, nofun⟩
    · intro m hm s hs
      obtain ⟨f, hf, hname, rfl⟩ := (lookup_properties_eq_some he).1 hs
      obtain ⟨x, hx, hadmits⟩ := hfields f hf
      rw [hname] at hx
      have hsame : x = m.2 := congrArg Prod.snd (List.inj_on_of_nodup_map hv hx hm rfl)
      exact hread.field.2 (hsame ▸ hadmits)
    · intro _ name hname
      obtain ⟨key, hkey, rfl⟩ := List.mem_map.1 hname
      obtain ⟨f, hf, rfl⟩ := List.mem_map.1 hkey
      obtain ⟨x, hx, -⟩ := hfields f hf
      exact ⟨_, hx, rfl⟩
    · intro m hm hnone
      exact absurd (hkeys m hm) (lookup_properties_eq_none.1 hnone)

end

end Schema

end WorkflowCatalog
