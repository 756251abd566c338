/-
  WorkflowCatalog/Proofs/KeyOrder.lean
  ====================================
  **Values that are equal up to the order of keys.**  Two objects are the same if the
  members of the one can be put into the order of the other (`Same`).  If no key stands
  twice in them, they are if they have the same keys and the same values under them
  (`same_obj_iff`).

  An array is the same as that of some records if each item is the same as one of them
  (`same_records_iff`).
-/
import WorkflowCatalog.Proofs.SchemaMeaning

namespace WorkflowCatalog.Json

open Text (CodeText)

/-! ### Sameness -/

mutual

/-- Are two values equal, up to the order of keys? -/
inductive Same : Json → Json → Prop where
  | null : Same .null .null
  | bool (b : Bool) : Same (.bool b) (.bool b)
  | int (n : Int) : Same (.int n) (.int n)
  | float (x : Decimal.Binary64) : Same (.float x) (.float x)
  | string (t : CodeText) : Same (.string t) (.string t)
  | arr {xs ys : List Json} (h : SameItems xs ys) : Same (.arr xs) (.arr ys)
  | obj {ms ns ns' : List (String × Json)} (h : SameMembers ms ns') (hp : ns'.Perm ns) :
    Same (.obj ms) (.obj ns)

/-- Are values, one after the other, the same? -/
inductive SameItems : List Json → List Json → Prop where
  | nil : SameItems [] []
  | cons {x y : Json} {xs ys : List Json} (h : Same x y) (hrest : SameItems xs ys) :
    SameItems (x :: xs) (y :: ys)

/-- Do members, one after the other, have equal keys and the same values? -/
inductive SameMembers : List (String × Json) → List (String × Json) → Prop where
  | nil : SameMembers [] []
  | cons {key : String} {x y : Json} {ms ns : List (String × Json)} (h : Same x y)
    (hrest : SameMembers ms ns) : SameMembers ((key, x) :: ms) ((key, y) :: ns)

end

mutual

theorem Same.refl : (v : Json) → Same v v
  | .null => .null
  | .bool b => .bool b
  | .int n => .int n
  | .float x => .float x
  | .string t => .string t
  | .arr xs => .arr (SameItems.refl xs)
  | .obj ms => .obj (SameMembers.refl ms) (.refl ms)

theorem SameItems.refl : (xs : List Json) → SameItems xs xs
  | [] => .nil
  | x :: xs => .cons (Same.refl x) (SameItems.refl xs)

theorem SameMembers.refl : (ms : List (String × Json)) → SameMembers ms ms
  | [] => .nil
  | (_, x) :: ms => .cons (Same.refl x) (SameMembers.refl ms)

end

/-! ### Texts, truth values and null -/

theorem same_null {v : Json} : Same .null v ↔ v = .null := by
  constructor
  · rintro ⟨⟩
    rfl
  · rintro rfl
    exact .null

theorem same_bool {b : Bool} {v : Json} : Same (.bool b) v ↔ v = .bool b := by
  constructor
  · rintro ⟨⟩
    rfl
  · rintro rfl
    exact .bool b

theorem same_string {t : CodeText} {v : Json} : Same (.string t) v ↔ v = .string t := by
  constructor
  · rintro ⟨⟩
    rfl
  · rintro rfl
    exact .string t

/-! ### Arrays -/

section

variable {α : Type} {dump : α → Json} {P : Json → Prop}

theorem sameItems_records_iff {ys : List Json} (h : ∀ y ∈ ys, P y ↔ ∃ a, Same (dump a) y) :
    (∀ y ∈ ys, P y) ↔ ∃ as : List α, SameItems (as.map dump) ys := by
  induction ys with
  | nil =>
    constructor
    · intro _
      exact ⟨[], .nil⟩
    · intro _ y hy
      cases hy
  | cons y ys ih =>
    rw [List.forall_mem_cons] at h
    rw [List.forall_mem_cons, h.1, ih h.2]
    constructor
    · rintro ⟨⟨a, ha⟩, as, has⟩
      exact ⟨a :: as, .cons ha has⟩
    · rintro ⟨as, has⟩
      cases as with
      | nil => cases has
      | cons a as =>
        rcases has with ⟨⟩ | ⟨ha, has⟩
        exact ⟨⟨a, ha⟩, as, has⟩

/-- **Arrays of records.** -/
theorem same_records_iff {v : Json} (h : ∀ y ∈ v.items, P y ↔ ∃ a, Same (dump a) y) :
    (∃ ys, v = .arr ys ∧ ∀ y ∈ ys, P y) ↔ ∃ as : List α, Same (.arr (as.map dump)) v := by
  constructor
  · rintro ⟨ys, rfl, hys⟩
    obtain ⟨as, has⟩ := (sameItems_records_iff h).1 hys
    exact ⟨as, .arr has⟩
  · rintro ⟨as, has⟩
    cases has with
    | arr has => exact ⟨_, rfl, (sameItems_records_iff h).2 ⟨as, has⟩⟩

/-- Records that may be missing. -/
theorem same_orNull_iff (dumpOrNull : Option α → Json) (hnone : dumpOrNull none = .null)
    (hsome : ∀ a, dumpOrNull (some a) = dump a) {v : Json} {Q : Prop}
    (h : Q ↔ ∃ a, Same (dump a) v) : (Q ∨ v = .null) ↔ ∃ a, Same (dumpOrNull a) v := by
  constructor
  · rintro (hv | rfl)
    · obtain ⟨a, ha⟩ := h.1 hv
      exact ⟨some a, by rwa [hsome]⟩
    · exact ⟨none, by rw [hnone]; exact .null⟩
  · rintro ⟨_ | a, ha⟩
    · rw [hnone, same_null] at ha
      exact .inr ha
    · rw [hsome] at ha
      exact .inl (h.2 ⟨a, ha⟩)

end

/-! ### Objects -/

theorem SameMembers.keys {ms ns : List (String × Json)} (h : SameMembers ms ns) :
    ns.map (·.1) = ms.map (·.1) := by
  induction ms generalizing ns with
  | nil =>
    cases h
    rfl
  | cons m ms ih =>
    rcases h with ⟨⟩ | ⟨-, hrest⟩
    rw [List.map_cons, List.map_cons, ih hrest]

theorem SameMembers.values {ms ns : List (String × Json)} (h : SameMembers ms ns) :
    ∀ m ∈ ms, ∃ x, (m.1, x) ∈ ns ∧ Same m.2 x := by
  induction ms generalizing ns with
  | nil => nofun
  | cons m ms ih =>
    rcases h with ⟨⟩ | ⟨hx, hrest⟩
    rw [List.forall_mem_cons]
    refine ⟨⟨_, List.mem_cons_self, hx⟩, ?_⟩
    intro m' hm'
    obtain ⟨y, hy, hsame⟩ := ih hrest m' hm'
    exact ⟨y, List.mem_cons_of_mem _ hy, hsame⟩

/-- Members that are all there can be picked in order. -/
theorem exists_sameMembers {ms ns : List (String × Json)}
    (h : ∀ m ∈ ms, ∃ x, (m.1, x) ∈ ns ∧ Same m.2 x) :
    ∃ ns', SameMembers ms ns' ∧ ns' ⊆ ns := by
  induction ms with
  | nil => exact ⟨[], .nil, List.nil_subset _⟩
  | cons m ms ih =>
    rw [List.forall_mem_cons] at h
    obtain ⟨⟨x, hx, hsame⟩, hrest⟩ := h
    obtain ⟨ns', hns', hsub⟩ := ih hrest
    exact ⟨(m.1, x) :: ns', .cons hsame hns', List.cons_subset.2 ⟨hx, hsub⟩⟩

/-- **Objects in which no key stands twice** are the same if they have the same keys and the
    same values under them. -/
theorem same_obj_iff {ms ns : List (String × Json)} (hms : (ms.map (·.1)).Nodup)
    (hns : (ns.map (·.1)).Nodup) :
    Same (.obj ms) (.obj ns) ↔
      (∀ n ∈ ns, n.1 ∈ ms.map (·.1)) ∧ ∀ m ∈ ms, ∃ x, (m.1, x) ∈ ns ∧ Same m.2 x := by
  constructor
  · rintro (_ | _ | _ | _ | _ | _ | ⟨hsame, hperm⟩)
    constructor
    · intro n hn
      rw [← hsame.keys]
      exact List.mem_map_of_mem (hperm.mem_iff.2 hn)
    · intro m hm
      obtain ⟨x, hx, hsame'⟩ := hsame.values m hm
      exact ⟨x, hperm.mem_iff.1 hx, hsame'⟩
  · rintro ⟨hkeys, hvalues⟩
    obtain ⟨ns', hsame, hsub⟩ := exists_sameMembers hvalues
    have hns' : (ns'.map (·.1)).Nodup := by
      rw [hsame.keys]
      exact hms
    refine .obj hsame ((List.perm_ext_iff_of_nodup hns'.of_map hns.of_map).2 ?_)
    intro n
    refine ⟨fun hn => hsub hn, fun hn => ?_⟩
    -- the key is there, and the value under it is the one that was picked
    have hkey := hkeys n hn
    rw [← hsame.keys] at hkey
    obtain ⟨n', hn', heq⟩ := List.mem_map.1 hkey
    rwa [← List.inj_on_of_nodup_map hns (hsub hn') hn heq]

/-- What is the same as an object is one. -/
theorem Same.exists_obj {ms : List (String × Json)} {v : Json} (h : Same (.obj ms) v) :
    ∃ ns, v = .obj ns := by
  cases h
  exact ⟨_, rfl⟩

/-! ### Distinct keys -/

/-- Does no key stand twice in an object, at any depth? -/
inductive DistinctKeys : Json → Prop where
  | null : DistinctKeys .null
  | bool (b : Bool) : DistinctKeys (.bool b)
  | int (n : Int) : DistinctKeys (.int n)
  | float (x : Decimal.Binary64) : DistinctKeys (.float x)
  | string (t : CodeText) : DistinctKeys (.string t)
  | arr {xs : List Json} (h : ∀ x ∈ xs, DistinctKeys x) : DistinctKeys (.arr xs)
  | obj {ms : List (String × Json)} (hkeys : (ms.map (·.1)).Nodup)
    (h : ∀ m ∈ ms, DistinctKeys m.2) : DistinctKeys (.obj ms)

theorem DistinctKeys.keys {v : Json} (h : DistinctKeys v) : (v.members.map (·.1)).Nodup := by
  cases h with
  | obj hkeys _ => exact hkeys
  | _ => exact List.nodup_nil

theorem DistinctKeys.item {v x : Json} (h : DistinctKeys v) (hx : x ∈ v.items) :
    DistinctKeys x := by
  cases h with
  | arr h => exact h x hx
  | _ => cases hx

theorem DistinctKeys.member {v : Json} {m : String × Json} (h : DistinctKeys v)
    (hm : m ∈ v.members) : DistinctKeys m.2 := by
  cases h with
  | obj _ h => exact h m hm
  | _ => cases hm

end WorkflowCatalog.Json
