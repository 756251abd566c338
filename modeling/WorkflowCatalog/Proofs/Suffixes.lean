/-
  WorkflowCatalog/Proofs/Suffixes.lean
  ====================================
  **Which suffixes find manifests.**  Settings put a suffix into their form: trimmed,
  lower case, a dot in front (`IsNormal`).  The search compares it with the suffix of a
  name, and that is another notion: what stands from the last dot of the name on, and
  nothing if the name ends in a dot.

  So a name that is made of a stem and an accepted suffix has for its own suffix the part
  of it from its last dot on (`lastPart`), and it is a manifest exactly if this part is
  more than a dot and is accepted too.  A suffix with one dot is its own last part, so that
  all it needs is something behind the dot.  `.workflow.yaml` finds nothing unless `.yaml` is
  accepted beside it, and a dot alone never does; the settings take both.

  Main statements: `isManifest_stem_append`, and `not_isManifest_deadSuffixes` for the
  suffixes that are accepted and find nothing.
-/
import WorkflowCatalog.Manifest.Discovery
import WorkflowCatalog.Path.Lemmas
import WorkflowCatalog.Proofs.Idempotence
import WorkflowCatalog.Proofs.SmallLetters

namespace WorkflowCatalog

open Text (CodePoint CodeText IsSmall isAsciiAlnum trimBoth)
open Validation

namespace Text

/-! ### Trimmed texts -/

theorem mem_of_mem_trimBoth {α : Type} {p : α → Bool} {a : α} {as : List α}
    (h : a ∈ trimBoth p as) : a ∈ as := by
  unfold trimBoth at h
  have hback := (List.dropWhile_suffix _).mem (List.mem_reverse.1 h)
  exact (List.dropWhile_suffix _).mem (List.mem_reverse.1 hback)

end Text

/-! ### Results without a problem -/

theorem Validation.ok_of_withProblems {α : Type} {c : Checked α} {a : α} {more : List Problem}
    (h : c.withProblems more = .ok a) : c = .ok a := by
  unfold Checked.withProblems at h
  split at h
  · exact h
  · cases h
  · cases h

theorem Validation.ok_of_under {α : Type} {c : Checked α} {a : α} {step : Step}
    (h : c.under step = .ok a) : c = .ok a := by
  cases c with
  | ok _ => exact h
  | bad _ => cases h

namespace Config

/-! ### Accepted suffixes -/

/-- The form of a suffix that settings hold. -/
structure IsNormal (s : CodeText) : Prop where
  dot : ∃ rest, s.points = .char '.' :: rest
  small : ∀ c, .char c ∈ s.points → IsSmall c

variable {s t : CodeText} {given suffixes : List CodeText} {config : Config} {members : Members}

/-- A suffix in its form is a trimmed lower case, with a dot in front where there was none. -/
theorem normalizeSuffix?_cases (h : normalizeSuffix? t = some s) :
    (s = t.strip.lower ∧ s.points.head? = some (.char '.')) ∨ s = ↑"." ++ t.strip.lower := by
  unfold normalizeSuffix? at h
  generalize t.strip.lower = u at h ⊢
  dsimp only at h
  split at h
  · cases h
  · split at h
    · rename_i hdot
      cases h
      exact .inl ⟨rfl, hdot⟩
    · cases h
      exact .inr rfl

theorem isNormal_of_normalizeSuffix? (h : normalizeSuffix? t = some s) : IsNormal s := by
  have hsmall : ∀ c, .char c ∈ t.strip.lower.points → IsSmall c :=
    fun _ => CodeText.isSmall_of_mem_lower
  rcases normalizeSuffix?_cases h with ⟨rfl, hdot⟩ | rfl
  · exact ⟨List.head?_eq_some_iff.1 hdot, hsmall⟩
  · refine ⟨⟨_, rfl⟩, fun c hc => ?_⟩
    rcases List.mem_cons.1 hc with hfront | hc
    · cases hfront
      decide +kernel
    · exact hsmall c hc

theorem slash_of_normalizeSuffix? (h : normalizeSuffix? t = some s)
    (hs : .char '/' ∈ s.points) : .char '/' ∈ t.points := by
  have hlower (h : .char '/' ∈ t.strip.lower.points) : .char '/' ∈ t.points :=
    Text.mem_of_mem_trimBoth (CodeText.mem_of_mem_lower (by decide) h)
  rcases normalizeSuffix?_cases h with ⟨rfl, -⟩ | rfl
  · exact hlower hs
  · rcases List.mem_cons.1 hs with hfront | hs
    · cases hfront
    · exact hlower hs

theorem exists_of_mem_mapM (h : given.mapM normalizeSuffix? = some suffixes)
    (hs : s ∈ suffixes) : ∃ t ∈ given, normalizeSuffix? t = some s := by
  induction given generalizing suffixes with
  | nil =>
    cases h
    cases hs
  | cons t rest ih =>
    rw [List.mapM_cons] at h
    obtain ⟨s', hs', h⟩ := Option.bind_eq_some_iff.1 h
    obtain ⟨ss, hrest, h⟩ := Option.bind_eq_some_iff.1 h
    cases h
    rcases List.mem_cons.1 hs with rfl | hs
    · exact ⟨t, List.mem_cons_self, hs'⟩
    · obtain ⟨t', ht', heq⟩ := ih hrest hs
      exact ⟨t', List.mem_cons_of_mem _ ht', heq⟩

/-- Suffixes are accepted if there are some and none is blank. -/
theorem suffixesOfJson_eq_ok : suffixesOfJson (.ofTexts given) = .ok suffixes ↔
    given ≠ [] ∧ given.mapM normalizeSuffix? = some suffixes := by
  have hitems : items codeText 0 (given.map .string) = .ok given := by
    have hread : ∀ t, codeText (.string t) = .ok t := fun _ => rfl
    rw [items_map (f := id) hread, List.map_id]
  have hall : (given.map Json.string).filter (passes codeText) = given.map Json.string := by
    refine List.filter_eq_self.2 fun v hv => ?_
    obtain ⟨t, -, rfl⟩ := List.mem_map.1 hv
    rfl
  unfold suffixesOfJson tuple Json.ofTexts
  dsimp only
  rw [hitems, hall, List.length_map]
  by_cases hnil : given = []
  · simp [hnil, Checked.withProblems, Checked.andThen]
  · have hlength : ¬ given.length < 1 := mt List.length_eq_zero_iff.1 hnil ∘ Nat.lt_one_iff.1
    rw [if_neg hlength]
    change normalizeSuffixes given = _ ↔ _
    unfold normalizeSuffixes
    cases given.mapM normalizeSuffix? <;> simp [hnil, Checked.problem]

/-- The suffixes of settings are those that their text gives. -/
theorem suffixes_of_ofJson (h : Config.ofJson (.obj members) = .ok config)
    {v : Json} (hv : Json.lookup "manifest_suffixes" members = some v) :
    suffixesOfJson v = .ok config.suffixes := by
  have hread := Validation.ok_of_withProblems h
  simp only [Seq.seq, Functor.map, Checked.seq_eq_ok, Checked.map_eq_ok] at hread
  -- the suffixes are the first of twelve settings, so they stand innermost
  obtain ⟨_, _, ⟨_, _, ⟨_, _, ⟨_, _, ⟨_, _, ⟨_, _, ⟨_, _, ⟨_, _, ⟨_, _, ⟨_, _, ⟨_, _,
    ⟨suffixes, hsuffixes, rfl⟩, -, rfl⟩, -, rfl⟩, -, rfl⟩, -, rfl⟩, -, rfl⟩, -, rfl⟩,
    -, rfl⟩, -, rfl⟩, -, rfl⟩, -, rfl⟩, -, rfl⟩ := hread
  unfold fieldOr at hsuffixes
  rw [hv] at hsuffixes
  exact Validation.ok_of_under hsuffixes

/-- Each suffix of settings is a given one in its form. -/
theorem exists_given (h : Config.ofJson (.obj members) = .ok config)
    (hgiven : Json.lookup "manifest_suffixes" members = some (.ofTexts given))
    (hs : s ∈ config.suffixes) : ∃ t ∈ given, normalizeSuffix? t = some s :=
  exists_of_mem_mapM (suffixesOfJson_eq_ok.1 (suffixes_of_ofJson h hgiven)).2 hs

end Config

/-! ### The part from the last dot on -/

namespace Manifest

/-- What stands in a suffix from its last dot on. -/
def lastPart (s : CodeText) : CodeText :=
  ⟨.char '.' :: (s.points.reverse.takeWhile (· != .char '.')).reverse⟩

/-- A list with a dot is cut at its last one. -/
theorem exists_last_dot {α : Type} {dot : α} {as : List α} (h : dot ∈ as) :
    ∃ front after, as = front ++ dot :: after ∧ dot ∉ after := by
  obtain ⟨back, rest, has, hback⟩ := List.eq_append_cons_of_mem (List.mem_reverse.2 h)
  refine ⟨rest.reverse, back.reverse, ?_, mt List.mem_reverse.1 hback⟩
  rw [← List.reverse_reverse as, has, List.reverse_append, List.reverse_cons, List.append_assoc]
  rfl

/-- A name that ends in a dot has no suffix. -/
theorem cutSuffix_dot {α : Type} [BEq α] [LawfulBEq α] {dot : α} (front : List α) :
    Path.cutSuffix dot (front ++ [dot]) = (front ++ [dot], []) := by
  unfold Path.cutSuffix
  simp

variable {s : CodeText} {front after : List CodePoint}

theorem lastPart_of_append (hs : s.points = front ++ .char '.' :: after)
    (h : .char '.' ∉ after) : lastPart s = ⟨.char '.' :: after⟩ := by
  have hne : ∀ p ∈ after.reverse, (p != .char '.') = true := by
    intro p hp
    rw [bne_iff_ne]
    rintro rfl
    exact h (List.mem_reverse.1 hp)
  have hback : s.points.reverse = after.reverse ++ .char '.' :: front.reverse := by
    rw [hs, List.reverse_append, List.reverse_cons, List.append_assoc]
    rfl
  unfold lastPart
  rw [hback, List.takeWhile_append_of_pos hne, List.takeWhile_cons_of_neg (by simp),
    List.append_nil, List.reverse_reverse]

variable {suffixes : List CodeText} {stem : String}

/-- The suffix of a name that is made of a stem and a suffix. -/
theorem suffixOf_append (hstem : stem ≠ "") (hs : s.points = front ++ .char '.' :: after)
    (h : .char '.' ∉ after) :
    suffixOf (↑stem ++ s) = if after = [] then ⟨[]⟩ else lastPart s := by
  have hpoints : (↑stem ++ s : CodeText).points =
      (Text.ofChars stem.toList ++ front) ++ .char '.' :: after := by
    rw [List.append_assoc, ← hs]
    rfl
  have hfront : Text.ofChars stem.toList ++ front ≠ [] := by
    refine List.append_ne_nil_of_left_ne_nil ?_ _
    exact mt List.map_eq_nil_iff.1 (mt String.toList_eq_nil_iff.1 hstem)
  unfold suffixOf
  rw [hpoints]
  by_cases hafter : after = []
  · rw [if_pos hafter, hafter, cutSuffix_dot]
  · rw [if_neg hafter, Path.cutSuffix_append hfront hafter h, lastPart_of_append hs h]

/-- **A stem with a suffix in its form is found by the part from the last dot on.** -/
theorem isManifestName_append (hnormal : ∀ t ∈ suffixes, Config.IsNormal t)
    (hs : Config.IsNormal s) (hstem : stem ≠ "") :
    isManifestName suffixes (↑stem ++ s) = true ↔
      lastPart s ≠ ↑"." ∧ lastPart s ∈ suffixes := by
  have hdot : .char '.' ∈ s.points := by
    obtain ⟨rest, hrest⟩ := hs.dot
    rw [hrest]
    exact List.mem_cons_self
  obtain ⟨front, after, hcut, hafter⟩ := exists_last_dot hdot
  have hlast := lastPart_of_append hcut hafter
  have hlower : suffixes.map CodeText.lower = suffixes :=
    (List.map_congr_left fun t ht => CodeText.lower_of_isSmall (hnormal t ht).small).trans
      (List.map_id suffixes)
  unfold isManifestName
  rw [hlower, List.contains_iff_mem, suffixOf_append hstem hcut hafter]
  by_cases hnil : after = []
  · rw [if_pos hnil]
    constructor
    · intro hmem
      obtain ⟨rest, hrest⟩ := (hnormal _ hmem).dot
      cases hrest
    · rintro ⟨hne, -⟩
      exact absurd (by rw [hlast, hnil]; rfl) hne
  · have hsmall : (lastPart s).lower = lastPart s := by
      refine CodeText.lower_of_isSmall fun c hc => hs.small c ?_
      rw [hlast] at hc
      rw [hcut]
      exact List.mem_append_right _ hc
    have hne : lastPart s ≠ ↑"." := by
      rw [hlast]
      intro h
      exact hnil (List.cons.inj (congrArg CodeText.points h)).2
    rw [if_neg hnil, hsmall]
    exact ⟨fun hmem => ⟨hne, hmem⟩, fun h => h.2⟩

/-- A stem of letters and digits with a suffix in its form is a name. -/
theorem isName_append {t : String} (hslash : '/' ∉ t.toList) (hstem : stem ≠ "")
    (halnum : ∀ c ∈ stem.toList, isAsciiAlnum c = true) : IsName (stem ++ t) := by
  obtain ⟨c, cs, hcs⟩ := List.exists_cons_of_ne_nil (mt String.toList_eq_nil_iff.1 hstem)
  have hc : isAsciiAlnum c = true := halnum c (by rw [hcs]; exact List.mem_cons_self)
  have hlist : (stem ++ t).toList = c :: (cs ++ t.toList) := by
    rw [String.toList_append, hcs]
    rfl
  refine ⟨?_, ?_, ?_⟩
  · intro h
    rw [h] at hlist
    cases hlist
  · intro h
    rw [h] at hlist
    obtain ⟨rfl, -⟩ := List.cons.inj hlist
    exact absurd hc (by decide)
  · rw [String.toList_append, List.mem_append]
    rintro (h | h)
    · exact absurd (halnum _ h) (by decide)
    · exact hslash h

/-- A path that is one name is a manifest as its name is. -/
theorem isManifest_ofString {n : String} (hn : IsName n) :
    isManifest suffixes (.ofString n) = isManifestName suffixes n := by
  unfold isManifest
  rw [Path.name_ofString hn]

/-- **Which accepted suffixes find manifests.**  Settings were given suffixes without slashes. A
    stem of letters and digits with one of the suffixes that they hold is the name of a manifest
    exactly if the part of this suffix from its last dot on is more than a dot, and they hold it
    too.  If the suffix has no half of a pair, the path of that name is a manifest just so. -/
theorem isManifest_stem_append {members : Members} {given : List CodeText} {config : Config}
    (hread : Config.ofJson (.obj members) = .ok config)
    (hgiven : Json.lookup "manifest_suffixes" members = some (.ofTexts given))
    (hslash : ∀ t ∈ given, .char '/' ∉ t.points) (hs : s ∈ config.suffixes)
    (hstem : stem ≠ "") (halnum : ∀ c ∈ stem.toList, isAsciiAlnum c = true) :
    (isManifestName config.suffixes (↑stem ++ s) = true ↔
      lastPart s ≠ ↑"." ∧ lastPart s ∈ config.suffixes) ∧
    ∀ t : String, s = ↑t →
      (isManifest config.suffixes (.ofString (stem ++ t)) = true ↔
        lastPart s ≠ ↑"." ∧ lastPart s ∈ config.suffixes) := by
  have hnormal : ∀ t ∈ config.suffixes, Config.IsNormal t := by
    intro t ht
    obtain ⟨_, -, hform⟩ := Config.exists_given hread hgiven ht
    exact Config.isNormal_of_normalizeSuffix? hform
  have hplain : .char '/' ∉ s.points := by
    obtain ⟨t, ht, hform⟩ := Config.exists_given hread hgiven hs
    exact mt (Config.slash_of_normalizeSuffix? hform) (hslash t ht)
  have hiff := isManifestName_append hnormal (hnormal s hs) hstem
  refine ⟨hiff, ?_⟩
  rintro t rfl
  have hname : IsName (stem ++ t) :=
    isName_append (mt (fun h => List.mem_map_of_mem h) hplain) hstem halnum
  have hjoined : CodeText.ofString (stem ++ t) = ↑stem ++ ↑t := by
    refine congrArg CodeText.mk ?_
    rw [String.toList_append]
    exact List.map_append
  rw [isManifest_ofString hname, hjoined, hiff]

/-- Settings that give these suffixes and nothing else. -/
def suffixSettings (given : List CodeText) : Json := .obj [("manifest_suffixes", .ofTexts given)]

theorem ofJson_suffixSettings {given : List CodeText} (hne : given ≠ [])
    (h : given.mapM Config.normalizeSuffix? = some suffixes) :
    Config.ofJson (suffixSettings given) = .ok { Config.usual with suffixes := suffixes } := by
  have hread : fieldOr [("manifest_suffixes", .ofTexts given)] "manifest_suffixes"
      Config.usual.suffixes Config.suffixesOfJson = .ok suffixes :=
    fieldOr_eq_ok rfl (Config.suffixesOfJson_eq_ok.2 ⟨hne, h⟩)
  unfold Config.ofJson suffixSettings object
  dsimp only
  rw [hread]
  rfl

/-- `.Workflow.YAML` finds manifests beside `yaml`, since its last part is `.yaml`. -/
theorem isManifest_workflowSuffix :
    Config.ofJson (suffixSettings [" .Workflow.YAML", "yaml"]) =
        .ok { Config.usual with suffixes := [".workflow.yaml", ".yaml"] } ∧
      isManifest [".workflow.yaml", ".yaml"] (.ofString ("build7" ++ ".workflow.yaml")) = true := by
  have hread : Config.ofJson (suffixSettings [" .Workflow.YAML", "yaml"]) =
      .ok { Config.usual with suffixes := [".workflow.yaml", ".yaml"] } :=
    ofJson_suffixSettings (by decide) (by decide +kernel)
  have halnum : "build7".toList.all isAsciiAlnum = true := by decide +kernel
  have hlast : lastPart ".workflow.yaml" = ".yaml" := by decide +kernel
  refine ⟨hread, ((isManifest_stem_append hread rfl ?_ List.mem_cons_self ?_
    (List.all_eq_true.1 halnum)).2 ".workflow.yaml" rfl).2 ?_⟩
  · decide +kernel
  · decide
  · rw [hlast]
    exact ⟨by decide, List.mem_cons_of_mem _ List.mem_cons_self⟩

/-- **An accepted suffix may be dead.**  `.workflow.yaml` is accepted alone, as are a dot and a
    suffix that ends in one, and no stem with such a suffix is a manifest. -/
theorem not_isManifest_deadSuffixes :
    ∃ config, Config.ofJson (suffixSettings [".workflow.yaml", ".", "yaml."]) = .ok config ∧
      config.suffixes = [".workflow.yaml", ".", ".yaml."] ∧
      isManifest config.suffixes (.ofString ("a" ++ ".workflow.yaml")) = false ∧
      ∀ s ∈ config.suffixes, isManifestName config.suffixes (↑"a" ++ s) = false := by
  refine ⟨_, ofJson_suffixSettings (by decide) (by decide +kernel), rfl, ?_, ?_⟩
  · decide +kernel
  · decide +kernel

end Manifest

end WorkflowCatalog
