/-
  WorkflowCatalog/Proofs/Lowering.lean
  ====================================
  **The lower case of a part of a text.**  One letter has a lower case that depends on
  its neighbours: a capital sigma that ends a word becomes `ς`, any other becomes `σ`.
  It ends a word if the nearest code point in front that is not ignorable has case, and
  the nearest behind has none (`endsWord`).

  So the lower case of a text is computed code point by code point, given what stands
  before and behind the text (`lowerAmid`), and texts side by side can be lowered one
  after the other (`lowerAmid_append`).  A part of a text keeps its own lower case as
  long as its capital sigmas end words exactly where they do so in the part alone
  (`lowerAmid_eq_of_keepsForms`); a blank parts a text as its two ends do
  (`lower_join_blank`).

  What stands around a text can turn its sigmas in two ways, and they are told apart by
  counting: case in front only adds final sigmas and case behind only takes some away
  (`finals_lowerAmid_le`), and it adds or takes one where a capital sigma is turned
  (`finals_lowerAmid_lt`).
-/
import Mathlib.Data.List.Basic
import WorkflowCatalog.Text.CodePoint

namespace WorkflowCatalog.Text

/-! ### What stands around a code point -/

/-- Does the first code point that is not ignorable have case?  There may be none. -/
def nearest : List CodePoint → Option Bool
  | [] => none
  | .char c :: ps => if isCaseIgnorable c then nearest ps else some (isCased c)
  | .half _ :: _ => some false

theorem nearest_append (ps qs : List CodePoint) :
    nearest (ps ++ qs) = (nearest ps).or (nearest qs) := by
  induction ps with
  | nil => rfl
  | cons p ps ih =>
    cases p with
    | char c =>
      by_cases hc : isCaseIgnorable c
      · simpa [nearest, hc] using ih
      · simp [nearest, hc]
    | half n => rfl

theorem casedFollows_eq (cs : List Char) :
    casedFollows cs = (nearest (ofChars cs)).getD false := by
  induction cs with
  | nil => rfl
  | cons c cs ih =>
    unfold casedFollows
    by_cases hc : isCaseIgnorable c
    · simpa [ofChars, nearest, hc] using ih
    · simp [ofChars, nearest, hc]

/-- Whether the nearest code point in front has case, one code point further on. -/
def past (before : Bool) : CodePoint → Bool
  | .char c => if isCaseIgnorable c then before else isCased c
  | .half _ => false

theorem foldl_past (before : Bool) (ps : List CodePoint) :
    ps.foldl past before = (nearest ps.reverse).getD before := by
  induction ps generalizing before with
  | nil => rfl
  | cons p ps ih =>
    rw [List.foldl_cons, ih, List.reverse_cons, nearest_append, Option.getD_or]
    congr 1
    cases p with
    | char c => by_cases hc : isCaseIgnorable c <;> simp [past, nearest, hc]
    | half n => rfl

/-! ### Lower case between neighbours -/

/-- The lower case of a character, given whether the nearest before and behind it have
    case. -/
def lowerBetween (before behind : Bool) (c : Char) : List Char :=
  if c = 'Σ' then (if before && !behind then ['ς'] else ['σ']) else lowerChar c

/-- The lower case of code points, given whether the nearest before and behind them have
    case. -/
def lowerAmid (before behind : Bool) : List CodePoint → List CodePoint
  | [] => []
  | .char c :: ps =>
    ofChars (lowerBetween before ((nearest ps).getD behind) c) ++
      lowerAmid (past before (.char c)) behind ps
  | .half n :: ps => .half n :: lowerAmid false behind ps

/-- **Texts side by side are lowered one after the other.** -/
theorem lowerAmid_append (before behind : Bool) (ps qs : List CodePoint) :
    lowerAmid before behind (ps ++ qs) =
      lowerAmid before ((nearest qs).getD behind) ps ++
        lowerAmid (ps.foldl past before) behind qs := by
  induction ps generalizing before with
  | nil => rfl
  | cons p ps ih =>
    cases p with
    | char c =>
      simp only [List.cons_append, lowerAmid, nearest_append, Option.getD_or, ih,
        List.append_assoc, List.foldl_cons]
    | half n =>
      simp only [List.cons_append, lowerAmid, ih, List.foldl_cons]
      rfl

theorem lowerFrom_eq (before : Bool) (cs : List Char) :
    ofChars (lowerFrom before cs) = lowerAmid before false (ofChars cs) := by
  induction cs generalizing before with
  | nil => rfl
  | cons c cs ih =>
    have hrest := ih (if isCaseIgnorable c then before else isCased c)
    simp only [ofChars] at hrest
    simp only [lowerFrom, ofChars, List.map_append, List.map_cons, lowerAmid, hrest, past,
      lowerBetween, casedFollows_eq]

theorem lowerBehind_eq (run : List Char) (ps : List CodePoint) :
    lowerBehind run ps = lowerAmid false false (ofChars run.reverse ++ ps) := by
  induction ps generalizing run with
  | nil => rw [lowerBehind, lower, lowerFrom_eq, List.append_nil]
  | cons p ps ih =>
    cases p with
    | char c =>
      rw [lowerBehind, ih]
      simp [ofChars]
    | half n =>
      rw [lowerBehind, lower, lowerFrom_eq, ih [],
        lowerAmid_append false false (ofChars run.reverse)]
      rfl

/-- The lower case of a text is the one with nothing around it. -/
theorem lowerPoints_eq (ps : List CodePoint) : lowerPoints ps = lowerAmid false false ps :=
  lowerBehind_eq [] ps

/-! ### Blanks and letters next to a text -/

theorem lowerAmid_blank (before behind : Bool) (ps qs : List CodePoint) :
    lowerAmid before behind (ps ++ .char ' ' :: qs) =
      lowerAmid before false ps ++ .char ' ' :: lowerAmid false behind qs := by
  have hignorable : isCaseIgnorable ' ' = false := by decide +kernel
  have hcased : isCased ' ' = false := by decide +kernel
  have hlower : ∀ b b', lowerBetween b b' ' ' = [' '] := by decide
  rw [lowerAmid_append, lowerAmid, hlower]
  simp [nearest, past, hignorable, hcased, ofChars]

theorem isCased_a : isCaseIgnorable 'a' = false ∧ isCased 'a' = true := by decide +kernel

theorem lowerPoints_cons_a (ps : List CodePoint) :
    lowerPoints (.char 'a' :: ps) = .char 'a' :: lowerAmid true false ps := by
  have hlower : ∀ b b', lowerBetween b b' 'a' = ['a'] := by decide
  rw [lowerPoints_eq, lowerAmid, hlower]
  simp [past, isCased_a, ofChars]

theorem lowerPoints_concat_a (ps : List CodePoint) :
    lowerPoints (ps ++ [.char 'a']) = lowerAmid false true ps ++ [.char 'a'] := by
  have hlower : ∀ b b', lowerBetween b b' 'a' = ['a'] := by decide
  rw [lowerPoints_eq, lowerAmid_append, lowerAmid, hlower]
  simp [nearest, isCased_a, ofChars, lowerAmid]

/-! ### Texts with blanks between them -/

namespace CodeText

theorem join_cons_cons (separator t u : CodeText) (ts : List CodeText) :
    join separator (t :: u :: ts) = t ++ (separator ++ join separator (u :: ts)) := rfl

/-- **The lower case of texts with blanks between them** is that of each. -/
theorem lower_join_blank (ts : List CodeText) :
    (join " " ts).lower = join " " (ts.map lower) := by
  induction ts with
  | nil => rfl
  | cons t ts ih =>
    cases ts with
    | nil => simp [join, lower]
    | cons u us =>
      rw [List.map_cons, List.map_cons, join_cons_cons, join_cons_cons, ← List.map_cons, ← ih]
      change CodeText.mk (lowerPoints (t.points ++ .char ' ' :: (join " " (u :: us)).points)) =
        CodeText.mk (lowerPoints t.points ++ .char ' ' :: lowerPoints (join " " (u :: us)).points)
      simp only [lowerPoints_eq, lowerAmid_blank]

/-- Each of the texts that are joined occurs in the whole. -/
theorem infix_join {separator t : CodeText} {ts : List CodeText} (h : t ∈ ts) :
    t.points <:+: (join separator ts).points := by
  induction ts with
  | nil => cases h
  | cons u ts ih =>
    cases ts with
    | nil =>
      rw [List.mem_singleton.1 h]
      simp [join]
    | cons v vs =>
      rw [join_cons_cons]
      rcases List.mem_cons.1 h with rfl | h
      · exact (List.prefix_append _ _).isInfix
      · have hrest : (join separator (v :: vs)).points <:+
            (u ++ (separator ++ join separator (v :: vs))).points :=
          (List.suffix_append separator.points _).trans (List.suffix_append u.points _)
        exact (ih h).trans hrest.isInfix

end CodeText

/-! ### Capital sigmas -/

/-- Does a capital sigma between two lists of code points end a word? -/
def endsWord (before behind : List CodePoint) : Bool :=
  (nearest before.reverse).getD false && !(nearest behind).getD false

/-- The capital sigmas of a part of a text end words exactly where they do so in the part
    alone. -/
def KeepsForms (before part behind : List CodePoint) : Prop :=
  ∀ left right, part = left ++ .char 'Σ' :: right →
    endsWord (before ++ left) (right ++ behind) = endsWord left right

variable {before part behind : List CodePoint}

theorem endsWord_eq (before behind : List CodePoint) :
    endsWord before behind = (before.foldl past false && !(nearest behind).getD false) := by
  rw [endsWord, foldl_past]

/-- A character other than a capital sigma has one lower case. -/
theorem lowerBetween_of_ne {c : Char} (h : c ≠ 'Σ') (before behind : Bool) :
    lowerBetween before behind c = lowerChar c := if_neg h

/-- **A part of a text that keeps its forms keeps its lower case.** -/
theorem lowerAmid_eq_of_keepsForms (h : KeepsForms before part behind) :
    lowerAmid (before.foldl past false) ((nearest behind).getD false) part =
      lowerAmid false false part := by
  -- what is left of the part is lowered, with what has been lowered in front of it
  suffices key : ∀ rest front, part = front ++ rest →
      lowerAmid ((before ++ front).foldl past false) ((nearest behind).getD false) rest =
        lowerAmid (front.foldl past false) false rest by
    simpa using key part [] rfl
  intro rest
  induction rest with
  | nil => exact fun _ _ => rfl
  | cons p ps ih =>
    intro front hpart
    have hnext := ih (front ++ [p]) (by simp [hpart])
    rw [← List.append_assoc, List.foldl_concat, List.foldl_concat] at hnext
    cases p with
    | char c =>
      have hform : lowerBetween ((before ++ front).foldl past false)
            (((nearest ps).or (nearest behind)).getD false) c =
          lowerBetween (front.foldl past false) ((nearest ps).getD false) c := by
        by_cases hc : c = 'Σ'
        · subst hc
          have hends := h front ps hpart
          rw [endsWord_eq, endsWord_eq, nearest_append] at hends
          simp only [lowerBetween, if_true, hends]
        · rw [lowerBetween_of_ne hc, lowerBetween_of_ne hc]
      rw [lowerAmid, lowerAmid, ← Option.getD_or, hform, hnext]
    | half n =>
      rw [lowerAmid, lowerAmid]
      exact congrArg _ hnext

/-! ### Counting final sigmas -/

/-- How many final sigmas there are. -/
def finals (ps : List CodePoint) : Nat := ps.count (.char 'ς')

/-- How many sigmas there are that are not final. -/
def inners (ps : List CodePoint) : Nat := ps.count (.char 'σ')

section

variable {a a' f f' : Bool}

theorem past_mono (ha : a = true → a' = true) (p : CodePoint) :
    past a p = true → past a' p = true := by
  cases p with
  | char c =>
    by_cases hc : isCaseIgnorable c
    · simpa [past, hc] using ha
    · simp [past, hc]
  | half n => exact id

theorem foldl_past_mono (ha : a = true → a' = true) (ps : List CodePoint) :
    ps.foldl past a = true → ps.foldl past a' = true := by
  induction ps generalizing a a' with
  | nil => exact ha
  | cons p ps ih => exact ih (past_mono ha p)

theorem getD_mono (hf : f' = true → f = true) (o : Option Bool) :
    o.getD f' = true → o.getD f = true := by
  cases o with
  | none => exact hf
  | some b => exact id

theorem finals_lowerBetween_le (ha : a = true → a' = true) (hf : f' = true → f = true) (c : Char) :
    finals (ofChars (lowerBetween a f c)) ≤ finals (ofChars (lowerBetween a' f' c)) := by
  by_cases hc : c = 'Σ'
  · subst hc
    revert a a' f f'
    decide
  · exact Nat.le_of_eq (by rw [lowerBetween_of_ne hc, lowerBetween_of_ne hc])

/-- **Case in front adds final sigmas, case behind takes some away.** -/
theorem finals_lowerAmid_le (ha : a = true → a' = true) (hf : f' = true → f = true)
    (ps : List CodePoint) : finals (lowerAmid a f ps) ≤ finals (lowerAmid a' f' ps) := by
  induction ps generalizing a a' with
  | nil => exact Nat.le_refl _
  | cons p ps ih =>
    cases p with
    | char c =>
      have hhere := finals_lowerBetween_le ha (getD_mono hf (nearest ps)) c
      have hrest := ih (past_mono ha (.char c))
      simp only [finals, lowerAmid, List.count_append] at hhere hrest ⊢
      exact Nat.add_le_add hhere hrest
    | half n =>
      have hrest := @ih false false id
      simpa [finals, lowerAmid] using hrest

/-- Neighbours turn sigmas, but neither add nor take any. -/
theorem sigmas_lowerAmid (a a' f f' : Bool) (ps : List CodePoint) :
    finals (lowerAmid a f ps) + inners (lowerAmid a f ps) =
      finals (lowerAmid a' f' ps) + inners (lowerAmid a' f' ps) := by
  have hone : ∀ (a a' f f' : Bool) (c : Char),
      finals (ofChars (lowerBetween a f c)) + inners (ofChars (lowerBetween a f c)) =
        finals (ofChars (lowerBetween a' f' c)) + inners (ofChars (lowerBetween a' f' c)) := by
    intro a a' f f' c
    by_cases hc : c = 'Σ'
    · subst hc
      revert a a' f f'
      decide
    · rw [lowerBetween_of_ne hc, lowerBetween_of_ne hc]
  induction ps generalizing a a' with
  | nil => rfl
  | cons p ps ih =>
    cases p with
    | char c =>
      have hhere := hone a a' ((nearest ps).getD f) ((nearest ps).getD f') c
      have hrest := ih (past a (.char c)) (past a' (.char c))
      simp only [finals, inners, lowerAmid, List.count_append] at hhere hrest ⊢
      omega
    | half n =>
      have hrest := ih false false
      simpa [finals, inners, lowerAmid] using hrest

/-- A capital sigma has case, for what stands in front of it and for what stands behind. -/
theorem lowerAmid_sigma (a f : Bool) (left right : List CodePoint) :
    lowerAmid a f (left ++ .char 'Σ' :: right) =
      lowerAmid a true left ++
        (ofChars (lowerBetween (left.foldl past a) ((nearest right).getD f) 'Σ') ++
          lowerAmid true f right) := by
  have hignorable : isCaseIgnorable 'Σ' = false := by decide +kernel
  have hcased : isCased 'Σ' = true := by decide +kernel
  rw [lowerAmid_append, lowerAmid]
  simp [nearest, past, hignorable, hcased]

/-- **Where neighbours turn a capital sigma, there are more final sigmas.** -/
theorem finals_lowerAmid_lt (ha : a = true → a' = true) (hf : f' = true → f = true)
    {left right : List CodePoint}
    (hinner : (left.foldl past a && !(nearest right).getD f) = false)
    (hends : (left.foldl past a' && !(nearest right).getD f') = true) :
    finals (lowerAmid a f (left ++ .char 'Σ' :: right)) <
      finals (lowerAmid a' f' (left ++ .char 'Σ' :: right)) := by
  have hleft := finals_lowerAmid_le ha (@id (true = true)) left
  have hright := finals_lowerAmid_le (@id (true = true)) hf right
  have hturned : finals (ofChars (lowerBetween (left.foldl past a) ((nearest right).getD f) 'Σ')) <
      finals (ofChars (lowerBetween (left.foldl past a') ((nearest right).getD f') 'Σ')) := by
    simp only [lowerBetween, if_true, hinner, hends]
    decide
  rw [lowerAmid_sigma, lowerAmid_sigma]
  simp only [finals, List.count_append] at hleft hright hturned ⊢
  omega

end

/-- **A part that does not keep its forms is betrayed by a letter on one side**: with case
    in front it has fewer inner sigmas than alone, or with case behind fewer final ones. -/
theorem inners_lt_or_finals_lt (h : ¬ KeepsForms before part behind) :
    inners (lowerAmid true false part) < inners (lowerAmid false false part) ∨
      finals (lowerAmid false true part) < finals (lowerAmid false false part) := by
  unfold KeepsForms at h
  simp only [not_forall] at h
  obtain ⟨left, right, rfl, hends⟩ := h
  rw [endsWord_eq, endsWord_eq, List.foldl_append, nearest_append, Option.getD_or] at hends
  have hfront := @foldl_past_mono (before.foldl past false) true (fun _ => rfl) left
  have hback := @getD_mono true ((nearest behind).getD false) (fun _ => rfl) (nearest right)
  cases halone : left.foldl past false && !(nearest right).getD false with
  | false =>
    -- the sigma ends a word in the text only, so case in front makes it final
    left
    rw [halone, Bool.not_eq_false, Bool.and_eq_true, Bool.not_eq_true'] at hends
    have hnone : (nearest right).getD false = false := by
      cases hr : nearest right with
      | none => rfl
      | some b =>
        rw [hr] at hends
        exact hends.2
    have hlt := @finals_lowerAmid_lt false true false false (fun _ => rfl) id left right halone
      (by rw [hfront hends.1, hnone]; rfl)
    have hsum := sigmas_lowerAmid false true false false (left ++ .char 'Σ' :: right)
    omega
  | true =>
    -- it ends a word in the part only, so case behind makes it an inner one
    right
    rw [halone, Bool.not_eq_true] at hends
    rw [Bool.and_eq_true] at halone
    have hcased := @foldl_past_mono false (before.foldl past false) nofun left halone.1
    rw [hcased, Bool.true_and, Bool.not_eq_false'] at hends
    refine @finals_lowerAmid_lt false false true false id nofun left right ?_ ?_
    · rw [hback hends, Bool.not_true, Bool.and_false]
    · rw [halone.1, halone.2]
      rfl

end WorkflowCatalog.Text
