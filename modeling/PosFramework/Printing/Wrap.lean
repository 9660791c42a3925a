import Mathlib

set_option autoImplicit false

/-! # Wrapping a line of text

A full row ends after its last space, and the word behind it is carried to the next row with the
glyph that did not fit. Whether the two fit a row is not checked. -/

namespace PosFramework

open List Option

/-- A glyph in its place, in subpixels. -/
structure Placed where
  face : Nat
  glyph : Nat
  advance : Int
  xOffset : Int
  yOffset : Int
  /-- Whether a row may end here. -/
  breakable : Bool

/-- The last position at which a test holds. -/
def rposition {α : Type} (p : α → Bool) : List α → Option Nat
  | [] => none
  | x :: xs => ((rposition p xs).map (· + 1)).or (if p x then some 0 else none)

/-- The width of a row. -/
def advances (row : List Placed) : Int := (row.map (·.advance)).sum

/-- The rows that are done, and the row in work with what it has used. -/
structure Wrapping where
  rows : List (List Placed)
  row : List Placed
  used : Int

/-- A row that has no room for a glyph ends, after its last space where a word stands behind one. -/
def Wrapping.makeRoom (state : Wrapping) (width : Int) (glyph : Placed) : Wrapping :=
  if state.row ≠ [] ∧ width < state.used + glyph.advance then
    match (rposition (·.breakable) state.row).filter (· + 1 < state.row.length) with
    | some index =>
      let carried := state.row.drop (index + 1)
      ⟨state.rows ++ [state.row.take (index + 1)], carried, advances carried⟩
    | none => ⟨state.rows ++ [state.row], [], 0⟩
  else state

/-- Put one more glyph, in a row that has room for it. -/
def Wrapping.place (width : Int) (state : Wrapping) (glyph : Placed) : Wrapping :=
  let state := state.makeRoom width glyph
  ⟨state.rows, state.row ++ [glyph], state.used + glyph.advance⟩

/-- The rows of a line. -/
def wrap (placed : List Placed) (width : Int) : List (List Placed) :=
  if placed = [] then [[]]
  else
    let state := placed.foldl (Wrapping.place width) ⟨[], [], 0⟩
    state.rows ++ [state.row]

/-! ## Where rows begin -/

/-- The word behind the last space of a row. -/
def carriedWord (row : List Placed) : List Placed :=
  match rposition (·.breakable) row with
  | some index => row.drop (index + 1)
  | none => []

/-- A row has room for some glyphs and not for the next one. -/
def FullBefore (width : Int) (row : List Placed) (glyph : Placed) : Prop :=
  advances row ≤ width ∧ width < advances row + glyph.advance

/-- What is left of a line where a row begins, each row filled as far as there is room. -/
inductive RowBegins (width : Int) (line : List Placed) : List Placed → Prop
  | first : RowBegins width line line
  | next {row rest : List Placed} {glyph : Placed}
      (hrow : RowBegins width line (row ++ glyph :: rest)) (hfull : FullBefore width row glyph) :
      RowBegins width line (carriedWord row ++ glyph :: rest)

/-- Every word that a full row carries fits a row with the glyph that the row has no room for. -/
def CarriesFit (width : Int) (line : List Placed) : Prop :=
  ∀ row glyph rest, RowBegins width line (row ++ glyph :: rest) → FullBefore width row glyph →
    advances (carriedWord row ++ [glyph]) ≤ width

/-- A line each of whose glyphs fits a row. -/
structure ShapedLine (width : Int) where
  placed : List Placed
  fits : ∀ glyph ∈ placed, 0 ≤ glyph.advance ∧ glyph.advance ≤ width

@[simp] theorem advances_nil : advances [] = 0 := rfl

@[simp] theorem advances_cons (glyph : Placed) (row : List Placed) :
    advances (glyph :: row) = glyph.advance + advances row := rfl

@[simp] theorem advances_append (row rest : List Placed) :
    advances (row ++ rest) = advances row + advances rest := by simp [advances]

section

variable {α : Type} {p : α → Bool} {xs : List α}

theorem rposition_eq_none : rposition p xs = none ↔ ∀ y ∈ xs, p y = false := by
  induction xs with
  | nil => simp [rposition]
  | cons x xs ih => simp [rposition, ih, and_comm]

theorem rposition_concat {x : α} :
    rposition p (xs ++ [x]) = if p x then some xs.length else rposition p xs := by
  induction xs with
  | nil => simp [rposition]
  | cons y ys ih =>
    rw [cons_append, rposition, ih]
    split
    · simp
    · rfl

theorem not_of_mem_drop_rposition {i : Nat} {y : α} (h : rposition p xs = some i)
    (hy : y ∈ xs.drop (i + 1)) : p y = false := by
  induction xs generalizing i with
  | nil => simp [rposition] at h
  | cons x xs ih =>
    cases hrest : rposition p xs with
    | none =>
      simp only [rposition, hrest, map_none, none_or, ite_none_right_eq_some] at h
      obtain rfl := some.inj h.2
      exact rposition_eq_none.1 hrest y hy
    | some j =>
      simp only [rposition, hrest, map_some, some_or, some.injEq] at h
      subst h
      exact ih hrest hy

end

section

variable {width : Int} {state : Wrapping} {glyph : Placed} {row line rest : List Placed}
  {rows : List (List Placed)}

theorem carriedWord_subset : carriedWord row ⊆ row := by
  unfold carriedWord
  split
  · exact drop_subset ..
  · exact nil_subset _

/-- A word with one more glyph carries nothing. -/
theorem carriedWord_concat : carriedWord (carriedWord row ++ [glyph]) = [] := by
  have hword : ∀ y ∈ carriedWord row, y.breakable = false := by
    intro y hy
    unfold carriedWord at hy
    split at hy
    · next hpos => exact not_of_mem_drop_rposition hpos hy
    · contradiction
  rw [carriedWord, rposition_concat, rposition_eq_none.2 hword]
  by_cases hbreak : glyph.breakable = true
  · simp [hbreak]
  · simp [hbreak]

/-- A full row ends before the word it carries. -/
theorem makeRoom_full (hrow : state.row ≠ []) (hfull : width < state.used + glyph.advance) :
    ∃ kept, kept ≠ [] ∧ kept ++ carriedWord state.row = state.row ∧
      state.makeRoom width glyph =
        ⟨state.rows ++ [kept], carriedWord state.row, advances (carriedWord state.row)⟩ := by
  rw [Wrapping.makeRoom, if_pos ⟨hrow, hfull⟩, carriedWord]
  cases hpos : rposition (·.breakable) state.row with
  | none => exact ⟨state.row, hrow, append_nil _, rfl⟩
  | some index =>
    by_cases hbehind : index + 1 < state.row.length
    · rw [filter_some_pos (by simpa using hbehind)]
      exact ⟨state.row.take (index + 1), by simp [hrow], take_append_drop .., rfl⟩
    · rw [filter_some_neg (by simpa using hbehind)]
      simp only [drop_eq_nil_of_le (not_lt.1 hbehind)]
      exact ⟨state.row, hrow, append_nil _, rfl⟩

theorem makeRoom_of_not_full (hroom : ¬ (state.row ≠ [] ∧ width < state.used + glyph.advance)) :
    state.makeRoom width glyph = state := if_neg hroom

theorem advances_nonneg (h : ∀ glyph ∈ line, 0 ≤ glyph.advance) : 0 ≤ advances line :=
  sum_nonneg (by simpa using h)

/-! ## A line whose carried words fit -/

/-- What wrapping keeps: with what is left, the glyphs are the line's, in order; no row is empty or
    too wide; and the row in work begins where a row of the line does. -/
structure Wrapping.Fits (width : Int) (line rest : List Placed) (state : Wrapping) : Prop where
  whole : state.rows.flatten ++ state.row ++ rest = line
  rows : ∀ row ∈ state.rows, row ≠ [] ∧ advances row ≤ width
  used : state.used = advances state.row
  row : advances state.row ≤ width
  begins : RowBegins width line (state.row ++ rest)

namespace ShapedLine

variable {shaped : ShapedLine width}

theorem nonneg_of_subset (hsub : line ⊆ shaped.placed) : ∀ glyph ∈ line, 0 ≤ glyph.advance :=
  fun glyph hglyph => (shaped.fits glyph (hsub hglyph)).1

theorem fits_place (hcarry : CarriesFit width shaped.placed)
    (h : state.Fits width shaped.placed (glyph :: rest)) :
    (state.place width glyph).Fits width shaped.placed rest := by
  have hmem : state.row ⊆ shaped.placed := by
    rw [← h.whole]
    simp
  by_cases hfull : state.row ≠ [] ∧ width < state.used + glyph.advance
  · obtain ⟨kept, hne, hkept, hroom⟩ := makeRoom_full hfull.1 hfull.2
    have hbefore : FullBefore width state.row glyph := ⟨h.row, h.used ▸ hfull.2⟩
    have hcarried : 0 ≤ advances (carriedWord state.row) :=
      advances_nonneg (nonneg_of_subset (Subset.trans carriedWord_subset hmem))
    have hwidth : advances kept + advances (carriedWord state.row) ≤ width := by
      rw [← advances_append, hkept]
      exact h.row
    rw [Wrapping.place, hroom]
    refine ⟨?_, ?_, by simp, hcarry _ _ _ h.begins hbefore, ?_⟩
    · have hwhole := h.whole
      rw [← hkept] at hwhole
      simpa using hwhole
    · exact forall_mem_append.2 ⟨h.rows, forall_mem_singleton.2 ⟨hne, by omega⟩⟩
    · simpa using h.begins.next hbefore
  · rw [Wrapping.place, makeRoom_of_not_full hfull]
    refine ⟨by simpa using h.whole, h.rows, by simp [h.used], ?_, by simpa using h.begins⟩
    have hglyph := (shaped.fits glyph (by rw [← h.whole]; simp)).2
    rw [advances_append, advances_cons, advances_nil, add_zero]
    by_cases hempty : state.row = []
    · simpa [hempty] using hglyph
    · rw [← h.used]
      exact not_lt.1 fun hlt => hfull ⟨hempty, hlt⟩

theorem fits_foldl (hcarry : CarriesFit width shaped.placed)
    (h : state.Fits width shaped.placed rest) :
    (rest.foldl (Wrapping.place width) state).Fits width shaped.placed [] := by
  induction rest generalizing state with
  | nil => exact h
  | cons glyph rest ih => exact ih (fits_place hcarry h)

/-! ## A row that is too wide -/

/-- A row takes what there is room for. -/
theorem foldl_place_of_le (hline : ∀ glyph ∈ line, 0 ≤ glyph.advance)
    (hfits : advances line ≤ width) :
    line.foldl (Wrapping.place width) ⟨rows, [], 0⟩ = ⟨rows, line, advances line⟩ := by
  induction line using reverseRecOn with
  | nil => rfl
  | append_singleton row glyph ih =>
    obtain ⟨hrow, hglyph⟩ := forall_mem_append.1 hline
    rw [forall_mem_singleton] at hglyph
    rw [advances_append, advances_cons, advances_nil, add_zero] at hfits
    have hroom : ¬ (row ≠ [] ∧ width < advances row + glyph.advance) := fun h => h.2.not_ge hfits
    rw [foldl_append, ih hrow (by omega), foldl_cons, Wrapping.place, makeRoom_of_not_full hroom]
    simp

theorem rows_subset_foldl : state.rows ⊆ (line.foldl (Wrapping.place width) state).rows := by
  induction line generalizing state with
  | nil => exact Subset.refl _
  | cons glyph rest ih =>
    refine Subset.trans ?_ ih
    unfold Wrapping.place Wrapping.makeRoom
    split
    · split <;> exact subset_append_left ..
    · exact Subset.refl _

/-- A row that is too wide and carries nothing ends as it is. -/
theorem wide_row_stays (hne : row ≠ []) (hcarries : carriedWord row = [])
    (hwide : width < advances row) (hrest : ∀ glyph ∈ rest, 0 ≤ glyph.advance) :
    let state := rest.foldl (Wrapping.place width) ⟨rows, row, advances row⟩
    row ∈ state.rows ++ [state.row] := by
  intro state
  cases rest with
  | nil => simp [state]
  | cons glyph rest =>
    have hglyph := hrest glyph mem_cons_self
    have hfull : width < advances row + glyph.advance := by omega
    obtain ⟨kept, -, hkept, hroom⟩ := @makeRoom_full width ⟨rows, row, advances row⟩ glyph hne hfull
    rw [hcarries, append_nil] at hkept
    have hdone : row ∈ (Wrapping.place width ⟨rows, row, advances row⟩ glyph).rows := by
      rw [Wrapping.place, hroom, hkept]
      simp
    have hkeeps := @rows_subset_foldl width (.place width ⟨rows, row, advances row⟩ glyph) rest
    exact mem_append_left _ (hkeeps hdone)

/-- A full row ends, and its word begins the next with the glyph the row had no room for. -/
theorem foldl_full (hsub : row ++ glyph :: rest ⊆ shaped.placed)
    (hfull : FullBefore width row glyph) :
    ∃ kept, (row ++ glyph :: rest).foldl (Wrapping.place width) ⟨rows, [], 0⟩ =
      rest.foldl (Wrapping.place width)
        ⟨rows ++ [kept], carriedWord row ++ [glyph], advances (carriedWord row ++ [glyph])⟩ := by
  have hne : row ≠ [] := by
    rintro rfl
    have hglyph := (shaped.fits glyph (hsub mem_cons_self)).2
    exact absurd hfull.2 (by simpa using hglyph)
  have hrow := nonneg_of_subset (append_subset.1 hsub).1
  have hfilled := @foldl_place_of_le width row rows hrow hfull.1
  obtain ⟨kept, -, -, hroom⟩ := @makeRoom_full width ⟨rows, row, advances row⟩ glyph hne hfull.2
  refine ⟨kept, ?_⟩
  rw [foldl_append, hfilled, foldl_cons, Wrapping.place, hroom]
  simp

/-- A word that does not fit its row with the glyph behind it leaves a row that is too wide. -/
theorem carry_fits (hwraps : ∀ row ∈ wrap shaped.placed width, advances row ≤ width)
    (hsub : row ++ glyph :: rest ⊆ shaped.placed) (hfull : FullBefore width row glyph)
    (hreached : shaped.placed.foldl (Wrapping.place width) ⟨[], [], 0⟩ =
      (row ++ glyph :: rest).foldl (Wrapping.place width) ⟨rows, [], 0⟩) :
    advances (carriedWord row ++ [glyph]) ≤ width := by
  by_contra! hwide
  obtain ⟨kept, hfold⟩ := @foldl_full _ _ _ _ rows shaped hsub hfull
  have hrest := nonneg_of_subset (cons_subset.1 (append_subset.1 hsub).2).2
  have hstays := @wide_row_stays _ _ _ (rows ++ [kept]) (by simp) carriedWord_concat hwide hrest
  have hne : shaped.placed ≠ [] := ne_nil_of_mem (hsub (mem_append_right _ mem_cons_self))
  refine hwide.not_ge (hwraps _ ?_)
  rw [wrap, if_neg hne, hreached, hfold]
  exact hstays

/-- Where a row of the line begins, wrapping begins one, as long as no row gets too wide. -/
theorem reached (hwraps : ∀ row ∈ wrap shaped.placed width, advances row ≤ width)
    (hbegins : RowBegins width shaped.placed line) : line ⊆ shaped.placed ∧
      ∃ rows, shaped.placed.foldl (Wrapping.place width) ⟨[], [], 0⟩ =
        line.foldl (Wrapping.place width) ⟨rows, [], 0⟩ := by
  induction hbegins with
  | first => exact ⟨Subset.refl _, [], rfl⟩
  | @next row rest glyph _ hfull ih =>
    obtain ⟨hsub, rows, hreached⟩ := ih
    obtain ⟨hrow, hbehind⟩ := append_subset.1 hsub
    have hword : carriedWord row ⊆ shaped.placed := Subset.trans carriedWord_subset hrow
    have hfits := carry_fits hwraps hsub hfull hreached
    obtain ⟨kept, hfold⟩ := @foldl_full _ _ _ _ rows shaped hsub hfull
    have hbegun : carriedWord row ++ [glyph] ⊆ shaped.placed :=
      append_subset.2 ⟨hword, cons_subset.2 ⟨(cons_subset.1 hbehind).1, nil_subset _⟩⟩
    have hfilled :=
      @foldl_place_of_le width _ (rows ++ [kept]) (nonneg_of_subset hbegun) hfits
    refine ⟨append_subset.2 ⟨hword, hbehind⟩, rows ++ [kept], ?_⟩
    rw [hreached, hfold, append_cons (carriedWord row) glyph rest, foldl_append, hfilled]

/-- A line, wrapped, is whole, with no empty row and none wider than asked, exactly where every word
    that a full row carries fits the next one with the glyph that the row had no room for. -/
theorem wrap_fits_iff (shaped : ShapedLine width) :
    ((wrap shaped.placed width).flatten = shaped.placed ∧
      (shaped.placed ≠ [] → ∀ row ∈ wrap shaped.placed width, row ≠ []) ∧
        ∀ row ∈ wrap shaped.placed width, advances row ≤ width) ↔
      0 ≤ width ∧ CarriesFit width shaped.placed := by
  constructor
  · rintro ⟨-, -, hwraps⟩
    constructor
    · by_cases hempty : shaped.placed = []
      · exact hwraps [] (by simp [wrap, hempty])
      · obtain ⟨glyph, hglyph⟩ := exists_mem_of_ne_nil _ hempty
        exact (shaped.fits glyph hglyph).1.trans (shaped.fits glyph hglyph).2
    · intro row glyph rest hbegins hfull
      obtain ⟨hsub, rows, hreached⟩ := reached hwraps hbegins
      exact carry_fits hwraps hsub hfull hreached
  · rintro ⟨hwidth, hcarry⟩
    by_cases hempty : shaped.placed = []
    · rw [wrap, if_pos hempty, hempty]
      exact ⟨rfl, by simp, by simpa using hwidth⟩
    · have hfits := @fits_foldl width ⟨[], [], 0⟩ _ shaped hcarry
        ⟨rfl, forall_mem_nil _, rfl, hwidth, .first⟩
      have hlast : (shaped.placed.foldl (Wrapping.place width) ⟨[], [], 0⟩).row ≠ [] := by
        obtain ⟨before, glyph, hplaced⟩ := (eq_nil_or_concat shaped.placed).resolve_left hempty
        simp [hplaced, Wrapping.place]
      have hall := forall_mem_append.2 ⟨hfits.rows, forall_mem_singleton.2 ⟨hlast, hfits.row⟩⟩
      rw [wrap, if_neg hempty]
      exact ⟨by simpa using hfits.whole, fun _ row hrow => (hall row hrow).1,
        fun row hrow => (hall row hrow).2⟩

end ShapedLine

end

/-- A space of one, a glyph of nine and one of five: the last two share a row of ten. -/
theorem wrap_wide_row : ∃ (placed : List Placed) (width : Int),
    (∀ glyph ∈ placed, 0 ≤ glyph.advance ∧ glyph.advance ≤ width) ∧
      ¬ ∀ row ∈ wrap placed width, advances row ≤ width :=
  ⟨[⟨0, 0, 1, 0, 0, true⟩, ⟨0, 0, 9, 0, 0, false⟩, ⟨0, 0, 5, 0, 0, false⟩],
    10, by decide, by decide⟩

end PosFramework
