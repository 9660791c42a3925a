import Mathlib

set_option autoImplicit false

/-! # Computations that may be refused

Inversion and induction rules for `Except`: what a successful sequence of steps says about each
step, and what a successful `mapM` or `foldlM` over a list says about its elements. Every model of
a fallible function is a sequence of binds, so its proofs peel one bind at a time with
`bind_eq_ok` and never unfold the monad. -/

namespace Fallible

open List

variable {ε ε' α β : Type}

/-! ## Binds -/

variable {x : Except ε α} {f : α → Except ε β} {b : β} {a : α} {e : ε} {xs : List α} {ys : List β}

@[simp] theorem bind_eq_ok : (x >>= f) = .ok b ↔ ∃ a, x = .ok a ∧ f a = .ok b := by
  cases x with
  | error e => simp [bind, Except.bind]
  | ok a => simp [bind, Except.bind]

theorem ok_bind (a : α) (f : α → Except ε β) : (Except.ok a >>= f) = f a := rfl

@[simp] theorem pure_eq_ok {b : α} : (pure a : Except ε α) = .ok b ↔ a = b := by
  simp [pure, Except.pure]

@[simp] theorem map_eq_ok {f : α → β} : (f <$> x) = .ok b ↔ ∃ a, x = .ok a ∧ f a = b := by
  cases x with
  | error e => simp [Functor.map, Except.map]
  | ok a => simp [Functor.map, Except.map]

/-- Changing the error of a computation changes none of its successes. -/
@[simp] theorem mapError_eq_ok {f : ε → ε'} : x.mapError f = .ok a ↔ x = .ok a := by
  cases x with
  | error e => simp [Except.mapError]
  | ok b => simp [Except.mapError]

/-! ## Guards -/

/-- Stop with `e` when `p` holds; the early return of a checked function. -/
def refuseIf (p : Prop) [Decidable p] (e : ε) : Except ε Unit :=
  if p then .error e else .ok ()

@[simp] theorem refuseIf_eq_ok {p : Prop} [Decidable p] {u : Unit} :
    refuseIf p e = .ok u ↔ ¬ p := by
  unfold refuseIf
  by_cases hp : p
  · simp [hp]
  · simp [hp]

/-- The value of an option, or the error `e` where it has none. -/
def okOr (e : ε) : Option α → Except ε α
  | some a => .ok a
  | none => .error e

@[simp] theorem okOr_eq_ok {o : Option α} : okOr e o = .ok a ↔ o = some a := by
  cases o with
  | none => simp [okOr]
  | some b => simp [okOr]

/-- Whether a computation succeeds with a result that passes `p`. -/
def succeedsWith (x : Except ε α) (p : α → Bool) : Bool :=
  match x with
  | .ok a => p a
  | .error _ => false

theorem exists_of_succeedsWith {p : α → Bool} (h : succeedsWith x p = true) :
    ∃ a, x = .ok a ∧ p a = true := by
  cases x with
  | error e => exact absurd h (by simp [succeedsWith])
  | ok a => exact ⟨a, rfl, h⟩

/-! ## Loops over a list -/

/-- A successful traversal pairs every element with its result, in order. -/
theorem mapM_eq_ok_iff : xs.mapM f = .ok ys ↔ List.Forall₂ (fun x y => f x = .ok y) xs ys := by
  induction xs generalizing ys with
  | nil =>
    cases ys with
    | nil => simp
    | cons y ys => simp
  | cons x xs ih =>
    cases ys with
    | nil => simp [mapM_cons]
    | cons y ys => simp [mapM_cons, ih]

theorem length_of_mapM (h : xs.mapM f = .ok ys) : ys.length = xs.length :=
  (mapM_eq_ok_iff.1 h).length_eq.symm

/-- A traversal succeeds where every element does. -/
theorem exists_mapM (h : ∀ x ∈ xs, ∃ y, f x = .ok y) : ∃ ys, xs.mapM f = .ok ys := by
  induction xs with
  | nil => exact ⟨[], rfl⟩
  | cons x xs ih =>
    obtain ⟨y, hy⟩ := h x (mem_cons_self ..)
    obtain ⟨ys, hys⟩ := ih fun x hx => h x (mem_cons_of_mem _ hx)
    exact ⟨y :: ys, by simp [mapM_cons, hy, hys]⟩

theorem exists_of_mem_mapM (h : xs.mapM f = .ok ys) {y : β} (hy : y ∈ ys) :
    ∃ x ∈ xs, f x = .ok y := by
  have hforall := mapM_eq_ok_iff.1 h
  clear h
  induction hforall with
  | nil => exact absurd hy (by simp)
  | cons hxy _ ih =>
    rcases mem_cons.1 hy with rfl | hy
    · exact ⟨_, mem_cons_self .., hxy⟩
    · obtain ⟨x, hx, hfx⟩ := ih hy
      exact ⟨x, mem_cons_of_mem _ hx, hfx⟩

theorem exists_mem_of_mapM (h : xs.mapM f = .ok ys) {x : α} (hx : x ∈ xs) :
    ∃ y ∈ ys, f x = .ok y := by
  have hforall := mapM_eq_ok_iff.1 h
  clear h
  induction hforall with
  | nil => exact absurd hx (by simp)
  | cons hxy _ ih =>
    rcases mem_cons.1 hx with rfl | hx
    · exact ⟨_, mem_cons_self .., hxy⟩
    · obtain ⟨y, hy, hfx⟩ := ih hx
      exact ⟨y, mem_cons_of_mem _ hy, hfx⟩

/-- A traversal that keeps a key of every element keeps the list of keys. -/
theorem map_eq_of_mapM {κ : Type} (keyOf : α → κ) (key : β → κ) (h : xs.mapM f = .ok ys)
    (hkey : ∀ x ∈ xs, ∀ y, f x = .ok y → key y = keyOf x) : ys.map key = xs.map keyOf := by
  have hforall := mapM_eq_ok_iff.1 h
  clear h
  induction hforall with
  | nil => rfl
  | cons hxy _ ih =>
    rw [map_cons, map_cons, hkey _ (mem_cons_self ..) _ hxy,
      ih fun x hx => hkey x (mem_cons_of_mem _ hx)]

theorem length_of_mapM_some {f : α → Option β} (h : xs.mapM f = some ys) :
    ys.length = xs.length := by
  induction xs generalizing ys with
  | nil =>
    simp only [mapM_nil, Option.pure_def, Option.some.injEq] at h
    subst h
    rfl
  | cons x xs ih =>
    simp only [mapM_cons, Option.pure_def, Option.bind_eq_bind, Option.bind_eq_some_iff,
      Option.some.injEq] at h
    obtain ⟨y, -, zs, hzs, rfl⟩ := h
    simp [ih hzs]

variable {f : β → α → Except ε β}

/-- Loops whose steps agree on the list's elements agree. -/
theorem foldlM_congr {g : β → α → Except ε β} (b : β) (h : ∀ x ∈ xs, ∀ c, f c x = g c x) :
    xs.foldlM f b = xs.foldlM g b := by
  induction xs generalizing b with
  | nil => rfl
  | cons x xs ih =>
    rw [foldlM_cons, foldlM_cons, h x (mem_cons_self ..) b]
    congr 1
    funext c
    exact ih c fun y hy => h y (mem_cons_of_mem x hy)

/-- Loop invariant rule: what one iteration preserves, the whole loop preserves. -/
theorem foldlM_invariant (P : β → Prop) {b' : β}
    (step : ∀ c x c', x ∈ xs → P c → f c x = .ok c' → P c')
    (h : xs.foldlM f b = .ok b') (hb : P b) : P b' := by
  induction xs generalizing b with
  | nil =>
    simp only [foldlM_nil, pure_eq_ok] at h
    exact h ▸ hb
  | cons x xs ih =>
    simp only [foldlM_cons, bind_eq_ok] at h
    obtain ⟨c, hc, hrest⟩ := h
    refine ih (fun d y d' hy => step d y d' (mem_cons_of_mem x hy)) hrest ?_
    exact step b x c (mem_cons_self ..) hb hc

/-- Two loops over the same list, run in lockstep, keep a relation that one iteration keeps. -/
theorem foldlM_lockstep {δ : Type} {g : δ → α → Except ε' δ} (R : β → δ → Prop) {b' : β} {d d' : δ}
    (step : ∀ c e x c' e', x ∈ xs → R c e → f c x = .ok c' → g e x = .ok e' → R c' e')
    (hf : xs.foldlM f b = .ok b') (hg : xs.foldlM g d = .ok d') (hR : R b d) : R b' d' := by
  induction xs generalizing b d with
  | nil =>
    simp only [foldlM_nil, pure_eq_ok] at hf hg
    exact hf ▸ hg ▸ hR
  | cons x xs ih =>
    simp only [foldlM_cons, bind_eq_ok] at hf hg
    obtain ⟨c, hc, hf'⟩ := hf
    obtain ⟨e, he, hg'⟩ := hg
    refine ih (fun c e y c' e' hy => step c e y c' e' (mem_cons_of_mem x hy)) hf' hg' ?_
    exact step b d x c e (mem_cons_self ..) hR hc he

end Fallible
