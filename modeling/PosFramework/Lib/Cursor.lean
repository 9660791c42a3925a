import Mathlib

set_option autoImplicit false

/-! # Reading a log in pages after a cursor

A log is kept in increasing order of a key. A reader remembers the key of the last element it has
seen and asks for a page of what lies after it. What it has read is then the log up to its cursor,
and a page taken over moves the cursor to the page's last element. -/

namespace Cursor

open List

variable {α κ : Type} [LinearOrder κ] (key : α → κ)

/-- The keys increase. -/
def Ordered (log : List α) : Prop := log.Pairwise fun a b => key a < key b

/-- The element lies after a cursor; with no cursor, everything does. -/
def Beyond (cursor : Option κ) (a : α) : Prop := ∀ c ∈ cursor, c < key a

instance (cursor : Option κ) (a : α) : Decidable (Beyond key cursor a) :=
  match cursor with
  | none => isTrue fun _ h => absurd h (Option.not_mem_none _)
  | some c =>
    decidable_of_iff (c < key a) ⟨fun h _ hc => Option.mem_some.1 hc ▸ h, fun h => h c rfl⟩

/-- What lies after a cursor. -/
def after (log : List α) (cursor : Option κ) : List α := log.filter fun a => Beyond key cursor a

/-- What a reader with a cursor has behind it. -/
def upTo (log : List α) (cursor : Option κ) : List α := log.filter fun a => ¬Beyond key cursor a

/-- The next `limit` elements after a cursor. -/
def page (log : List α) (cursor : Option κ) (limit : Nat) : List α :=
  (after key log cursor).take limit

variable {key} {log : List α} {cursor : Option κ} {a : α}

theorem beyond_none : Beyond key none a := fun _ h => absurd h (Option.not_mem_none _)

theorem beyond_some {c : κ} : Beyond key (some c) a ↔ c < key a :=
  ⟨fun h => h c rfl, fun h _ hc => Option.mem_some.1 hc ▸ h⟩

theorem mem_after : a ∈ after key log cursor ↔ a ∈ log ∧ Beyond key cursor a := by
  rw [after, mem_filter, decide_eq_true_eq]

theorem mem_upTo : a ∈ upTo key log cursor ↔ a ∈ log ∧ ¬Beyond key cursor a := by
  rw [upTo, mem_filter, decide_eq_true_eq]

theorem mem_after_of_mem_page {limit : Nat} (h : a ∈ page key log cursor limit) :
    a ∈ after key log cursor := mem_of_mem_take h

@[simp] theorem upTo_none : upTo key log none = [] :=
  filter_eq_nil_iff.2 fun _ _ h => of_decide_eq_true h beyond_none

theorem Beyond.of_lt {b : α} (ha : Beyond key cursor a) (hab : key a < key b) :
    Beyond key cursor b :=
  fun c hc => (ha c hc).trans hab

/-- A log is what lies up to a cursor, followed by what lies after it. -/
theorem upTo_append_after (hlog : Ordered key log) (cursor : Option κ) :
    upTo key log cursor ++ after key log cursor = log := by
  induction log with
  | nil => rfl
  | cons a rest ih =>
    obtain ⟨hhead, hrest⟩ := pairwise_cons.1 hlog
    by_cases ha : Beyond key cursor a
    · -- nothing that follows lies up to the cursor
      have hup : upTo key rest cursor = [] :=
        filter_eq_nil_iff.2 fun b hb h => of_decide_eq_true h (ha.of_lt (hhead b hb))
      have hafter := ih hrest
      rw [hup, nil_append] at hafter
      rw [upTo, after, filter_cons_of_neg (by simpa using ha),
        filter_cons_of_pos (by simpa using ha)]
      change upTo key rest cursor ++ a :: after key rest cursor = _
      rw [hup, hafter, nil_append]
    · rw [upTo, after, filter_cons_of_pos (by simpa using ha),
        filter_cons_of_neg (by simpa using ha), cons_append]
      exact congrArg (a :: ·) (ih hrest)

/-- The cuts of an ordered list: where what comes first lies up to a cursor and the rest after it,
    these are the two parts. -/
theorem upTo_of_append {before rest : List α} (hbefore : ∀ b ∈ before, ¬Beyond key cursor b)
    (hrest : ∀ b ∈ rest, Beyond key cursor b) : upTo key (before ++ rest) cursor = before := by
  have hnone : upTo key rest cursor = [] :=
    filter_eq_nil_iff.2 fun b hb h => of_decide_eq_true h (hrest b hb)
  rw [upTo, filter_append, filter_eq_self.2 fun b hb => decide_eq_true (hbefore b hb)]
  exact (congrArg (before ++ ·) hnone).trans (append_nil _)

theorem after_of_append {before rest : List α} (hbefore : ∀ b ∈ before, ¬Beyond key cursor b)
    (hrest : ∀ b ∈ rest, Beyond key cursor b) : after key (before ++ rest) cursor = rest := by
  have hnone : after key before cursor = [] :=
    filter_eq_nil_iff.2 fun b hb h => hbefore b hb (of_decide_eq_true h)
  rw [after, filter_append, filter_eq_self.2 fun b hb => decide_eq_true (hrest b hb)]
  exact congrArg (· ++ rest) hnone

section Page

variable {limit : Nat} {last : α}

private theorem page_split (hlog : Ordered key log) :
    (upTo key log cursor ++ page key log cursor limit) ++
      (after key log cursor).drop limit = log := by
  rw [append_assoc, page, take_append_drop, upTo_append_after hlog]

private theorem page_cut (hlog : Ordered key log)
    (hlast : (page key log cursor limit).getLast? = some last) :
    (∀ b ∈ upTo key log cursor ++ page key log cursor limit, ¬Beyond key (some (key last)) b) ∧
    ∀ b ∈ (after key log cursor).drop limit, Beyond key (some (key last)) b := by
  have hordered : Ordered key
      ((upTo key log cursor ++ page key log cursor limit) ++
        (after key log cursor).drop limit) := by
    rw [page_split hlog]
    exact hlog
  obtain ⟨hfirst, -, hacross⟩ := pairwise_append.1 hordered
  obtain ⟨front, hpage⟩ := getLast?_eq_some_iff.1 hlast
  have hmem : last ∈ upTo key log cursor ++ page key log cursor limit := by
    rw [hpage]
    exact mem_append_right _ (mem_append_right _ mem_cons_self)
  refine ⟨fun b hb hbeyond => ?_, fun b hb => beyond_some.2 (hacross _ hmem b hb)⟩
  have hlt := beyond_some.1 hbeyond
  rw [hpage, ← append_assoc] at hb hfirst
  rcases mem_append.1 hb with hb | hb
  · exact lt_asymm hlt ((pairwise_append.1 hfirst).2.2 b hb last mem_cons_self)
  · rw [mem_singleton.1 hb] at hlt
    exact lt_irrefl _ hlt

/-- A page taken over: the cursor at its last element has it behind. -/
theorem upTo_last (hlog : Ordered key log)
    (hlast : (page key log cursor limit).getLast? = some last) :
    upTo key log (some (key last)) = upTo key log cursor ++ page key log cursor limit := by
  obtain ⟨hbefore, hrest⟩ := page_cut hlog hlast
  have hcut := upTo_of_append hbefore hrest
  rwa [page_split hlog] at hcut

theorem after_last (hlog : Ordered key log)
    (hlast : (page key log cursor limit).getLast? = some last) :
    after key log (some (key last)) = (after key log cursor).drop limit := by
  obtain ⟨hbefore, hrest⟩ := page_cut hlog hlast
  have hcut := after_of_append hbefore hrest
  rwa [page_split hlog] at hcut

end Page

/-! ## Logs that grow -/

theorem upTo_concat (ha : Beyond key cursor a) :
    upTo key (log ++ [a]) cursor = upTo key log cursor := by
  rw [upTo, filter_append, filter_cons_of_neg (by simpa using ha), filter_nil,
    append_nil, upTo]

theorem after_concat (ha : Beyond key cursor a) :
    after key (log ++ [a]) cursor = after key log cursor ++ [a] := by
  rw [after, filter_append, filter_cons_of_pos (by simpa using ha),
    filter_nil, after]

/-- A full page stays the page while the log grows behind it. -/
theorem page_concat_of_full {limit : Nat} (ha : Beyond key cursor a)
    (hfull : (page key log cursor limit).length = limit) :
    page key (log ++ [a]) cursor limit = page key log cursor limit := by
  have hle : limit ≤ (after key log cursor).length := by
    rw [page, length_take] at hfull
    omega
  rw [page, after_concat ha, take_append_of_le_length hle, page]

theorem Ordered.concat (hlog : Ordered key log) (ha : ∀ b ∈ log, key b < key a) :
    Ordered key (log ++ [a]) := by
  refine pairwise_append.2 ⟨hlog, pairwise_singleton _ _, fun b hb c hc => ?_⟩
  rw [mem_singleton.1 hc]
  exact ha b hb

theorem Ordered.nodup (hlog : Ordered key log) : log.Nodup :=
  List.Pairwise.imp (fun {_ _} hlt => fun heq => hlt.ne (congrArg key heq)) hlog

/-- An element is told by its key. -/
theorem Ordered.eq_of_key_eq {b : α} (hlog : Ordered key log) (ha : a ∈ log) (hb : b ∈ log)
    (h : key a = key b) : a = b := by
  have hkeys : (log.map key).Nodup := pairwise_map.2 (List.Pairwise.imp ne_of_lt hlog)
  exact inj_on_of_nodup_map hkeys ha hb h

/-! ## Logs that take elements in anywhere -/

/-- Take an element in at its place; a key that is there already keeps the element it has. -/
def file (key : α → κ) (a : α) : List α → List α
  | [] => [a]
  | b :: rest =>
    if key a < key b then a :: b :: rest
    else if key a = key b then b :: rest
    else b :: file key a rest

theorem mem_of_mem_file {b : α} (h : b ∈ file key a log) : b = a ∨ b ∈ log := by
  induction log with
  | nil => exact .inl (mem_singleton.1 h)
  | cons c rest ih =>
    rw [file] at h
    split at h
    · exact mem_cons.1 h
    · split at h
      · exact .inr h
      · rcases mem_cons.1 h with rfl | hrest
        · exact .inr mem_cons_self
        · exact (ih hrest).imp_right (mem_cons_of_mem _)

theorem Ordered.file (hlog : Ordered key log) (a : α) : Ordered key (Cursor.file key a log) := by
  induction log with
  | nil => exact pairwise_singleton _ _
  | cons b rest ih =>
    obtain ⟨hhead, hrest⟩ := pairwise_cons.1 hlog
    rw [Cursor.file]
    split
    case isTrue hlt =>
      refine pairwise_cons.2 ⟨fun c hc => ?_, hlog⟩
      rcases mem_cons.1 hc with rfl | hc
      · exact hlt
      · exact hlt.trans (hhead c hc)
    case isFalse hle =>
      split
      case isTrue => exact hlog
      case isFalse hne =>
        refine pairwise_cons.2 ⟨fun c hc => ?_, ih hrest⟩
        rcases mem_of_mem_file hc with rfl | hc
        · exact lt_of_le_of_ne (le_of_not_gt hle) (Ne.symm hne)
        · exact hhead c hc

theorem file_of_key_mem (hlog : Ordered key log) (h : ∃ b ∈ log, key b = key a) :
    file key a log = log := by
  induction log with
  | nil => exact absurd h (by simp)
  | cons b rest ih =>
    obtain ⟨hhead, hrest⟩ := pairwise_cons.1 hlog
    obtain ⟨c, hc, hkey⟩ := h
    rcases mem_cons.1 hc with rfl | hc
    · rw [file, if_neg (by rw [hkey]; exact lt_irrefl _), if_pos hkey.symm]
    · have hlt : key b < key a := hkey ▸ hhead c hc
      rw [file, if_neg hlt.asymm, if_neg hlt.ne', ih hrest ⟨c, hc, hkey⟩]

/-- What is taken in after a cursor changes nothing up to it. -/
theorem upTo_file (ha : Beyond key cursor a) :
    upTo key (file key a log) cursor = upTo key log cursor := by
  have hskip (rest : List α) : upTo key (a :: rest) cursor = upTo key rest cursor :=
    filter_cons_of_neg (by simpa using ha)
  induction log with
  | nil => exact hskip []
  | cons b rest ih =>
    rw [file]
    split
    · exact hskip _
    · split
      · rfl
      · have hcons (tail : List α) : upTo key (b :: tail) cursor =
            if decide ¬Beyond key cursor b then b :: upTo key tail cursor
            else upTo key tail cursor :=
          filter_cons
        rw [hcons, hcons, ih]

end Cursor
