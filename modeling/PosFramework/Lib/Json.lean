import Mathlib

set_option autoImplicit false

/-! # JSON documents

A document is a tree whose objects keep their members in the order of their keys, each key once.
`Members.Canonical` says so at every depth that lookups reach, and canonical objects with the same
lookups are equal. What happens to an object member by member is a fold, and `Members.get?_foldl`
says what a lookup sees after it. -/

/-- A number as it is written: a natural number, a negative integer, or the bits of a double. -/
inductive JsonNumber
  | posInt (n : Nat)
  | negInt (n : Int)
  | float (bits : Nat)
deriving DecidableEq

mutual

/-- A document. -/
inductive Json
  | null
  | bool (b : Bool)
  | number (n : JsonNumber)
  | string (s : String)
  | array (items : Items)
  | object (members : Members)
deriving DecidableEq

/-- The items of an array. -/
inductive Items
  | nil
  | cons (head : Json) (tail : Items)

/-- The members of an object. -/
inductive Members
  | nil
  | cons (key : String) (value : Json) (rest : Members)

end

namespace Members

def get? : Members → String → Option Json
  | .nil, _ => none
  | .cons key value rest, k => if key = k then some value else rest.get? k

/-- Write a member at its place in the order of the keys. -/
def insert (k : String) (v : Json) : Members → Members
  | .nil => .cons k v .nil
  | .cons key value rest =>
    if k < key then .cons k v (.cons key value rest)
    else if k = key then .cons k v rest
    else .cons key value (rest.insert k v)

def erase (k : String) : Members → Members
  | .nil => .nil
  | .cons key value rest => if key = k then rest else .cons key value (rest.erase k)

def keys : Members → List String
  | .nil => []
  | .cons key _ rest => key :: rest.keys

def foldl {α : Type} (f : α → String → Json → α) (init : α) : Members → α
  | .nil => init
  | .cons key value rest => rest.foldl f (f init key value)

/-- Every key comes after `k`. -/
def Above (k : String) : Members → Prop
  | .nil => True
  | .cons key _ rest => k < key ∧ rest.Above k

end Members

/-- The members of a document that is an object. -/
def Json.members : Json → Members
  | .object members => members
  | .null | .bool _ | .number _ | .string _ | .array _ => .nil

mutual

/-- Objects keep their members in order. -/
def Json.Canonical : Json → Prop
  | .object members => members.Canonical
  | .null | .bool _ | .number _ | .string _ | .array _ => True

def Members.Canonical : Members → Prop
  | .nil => True
  | .cons key value rest => value.Canonical ∧ rest.Above key ∧ rest.Canonical

end

theorem Json.canonical_null : Json.null.Canonical := trivial

theorem Members.canonical_nil : Members.nil.Canonical := trivial

mutual

/-- No object has a member that is null. What an array holds does not matter. -/
def Json.NullFree : Json → Prop
  | .object members => members.NullFree
  | .null | .bool _ | .number _ | .string _ | .array _ => True

/-- No member is null, at any depth. -/
def Members.NullFree : Members → Prop
  | .nil => True
  | .cons _ value rest => value ≠ .null ∧ value.NullFree ∧ rest.NullFree

end

mutual

def Json.decidableNullFree : (value : Json) → Decidable value.NullFree
  | .object members => members.decidableNullFree
  | .null | .bool _ | .number _ | .string _ | .array _ => isTrue trivial

def Members.decidableNullFree : (members : Members) → Decidable members.NullFree
  | .nil => isTrue trivial
  | .cons _ value rest =>
    have := value.decidableNullFree
    have := rest.decidableNullFree
    inferInstanceAs (Decidable (value ≠ .null ∧ value.NullFree ∧ rest.NullFree))

end

instance : DecidablePred Json.NullFree := Json.decidableNullFree

/-- Members are gone through one after another, whatever their values are. -/
@[induction_eliminator]
theorem Members.rest_induction {motive : Members → Prop} (nil : motive .nil)
    (cons : ∀ key value rest, motive rest → motive (.cons key value rest)) :
    ∀ members, motive members
  | .nil => nil
  | .cons key value rest => cons key value rest (rest_induction nil cons rest)

/-- What holds of every value that is no object, and of an object where it holds of its members. -/
theorem Json.members_induction {P : Json → Prop}
    (hleaf : ∀ value, (∀ members, value ≠ .object members) → P value)
    (hobject : ∀ members, (∀ k v, Members.get? members k = some v → P v) → P (.object members))
    (value : Json) : P value := by
  refine @Json.rec P (fun _ => True) (fun members => ∀ k v, members.get? k = some v → P v)
    (hleaf _ fun _ h => nomatch h) (fun _ => hleaf _ fun _ h => nomatch h)
    (fun _ => hleaf _ fun _ h => nomatch h) (fun _ => hleaf _ fun _ h => nomatch h)
    (fun _ _ => hleaf _ fun _ h => nomatch h) (fun members ih => hobject members ih) trivial
    (fun _ _ _ _ => trivial) ?_ ?_ value
  · intro k v h
    contradiction
  · intro key value rest hvalue hrest k v h
    rw [Members.get?] at h
    split at h
    · exact Option.some.inj h ▸ hvalue
    · exact hrest k v h

namespace Members

variable {m m' : Members} {k : String} {v : Json}

/-! ## Lookups -/

theorem get?_insert (m : Members) (k : String) (v : Json) (k' : String) :
    (m.insert k v).get? k' = if k = k' then some v else m.get? k' := by
  induction m with
  | nil => rfl
  | cons key value rest ih =>
    simp only [insert]
    split
    · rfl
    · by_cases hk : k = key
      · subst hk
        rw [if_pos rfl]
        simp only [get?]
        split <;> rfl
      · rw [if_neg hk]
        simp only [get?, ih]
        split
        · next hkey =>
          rw [if_neg fun h => hk (h.trans hkey.symm)]
        · rfl

variable {k' : String}

theorem Above.of_lt (h : m.Above k) (hlt : k' < k) : m.Above k' := by
  induction m with
  | nil => trivial
  | cons key value rest ih => exact ⟨hlt.trans h.1, ih h.2⟩

/-- A key that all others come after is not among them. -/
theorem Above.get? (h : m.Above k) : m.get? k = none := by
  induction m with
  | nil => rfl
  | cons key value rest ih =>
    rw [Members.get?, if_neg h.1.ne']
    exact ih h.2

theorem Above.lt (h : m.Above k) (hget : m.get? k' = some v) : k < k' := by
  induction m with
  | nil => contradiction
  | cons key value rest ih =>
    rw [Members.get?] at hget
    by_cases hk : key = k'
    · exact hk ▸ h.1
    · rw [if_neg hk] at hget
      exact ih h.2 hget

theorem get?_erase (h : m.Canonical) (k k' : String) :
    (m.erase k).get? k' = if k = k' then none else m.get? k' := by
  induction m with
  | nil => simp [erase, get?]
  | cons key value rest ih =>
    simp only [erase]
    by_cases hk : key = k
    · subst hk
      rw [if_pos rfl]
      by_cases hk' : key = k'
      · subst hk'
        rw [if_pos rfl]
        exact h.2.1.get?
      · rw [if_neg hk', get?, if_neg hk']
    · rw [if_neg hk]
      simp only [get?, ih h.2.2]
      split
      · next hkey =>
        rw [if_neg fun h => hk (hkey.trans h.symm)]
      · rfl

/-- Canonical members with the same lookups are the same. -/
theorem ext_get? (h : m.Canonical) (h' : m'.Canonical) (hget : ∀ k, m.get? k = m'.get? k) :
    m = m' := by
  induction m generalizing m' with
  | nil =>
    cases m' with
    | nil => rfl
    | cons key value rest => simpa [get?] using hget key
  | cons key value rest ih =>
    cases m' with
    | nil => simpa [get?] using hget key
    | cons key' value' rest' =>
      -- the first key of each side is the least, and each side has it
      have hle : key' ≤ key := by
        by_contra hlt
        have hfind : (Members.cons key' value' rest').get? key = none :=
          Above.get? (k := key) ⟨not_le.1 hlt, h'.2.1.of_lt (not_le.1 hlt)⟩
        rw [← hget key] at hfind
        simp [get?] at hfind
      have hge : key ≤ key' := by
        by_contra hlt
        have hfind : (Members.cons key value rest).get? key' = none :=
          Above.get? (k := key') ⟨not_le.1 hlt, h.2.1.of_lt (not_le.1 hlt)⟩
        rw [hget key'] at hfind
        simp [get?] at hfind
      obtain rfl : key = key' := le_antisymm hge hle
      have hvalue : value = value' := by simpa [get?] using hget key
      have hrest : rest = rest' := ih h.2.2 h'.2.2 fun k => by
        by_cases hk : key = k
        · rw [← hk, h.2.1.get?, h'.2.1.get?]
        · simpa [get?, hk] using hget k
      rw [hvalue, hrest]

/-! ## What is canonical -/

theorem Above.insert (h : m.Above k) (hlt : k < k') : (m.insert k' v).Above k := by
  induction m with
  | nil => exact ⟨hlt, trivial⟩
  | cons key value rest ih =>
    simp only [Members.insert]
    split_ifs
    · exact ⟨hlt, h⟩
    · exact ⟨hlt, h.2⟩
    · exact ⟨h.1, ih h.2⟩

theorem Canonical.insert (h : m.Canonical) (hv : v.Canonical) (k : String) :
    (m.insert k v).Canonical := by
  induction m with
  | nil => exact ⟨hv, trivial, trivial⟩
  | cons key value rest ih =>
    simp only [Members.insert]
    split_ifs with hlt hk
    · exact ⟨hv, ⟨hlt, h.2.1.of_lt hlt⟩, h⟩
    · subst hk
      exact ⟨hv, h.2⟩
    · exact ⟨h.1, h.2.1.insert (lt_of_le_of_ne (not_lt.1 hlt) (Ne.symm hk)), ih h.2.2⟩

theorem Above.erase (h : m.Above k) : (m.erase k').Above k := by
  induction m with
  | nil => trivial
  | cons key value rest ih =>
    simp only [Members.erase]
    split_ifs
    · exact h.2
    · exact ⟨h.1, ih h.2⟩

theorem Canonical.erase (h : m.Canonical) (k : String) : (m.erase k).Canonical := by
  induction m with
  | nil => trivial
  | cons key value rest ih =>
    simp only [Members.erase]
    split_ifs
    · exact h.2.2
    · exact ⟨h.1, h.2.1.erase, ih h.2.2⟩

theorem Canonical.members {value : Json} (h : value.Canonical) : value.members.Canonical := by
  cases value with
  | object => exact h
  | _ => trivial

/-- The values of canonical members are canonical. -/
theorem Canonical.get? (h : m.Canonical) (hget : m.get? k = some v) : v.Canonical := by
  induction m with
  | nil => contradiction
  | cons key value rest ih =>
    rw [Members.get?] at hget
    split_ifs at hget
    · exact Option.some.inj hget ▸ h.1
    · exact ih h.2.2 hget

/-! ## Null members -/

theorem NullFree.get? (h : m.NullFree) (hget : m.get? k = some v) : v ≠ .null ∧ v.NullFree := by
  induction m with
  | nil => contradiction
  | cons key value rest ih =>
    rw [Members.get?] at hget
    split_ifs at hget
    · exact Option.some.inj hget ▸ ⟨h.1, h.2.1⟩
    · exact ih h.2.2 hget

theorem NullFree.insert (h : m.NullFree) (hnull : v ≠ .null) (hv : v.NullFree) (k : String) :
    (m.insert k v).NullFree := by
  induction m with
  | nil => exact ⟨hnull, hv, trivial⟩
  | cons key value rest ih =>
    simp only [Members.insert]
    split_ifs
    · exact ⟨hnull, hv, h⟩
    · exact ⟨hnull, hv, h.2.2⟩
    · exact ⟨h.1, h.2.1, ih h.2.2⟩

/-! ## Going through the members -/

/-- What every member keeps, going through all of them keeps. -/
theorem foldl_induction {α : Type} {P : α → Prop} {f : α → String → Json → α} (h : m.Canonical)
    (hf : ∀ acc k v, m.get? k = some v → P acc → P (f acc k v)) {init : α} (hinit : P init) :
    P (m.foldl f init) := by
  induction m generalizing init with
  | nil => exact hinit
  | cons key value rest ih =>
    refine ih h.2.2 (fun acc k v hget hacc => hf acc k v ?_ hacc)
      (hf init key value (if_pos rfl) hinit)
    rw [Members.get?, if_neg (h.2.1.lt hget).ne]
    exact hget

/-- Where each member changes what is held under its key and nothing else, a lookup afterwards sees
    the change that its key's member made. -/
theorem get?_foldl {f : Members → String → Json → Members}
    {g : String → Json → Option Json → Option Json} (h : m.Canonical) {P : Members → Prop}
    (hP : ∀ acc k v, m.get? k = some v → P acc → P (f acc k v))
    (hf : ∀ acc k v, m.get? k = some v → P acc → ∀ k',
      (f acc k v).get? k' = if k = k' then g k v (acc.get? k) else acc.get? k')
    {init : Members} (hinit : P init) (k : String) :
    (m.foldl f init).get? k = match m.get? k with
      | some v => g k v (init.get? k)
      | none => init.get? k := by
  induction m generalizing init with
  | nil => rfl
  | cons key value rest ih =>
    have hrest : ∀ {k v}, rest.get? k = some v → (Members.cons key value rest).get? k = some v := by
      intro k v hget
      rw [Members.get?, if_neg (h.2.1.lt hget).ne]
      exact hget
    have hhead : (Members.cons key value rest).get? key = some value := if_pos rfl
    rw [foldl, ih h.2.2 (fun acc k v hget => hP acc k v (hrest hget))
      (fun acc k v hget => hf acc k v (hrest hget)) (hP init key value hhead hinit),
      hf init key value hhead hinit]
    by_cases hk : key = k
    · subst hk
      rw [h.2.1.get?, hhead]
      simp
    · rw [Members.get?, if_neg hk]
      simp [hk]

end Members
