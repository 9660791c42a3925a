import PosFramework.Lib.Fallible
import PosFramework.Proto.Ids

set_option autoImplicit false

/-! # Which variant of a package part a device runs

A variant states up to four dimensions. Of those that match the context the one that states the most
wins, then the one that states an earlier dimension, then a device by id. The check at publish asks
for a base variant and for selectors that differ, which leaves two variants of one rank to two roles
only. -/

namespace PosFramework

open Fallible List

/-- A kind of device. -/
inductive DeviceClass
  | unspecified
  | terminal
  | tablet
  | phone
  | kitchenDisplay
  | kiosk
deriving DecidableEq

instance : WireEnum DeviceClass := ⟨.unspecified⟩

/-- Whom a variant is for; what it does not state fits everybody. -/
structure VariantSelector where
  deviceId : Option DeviceId
  deviceClass : Open DeviceClass
  roleId : Option Nat
  salesChannel : Open SalesChannel
  timeSlotId : Option String
deriving DecidableEq

/-- A body and whom it is for. -/
structure Variant (T : Type) where
  selector : VariantSelector
  body : T

/-- Who asks. -/
structure VariantContext where
  deviceId : Option DeviceId
  deviceClass : Open DeviceClass
  roleIds : List Nat
  salesChannel : Open SalesChannel
  timeSlotId : Option String

section Enums

variable {E : Type} [WireEnum E] [DecidableEq E]

/-- A token states its dimension unless it is absent; one from a newer release does. -/
def stated (value : Open E) : Bool := decide (value ≠ .fromKnown WireEnum.unspecified)

/-- Two known values that are the same. -/
def knownAndEqual (stated held : Open E) : Bool :=
  decide (stated.known ≠ WireEnum.unspecified) && decide (stated.known = held.known)

/-- Tokens that both state their dimension and match, or both do not, are one. -/
theorem eq_of_stated {one two held : Open E} (hsame : stated one = stated two)
    (h : (!stated one || knownAndEqual one held) = true)
    (h' : (!stated two || knownAndEqual two held) = true) : one = two := by
  cases one <;> cases two <;> grind [stated, knownAndEqual, Open.known]

theorem eq_of_all {α : Type} {one two : Option α} {held : α → Bool}
    (hheld : ∀ a b, held a = true → held b = true → a = b) (hsame : one.isSome = two.isSome)
    (h : one.all held = true) (h' : two.all held = true) : one = two := by
  cases one <;> cases two <;> grind

end Enums

namespace VariantSelector

variable (selector : VariantSelector)

def statesDeviceClass : Bool := stated selector.deviceClass

def statesDevice : Bool := selector.deviceId.isSome || selector.statesDeviceClass

def statesRole : Bool := selector.roleId.isSome

def statesSalesChannel : Bool := stated selector.salesChannel

def statesTimeSlot : Bool := selector.timeSlotId.isSome

/-- How many dimensions a selector states. -/
def dimensionsStated : Nat :=
  selector.statesDevice.toNat + selector.statesRole.toNat + selector.statesSalesChannel.toNat +
    selector.statesTimeSlot.toNat

/-- Whether a selector fits everybody. -/
def isBase : Bool := decide (selector.dimensionsStated = 0)

/-- The dimensions in the order that breaks a tie, and last whether the device is named by id. -/
def order : List Bool :=
  [selector.statesDevice, selector.statesRole, selector.statesSalesChannel, selector.statesTimeSlot,
    selector.deviceId.isSome]

/-- How many dimensions are stated, then which, as bits. -/
def rank : ℕ ×ₗ ℕ :=
  toLex (selector.dimensionsStated,
    selector.order.foldl (fun bits stated => 2 * bits + stated.toNat) 0)

/-- Whether everything that a selector states fits. -/
def matchesContext (context : VariantContext) : Bool :=
  selector.deviceId.all (fun wanted => decide (context.deviceId = some wanted)) &&
    (!selector.statesDeviceClass || knownAndEqual selector.deviceClass context.deviceClass) &&
    selector.roleId.all (fun wanted => context.roleIds.contains wanted) &&
    (!selector.statesSalesChannel || knownAndEqual selector.salesChannel context.salesChannel) &&
    selector.timeSlotId.all (fun wanted => decide (context.timeSlotId = some wanted))

/-- The documented order: more dimensions, then the first dimension that one of the two states. -/
def Outranks (winner loser : VariantSelector) : Prop :=
  loser.dimensionsStated < winner.dimensionsStated ∨
    loser.dimensionsStated = winner.dimensionsStated ∧ loser.order < winner.order

theorem bits_lt_iff : ∀ a b c d e a' b' c' d' e' : Bool,
    let bits := foldl (fun bits stated => 2 * bits + stated.toNat) 0
    (bits [a, b, c, d, e] < bits [a', b', c', d', e'] ↔ [a, b, c, d, e] < [a', b', c', d', e']) ∧
      (bits [a, b, c, d, e] = bits [a', b', c', d', e'] →
        [a, b, c, d, e] = [a', b', c', d', e']) := by
  decide +kernel

theorem rank_lt_iff {winner loser : VariantSelector} :
    loser.rank < winner.rank ↔ winner.Outranks loser := by
  rw [rank, rank, Prod.Lex.toLex_lt_toLex, order, order, (bits_lt_iff ..).1]
  rfl

theorem isBase_matches {selector : VariantSelector} (h : selector.isBase = true)
    (context : VariantContext) : selector.matchesContext context = true := by
  obtain ⟨_ | _, _, _ | _, _, _ | _⟩ := selector <;>
    grind [isBase, dimensionsStated, statesDevice, statesRole, statesSalesChannel, statesTimeSlot,
      matchesContext]

/-- Where the person holds one role, two selectors of one rank that match are one. -/
theorem eq_of_rank_eq {one two : VariantSelector} {context : VariantContext}
    (honce : ¬ (one.deviceId.isSome ∧ one.statesDeviceClass))
    (honce' : ¬ (two.deviceId.isSome ∧ two.statesDeviceClass))
    (hrank : one.rank = two.rank) (h : one.matchesContext context = true)
    (h' : two.matchesContext context = true)
    (hroles : ∀ a ∈ context.roleIds, ∀ b ∈ context.roleIds, a = b) : one = two := by
  have horder := (bits_lt_iff ..).2 (congrArg (fun rank => (ofLex rank).2) hrank)
  simp only [cons.injEq, and_true, statesDevice] at horder
  obtain ⟨hdevice, hrole, hchannel, hslot, hid⟩ := horder
  have hclass : one.statesDeviceClass = two.statesDeviceClass := by grind
  simp only [matchesContext, Bool.and_eq_true] at h h'
  rw [VariantSelector.mk.injEq]
  exact ⟨eq_of_all (by grind) hid h.1.1.1.1 h'.1.1.1.1, eq_of_stated hclass h.1.1.1.2 h'.1.1.1.2,
    eq_of_all (by grind) hrole h.1.1.2 h'.1.1.2, eq_of_stated hchannel h.1.2 h'.1.2,
    eq_of_all (by grind) hslot h.2 h'.2⟩

end VariantSelector

/-- Why variants are refused. -/
inductive VariantRefusal
  | noBaseVariant
  | sameSelector (first second : Nat)
  | deviceStatedTwice (index : Nat)
  | unknownTimeSlot (index : Nat)

variable {T : Type}

/-- The checks of each variant, against the package's time slots and the variants before it. -/
def checkVariantsFrom (timeSlots : List String) (earlier : List (Variant T)) :
    List (Variant T) → Except VariantRefusal Unit
  | [] => .ok ()
  | variant :: rest => do
    let selector := variant.selector
    refuseIf (selector.deviceId.isSome ∧ selector.statesDeviceClass)
      (.deviceStatedTwice earlier.length)
    refuseIf (∃ slot ∈ selector.timeSlotId, slot ∉ timeSlots) (.unknownTimeSlot earlier.length)
    match earlier.findIdx? fun held => held.selector = selector with
    | some first => .error (.sameSelector first earlier.length)
    | none => checkVariantsFrom timeSlots (earlier ++ [variant]) rest

/-- Each variant passes, and one of them is for everybody. -/
def checkVariants (variants : List (Variant T)) (timeSlots : List String) :
    Except VariantRefusal Unit := do
  checkVariantsFrom timeSlots [] variants
  if variants.any (·.selector.isBase) then .ok () else .error .noBaseVariant

/-- The loop's turn: a variant that matches takes the place of one of a lower rank. -/
def better (context : VariantContext) (best : Option ((ℕ ×ₗ ℕ) × T)) (variant : Variant T) :
    Option ((ℕ ×ₗ ℕ) × T) :=
  if !variant.selector.matchesContext context then best
  else if best.all fun held => decide (held.1 < variant.selector.rank) then
    some (variant.selector.rank, variant.body)
  else best

/-- The body of the variant that fits best. -/
def resolve (variants : List (Variant T)) (context : VariantContext) : Option T :=
  (variants.foldl (better context) none).map (·.2)

/-! ## What is chosen -/

/-- A variant that matches and that no variant that matches ranks above. -/
structure Chosen (variants : List (Variant T)) (context : VariantContext)
    (chosen : Variant T) : Prop where
  listed : chosen ∈ variants
  fits : chosen.selector.matchesContext context = true
  highest : ∀ other ∈ variants, other.selector.matchesContext context = true →
    other.selector.rank ≤ chosen.selector.rank

variable {variants : List (Variant T)} {context : VariantContext} {timeSlots : List String}

theorem foldl_better (variants : List (Variant T)) (context : VariantContext) :
    (variants.foldl (better context) none = none ∧
      ∀ other ∈ variants, other.selector.matchesContext context = false) ∨
    ∃ chosen, Chosen variants context chosen ∧
      variants.foldl (better context) none = some (chosen.selector.rank, chosen.body) := by
  induction variants using reverseRecOn with
  | nil => simp
  | append_singleton variants last ih =>
    rw [foldl_concat]
    by_cases hfits : last.selector.matchesContext context = true
    · obtain ⟨hnone, hothers⟩ | ⟨chosen, h, heq⟩ := ih
      · exact .inr ⟨last, by constructor <;> grind, by simp [better, hfits, hnone]⟩
      · refine .inr ?_
        rw [heq]
        by_cases hlt : chosen.selector.rank < last.selector.rank
        · exact ⟨last, by constructor <;> grind [Chosen], by simp [better, hfits, hlt]⟩
        · exact ⟨chosen, by constructor <;> grind [Chosen], by simp [better, hfits, hlt]⟩
    · simp only [better, hfits]
      refine ih.imp (by grind) fun ⟨chosen, h, heq⟩ => ⟨chosen, ?_, heq⟩
      constructor <;> grind [Chosen]

/-- What the check lets through. -/
structure Accepted (variants : List (Variant T)) : Prop where
  once : ∀ variant ∈ variants, ¬ (variant.selector.deviceId.isSome ∧
    variant.selector.statesDeviceClass)
  apart : (variants.map (·.selector)).Nodup
  base : ∃ variant ∈ variants, variant.selector.isBase = true

theorem checkVariantsFrom_ok {earlier rest : List (Variant T)}
    (h : checkVariantsFrom timeSlots earlier rest = .ok ())
    (hearlier : (earlier.map (·.selector)).Nodup) :
    (∀ variant ∈ rest, ¬ (variant.selector.deviceId.isSome ∧ variant.selector.statesDeviceClass)) ∧
      ((earlier ++ rest).map (·.selector)).Nodup := by
  induction rest generalizing earlier with
  | nil => simpa using hearlier
  | cons variant rest ih =>
    simp only [checkVariantsFrom, bind_eq_ok, refuseIf_eq_ok] at h
    obtain ⟨_, honce, _, _, h⟩ := h
    split at h
    · cases h
    · next hnew =>
      have hapart : ((earlier ++ [variant]).map (·.selector)).Nodup := by
        simp_all [nodup_append, findIdx?_eq_none_iff]
      obtain ⟨hrest, hall⟩ := ih h hapart
      exact ⟨forall_mem_cons.2 ⟨honce, hrest⟩, by simpa using hall⟩

theorem accepted_of_checkVariants
    (h : checkVariants variants timeSlots = .ok ()) : Accepted variants := by
  simp only [checkVariants, bind_eq_ok] at h
  obtain ⟨_, hchecked, h⟩ := h
  split at h
  · next hbase =>
    obtain ⟨honce, hapart⟩ := checkVariantsFrom_ok hchecked nodup_nil
    exact ⟨honce, hapart, any_eq_true.1 hbase⟩
  · cases h

theorem Accepted.resolve_eq (h : Accepted variants) (context : VariantContext) :
    ∃ chosen, Chosen variants context chosen ∧ resolve variants context = some chosen.body := by
  obtain ⟨-, hnone⟩ | ⟨chosen, hchosen, heq⟩ := foldl_better variants context
  · obtain ⟨base, hlisted, hbase⟩ := h.base
    exact absurd (VariantSelector.isBase_matches hbase context) (by simp [hnone base hlisted])
  · exact ⟨chosen, hchosen, by simp [resolve, heq]⟩

/-- Of variants that pass the check one that matches is chosen, no other that matches ranks above
    it, and for a person of one role at most the order in which they are listed does not matter. -/
theorem resolve_most_specific (variants : List (Variant T)) (timeSlots : List String)
    (hchecked : checkVariants variants timeSlots = .ok ()) (context : VariantContext) :
    (∃ chosen ∈ variants, resolve variants context = some chosen.body ∧
      chosen.selector.matchesContext context = true ∧
      ∀ other ∈ variants, other.selector.matchesContext context = true →
        ¬ other.selector.Outranks chosen.selector) ∧
    ((∀ a ∈ context.roleIds, ∀ b ∈ context.roleIds, a = b) →
      ∀ listed : List (Variant T), listed.Perm variants →
        resolve listed context = resolve variants context) := by
  have haccepted := accepted_of_checkVariants hchecked
  obtain ⟨chosen, hchosen, hresolve⟩ := haccepted.resolve_eq context
  refine ⟨⟨chosen, hchosen.listed, hresolve, hchosen.fits, fun other hother hfits houtranks => ?_⟩,
    fun hroles listed hperm => ?_⟩
  · exact (hchosen.highest other hother hfits).not_gt (VariantSelector.rank_lt_iff.2 houtranks)
  · have hlisted : Accepted listed :=
      ⟨by simpa [hperm.mem_iff] using haccepted.once, (hperm.map _).nodup_iff.2 haccepted.apart, by
        simpa [hperm.mem_iff] using haccepted.base⟩
    obtain ⟨another, hanother, hresolve'⟩ := hlisted.resolve_eq context
    have hmem : another ∈ variants := hperm.mem_iff.1 hanother.listed
    have hrank : another.selector.rank = chosen.selector.rank :=
      le_antisymm (hchosen.highest another hmem hanother.fits)
        (hanother.highest chosen (hperm.mem_iff.2 hchosen.listed) hchosen.fits)
    -- two of one rank have one selector, which no two of the variants share
    have hsame : another = chosen := inj_on_of_nodup_map haccepted.apart hmem hchosen.listed <|
      VariantSelector.eq_of_rank_eq (haccepted.once another hmem)
        (haccepted.once chosen hchosen.listed)
        hrank hanother.fits hchosen.fits hroles
    rw [hresolve', hresolve, hsame]

/-- A base variant and one for a tablet. -/
def tabletVariants : List (Variant Nat) :=
  [⟨⟨none, .fromKnown .unspecified, none, .fromKnown .unspecified, none⟩, 1⟩,
    ⟨⟨none, .fromKnown .tablet, none, .fromKnown .unspecified, none⟩, 2⟩]

theorem resolve_most_specific_tablet :
    resolve tabletVariants.reverse ⟨none, .fromKnown .tablet, [7], .fromKnown .dineIn, none⟩ =
      some 2 :=
  ((resolve_most_specific tabletVariants [] (by rfl) _).2 (by simp) _ (reverse_perm _)).trans
    (by rfl)

end PosFramework
