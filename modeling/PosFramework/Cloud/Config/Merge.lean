import PosFramework.Lib.Json

set_option autoImplicit false

/-! # Layers and merge patches

The two operations a configuration is built from. Layers are merged, and a null in one is a value
like any other. A patch is the difference of two documents, and a null in it deletes a member. A
document with a null member cannot be told apart from one without that member in a patch, and those
are the documents a patch does not reproduce. -/

namespace PosFramework

open Members Json

/-! ## Layers -/

mutual

/-- `overlay` on `base`: objects member by member, everything else by replacement. -/
def mergeInto (base : Json) : Json → Json
  | .object overlay =>
    match base with
    | .object members => .object (mergeMembers members overlay)
    | .null | .bool _ | .number _ | .string _ | .array _ => .object overlay
  | .null => .null
  | .bool b => .bool b
  | .number n => .number n
  | .string s => .string s
  | .array items => .array items

/-- One layer's members over another's. -/
def mergeMembers (base : Members) : Members → Members
  | .nil => base
  | .cons key value rest =>
    mergeMembers
      (match base.get? key with
      | some existing => base.insert key (mergeInto existing value)
      | none => base.insert key value) rest

end

/-- The layers, least specific first, as one document. -/
def mergeLayers (layers : List Json) : Json := layers.foldl mergeInto (.object .nil)

/-! ## Patches -/

mutual

/-- A document, patched. -/
def applyMergePatch (target : Json) : Json → Json
  | .object patch => .object (applyMembers target.members patch)
  | .null => .null
  | .bool b => .bool b
  | .number n => .number n
  | .string s => .string s
  | .array items => .array items

def applyMembers (target : Members) : Members → Members
  | .nil => target
  | .cons key value rest =>
    applyMembers
      (if value = .null then target.erase key
      else
        match target.get? key with
        | some existing => target.insert key (applyMergePatch existing value)
        | none => target.insert key (applyMergePatch .null value)) rest

end

/-- A null for every member that is gone. -/
def deletions (old new : Members) : Members :=
  old.foldl
    (fun patch key _ => if (new.get? key).isNone then patch.insert key .null else patch) .nil

mutual

/-- The patch that turns `old` into the document. -/
def diff (old : Json) : Json → Json
  | .object new =>
    match old with
    | .object members => .object (diffMembers members (deletions members new) new)
    | .null | .bool _ | .number _ | .string _ | .array _ => .object new
  | .null => .null
  | .bool b => .bool b
  | .number n => .number n
  | .string s => .string s
  | .array items => .array items

/-- What is added and changed. -/
def diffMembers (old patch : Members) : Members → Members
  | .nil => patch
  | .cons key value rest =>
    diffMembers old
      (match old.get? key with
      | none => patch.insert key value
      | some existing =>
        if existing ≠ value then patch.insert key (diff existing value) else patch) rest

end

/-! ## Values that are no objects -/

section

variable {value : Json} (hleaf : ∀ members, value ≠ .object members) (base : Json)

include hleaf

theorem mergeInto_leaf : mergeInto base value = value := by
  cases value with
  | object members => exact absurd rfl (hleaf members)
  | _ => rfl

theorem applyMergePatch_leaf : applyMergePatch base value = value := by
  cases value with
  | object members => exact absurd rfl (hleaf members)
  | _ => rfl

theorem diff_leaf : diff base value = value := by
  cases value with
  | object members => exact absurd rfl (hleaf members)
  | _ => rfl

end

/-! ## The three as folds over the members -/

theorem mergeMembers_eq_foldl (base overlay : Members) :
    mergeMembers base overlay = overlay.foldl (fun base key value =>
      match base.get? key with
      | some existing => base.insert key (mergeInto existing value)
      | none => base.insert key value) base := by
  induction overlay generalizing base with
  | nil => rfl
  | cons key value rest ih => exact ih _

theorem applyMembers_eq_foldl (target patch : Members) :
    applyMembers target patch = patch.foldl (fun target key value =>
      if value = .null then target.erase key
      else
        match target.get? key with
        | some existing => target.insert key (applyMergePatch existing value)
        | none => target.insert key (applyMergePatch .null value)) target := by
  induction patch generalizing target with
  | nil => rfl
  | cons key value rest ih => exact ih _

theorem diffMembers_eq_foldl (old patch new : Members) :
    diffMembers old patch new = new.foldl (fun patch key value =>
      match old.get? key with
      | none => patch.insert key value
      | some existing =>
        if existing ≠ value then patch.insert key (diff existing value) else patch) patch := by
  induction new generalizing patch with
  | nil => rfl
  | cons key value rest ih => exact ih _

/-! ## Canonical documents stay canonical -/

variable {overlay new base old : Json} {layers : List Json}

/-- A member that is written, where its value is canonical if the one it replaces is. -/
theorem mergeInto_canonical (hbase : base.Canonical) (hoverlay : overlay.Canonical) :
    (mergeInto base overlay).Canonical := by
  induction overlay using members_induction generalizing base with
  | hleaf value hleaf =>
    rw [mergeInto_leaf hleaf]
    exact hoverlay
  | hobject overlay ih =>
    cases base with
    | object members =>
      show (mergeMembers members overlay).Canonical
      rw [mergeMembers_eq_foldl]
      refine foldl_induction (P := Members.Canonical) hoverlay
        (fun acc key value hvalue hacc => ?_) hbase
      have hcanonical := Members.Canonical.get? hoverlay hvalue
      cases hget : acc.get? key with
      | some => exact hacc.insert (ih key value hvalue (hacc.get? hget) hcanonical) key
      | none => exact hacc.insert hcanonical key
    | _ => exact hoverlay

theorem applyMergePatch_canonical {target patch : Json} (htarget : target.Canonical)
    (hpatch : patch.Canonical) : (applyMergePatch target patch).Canonical := by
  induction patch using members_induction generalizing target with
  | hleaf value hleaf =>
    rw [applyMergePatch_leaf hleaf]
    exact hpatch
  | hobject patch ih =>
    show (applyMembers target.members patch).Canonical
    rw [applyMembers_eq_foldl]
    refine foldl_induction (P := Members.Canonical) hpatch
      (fun acc key value hvalue hacc => ?_) (Members.Canonical.members htarget)
    have hcanonical := Members.Canonical.get? hpatch hvalue
    split_ifs
    · exact hacc.erase key
    · cases hget : acc.get? key with
      | some => exact hacc.insert (ih key value hvalue (hacc.get? hget) hcanonical) key
      | none => exact hacc.insert (ih key value hvalue canonical_null hcanonical) key

theorem deletions_canonical {old new : Members} (hold : old.Canonical) :
    (deletions old new).Canonical := by
  refine foldl_induction (P := Members.Canonical) hold (fun acc key value _ hacc => ?_)
    canonical_nil
  split_ifs
  · exact hacc.insert canonical_null key
  · exact hacc

theorem diff_canonical (hold : old.Canonical) (hnew : new.Canonical) :
    (diff old new).Canonical := by
  induction new using members_induction generalizing old with
  | hleaf value hleaf =>
    rw [diff_leaf hleaf]
    exact hnew
  | hobject new ih =>
    cases old with
    | object members =>
      show (diffMembers members (deletions members new) new).Canonical
      rw [diffMembers_eq_foldl]
      refine foldl_induction (P := Members.Canonical) hnew
        (fun acc key value hvalue hacc => ?_) (deletions_canonical hold)
      have hcanonical := Members.Canonical.get? hnew hvalue
      cases hget : members.get? key with
      | none => exact hacc.insert hcanonical key
      | some =>
        dsimp only
        split_ifs
        · exact hacc.insert
            (ih key value hvalue (Members.Canonical.get? hold hget) hcanonical) key
        · exact hacc
    | _ => exact hnew

/-! ## What a lookup sees -/

section

variable {target patch old new : Members}

/-- What a patch leaves under a key. -/
def patched (target : Option Json) : Option Json → Option Json
  | none => target
  | some value =>
    if value = .null then none else some (applyMergePatch (target.getD .null) value)

theorem get?_applyMembers (htarget : target.Canonical) (hpatch : patch.Canonical) (k : String) :
    (applyMembers target patch).get? k = patched (target.get? k) (patch.get? k) := by
  rw [applyMembers_eq_foldl]
  rw [get?_foldl (P := Canonical) hpatch ?_ ?_ htarget
    (g := fun _ value existing => patched existing (some value))]
  · cases patch.get? k <;> rfl
  · intro acc key value hvalue hacc
    split_ifs
    · exact hacc.erase key
    · have hcanonical := Members.Canonical.get? hpatch hvalue
      cases hget : acc.get? key with
      | some =>
        exact hacc.insert (applyMergePatch_canonical (hacc.get? hget) hcanonical) key
      | none => exact hacc.insert (applyMergePatch_canonical canonical_null hcanonical) key
  · intro acc key value _ hacc k'
    simp only [patched]
    split_ifs with hnull hk hk
    · rw [get?_erase hacc, if_pos hk]
    · rw [get?_erase hacc, if_neg hk]
    · cases hget : acc.get? key <;> simp [get?_insert, hk]
    · cases hget : acc.get? key <;> simp [get?_insert, hk]

theorem get?_deletions (hold : old.Canonical) (k : String) :
    (deletions old new).get? k =
      if (old.get? k).isSome ∧ (new.get? k).isNone then some .null else none := by
  unfold deletions
  rw [get?_foldl (P := fun _ => True) hold (fun _ _ _ _ _ => trivial) ?_ trivial
    (g := fun key _ existing => if (new.get? key).isNone then some .null else existing)]
  · cases old.get? k with
    | none => rfl
    | some => simp [Members.get?]
  · intro acc key value _ _ k'
    split_ifs with hgone hk hk
    · rw [get?_insert, if_pos hk]
    · rw [get?_insert, if_neg hk]
    · rw [hk]
    · rfl

/-- What the patch of two objects holds under a key. -/
def differs (old : Option Json) : Option Json → Option Json
  | none => if old.isSome then some .null else none
  | some value =>
    match old with
    | none => some value
    | some existing => if existing ≠ value then some (diff existing value) else none

theorem get?_diffMembers (hold : old.Canonical) (hnew : new.Canonical) (k : String) :
    (diffMembers old (deletions old new) new).get? k = differs (old.get? k) (new.get? k) := by
  rw [diffMembers_eq_foldl]
  rw [get?_foldl (P := fun _ => True) hnew (fun _ _ _ _ _ => trivial) ?_ trivial
    (g := fun key value existing =>
      match old.get? key with
      | none => some value
      | some held => if held ≠ value then some (diff held value) else existing)]
  · rw [get?_deletions hold]
    cases hvalue : new.get? k with
    | none => simp [differs]
    | some =>
      cases hheld : old.get? k <;> simp [differs]
  · intro acc key value _ _ k'
    cases hheld : old.get? key with
    | none => simp [get?_insert]
    | some held =>
      by_cases hsame : held = value
      · by_cases hk : key = k'
        · simp [hsame, hk]
        · simp [hsame, hk]
      · simp [hsame, get?_insert]

end

/-! ## A patch and its document -/

theorem diff_ne_null (old : Json) (hnew : new ≠ .null) : diff old new ≠ .null := by
  cases new with
  | null => exact absurd rfl hnew
  | object =>
    cases old <;> exact fun h => nomatch h
  | _ => exact fun h => nomatch h

/-- A patch turns the one document into the other, unless the other has a null member. -/
theorem applyMergePatch_diff (hold : old.Canonical) (hnew : new.Canonical)
    (hnull : new.NullFree) : applyMergePatch old (diff old new) = new := by
  induction new using members_induction generalizing old with
  | hleaf value hleaf => rw [diff_leaf hleaf, applyMergePatch_leaf hleaf]
  | hobject new ih =>
    -- what a value is patched to, from whatever was there
    have hvalue : ∀ {k value}, new.get? k = some value → ∀ {held : Json}, held.Canonical →
        applyMergePatch held (diff held value) = value := fun hget held hheld =>
      ih _ _ hget hheld (Members.Canonical.get? hnew hget) (Members.NullFree.get? hnull hget).2
    have hadded : ∀ {k value}, new.get? k = some value → applyMergePatch .null value = value := by
      intro k value hget
      have hround := hvalue hget canonical_null
      rwa [show diff .null value = value by cases value <;> rfl] at hround
    cases old with
    | object old =>
      have hdiff : (Json.object (diffMembers old (deletions old new) new)).Canonical :=
        diff_canonical hold hnew
      have happlied := applyMergePatch_canonical hold hdiff
      refine congrArg Json.object (ext_get? happlied hnew fun k => ?_)
      show (applyMembers old (diffMembers old (deletions old new) new)).get? k = _
      rw [get?_applyMembers hold hdiff, get?_diffMembers hold hnew]
      cases hget : new.get? k with
      | none => cases old.get? k <;> simp [differs, patched]
      | some value =>
        have hne := (Members.NullFree.get? hnull hget).1
        cases hheld : old.get? k with
        | none => simp [differs, patched, hne, hadded hget]
        | some held =>
          by_cases hsame : held = value
          · simp [differs, patched, hsame]
          · simp [differs, patched, hsame, diff_ne_null held hne,
              hvalue hget (Members.Canonical.get? hold hheld)]
    | _ =>
      have happlied := applyMergePatch_canonical canonical_null hnew
      refine congrArg Json.object (ext_get? happlied hnew fun k => ?_)
      show (applyMembers .nil new).get? k = _
      rw [get?_applyMembers canonical_nil hnew]
      cases hget : new.get? k with
      | none => rfl
      | some =>
        have hne := (Members.NullFree.get? hnull hget).1
        simp [get?, patched, hne, hadded hget]

/-! ## Layers without null members -/

theorem mergeInto_ne_null (base : Json) (h : overlay ≠ .null) : mergeInto base overlay ≠ .null := by
  cases overlay with
  | null => exact absurd rfl h
  | object =>
    cases base <;> exact fun h => nomatch h
  | _ => exact fun h => nomatch h

theorem mergeInto_nullFree (hbase : base.NullFree) (hoverlay : overlay.Canonical)
    (hnull : overlay.NullFree) : (mergeInto base overlay).NullFree := by
  induction overlay using members_induction generalizing base with
  | hleaf value hleaf =>
    rw [mergeInto_leaf hleaf]
    exact hnull
  | hobject overlay ih =>
    cases base with
    | object members =>
      show (mergeMembers members overlay).NullFree
      rw [mergeMembers_eq_foldl]
      refine foldl_induction (P := Members.NullFree) hoverlay
        (fun acc key value hvalue hacc => ?_) hbase
      obtain ⟨hne, hfree⟩ := Members.NullFree.get? hnull hvalue
      cases hget : acc.get? key with
      | some existing =>
        exact hacc.insert (mergeInto_ne_null existing hne) (ih key value hvalue
          (hacc.get? hget).2 (Members.Canonical.get? hoverlay hvalue) hfree) key
      | none => exact hacc.insert hne hfree key
    | _ => exact hnull

/-- What every layer keeps of the ones below it, all of them together have. -/
theorem mergeLayers_induction {P : Json → Prop} (hempty : P (.object .nil))
    (hmerge : ∀ base layer, layer ∈ layers → P base → P (mergeInto base layer)) :
    P (mergeLayers layers) := by
  unfold mergeLayers
  generalize Json.object .nil = base at hempty
  induction layers generalizing base with
  | nil => exact hempty
  | cons layer layers ih =>
    exact ih (fun base layer hlayer => hmerge base layer (List.mem_cons_of_mem _ hlayer)) _
      (hmerge base layer List.mem_cons_self hempty)

theorem mergeLayers_canonical (h : ∀ layer ∈ layers, layer.Canonical) :
    (mergeLayers layers).Canonical :=
  mergeLayers_induction canonical_nil fun _ layer hlayer hbase =>
    mergeInto_canonical hbase (h layer hlayer)

theorem mergeLayers_nullFree (h : ∀ layer ∈ layers, layer.Canonical)
    (hnull : ∀ layer ∈ layers, layer.NullFree) : (mergeLayers layers).NullFree :=
  mergeLayers_induction (P := Json.NullFree) trivial fun _ layer hlayer hbase =>
    mergeInto_nullFree hbase (h layer hlayer) (hnull layer hlayer)

end PosFramework
