import PosFramework.Cloud.Config.Merge
import PosFramework.Lib.Fallible
import PosFramework.Lib.Transition
import PosFramework.Proto.Ids

set_option autoImplicit false

/-! # The configuration tree

A store's configuration is composed of four layers. Every publish composes them anew, validates the
result and appends it to the history. A store says which version it holds and is sent nothing, the
difference to the current version, or the whole of it. Whatever it has missed, after one exchange it
holds the current version's document, as long as the documents have no null members. -/

namespace PosFramework

open Fallible List Function Option

structure ConfigVersionId where
  ulid : Nat
deriving DecidableEq

/-- A JSON value as the code holds it, whose objects are in the order of their keys. -/
structure ConfigDocument where
  value : Json
  canonical : value.Canonical
deriving DecidableEq

theorem ConfigDocument.ext {a b : ConfigDocument} (h : a.value = b.value) : a = b := by
  cases a
  cases b
  subst h
  rfl

/-- The four levels, least specific first. -/
inductive ConfigLevel
  | tenant
  | brand
  | store
  | device
deriving DecidableEq

def ConfigLevel.order : List ConfigLevel := [.tenant, .brand, .store, .device]

inductive ConfigError
  | invalid (violations : List String)

/-- A published version. -/
structure ConfigVersion where
  id : ConfigVersionId
  effective : ConfigDocument
  nodes : List String

/-- A whole version. -/
structure ConfigSnapshot where
  configVersionId : ConfigVersionId
  storeId : StoreId
  document : ConfigDocument

/-- The difference of two versions. -/
structure ConfigDelta where
  fromConfigVersionId : ConfigVersionId
  toConfigVersionId : ConfigVersionId
  storeId : StoreId
  patch : ConfigDocument

/-- What a store is sent. -/
inductive SyncOutcome
  | upToDate
  | snapshot (snapshot : ConfigSnapshot)
  | delta (delta : ConfigDelta)

/-- A store's layers and its history of versions. -/
structure ConfigTree where
  storeId : StoreId
  layers : ConfigLevel → ConfigDocument
  history : List ConfigVersion
  k : Nat

namespace ConfigDocument

def empty : ConfigDocument := ⟨.object .nil, Members.canonical_nil⟩

/-- The layers as one document. -/
def ofLayers (layers : ConfigLevel → ConfigDocument) : ConfigDocument where
  value := mergeLayers (ConfigLevel.order.map fun level => (layers level).value)
  canonical := mergeLayers_canonical fun layer hlayer => by
    obtain ⟨level, -, rfl⟩ := mem_map.1 hlayer
    exact (layers level).canonical

/-- The patch from one document to another. -/
def patchTo (old new : ConfigDocument) : ConfigDocument :=
  ⟨diff old.value new.value, diff_canonical old.canonical new.canonical⟩

/-- The document with a patch applied. -/
def patch (target patch : ConfigDocument) : ConfigDocument :=
  ⟨applyMergePatch target.value patch.value,
    applyMergePatch_canonical target.canonical patch.canonical⟩

end ConfigDocument

namespace ConfigTree

def new (storeId : StoreId) (k : Nat) : ConfigTree := ⟨storeId, fun _ => .empty, [], k⟩

section

variable (validate : ConfigDocument → Except (List String) Unit)

/-- Replace one level's document and publish what the layers then compose to. A document that does
    not validate changes nothing. -/
def publish (tree : ConfigTree) (level : ConfigLevel) (document : ConfigDocument)
    (versionId : ConfigVersionId) (nodes : List String) : Except ConfigError ConfigTree :=
  let layers := update tree.layers level document
  let effective := ConfigDocument.ofLayers layers
  match validate effective with
  | .error violations => .error (.invalid violations)
  | .ok () => .ok { tree with
      layers := layers
      history := tree.history ++ [⟨versionId, effective, nodes⟩] }

end

variable (tree : ConfigTree)

/-- Publish a past version's document again, passed through `settle`, as the lowest of the
    layers. -/
def restoreWith (versionId newVersionId : ConfigVersionId)
    (settle : ConfigDocument → ConfigDocument) : Option ConfigTree :=
  (tree.history.find? (·.id = versionId)).map fun restored =>
    let effective := settle restored.effective
    { tree with
      layers := update (fun _ => .empty) .tenant effective
      history := tree.history ++ [⟨newVersionId, effective, effective.value.members.keys⟩] }

def position (held : ConfigVersionId) : Option Nat :=
  tree.history.findIdx? (·.id = held)

def behind (index : Nat) : Nat := tree.history.length - 1 - index

def snapshot (current : ConfigVersion) : ConfigSnapshot :=
  ⟨current.id, tree.storeId, current.effective⟩

/-- What to send a store that holds `held`. -/
def updateFor (held : Option ConfigVersionId) : SyncOutcome :=
  match tree.history.getLast? with
  | none => .upToDate
  | some current =>
    match held with
    | none => .snapshot (tree.snapshot current)
    | some held =>
      if held = current.id then .upToDate
      else
        match tree.position held with
        | none => .snapshot (tree.snapshot current)
        | some index =>
          if tree.behind index ≤ tree.k then
            match tree.history[index]? with
            | some version => .delta ⟨held, current.id, tree.storeId,
                version.effective.patchTo current.effective⟩
            -- the index is one of the history's, so this is not reached
            | none => .delta ⟨held, current.id, tree.storeId, current.effective⟩
          else .snapshot (tree.snapshot current)

end ConfigTree

/-! ## A store that follows the tree -/

structure HeldConfig where
  versionId : ConfigVersionId
  document : ConfigDocument
deriving DecidableEq

/-- What a store holds after an answer. -/
def HeldConfig.receive (held : Option HeldConfig) : SyncOutcome → Option HeldConfig
  | .upToDate => held
  | .snapshot snapshot => some ⟨snapshot.configVersionId, snapshot.document⟩
  | .delta delta => held.map fun held =>
    ⟨delta.toConfigVersionId, held.document.patch delta.patch⟩

/-- The cloud's tree and what the store holds. -/
structure ConfigSync where
  tree : ConfigTree
  held : Option HeldConfig

/-- A publish, a restore or an exchange. -/
inductive ConfigStep
  | publish (level : ConfigLevel) (document : ConfigDocument) (versionId : ConfigVersionId)
      (nodes : List String)
  | restore (versionId newVersionId : ConfigVersionId) (settle : ConfigDocument → ConfigDocument)
  | exchange

inductive ConfigRefusal
  | invalid (error : ConfigError)
  | noSuchVersion

namespace ConfigSync

def started (storeId : StoreId) (k : Nat) : ConfigSync := ⟨.new storeId k, none⟩

/-- The store asks with the version it holds and applies the answer. -/
def exchange (sync : ConfigSync) : ConfigSync :=
  let answer := sync.tree.updateFor (sync.held.map HeldConfig.versionId)
  { sync with held := HeldConfig.receive sync.held answer }

section

variable (validate : ConfigDocument → Except (List String) Unit)

/-- What a step does. -/
def step (call : ConfigStep) (sync : ConfigSync) : Except ConfigRefusal ConfigSync :=
  match call with
  | .publish level document versionId nodes =>
    match sync.tree.publish validate level document versionId nodes with
    | .ok tree => .ok { sync with tree := tree }
    | .error error => .error (.invalid error)
  | .restore versionId newVersionId settle =>
    match sync.tree.restoreWith versionId newVersionId settle with
    | some tree => .ok { sync with tree := tree }
    | none => .error .noSuchVersion
  | .exchange => .ok sync.exchange

abbrev Run (allowed : ConfigSync → ConfigStep → Prop) :
    ConfigSync → List ConfigStep → ConfigSync → Prop :=
  Transition.Run (step validate) allowed

end

/-- A new version's id is no other's. -/
def FreshVersion (sync : ConfigSync) : ConfigStep → Prop
  | .publish _ _ versionId _ => versionId ∉ sync.tree.history.map ConfigVersion.id
  | .restore _ newVersionId _ => newVersionId ∉ sync.tree.history.map ConfigVersion.id
  | .exchange => True

/-- A document that is published, or that a past version is settled to, has no null member. -/
def NullFreeDocument (sync : ConfigSync) : ConfigStep → Prop
  | .publish _ document _ _ => document.value.NullFree
  | .restore versionId _ settle => ∀ version ∈ sync.tree.history, version.id = versionId →
      (settle version.effective).value.NullFree
  | .exchange => True

instance (sync : ConfigSync) : (call : ConfigStep) → Decidable (sync.FreshVersion call)
  | .publish _ _ versionId _ =>
    inferInstanceAs (Decidable (versionId ∉ sync.tree.history.map ConfigVersion.id))
  | .restore _ newVersionId _ =>
    inferInstanceAs (Decidable (newVersionId ∉ sync.tree.history.map ConfigVersion.id))
  | .exchange => inferInstanceAs (Decidable True)

instance (sync : ConfigSync) : (call : ConfigStep) → Decidable (sync.NullFreeDocument call)
  | .publish _ document _ _ => inferInstanceAs (Decidable document.value.NullFree)
  | .restore versionId _ settle => inferInstanceAs (Decidable (∀ version ∈ sync.tree.history,
      version.id = versionId → (settle version.effective).value.NullFree))
  | .exchange => inferInstanceAs (Decidable True)

end ConfigSync

/-! ## What an exchange does -/

namespace ConfigTree

variable {tree : ConfigTree}

/-- The version an id stands for, where no two versions share one. -/
theorem getElem?_of_position (hnodup : (tree.history.map ConfigVersion.id).Nodup)
    {version : ConfigVersion} (hmem : version ∈ tree.history) :
    ∃ index, tree.position version.id = some index ∧ tree.history[index]? = some version := by
  obtain ⟨index, hindex, hget⟩ := mem_iff_getElem.1 hmem
  refine ⟨index, ?_, by rw [getElem?_eq_getElem hindex, hget]⟩
  refine findIdx?_eq_some_iff_getElem.2 ⟨hindex, by simp [hget], fun j hj hsame => ?_⟩
  have hsame : tree.history[j] = tree.history[index] := by
    rw [hget]
    exact inj_on_of_nodup_map hnodup (getElem_mem _) hmem (by simpa using hsame)
  exact absurd ((Nodup.getElem_inj_iff (hnodup.of_map _)).1 hsame) hj.ne

end ConfigTree

namespace ConfigSync

variable {validate : ConfigDocument → Except (List String) Unit} {sync after : ConfigSync}
  {layers : ConfigLevel → ConfigDocument} {document : ConfigDocument} {tree : ConfigTree}
  {versionId : ConfigVersionId}

/-- The store holds a version of the history, whose documents and layers have no null members. -/
structure Follows (sync : ConfigSync) : Prop where
  nodup : (sync.tree.history.map ConfigVersion.id).Nodup
  layers : ∀ level, (sync.tree.layers level).value.NullFree
  history : ∀ version ∈ sync.tree.history, version.effective.value.NullFree
  held : ∀ held ∈ sync.held, ∃ version ∈ sync.tree.history,
    held = ⟨version.id, version.effective⟩

theorem follows_started (storeId : StoreId) (k : Nat) : (started storeId k).Follows where
  nodup := nodup_nil
  layers _ := trivial
  history _ h := absurd h not_mem_nil
  held _ h := absurd h (not_mem_none _)

/-- A version is appended, under a new id and without null members. -/
theorem Follows.append (h : sync.Follows)
    {version : ConfigVersion} (hid : version.id ∉ sync.tree.history.map ConfigVersion.id)
    (hlayers : ∀ level, (layers level).value.NullFree) (hnull : version.effective.value.NullFree) :
    Follows { sync with tree := { sync.tree with
      layers := layers, history := sync.tree.history ++ [version] } } := by
  refine ⟨?_, hlayers, fun another hanother => ?_, fun held hheld => ?_⟩
  · rw [map_append, map_singleton, nodup_append_comm, singleton_append]
    exact nodup_cons.2 ⟨hid, h.nodup⟩
  · rcases mem_append.1 hanother with hmem | hnew
    · exact h.history another hmem
    · rw [mem_singleton.1 hnew]
      exact hnull
  · obtain ⟨another, hmem, heq⟩ := h.held held hheld
    exact ⟨another, mem_append_left _ hmem, heq⟩

/-- A layer that is replaced, or all of them. -/
theorem nullFree_update
    (h : ∀ level, (layers level).value.NullFree) (level : ConfigLevel)
    (hdocument : document.value.NullFree) (other : ConfigLevel) :
    (update layers level document other).value.NullFree := by
  by_cases hlevel : other = level
  · subst hlevel
    rw [update_self]
    exact hdocument
  · rw [update_of_ne hlevel]
    exact h other

theorem Follows.publish (h : sync.Follows) {level : ConfigLevel} {nodes : List String}
    (hpublish : sync.tree.publish validate level document versionId nodes = .ok tree)
    (hfresh : versionId ∉ sync.tree.history.map ConfigVersion.id)
    (hnull : document.value.NullFree) : Follows { sync with tree := tree } := by
  unfold ConfigTree.publish at hpublish
  dsimp only at hpublish
  split at hpublish
  · contradiction
  · cases hpublish
    have hlayers := nullFree_update h.layers level hnull
    refine h.append hfresh hlayers (mergeLayers_nullFree ?_ ?_)
    · intro layer hlayer
      obtain ⟨other, -, rfl⟩ := mem_map.1 hlayer
      exact (update sync.tree.layers level document other).canonical
    · intro layer hlayer
      obtain ⟨other, -, rfl⟩ := mem_map.1 hlayer
      exact hlayers other

theorem Follows.restore (h : sync.Follows) {newVersionId : ConfigVersionId}
    {settle : ConfigDocument → ConfigDocument}
    (hrestore : sync.tree.restoreWith versionId newVersionId settle = some tree)
    (hfresh : newVersionId ∉ sync.tree.history.map ConfigVersion.id)
    (hnull : ∀ version ∈ sync.tree.history, version.id = versionId →
      (settle version.effective).value.NullFree) : Follows { sync with tree := tree } := by
  obtain ⟨restored, hfind, rfl⟩ := map_eq_some_iff.1 hrestore
  have hsettled := hnull restored (mem_of_find?_eq_some hfind)
    (by simpa using find?_some hfind)
  have hempty : ∀ level : ConfigLevel,
      ((fun _ => ConfigDocument.empty : ConfigLevel → ConfigDocument) level).value.NullFree :=
    fun _ => trivial
  exact h.append hfresh (nullFree_update hempty .tenant hsettled) hsettled

theorem patch_patchTo {old new : ConfigDocument} (hnull : new.value.NullFree) :
    old.patch (old.patchTo new) = new :=
  ConfigDocument.ext (applyMergePatch_diff old.canonical new.canonical hnull)

/-- One exchange brings the store to the current version, whichever it held. -/
theorem Follows.exchange_held (h : sync.Follows) :
    sync.exchange.held = sync.tree.history.getLast?.map fun current =>
      ⟨current.id, current.effective⟩ := by
  show HeldConfig.receive sync.held (sync.tree.updateFor (sync.held.map HeldConfig.versionId)) = _
  cases hlast : sync.tree.history.getLast? with
  | none =>
    -- nothing has been published, so there is nothing to hold
    simp only [ConfigTree.updateFor, hlast, HeldConfig.receive, map_none]
    cases hheld : sync.held with
    | none => rfl
    | some held =>
      obtain ⟨version, hmem, -⟩ := h.held held hheld
      rw [getLast?_eq_none_iff.1 hlast] at hmem
      exact absurd hmem not_mem_nil
  | some current =>
    have hcurrent : current ∈ sync.tree.history := mem_of_getLast? hlast
    cases hheld : sync.held with
    | none => simp [ConfigTree.updateFor, hlast, HeldConfig.receive, ConfigTree.snapshot]
    | some held =>
      obtain ⟨version, hmem, rfl⟩ := h.held held hheld
      by_cases hid : version.id = current.id
      · have hsame : version = current := inj_on_of_nodup_map h.nodup hmem hcurrent hid
        simp [ConfigTree.updateFor, hlast, HeldConfig.receive, hsame]
      · obtain ⟨index, hposition, hget⟩ := ConfigTree.getElem?_of_position h.nodup hmem
        by_cases hbehind : sync.tree.behind index ≤ sync.tree.k
        · simp [ConfigTree.updateFor, hlast, HeldConfig.receive, hid, hposition, hbehind, hget,
            patch_patchTo (h.history current hcurrent)]
        · simp [ConfigTree.updateFor, hlast, HeldConfig.receive, hid, hposition, hbehind,
            ConfigTree.snapshot]

theorem Follows.exchange (h : sync.Follows) : sync.exchange.Follows := by
  refine ⟨h.nodup, h.layers, h.history, fun held hheld => ?_⟩
  rw [h.exchange_held, mem_def, map_eq_some_iff] at hheld
  obtain ⟨current, hlast, rfl⟩ := hheld
  exact ⟨current, mem_of_getLast? hlast, rfl⟩

theorem Follows.step (h : sync.Follows) {call : ConfigStep} (hfresh : sync.FreshVersion call)
    (hnull : sync.NullFreeDocument call) (hstep : step validate call sync = .ok after) :
    after.Follows := by
  cases call with
  | publish =>
    dsimp only [ConfigSync.step] at hstep
    split at hstep
    next tree hpublish =>
      cases hstep
      exact h.publish hpublish hfresh hnull
    · contradiction
  | restore =>
    dsimp only [ConfigSync.step] at hstep
    split at hstep
    next tree hrestore =>
      cases hstep
      exact h.restore hrestore hfresh hnull
    · contradiction
  | exchange =>
    cases hstep
    exact h.exchange

/-- Where no document that is published or settled has a null member, a store that exchanges at any
    moment of any run of publishes and restores then holds the current version's document. -/
theorem config_sync_converges {storeId : StoreId} {k : Nat} {calls : List ConfigStep}
    (hrun : Run validate (fun sync call => sync.FreshVersion call ∧ sync.NullFreeDocument call)
      (started storeId k) calls sync) :
    sync.exchange.held = sync.tree.history.getLast?.map fun current =>
      ⟨current.id, current.effective⟩ :=
  (hrun.invariant (I := Follows) (fun _ _ _ h hallowed hone => h.step hallowed.1 hallowed.2 hone)
    (follows_started storeId k)).exchange_held

end ConfigSync

/-! ## A null that does not arrive -/

/-- The least that is asked of a document: that it is an object. -/
def structuralValidator (document : ConfigDocument) : Except (List String) Unit :=
  match document.value with
  | .object _ => .ok ()
  | .null | .bool _ | .number _ | .string _ | .array _ =>
    .error ["the configuration document must be a JSON object"]

namespace ConfigSync

/-- A document with one member. -/
def oneMember (key : String) (value : Json) (h : value.Canonical) : ConfigDocument :=
  ⟨.object (.cons key value .nil), h, trivial, trivial⟩

/-- The tips are switched on and off again, and the store follows. -/
def switchedCalls : List ConfigStep :=
  [.publish .tenant (oneMember "tips" (.bool true) trivial) ⟨1⟩ ["tips"], .exchange,
    .publish .store (oneMember "tips" (.bool false) trivial) ⟨2⟩ ["tips"], .restore ⟨1⟩ ⟨3⟩ id]

theorem config_sync_converges_switchedCalls : ∃ sync,
    Run structuralValidator (fun sync call => sync.FreshVersion call ∧ sync.NullFreeDocument call)
      (started ⟨1⟩ 20) switchedCalls sync ∧ sync.held.map HeldConfig.versionId = some ⟨1⟩ ∧
      sync.exchange.held = some ⟨⟨3⟩, oneMember "tips" (.bool true) trivial⟩ := by
  have hrun : ∃ sync, Run structuralValidator
      (fun sync call => sync.FreshVersion call ∧ sync.NullFreeDocument call)
      (started ⟨1⟩ 20) switchedCalls sync ∧ sync.held.map HeldConfig.versionId = some ⟨1⟩ ∧
      (sync.tree.history.getLast?.map fun current =>
        (⟨current.id, current.effective⟩ : HeldConfig)) =
        some ⟨⟨3⟩, oneMember "tips" (.bool true) trivial⟩ :=
    ⟨_, .cons (by decide) rfl <| .cons (by decide) rfl <| .cons (by decide) rfl <|
      .cons (by decide) rfl <| .nil _, by decide, by decide⟩
  obtain ⟨sync, hrun, hheld, hcurrent⟩ := hrun
  exact ⟨sync, hrun, hheld, (config_sync_converges hrun).trans hcurrent⟩

/-- A value that is overwritten with an explicit null. -/
def nulledCalls : List ConfigStep :=
  [.publish .tenant (oneMember "note" (.bool true) trivial) ⟨1⟩ ["note"], .exchange,
    .publish .store (oneMember "note" .null trivial) ⟨2⟩ ["note"]]

theorem nulledCalls_loses_null : ∃ sync,
    Run structuralValidator FreshVersion (started ⟨1⟩ 20) nulledCalls sync ∧
      sync.tree.history.getLast?.map ConfigVersion.effective =
        some (oneMember "note" .null trivial) ∧
      sync.exchange.held = some ⟨⟨2⟩, .empty⟩ := by
  refine ⟨_, .cons (by decide) rfl <| .cons trivial rfl <| .cons (by decide) rfl <| .nil _, ?_, ?_⟩
  · decide
  · decide

end ConfigSync

end PosFramework
