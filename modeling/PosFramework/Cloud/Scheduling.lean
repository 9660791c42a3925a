import PosFramework.Cloud.Config.Tree

set_option autoImplicit false

/-! # Scheduled publishes

A snapshot of a configuration node waits in a table until its time. The activator reads the rows
that are due, puts each release's nodes in the order they depend on one another, and publishes each
row's node on the store's tree, as any other publish would. -/

namespace PosFramework

open List

structure ScheduledPublishId where
  ulid : Nat
deriving DecidableEq

/-- Where a row is. -/
inductive ScheduledPublishStatus
  | pending
  | applied
  | cancelled
deriving DecidableEq

/-- A row of the schedule. -/
structure ScheduledPublish where
  id : ScheduledPublishId
  tenantId : TenantId
  storeId : StoreId
  nodeKey : String
  nodeValue : ConfigDocument
  effectiveAtMs : Int
  status : ScheduledPublishStatus
  appliedVersionId : Option ConfigVersionId
  releaseId : Option String
  failure : Option String

/-! ## The table -/

/-- The table `scheduled_publishes`, whose primary key is the row's id. -/
structure ScheduledPublishes where
  rows : List ScheduledPublish
  keyed : (rows.map ScheduledPublish.id).Nodup

namespace ScheduledPublishes

def empty : ScheduledPublishes := ⟨[], List.nodup_nil⟩

def find? (table : ScheduledPublishes) (id : ScheduledPublishId) : Option ScheduledPublish :=
  table.rows.find? (·.id = id)

/-- Rows that are written keep their ids. -/
def modify (table : ScheduledPublishes) (write : ScheduledPublish → ScheduledPublish)
    (hwrite : ∀ row, (write row).id = row.id) : ScheduledPublishes where
  rows := table.rows.map write
  keyed := by
    rw [map_map, show ScheduledPublish.id ∘ write = ScheduledPublish.id from funext hwrite]
    exact table.keyed

/-- Insert a pending row; a second row of one id is refused. -/
def schedule (table : ScheduledPublishes) (row : ScheduledPublish) : ScheduledPublishes :=
  if h : row.id ∈ table.rows.map ScheduledPublish.id then table
  else
    ⟨table.rows ++ [{ row with status := .pending, appliedVersionId := none, failure := none }], by
      rw [map_append]
      refine table.keyed.append (nodup_singleton _) fun id hid hnew => ?_
      rw [map_singleton, mem_singleton] at hnew
      subst hnew
      exact h hid⟩

/-- The pending rows whose time has come, the earliest first. -/
def due (table : ScheduledPublishes) (nowMs : Int) : List ScheduledPublish :=
  (table.rows.filter fun row => row.status = .pending ∧ row.effectiveAtMs ≤ nowMs).insertionSort
    fun one two => one.effectiveAtMs ≤ two.effectiveAtMs

/-- The `UPDATE` of a pending row, which `WHERE` also picks by the rest of its condition. -/
def writePending (picked : ScheduledPublish → Bool) (write : ScheduledPublish → ScheduledPublish)
    (row : ScheduledPublish) : ScheduledPublish :=
  if picked row ∧ row.status = .pending then write row else row

/-- Withdraw a pending row of the tenant, and say whether there was one. -/
def cancel (table : ScheduledPublishes) (tenantId : TenantId) (id : ScheduledPublishId) :
    Bool × ScheduledPublishes :=
  let picked := fun row : ScheduledPublish => decide (row.tenantId = tenantId ∧ row.id = id)
  (table.rows.any fun row => picked row ∧ row.status = .pending,
    table.modify (writePending picked fun row => { row with status := .cancelled })
      fun row => by unfold writePending; split <;> rfl)

/-- A pending row was applied. -/
def markApplied (table : ScheduledPublishes) (id : ScheduledPublishId)
    (versionId : ConfigVersionId) : ScheduledPublishes :=
  table.modify (writePending (fun row => row.id = id) fun row =>
      { row with status := .applied, appliedVersionId := some versionId, failure := none })
    fun row => by unfold writePending; split <;> rfl

/-- A pending row failed, and stays pending. -/
def markFailed (table : ScheduledPublishes) (id : ScheduledPublishId) (failure : String) :
    ScheduledPublishes :=
  table.modify (writePending (fun row => row.id = id) fun row =>
    { row with failure := some failure })
    fun row => by unfold writePending; split <;> rfl

/-- The status of the row with an id. -/
def status? (table : ScheduledPublishes) (id : ScheduledPublishId) :
    Option ScheduledPublishStatus :=
  (table.find? id).map ScheduledPublish.status

variable {table : ScheduledPublishes} {row : ScheduledPublish} {id : ScheduledPublishId}
  {tenantId : TenantId}

theorem find?_eq_some : table.find? id = some row ↔ row ∈ table.rows ∧ row.id = id := by
  constructor
  · intro h
    exact ⟨mem_of_find?_eq_some h, by simpa using find?_some h⟩
  · rintro ⟨hmem, rfl⟩
    cases hfind : table.find? row.id with
    | none => exact absurd (find?_eq_none.1 hfind row hmem) (by simp)
    | some held =>
      have hid : held.id = row.id := by simpa using find?_some hfind
      rw [inj_on_of_nodup_map table.keyed (mem_of_find?_eq_some hfind) hmem hid]

theorem find?_modify {write : ScheduledPublish → ScheduledPublish}
    (hwrite : ∀ row, (write row).id = row.id) :
    (table.modify write hwrite).find? id = (table.find? id).map write := by
  unfold find? modify
  rw [find?_map]
  refine congrArg (Option.map write) (congrArg (List.find? · table.rows) (funext fun row => ?_))
  exact congrArg (fun held => decide (held = id)) (hwrite row)

theorem status?_of_mem_due {nowMs : Int} (h : row ∈ table.due nowMs) :
    table.status? row.id = some .pending := by
  rw [due, mem_insertionSort, mem_filter, decide_eq_true_eq] at h
  rw [status?, find?_eq_some.2 ⟨h.1, rfl⟩, Option.map_some, h.2.1]

theorem status?_schedule (hid : table.status? id ≠ none) :
    (table.schedule row).status? id = table.status? id := by
  unfold schedule
  split
  · rfl
  · obtain ⟨status, hstatus⟩ := Option.ne_none_iff_exists'.1 hid
    obtain ⟨held, hheld, -⟩ := Option.map_eq_some_iff.1 hstatus
    unfold status? find? at *
    rw [find?_append, hheld, Option.some_or]

theorem status?_of_cancel (h : (table.cancel tenantId id).1 = true) :
    table.status? id = some .pending := by
  obtain ⟨row, hmem, hrow⟩ := any_eq_true.1 h
  obtain ⟨hpicked, hpending⟩ := of_decide_eq_true hrow
  obtain ⟨-, rfl⟩ := of_decide_eq_true hpicked
  rw [status?, find?_eq_some.2 ⟨hmem, rfl⟩, Option.map_some, hpending]

/-- The row is withdrawn where the cancel answers true; nothing else changes. -/
theorem status?_cancel {cancelled : ScheduledPublishId} :
    (table.cancel tenantId cancelled).2.status? id =
      if id = cancelled ∧ (table.cancel tenantId cancelled).1 = true then some .cancelled
      else table.status? id := by
  cases hfind : table.find? id with
  | none =>
    have hnone : table.status? id = none := by rw [status?, hfind, Option.map_none]
    rw [if_neg, hnone, status?, cancel, find?_modify, hfind]
    · rfl
    · rintro ⟨rfl, hanswer⟩
      rw [status?_of_cancel hanswer] at hnone
      contradiction
  | some row =>
    obtain ⟨hmem, rfl⟩ := find?_eq_some.1 hfind
    rw [status?, cancel, find?_modify, hfind, status?, hfind]
    rw [Option.map_some, Option.map_some, Option.map_some, writePending]
    by_cases hpicked : (row.tenantId = tenantId ∧ row.id = cancelled) ∧ row.status = .pending
    · rw [if_pos ⟨decide_eq_true hpicked.1, hpicked.2⟩, if_pos]
      refine ⟨hpicked.1.2, any_eq_true.2 ⟨row, hmem, decide_eq_true ⟨?_, hpicked.2⟩⟩⟩
      exact decide_eq_true hpicked.1
    · rw [if_neg (by simpa using hpicked), if_neg]
      rintro ⟨hid, hanswer⟩
      -- the row that was withdrawn has this row's id, so it is this row
      obtain ⟨held, hheld, hrow⟩ := any_eq_true.1 hanswer
      obtain ⟨hpicks, hpending⟩ := of_decide_eq_true hrow
      have hsame := of_decide_eq_true hpicks
      have heq : held = row :=
        inj_on_of_nodup_map table.keyed hheld hmem (hsame.2.trans hid.symm)
      exact hpicked ⟨heq ▸ hsame, heq ▸ hpending⟩

theorem status?_markApplied {applied : ScheduledPublishId} {versionId : ConfigVersionId} :
    (table.markApplied applied versionId).status? id =
      if id = applied ∧ table.status? id = some .pending then some .applied
        else table.status? id := by
  unfold markApplied status?
  rw [find?_modify]
  cases hfind : table.find? id with
  | none => rw [Option.map_none, Option.map_none, if_neg (by simp)]
  | some row =>
    obtain ⟨-, rfl⟩ := find?_eq_some.1 hfind
    rw [Option.map_some, Option.map_some, Option.map_some]
    unfold writePending
    by_cases hpicked : row.id = applied ∧ row.status = .pending
    · rw [if_pos ⟨decide_eq_true hpicked.1, hpicked.2⟩, if_pos ⟨hpicked.1, by rw [hpicked.2]⟩]
    · rw [if_neg (by simpa using hpicked), if_neg (by simpa using hpicked)]

@[simp] theorem status?_markFailed {failed : ScheduledPublishId} {failure : String} :
    (table.markFailed failed failure).status? id = table.status? id := by
  unfold markFailed status?
  rw [find?_modify]
  cases table.find? id with
  | none => rfl
  | some row =>
    rw [Option.map_some, Option.map_some, Option.map_some]
    unfold writePending
    split <;> rfl

end ScheduledPublishes

/-! ## The order of a release -/

def nodePrerequisites : List (String × List String) := [("menu", ["tax", "locale"])]

/-- What must be published before a node. -/
def prerequisitesFor (node : String) : List String :=
  ((nodePrerequisites.find? (·.1 = node)).map (·.2)).getD []

/-- One sweep: a node is placed unless something it needs, that is in the release, is not placed
    yet. The first list is what is placed, the second what has to wait. -/
def sweep (nodes : List String) : List String → List String → List String × List String
  | ordered, [] => (ordered, [])
  | ordered, node :: remaining =>
    let waiting := (prerequisitesFor node).any fun needed => needed ∉ ordered ∧ needed ∈ nodes
    if waiting then
      let (ordered, next) := sweep nodes ordered remaining
      (ordered, node :: next)
    else sweep nodes (ordered ++ [node]) remaining

/-- Sweep until nothing waits or a sweep places nothing. Every sweep but the last places a node, so
    as many as there are nodes are enough. -/
def sweeps (nodes : List String) : Nat → List String → List String → List String
  | 0, ordered, remaining => ordered ++ remaining
  | fuel + 1, ordered, remaining =>
    if remaining = [] then ordered
    else
      let (placed, next) := sweep nodes ordered remaining
      if placed.length = ordered.length then placed ++ next else sweeps nodes fuel placed next

/-- The nodes, each after those it needs. -/
def orderForRelease (nodes : List String) : List String := sweeps nodes nodes.length [] nodes

/-- Take a row of each name in turn, none of them twice. -/
def placeRows : List String → List ScheduledPublish → List ScheduledPublish
  | [], _ => []
  | node :: nodes, rows =>
    match rows.find? (·.nodeKey = node) with
    | some row => row :: placeRows nodes (rows.eraseP (·.nodeKey = node))
    | none => placeRows nodes rows

/-- Put a row with the rows of its release and store, or begin their group. -/
def intoGroup (row : ScheduledPublish) (key : String × StoreId) :
    List ((String × StoreId) × List ScheduledPublish) →
      List ((String × StoreId) × List ScheduledPublish)
  | [] => [(key, [row])]
  | (existing, rows) :: groups =>
    if existing = key then (existing, rows ++ [row]) :: groups
    else (existing, rows) :: intoGroup row key groups

/-- The rows of no release, and the groups of the others. -/
def groupRows (due : List ScheduledPublish) :
    List ScheduledPublish × List ((String × StoreId) × List ScheduledPublish) :=
  due.foldl (fun (standalone, groups) row =>
    match row.releaseId with
    | none => (standalone ++ [row], groups)
    | some releaseId => (standalone, intoGroup row (releaseId, row.storeId) groups)) ([], [])

/-- The rows of no release, then each release's in the order of its nodes. -/
def inDependencyOrder (due : List ScheduledPublish) : List ScheduledPublish :=
  let (standalone, groups) := groupRows due
  groups.foldl (fun ordered group =>
    ordered ++ placeRows (orderForRelease (group.2.map ScheduledPublish.nodeKey)) group.2)
      standalone

/-! ## Applying a row -/

/-- What a setting that may need a recorded confirmation says about itself. -/
structure ConfirmedSetting where
  node : String
  field : String
  confirm : Option String

/-- The setting's field in a document. -/
def ConfirmedSetting.read (setting : ConfirmedSetting) (document : ConfigDocument) : Option Json :=
  (document.value.members.get? setting.node).bind fun node => node.members.get? setting.field

/-- The first setting that would run a value that needs confirming, which it did not run before. -/
def unconfirmed? (register : List ConfirmedSetting) (before after : ConfigDocument) :
    Option (String × String) :=
  register.findSome? fun setting =>
    match setting.confirm with
    | none => none
    | some value =>
      if setting.read after = some (.string value) ∧ setting.read before ≠ setting.read after then
        some (setting.node ++ "." ++ setting.field, value)
      else none

def unconfirmedMessage (key value : String) : String :=
  "this would make the store run `" ++ key ++ "` = " ++ value ++ ", which is set only with its " ++
    "notice confirmed: set it on Settings, which records who confirmed it"

/-- The document as an object with a member set; what is not an object counts as an empty one. -/
def ConfigDocument.setMember (document : ConfigDocument) (key : String) (value : ConfigDocument) :
    ConfigDocument where
  value := .object (document.value.members.insert key value.value)
  canonical := (Members.Canonical.members document.canonical).insert value.canonical key

/-- A document that is an object. -/
def ConfigDocument.asObject (document : ConfigDocument) : ConfigDocument where
  value := .object document.value.members
  canonical := Members.Canonical.members document.canonical

section

variable
    (align : Option ConfigTree → List (String × ConfigDocument) → List (String × ConfigDocument))
  (register : List ConfirmedSetting) (validate : ConfigDocument → Except (List String) Unit)

/-- The store layer a node makes on a tree, and the nodes it sets. `align` adds what the switch of
    QR ordering makes follow a node. -/
def storeLayerWith (state : Option ConfigTree) (nodeKey : String) (nodeValue : ConfigDocument) :
    ConfigDocument × List String :=
  let layer := (state.map fun tree => tree.layers .store).getD .empty
  let nodes := align state [(nodeKey, nodeValue)]
  (nodes.foldl (fun layer node => layer.setMember node.1 node.2) layer.asObject, nodes.map (·.1))

/-- Whether a node would make a store run a value that needs confirming, which it does not run
    now. -/
def checkConfirmations (state : Option ConfigTree) (nodeKey : String) (nodeValue : ConfigDocument) :
    Option (String × String) :=
  let (storeLayer, _) := storeLayerWith align state nodeKey nodeValue
  let layers := (state.map ConfigTree.layers).getD fun _ => .empty
  -- a store without a tree runs the empty document
  let before := (state.map fun tree => ConfigDocument.ofLayers tree.layers).getD .empty
  unconfirmed? register before (.ofLayers (Function.update layers .store storeLayer))

/-- The store layer with the row's node, or why it is refused. -/
def composed (state : Option ConfigTree) (publish : ScheduledPublish) :
    Except String (ConfigDocument × List String) :=
  match checkConfirmations align register state publish.nodeKey publish.nodeValue with
  | some (key, value) => .error ("the scheduled node is invalid: " ++ unconfirmedMessage key value)
  | none => .ok (storeLayerWith align state publish.nodeKey publish.nodeValue)

/-- What a row makes of the tree that was loaded for it: the tree to save, or why there is none.
    Without entropy there is no version id. -/
def prepare (state : Option ConfigTree) (publish : ScheduledPublish)
    (versionId : Option ConfigVersionId) : Except String (ConfigTree × ConfigVersionId) :=
  match composed align register state publish with
  | .error reason => .error reason
  | .ok (storeLayer, nodeKeys) =>
    match versionId with
    | none => .error "OS entropy unavailable"
    | some versionId =>
      match (state.getD (.new publish.storeId 20)).publish validate .store storeLayer versionId
        nodeKeys with
      | .error (.invalid violations) =>
        .error ("the scheduled node is invalid: " ++ toString violations)
      | .ok tree => .ok (tree, versionId)

end

/-! ## The trees -/

/-- A stored tree with the version of its row. -/
structure VersionedTree where
  record : ConfigTree
  etag : Nat

/-- The table `config_trees`. Every write gives a row a version that no row had before. -/
structure ConfigTrees where
  load : TenantId → StoreId → Option VersionedTree
  nextEtag : Nat

/-- What a conditional save answers. -/
inductive UpdateOutcome
  | updated (etag : Nat)
  | versionMismatch
  | notFound

namespace ConfigTrees

def empty : ConfigTrees := ⟨fun _ _ => none, 0⟩

def write (trees : ConfigTrees) (tenantId : TenantId) (storeId : StoreId) (tree : ConfigTree) :
    ConfigTrees where
  load tenant store :=
    if tenant = tenantId ∧ store = storeId then some ⟨tree, trees.nextEtag⟩
    else trees.load tenant store
  nextEtag := trees.nextEtag + 1

/-- Save a tree if the row is still at the expected version, or still absent where none is
    expected. -/
def save (trees : ConfigTrees) (tenantId : TenantId) (storeId : StoreId) (tree : ConfigTree)
    (expected : Option Nat) : UpdateOutcome × ConfigTrees :=
  match expected, trees.load tenantId storeId with
  | none, none => (.updated trees.nextEtag, trees.write tenantId storeId tree)
  | none, some _ => (.versionMismatch, trees)
  | some _, none => (.notFound, trees)
  | some etag, some held =>
    if held.etag = etag then (.updated trees.nextEtag, trees.write tenantId storeId tree)
    else (.versionMismatch, trees)

end ConfigTrees

/-! ## A pass applies what is due -/

variable {row : ScheduledPublish} {due : List ScheduledPublish}

theorem mem_of_mem_placeRows {nodes : List String} {rows : List ScheduledPublish}
    (h : row ∈ placeRows nodes rows) : row ∈ rows := by
  induction nodes generalizing rows with
  | nil => exact absurd h not_mem_nil
  | cons node nodes ih =>
    rw [placeRows] at h
    split at h
    · rename_i placed hplaced
      rcases mem_cons.1 h with rfl | h
      · exact mem_of_find?_eq_some hplaced
      · exact mem_of_mem_eraseP (ih h)
    · exact ih h

theorem mem_intoGroup {held : ScheduledPublish} {key : String × StoreId}
    {groups : List ((String × StoreId) × List ScheduledPublish)}
    {group : (String × StoreId) × List ScheduledPublish} (hgroup : group ∈ intoGroup row key groups)
    (hheld : held ∈ group.2) : held = row ∨ ∃ group ∈ groups, held ∈ group.2 := by
  induction groups with
  | nil =>
    obtain rfl := mem_singleton.1 hgroup
    exact .inl (mem_singleton.1 hheld)
  | cons first groups ih =>
    rw [intoGroup] at hgroup
    split at hgroup
    · rcases mem_cons.1 hgroup with rfl | hgroup
      · rcases mem_append.1 hheld with hheld | hheld
        · exact .inr ⟨first, mem_cons_self, hheld⟩
        · exact .inl (mem_singleton.1 hheld)
      · exact .inr ⟨group, mem_cons_of_mem _ hgroup, hheld⟩
    · rcases mem_cons.1 hgroup with rfl | hgroup
      · exact .inr ⟨first, mem_cons_self, hheld⟩
      · rcases ih hgroup with heq | ⟨group, hgroup, hheld⟩
        · exact .inl heq
        · exact .inr ⟨group, mem_cons_of_mem _ hgroup, hheld⟩

theorem mem_groupRows
    (h : row ∈ (groupRows due).1 ∨ ∃ group ∈ (groupRows due).2, row ∈ group.2) : row ∈ due := by
  induction due using List.reverseRecOn with
  | nil =>
    rcases h with h | ⟨group, hgroup, -⟩
    · exact absurd h not_mem_nil
    · exact absurd hgroup not_mem_nil
  | append_singleton due last ih =>
    rw [groupRows, foldl_append, foldl_cons, foldl_nil, ← groupRows] at h
    rcases hrelease : last.releaseId with _ | releaseId
    · simp only [hrelease] at h
      rcases h with h | h
      · rcases mem_append.1 h with h | h
        · exact mem_append_left _ (ih (.inl h))
        · exact mem_append_right _ h
      · exact mem_append_left _ (ih (.inr h))
    · simp only [hrelease] at h
      rcases h with h | ⟨group, hgroup, hrow⟩
      · exact mem_append_left _ (ih (.inl h))
      · rcases mem_intoGroup hgroup hrow with rfl | hold
        · exact mem_append_right _ mem_cons_self
        · exact mem_append_left _ (ih (.inr hold))

/-- A pass works on rows that were due. -/
theorem mem_of_mem_inDependencyOrder
    (h : row ∈ inDependencyOrder due) : row ∈ due := by
  have hplaced : ∀ (groups : List ((String × StoreId) × List ScheduledPublish))
      (ordered : List ScheduledPublish), row ∈ groups.foldl (fun ordered group =>
        ordered ++ placeRows (orderForRelease (group.2.map ScheduledPublish.nodeKey)) group.2)
          ordered →
      row ∈ ordered ∨ ∃ group ∈ groups, row ∈ group.2 := by
    intro groups
    induction groups with
    | nil => exact fun ordered h => .inl h
    | cons group groups ih =>
      intro ordered h
      rcases ih _ h with h | ⟨later, hlater, hrow⟩
      · rcases mem_append.1 h with h | h
        · exact .inl h
        · exact .inr ⟨group, mem_cons_self, mem_of_mem_placeRows h⟩
      · exact .inr ⟨later, mem_cons_of_mem _ hlater, hrow⟩
  exact mem_groupRows (hplaced _ _ h)

end PosFramework
