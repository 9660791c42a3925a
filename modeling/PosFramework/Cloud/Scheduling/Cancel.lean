import PosFramework.Cloud.Scheduling
import PosFramework.Lib.Slots
import PosFramework.Lib.Transition

set_option autoImplicit false

/-! # Cancelling a scheduled publish

A pass of the activator reads the rows that are due and then, one row after another, loads the
store's tree, saves it on the version it loaded, and marks the row. The save asks for the tree's
version, not for the row's status. A row that is cancelled while a pass holds it is saved all the
same, so a cancel means what it says only where no pass holds the row. -/

namespace PosFramework

open ScheduledPublishes List Transition

/-- Where a pass is with its first row. -/
inductive PassPhase
  /-- About to load the tree for the first row. -/
  | ready
  | loaded (tree : Option VersionedTree)
  /-- The tree is saved and the row is to be marked applied. -/
  | applied (versionId : ConfigVersionId)
  /-- The row is to be marked failed. -/
  | failed (reason : String)

/-- A pass: the rows it has still to see to, the first of which it is at. -/
structure ActivatorPass where
  todo : List ScheduledPublish
  phase : PassPhase

namespace ActivatorPass

/-- The rows the pass may still save, or has saved and not marked. -/
def held (pass : ActivatorPass) : List ScheduledPublish :=
  match pass.phase with
  | .failed _ => pass.todo.tail
  | .ready | .loaded _ | .applied _ => pass.todo

/-- The pass has saved the row and not marked it yet. -/
def Marking (pass : ActivatorPass) (id : ScheduledPublishId) : Prop :=
  (∃ versionId, pass.phase = .applied versionId) ∧ ∃ row ∈ pass.todo.head?, row.id = id

theorem Marking.exists_held {pass : ActivatorPass} {id : ScheduledPublishId} (h : pass.Marking id) :
    ∃ row ∈ pass.held, row.id = id := by
  obtain ⟨⟨versionId, hphase⟩, row, hrow, hid⟩ := h
  refine ⟨row, ?_, hid⟩
  rw [held, hphase]
  exact mem_of_mem_head? hrow

end ActivatorPass

/-- What happens to a row that a run is judged by. -/
inductive Happening
  /-- A cancel of the row answered true. -/
  | cancelled (id : ScheduledPublishId)
  /-- A pass saved the row's value into a tree. -/
  | saved (id : ScheduledPublishId)
  /-- A pass that had saved the row did not get to mark it. -/
  | unmarked (id : ScheduledPublishId)
deriving DecidableEq

/-- The two tables, the passes under way, and what has happened, in order. -/
structure Activator where
  table : ScheduledPublishes
  trees : ConfigTrees
  passes : List ActivatorPass
  history : List Happening

/-- One call of a pass, or of somebody else. -/
inductive ActivatorCall
  | schedule (row : ScheduledPublish)
  /-- A pass begins by reading what is due. -/
  | read (nowMs : Int) (works : Bool)
  | load (pass : Nat) (failure : Option String)
  | save (pass : Nat) (versionId : Option ConfigVersionId) (failure : Option String)
  | mark (pass : Nat) (works : Bool)
  /-- The process of a pass ends. -/
  | stop (pass : Nat)
  | cancel (tenantId : TenantId) (id : ScheduledPublishId) (works : Bool)
  /-- Somebody else saves a tree. -/
  | saveOther (tenantId : TenantId) (storeId : StoreId) (tree : ConfigTree) (expected : Option Nat)

def changedMeanwhile : String :=
  "the store's configuration changed while this scheduled publish was being applied; it stays " ++
    "pending and the next pass will retry it"

namespace Activator

def started : Activator := ⟨.empty, .empty, [], []⟩

/-- Let a pass go on as another. -/
def advance (activator : Activator) (i : Nat) (pass : ActivatorPass) : Activator :=
  { activator with passes := activator.passes.set i pass }

def record (activator : Activator) (happening : Happening) : Activator :=
  { activator with history := activator.history ++ [happening] }

section

variable
    (align : Option ConfigTree → List (String × ConfigDocument) → List (String × ConfigDocument))
  (register : List ConfirmedSetting) (validate : ConfigDocument → Except (List String) Unit)

variable (activator : Activator)

/-- The save of a row whose tree is loaded. -/
def saveRow (i : Nat) (row : ScheduledPublish) (rest : List ScheduledPublish)
    (loaded : Option VersionedTree) (versionId : Option ConfigVersionId) (failure : Option String) :
    Activator :=
  let failed := fun reason => activator.advance i ⟨row :: rest, .failed reason⟩
  match prepare align register validate (loaded.map VersionedTree.record) row versionId with
  | .error reason => failed reason
  | .ok (tree, versionId) =>
    match failure with
    | some reason => failed reason
    | none =>
      match activator.trees.save row.tenantId row.storeId tree (loaded.map VersionedTree.etag) with
      | (.updated _, trees) =>
        ({ activator with trees := trees }.advance i ⟨row :: rest, .applied versionId⟩).record
          (.saved row.id)
      | (.versionMismatch, _) | (.notFound, _) => failed changedMeanwhile

/-- The mark of a row that is saved, or that failed. -/
def markRow (i : Nat) (row : ScheduledPublish) (rest : List ScheduledPublish)
    (phase : PassPhase) (works : Bool) : Activator :=
  match phase, works with
  | .applied versionId, true =>
    { activator with table := activator.table.markApplied row.id versionId }.advance i
      ⟨rest, .ready⟩
  | .applied _, false => (activator.advance i ⟨rest, .ready⟩).record (.unmarked row.id)
  | .failed reason, true =>
    { activator with table := activator.table.markFailed row.id reason }.advance i ⟨rest, .ready⟩
  | .failed _, false => activator.advance i ⟨rest, .ready⟩
  | .ready, _ | .loaded _, _ => activator

/-- What a call does. -/
def step : ActivatorCall → Activator
  | .schedule row => { activator with table := activator.table.schedule row }
  | .read nowMs works =>
    if works then
      let todo := inDependencyOrder (activator.table.due nowMs)
      { activator with passes := activator.passes ++ [⟨todo, .ready⟩] }
    else activator
  | .load i failure =>
    match activator.passes[i]? with
    | some ⟨row :: rest, .ready⟩ =>
      match failure with
      | some reason => activator.advance i ⟨row :: rest, .failed reason⟩
      | none => activator.advance i
          ⟨row :: rest, .loaded (activator.trees.load row.tenantId row.storeId)⟩
    | _ => activator
  | .save i versionId failure =>
    match activator.passes[i]? with
    | some ⟨row :: rest, .loaded loaded⟩ =>
      activator.saveRow align register validate i row rest loaded versionId failure
    | _ => activator
  | .mark i works =>
    match activator.passes[i]? with
    | some ⟨row :: rest, phase⟩ => activator.markRow i row rest phase works
    | _ => activator
  | .stop i =>
    match activator.passes[i]? with
    | some ⟨row :: _, .applied _⟩ => (activator.advance i ⟨[], .ready⟩).record (.unmarked row.id)
    | some _ => activator.advance i ⟨[], .ready⟩
    | none => activator
  | .cancel tenantId id works =>
    if works then
      let (answer, table) := activator.table.cancel tenantId id
      let after := { activator with table := table }
      if answer then after.record (.cancelled id) else after
    else activator
  | .saveOther tenantId storeId tree expected =>
    { activator with trees := (activator.trees.save tenantId storeId tree expected).2 }

abbrev Run (allowed : Activator → ActivatorCall → Prop) :
    Activator → List ActivatorCall → Activator → Prop :=
  Transition.Run (ε := Empty)
    (fun call activator => .ok (activator.step align register validate call)) allowed

end

/-- No pass may still save the row, nor has one saved it without having marked it. -/
def FreeOf (activator : Activator) (id : ScheduledPublishId) : Prop :=
  ∀ pass ∈ activator.passes, ∀ row ∈ pass.held, row.id ≠ id

instance (activator : Activator) (id : ScheduledPublishId) : Decidable (activator.FreeOf id) :=
  inferInstanceAs (Decidable (∀ pass ∈ activator.passes, ∀ row ∈ pass.held, row.id ≠ id))

/-- A row is cancelled only while no pass holds it. -/
def CancelsFreeRows (activator : Activator) : ActivatorCall → Prop
  | .cancel _ id _ => activator.FreeOf id
  | .schedule _ | .read _ _ | .load _ _ | .save _ _ _ | .mark _ _ | .stop _ | .saveOther _ _ _ _ =>
    True

instance (activator : Activator) :
    (call : ActivatorCall) → Decidable (activator.CancelsFreeRows call)
  | .cancel _ id _ => inferInstanceAs (Decidable (activator.FreeOf id))
  | .schedule _ | .read _ _ | .load _ _ | .save _ _ _ | .mark _ _ | .stop _ | .saveOther _ _ _ _ =>
    inferInstanceAs (Decidable True)

/-- Once a cancel has answered true, the row's value is not saved. -/
def CancelledStaysOut (history : List Happening) : Prop :=
  ∀ id, history.Pairwise fun earlier later => ¬(earlier = .cancelled id ∧ later = .saved id)

/-- A row whose value was saved is not cancelled, unless its mark failed. -/
def SavedStaysIn (history : List Happening) : Prop :=
  ∀ id, .unmarked id ∉ history →
    history.Pairwise fun earlier later => ¬(earlier = .saved id ∧ later = .cancelled id)

/-! ## What a run keeps -/

/-- Passes hold rows that are not cancelled, and a row that was saved is marked or about to be. -/
structure Orderly (activator : Activator) : Prop where
  known : ∀ pass ∈ activator.passes, ∀ row ∈ pass.todo, activator.table.status? row.id ≠ none
  held : ∀ pass ∈ activator.passes, ∀ row ∈ pass.held, .cancelled row.id ∉ activator.history
  cancelled : ∀ id, .cancelled id ∈ activator.history →
    activator.table.status? id = some .cancelled
  savedKnown : ∀ id, .saved id ∈ activator.history → activator.table.status? id ≠ none
  saved : ∀ id, .saved id ∈ activator.history → .unmarked id ∉ activator.history →
    activator.table.status? id = some .pending → ∃ pass ∈ activator.passes, pass.Marking id
  staysOut : CancelledStaysOut activator.history
  staysIn : SavedStaysIn activator.history

namespace Orderly

variable {activator : Activator} {i : Nat} {pass pass' : ActivatorPass} {row : ScheduledPublish}
  {rest : List ScheduledPublish} {id : ScheduledPublishId} {history : List Happening}

theorem withTrees (h : activator.Orderly) (trees : ConfigTrees) :
    Orderly { activator with trees := trees } :=
  ⟨h.known, h.held, h.cancelled, h.savedKnown, h.saved, h.staysOut, h.staysIn⟩

/-- The rows there are keep their statuses, or go from pending to applied. -/
theorem withTable (h : activator.Orderly) {table : ScheduledPublishes}
    (hstatus : ∀ id, activator.table.status? id ≠ none →
      table.status? id = activator.table.status? id ∨
        activator.table.status? id = some .pending ∧ table.status? id = some .applied) :
    Orderly { activator with table := table } := by
  have hknown : ∀ id, activator.table.status? id ≠ none → table.status? id ≠ none := by
    intro id hid
    rcases hstatus id hid with hsame | ⟨-, happlied⟩
    · exact hsame ▸ hid
    · simp [happlied]
  refine ⟨fun pass hpass row hrow => hknown _ (h.known pass hpass row hrow), h.held,
    fun id hid => ?_, fun id hid => hknown _ (h.savedKnown id hid),
    fun id hid hmarked hpending => ?_, h.staysOut, h.staysIn⟩
  · have hcancelled := h.cancelled id hid
    rcases hstatus id (by simp [hcancelled]) with hsame | ⟨hpending, -⟩
    · exact hsame.trans hcancelled
    · rw [hcancelled] at hpending
      contradiction
  · rcases hstatus id (h.savedKnown id hid) with hsame | ⟨-, happlied⟩
    · exact h.saved id hid hmarked (hsame.symm.trans hpending)
    · rw [happlied] at hpending
      contradiction

/-- A pass goes on with no row that it did not hold. It is not at its mark, or the mark is made, or
    it has failed. -/
theorem advance (h : activator.Orderly) (hget : activator.passes[i]? = some pass)
    (htodo : pass'.todo ⊆ pass.todo) (hheld : pass'.held ⊆ pass.held)
    (hmarking : ∀ id, pass.Marking id → .unmarked id ∉ activator.history →
      activator.table.status? id ≠ some .pending) : (activator.advance i pass').Orderly where
  known := Slots.forall_mem_set h.known fun row hrow =>
    h.known pass (mem_of_getElem? hget) row (htodo hrow)
  held := Slots.forall_mem_set h.held fun row hrow =>
    h.held pass (mem_of_getElem? hget) row (hheld hrow)
  cancelled := h.cancelled
  savedKnown := h.savedKnown
  saved id hid hmarked hpending := by
    obtain ⟨another, hanother, hmarks⟩ := h.saved id hid hmarked hpending
    refine ⟨another, Slots.mem_set_of_ne hget hanother ?_, hmarks⟩
    rintro rfl
    exact hmarking id hmarks hmarked hpending
  staysOut := h.staysOut
  staysIn := h.staysIn

theorem advance_of_phase (h : activator.Orderly) (hget : activator.passes[i]? = some pass)
    (htodo : pass'.todo ⊆ pass.todo) (hheld : pass'.held ⊆ pass.held)
    (hphase : ∀ versionId, pass.phase ≠ .applied versionId) :
    (activator.advance i pass').Orderly := by
  refine h.advance hget htodo hheld fun id hmarking => ?_
  obtain ⟨⟨versionId, happlied⟩, -⟩ := hmarking
  exact absurd happlied (hphase versionId)

theorem read (h : activator.Orderly) (nowMs : Int) :
    Orderly { activator with passes := activator.passes ++
      [⟨inDependencyOrder (activator.table.due nowMs), .ready⟩] } where
  known pass hpass row hrow := by
    rcases mem_append.1 hpass with hold | hnew
    · exact h.known pass hold row hrow
    · obtain rfl := mem_singleton.1 hnew
      rw [status?_of_mem_due (mem_of_mem_inDependencyOrder hrow)]
      exact Option.some_ne_none _
  held pass hpass row hrow hcancelled := by
    rcases mem_append.1 hpass with hold | hnew
    · exact h.held pass hold row hrow hcancelled
    · obtain rfl := mem_singleton.1 hnew
      -- a row that is due is pending, and a cancelled one is not
      have hpending := status?_of_mem_due (mem_of_mem_inDependencyOrder hrow)
      rw [h.cancelled row.id hcancelled] at hpending
      contradiction
  cancelled := h.cancelled
  savedKnown := h.savedKnown
  saved id hid hmarked hpending := by
    obtain ⟨pass, hpass, hmarks⟩ := h.saved id hid hmarked hpending
    exact ⟨pass, mem_append_left _ hpass, hmarks⟩
  staysOut := h.staysOut
  staysIn := h.staysIn

/-- A history that goes on keeps a law of pairs if nothing before stands against what is added. -/
theorem pairwise_concat {P : Happening → Happening → Prop}
    {happening : Happening} (h : history.Pairwise P)
    (hlast : ∀ earlier ∈ history, P earlier happening) :
    (history ++ [happening]).Pairwise P :=
  pairwise_append.2 ⟨h, pairwise_singleton _ _, fun earlier hearlier _ hlater =>
    mem_singleton.1 hlater ▸ hlast earlier hearlier⟩

theorem mem_concat_of_ne {happening another : Happening}
    (h : happening ∈ history ++ [another]) (hne : happening ≠ another) : happening ∈ history := by
  rcases mem_append.1 h with hold | hnew
  · exact hold
  · exact absurd (mem_singleton.1 hnew) hne

variable {versionId : ConfigVersionId} {tenantId : TenantId}

/-- A pass saves a row that it holds, and is then at its mark. -/
theorem save (h : activator.Orderly) {tree : Option VersionedTree}
    (hget : activator.passes[i]? = some ⟨row :: rest, .loaded tree⟩) :
    ((activator.advance i ⟨row :: rest, .applied versionId⟩).record (.saved row.id)).Orderly := by
  have hpass := mem_of_getElem? hget
  have hadvance : (activator.advance i ⟨row :: rest, .applied versionId⟩).Orderly :=
    h.advance_of_phase hget (Subset.refl _) (Subset.refl _) (by simp)
  have hmarks : ∃ pass ∈ (activator.advance i ⟨row :: rest, .applied versionId⟩).passes,
      pass.Marking row.id :=
    ⟨_, Slots.mem_set_self hget, ⟨versionId, rfl⟩, row, rfl, rfl⟩
  refine ⟨hadvance.known, fun pass hpass row hrow hcancelled => ?_, fun id hid => ?_,
    fun id hid => ?_,
    fun id hid hmarked hpending => ?_, fun id => ?_, fun id hmarked => ?_⟩
  · exact hadvance.held pass hpass row hrow (mem_concat_of_ne hcancelled (by simp))
  · exact hadvance.cancelled id (mem_concat_of_ne hid (by simp))
  · rcases mem_append.1 hid with hold | hnew
    · exact hadvance.savedKnown id hold
    · obtain rfl := Happening.saved.inj (mem_singleton.1 hnew)
      exact h.known _ hpass row mem_cons_self
  · rcases mem_append.1 hid with hold | hnew
    · exact hadvance.saved id hold (fun hmem => hmarked (mem_append_left _ hmem)) hpending
    · obtain rfl := Happening.saved.inj (mem_singleton.1 hnew)
      exact hmarks
  · refine pairwise_concat (h.staysOut id) ?_
    rintro earlier hearlier ⟨rfl, hsaved⟩
    obtain rfl := Happening.saved.inj hsaved
    exact h.held _ hpass row mem_cons_self hearlier
  · refine pairwise_concat (h.staysIn id fun hmem => hmarked (mem_append_left _ hmem)) ?_
    rintro earlier - ⟨-, hcancelled⟩
    cases hcancelled

/-- A mark that fails is in the history, which then says nothing about when its row was saved. -/
theorem unmark (h : activator.Orderly) (id : ScheduledPublishId) :
    (activator.record (.unmarked id)).Orderly where
  known := h.known
  held pass hpass row hrow hcancelled :=
    h.held pass hpass row hrow (mem_concat_of_ne hcancelled (by simp))
  cancelled another hanother := h.cancelled another (mem_concat_of_ne hanother (by simp))
  savedKnown another hanother := h.savedKnown another (mem_concat_of_ne hanother (by simp))
  saved another hanother hmarked :=
    h.saved another (mem_concat_of_ne hanother (by simp)) fun hmem =>
      hmarked (mem_append_left _ hmem)
  staysOut another := pairwise_concat (h.staysOut another) fun _ _ hpair => by cases hpair.2
  staysIn another hmarked :=
    pairwise_concat (h.staysIn another fun hmem => hmarked (mem_append_left _ hmem))
      fun _ _ hpair => by cases hpair.2

/-- A pass that is done with a saved row, whether it could mark it or not. -/
theorem finish (h : activator.Orderly) {todo : List ScheduledPublish}
    (hget : activator.passes[i]? = some ⟨row :: rest, .applied versionId⟩) (htodo : todo ⊆ rest)
    (hdone : .unmarked row.id ∉ activator.history →
      activator.table.status? row.id ≠ some .pending) :
    (activator.advance i ⟨todo, .ready⟩).Orderly := by
  have hsub : todo ⊆ row :: rest := fun held hheld => mem_cons_of_mem _ (htodo hheld)
  refine h.advance hget hsub hsub ?_
  rintro id ⟨-, first, hfirst, rfl⟩
  obtain rfl := Option.some.inj hfirst
  exact hdone

theorem mark (h : activator.Orderly)
    (hget : activator.passes[i]? = some ⟨row :: rest, .applied versionId⟩) :
    Orderly ({ activator with table := activator.table.markApplied row.id versionId }.advance i
      ⟨rest, .ready⟩) := by
  have htable : Orderly
      { activator with table := activator.table.markApplied row.id versionId } := by
    refine h.withTable fun id _ => ?_
    rw [status?_markApplied]
    split
    · rename_i hmarked
      exact .inr ⟨hmarked.2, rfl⟩
    · exact .inl rfl
  refine htable.finish hget (Subset.refl _) fun _ => ?_
  rw [status?_markApplied]
  split
  · simp
  · rename_i hnot
    exact fun hpending => hnot ⟨rfl, hpending⟩

theorem markRow (h : activator.Orderly) {phase : PassPhase}
    (hget : activator.passes[i]? = some ⟨row :: rest, phase⟩) (works : Bool) :
    (activator.markRow i row rest phase works).Orderly := by
  have hsub : rest ⊆ row :: rest := subset_cons_self _ _
  cases phase with
  | ready | loaded tree => exact h
  | applied =>
    cases works with
    | true => exact h.mark hget
    | false =>
      exact (h.unmark row.id).finish hget (Subset.refl _) fun hmarked =>
        absurd (mem_append_right _ mem_cons_self) hmarked
  | failed reason =>
    cases works with
    | true =>
      have htable : Orderly { activator with table := activator.table.markFailed row.id reason } :=
        h.withTable fun id _ => .inl status?_markFailed
      exact htable.advance_of_phase hget hsub (Subset.refl _) (by simp)
    | false => exact h.advance_of_phase hget hsub (Subset.refl _) (by simp)

theorem cancelNothing (h : activator.Orderly)
    (hanswer : (activator.table.cancel tenantId id).1 = false) :
    Orderly { activator with table := (activator.table.cancel tenantId id).2 } := by
  refine h.withTable fun another _ => .inl ?_
  rw [status?_cancel, if_neg (by simp [hanswer])]

/-- A cancel that withdraws a row that no pass holds. -/
theorem cancel (h : activator.Orderly) (hfree : activator.FreeOf id)
    (hanswer : (activator.table.cancel tenantId id).1 = true) :
    (Activator.record { activator with table := (activator.table.cancel tenantId id).2 }
      (.cancelled id)).Orderly := by
  have hpending := status?_of_cancel hanswer
  have hstatus : ∀ another, (activator.table.cancel tenantId id).2.status? another =
      if another = id then some .cancelled else activator.table.status? another := by
    intro another
    rw [status?_cancel]
    simp only [hanswer, and_true]
  have hknown : ∀ another, activator.table.status? another ≠ none →
      (activator.table.cancel tenantId id).2.status? another ≠ none := by
    intro another hanother
    rw [hstatus]
    split
    · simp
    · exact hanother
  refine ⟨fun pass hpass row hrow => hknown _ (h.known pass hpass row hrow),
    fun pass hpass row hrow hcancelled => ?_, fun another hanother => ?_,
    fun another hanother => hknown _ (h.savedKnown another (mem_concat_of_ne hanother (by simp))),
    fun another hanother hmarked hstill => ?_, fun another => ?_, fun another hmarked => ?_⟩
  · refine h.held pass hpass row hrow (mem_concat_of_ne hcancelled ?_)
    exact fun heq => hfree pass hpass row hrow (Happening.cancelled.inj heq)
  · change (activator.table.cancel tenantId id).2.status? another = _
    rw [hstatus]
    split
    · rfl
    · rename_i hne
      exact h.cancelled another (mem_concat_of_ne hanother fun heq =>
        hne (Happening.cancelled.inj heq))
  · change (activator.table.cancel tenantId id).2.status? another = _ at hstill
    rw [hstatus] at hstill
    split at hstill
    · contradiction
    · exact h.saved another (mem_concat_of_ne hanother (by simp))
        (fun hmem => hmarked (mem_append_left _ hmem)) hstill
  · exact pairwise_concat (h.staysOut another) fun _ _ hpair => by cases hpair.2
  · have hmarked' : .unmarked another ∉ activator.history :=
      fun hmem => hmarked (mem_append_left _ hmem)
    refine pairwise_concat (h.staysIn another hmarked') ?_
    rintro earlier hearlier ⟨rfl, heq⟩
    obtain rfl := Happening.cancelled.inj heq
    -- a row that was saved and is pending is at some pass's mark, so it is held
    obtain ⟨pass, hpass, hmarks⟩ := h.saved id hearlier hmarked' hpending
    obtain ⟨row, hrow, hid⟩ := hmarks.exists_held
    exact hfree pass hpass row hrow hid

section

variable
    (align : Option ConfigTree → List (String × ConfigDocument) → List (String × ConfigDocument))
  (register : List ConfirmedSetting) (validate : ConfigDocument → Except (List String) Unit)

theorem saveRow (h : activator.Orderly) {loaded : Option VersionedTree}
    (hget : activator.passes[i]? = some ⟨row :: rest, .loaded loaded⟩)
    (versionId : Option ConfigVersionId) (failure : Option String) :
    (activator.saveRow align register validate i row rest loaded versionId failure).Orderly := by
  have hfailed : ∀ reason, (activator.advance i ⟨row :: rest, .failed reason⟩).Orderly :=
    fun reason => h.advance_of_phase hget (Subset.refl _) (subset_cons_self _ _) (by simp)
  unfold Activator.saveRow
  split
  · exact hfailed _
  · split
    · exact hfailed _
    · split
      · exact (h.withTrees _).save hget
      · exact hfailed _
      · exact hfailed _

theorem step (h : activator.Orderly) (call : ActivatorCall)
    (hfree : activator.CancelsFreeRows call) :
    (activator.step align register validate call).Orderly := by
  cases call with
  | schedule row => exact h.withTable fun id hid => .inl (status?_schedule hid)
  | read nowMs works =>
    cases works with
    | true => exact h.read nowMs
    | false => exact h
  | load i failure =>
    rw [Activator.step]
    split
    · rename_i row rest hget
      cases failure with
      | some =>
        exact h.advance_of_phase hget (Subset.refl _) (subset_cons_self _ _) (by simp)
      | none => exact h.advance_of_phase hget (Subset.refl _) (Subset.refl _) (by simp)
    · exact h
  | save i versionId failure =>
    rw [Activator.step]
    split
    · rename_i hget
      exact h.saveRow align register validate hget versionId failure
    · exact h
  | mark i works =>
    rw [Activator.step]
    split
    · rename_i hget
      exact h.markRow hget works
    · exact h
  | stop i =>
    rw [Activator.step]
    split
    · rename_i row rest versionId hget
      exact (h.unmark row.id).finish hget (nil_subset _) fun hmarked =>
        absurd (mem_append_right _ mem_cons_self) hmarked
    · rename_i pass hnot hget
      refine h.advance hget (nil_subset _) (nil_subset _) ?_
      rintro id ⟨⟨versionId, hphase⟩, row, hrow, -⟩
      obtain ⟨todo, phase⟩ := pass
      obtain ⟨rest, rfl⟩ := head?_eq_some_iff.1 hrow
      obtain rfl := hphase
      exact (hnot row rest versionId rfl).elim
    · exact h
  | cancel tenantId id works =>
    cases works with
    | false => exact h
    | true =>
      have hstep : activator.step align register validate (.cancel tenantId id true) =
          if (activator.table.cancel tenantId id).1 then
            Activator.record { activator with table := (activator.table.cancel tenantId id).2 }
              (.cancelled id)
          else { activator with table := (activator.table.cancel tenantId id).2 } := rfl
      rw [hstep]
      cases hanswer : (activator.table.cancel tenantId id).1 with
      | true => exact h.cancel hfree hanswer
      | false => exact h.cancelNothing hanswer
  | saveOther => exact h.withTrees _

end

theorem started : Activator.started.Orderly where
  known _ hpass := absurd hpass not_mem_nil
  held _ hpass := absurd hpass not_mem_nil
  cancelled _ hid := absurd hid not_mem_nil
  savedKnown _ hid := absurd hid not_mem_nil
  saved _ hid := absurd hid not_mem_nil
  staysOut _ := Pairwise.nil
  staysIn _ _ := Pairwise.nil

end Orderly

/-- Where rows are cancelled only while no pass holds them, a cancelled publish never takes effect,
    and one that has taken effect is not cancelled unless its mark failed. -/
theorem cancelled_publish_never_saved
    (align : Option ConfigTree → List (String × ConfigDocument) → List (String × ConfigDocument))
    (register : List ConfirmedSetting) (validate : ConfigDocument → Except (List String) Unit)
    (calls : List ActivatorCall) (activator : Activator)
    (hrun : Run align register validate CancelsFreeRows started calls activator) :
    CancelledStaysOut activator.history ∧ SavedStaysIn activator.history := by
  have horderly : activator.Orderly := by
    refine hrun.invariant (I := Orderly) ?_ .started
    intro before call after h hfree hstep
    cases hstep
    exact h.step align register validate call hfree
  exact ⟨horderly.staysOut, horderly.staysIn⟩

/-! ## Runs -/

def scheduledNode (n : Nat) (effectiveAtMs : Int) : ScheduledPublish where
  id := ⟨n⟩
  tenantId := ⟨1⟩
  storeId := ⟨9⟩
  nodeKey := "campaigns"
  nodeValue := .empty
  effectiveAtMs := effectiveAtMs
  status := .pending
  appliedVersionId := none
  releaseId := none
  failure := none

/-- The first row is cancelled before it is due. The second is applied, and can no longer be
    cancelled. -/
def cancelledInTimeCalls : List ActivatorCall :=
  [.schedule (scheduledNode 1 500), .schedule (scheduledNode 2 1000), .cancel ⟨1⟩ ⟨1⟩ true,
    .read 1000 true, .load 0 none, .save 0 (some ⟨7⟩) none, .mark 0 true, .cancel ⟨1⟩ ⟨2⟩ true]

theorem cancelled_publish_never_saved_cancelledInTimeCalls :
    ∃ activator, Run (fun _ nodes => nodes) [] (fun _ => .ok ()) CancelsFreeRows started
        cancelledInTimeCalls activator ∧
      activator.history = [.cancelled ⟨1⟩, .saved ⟨2⟩] ∧
      CancelledStaysOut activator.history ∧ SavedStaysIn activator.history := by
  obtain ⟨activator, hrun, hhistory⟩ : ∃ activator, Run (fun _ nodes => nodes) [] (fun _ => .ok ())
      CancelsFreeRows started cancelledInTimeCalls activator ∧
      activator.history = [.cancelled ⟨1⟩, .saved ⟨2⟩] :=
    ⟨_, run_of_allAllowed (by decide), by decide⟩
  exact ⟨activator, hrun, hhistory, cancelled_publish_never_saved _ _ _ _ _ hrun⟩

/-- One row is cancelled after the pass has read it, another between its save and its mark. -/
def cancelledInFlightCalls : List ActivatorCall :=
  [.schedule (scheduledNode 1 500), .read 1000 true, .cancel ⟨1⟩ ⟨1⟩ true, .load 0 none,
    .save 0 (some ⟨7⟩) none, .mark 0 true, .schedule (scheduledNode 2 500), .read 1000 true,
    .load 1 none, .save 1 (some ⟨8⟩) none, .cancel ⟨1⟩ ⟨2⟩ true, .mark 1 true]

theorem cancelledInFlightCalls_saves_cancelled :
    ∃ activator, Run (fun _ nodes => nodes) [] (fun _ => .ok ()) (fun _ _ => True) started
        cancelledInFlightCalls activator ∧
      activator.history = [.cancelled ⟨1⟩, .saved ⟨1⟩, .saved ⟨2⟩, .cancelled ⟨2⟩] ∧
      ¬CancelledStaysOut activator.history ∧ ¬SavedStaysIn activator.history := by
  refine ⟨_, run_of_allAllowed (by decide), by decide, fun hout => ?_, fun hin => ?_⟩
  · have hpairs := hout ⟨1⟩
    exact absurd hpairs (by decide)
  · have hpairs := hin ⟨2⟩ (by decide)
    exact absurd hpairs (by decide)

end Activator

end PosFramework
