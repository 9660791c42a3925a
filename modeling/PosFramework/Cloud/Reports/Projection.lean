import PosFramework.Cloud.Reports.Rollup
import PosFramework.Lib.Cursor
import PosFramework.Lib.Slots
import PosFramework.Lib.Transition

set_option autoImplicit false

/-! # The materialised rollup

A projection pass loads a store's rollup, reads the log page by page after the rollup's cursor,
folds what it reads and saves the rollup with the cursor at the last event. Events reach the log
while passes run, and a store may have several passes in flight.

The log is read in order of event ids and the cursor only moves forward, but events do not arrive in
that order. An event that arrives behind a cursor is behind it for good; one that arrives ahead of
every cursor is folded when its turn comes. -/

namespace PosFramework

open Cursor List

/-- How many events one page reads and folds. -/
def projectPage : Nat := 512

/-- A store's rollup and how far into the log it reflects. -/
structure StoredRollups where
  cursor : Option EventId
  rollups : Rollups

namespace StoredRollups

/-- Nothing projected yet. -/
def fresh : StoredRollups := ⟨none, .empty⟩

/-- The page after the cursor. -/
def batch (log : List RecordedEvent) (state : StoredRollups) : List RecordedEvent :=
  page (·.eventId) log state.cursor projectPage

/-- One turn of the loop: fold the page after the cursor, and say whether the loop ends with it. -/
def readPage (log : List RecordedEvent) (state : StoredRollups) : StoredRollups × Bool :=
  let batch := state.batch log
  if batch.isEmpty then (state, true)
  else
    ({ cursor := (batch.getLast?.map (·.eventId)).or state.cursor
       rollups := batch.foldl (Rollups.fold .saturating) state.rollups },
      batch.length < projectPage)

/-- The loop, where the log stays as it is: `none` if it is cut off before its end. -/
def catchUp (log : List RecordedEvent) : Nat → StoredRollups → Option StoredRollups
  | 0, _ => none
  | turns + 1, state =>
    match state.readPage log with
    | (state, true) => some state
    | (state, false) => catchUp log turns state

end StoredRollups

/-- A pass in flight: what it has folded, and whether its loop has ended. -/
structure ProjectionPass where
  state : StoredRollups
  ended : Bool

/-- A store's log in the cloud, its saved rollup, and the passes in flight. -/
structure Projector where
  log : List RecordedEvent
  stored : StoredRollups
  passes : List ProjectionPass

/-- An arrival, or one step of a pass. -/
inductive ProjectorCall
  /-- An event reaches the log. -/
  | arrive (event : RecordedEvent)
  /-- A pass begins: it loads the rollup. -/
  | load
  /-- A pass reads its next page. -/
  | read (pass : Nat)
  /-- A pass whose loop has ended saves its rollup. -/
  | save (pass : Nat)
  /-- A pass fails, or its process dies. -/
  | stop (pass : Nat)

namespace Projector

def started : Projector := ⟨[], .fresh, []⟩

variable (projector : Projector)

/-- What a call does. -/
def step : ProjectorCall → Projector
  -- an id that is in the log already is a duplicate and changes nothing
  | .arrive event => { projector with log := file (·.eventId) event projector.log }
  | .load => { projector with passes := projector.passes ++ [⟨projector.stored, false⟩] }
  | .read i =>
    match projector.passes[i]? with
    | some ⟨state, false⟩ =>
      let (state, ended) := state.readPage projector.log
      { projector with passes := projector.passes.set i ⟨state, ended⟩ }
    | _ => projector
  | .save i =>
    match projector.passes[i]? with
    | some ⟨state, true⟩ =>
      { projector with stored := state, passes := projector.passes.eraseIdx i }
    | _ => projector
  | .stop i => { projector with passes := projector.passes.eraseIdx i }

/-- A pass from its load to its save, with nothing in between. -/
def project : Option Projector :=
  (projector.stored.catchUp projector.log (projector.log.length + 1)).map fun state =>
    { projector with stored := state }

/-- An event that arrives is one the log has, or lies ahead of the saved cursor and of the cursor of
    every pass in flight. -/
def ArrivesAhead : ProjectorCall → Prop
  | .arrive event =>
    (∃ earlier ∈ projector.log, earlier.eventId = event.eventId) ∨
      Beyond (·.eventId) projector.stored.cursor event ∧
        ∀ pass ∈ projector.passes, Beyond (·.eventId) pass.state.cursor event
  | .load | .read _ | .save _ | .stop _ => True

instance (projector : Projector) : (call : ProjectorCall) → Decidable (projector.ArrivesAhead call)
  | .arrive event => inferInstanceAs (Decidable
      ((∃ earlier ∈ projector.log, earlier.eventId = event.eventId) ∨
        Beyond (·.eventId) projector.stored.cursor event ∧
          ∀ pass ∈ projector.passes, Beyond (·.eventId) pass.state.cursor event))
  | .load | .read _ | .save _ | .stop _ => inferInstanceAs (Decidable True)

abbrev Run (allowed : Projector → ProjectorCall → Prop) :
    Projector → List ProjectorCall → Projector → Prop :=
  Transition.Run (ε := Empty) (fun call projector => .ok (projector.step call)) allowed

end Projector

/-! ## What a pass keeps -/

namespace StoredRollups

variable {log : List RecordedEvent} {state : StoredRollups}

/-- The rollup is the fold of the log up to its cursor. -/
def Reflects (log : List RecordedEvent) (state : StoredRollups) : Prop :=
  state.rollups = rollupOf .saturating (upTo (·.eventId) log state.cursor)

theorem fresh_reflects : fresh.Reflects log := by
  change Rollups.empty = rollupOf .saturating (upTo (·.eventId) log none)
  rw [upTo_none]
  rfl

theorem Reflects.file (h : state.Reflects log) {event : RecordedEvent}
    (hahead : Beyond (·.eventId) state.cursor event) :
    state.Reflects (file (·.eventId) event log) := by
  rw [Reflects, upTo_file hahead]
  exact h

/-- A turn of the loop: it ends where nothing is left, or moves the cursor over the page it
    folded. -/
theorem readPage_cases (log : List RecordedEvent) (state : StoredRollups) :
    after (·.eventId) log state.cursor = [] ∧ state.readPage log = (state, true) ∨
    ∃ last, (state.batch log).getLast? = some last ∧
      state.readPage log =
        ({ cursor := some last.eventId
           rollups := (state.batch log).foldl (Rollups.fold .saturating) state.rollups },
          decide ((state.batch log).length < projectPage)) := by
  rcases hbatch : state.batch log with _ | ⟨first, rest⟩
  · left
    refine ⟨?_, by rw [readPage, hbatch]; rfl⟩
    exact (take_eq_nil_iff.1 hbatch).resolve_left (by decide)
  · right
    have hlast := getLast?_eq_some_getLast (cons_ne_nil first rest)
    refine ⟨_, hlast, ?_⟩
    rw [readPage, hbatch, hlast]
    rfl

theorem Reflects.readPage (hlog : Ordered (·.eventId) log) (h : state.Reflects log) :
    (state.readPage log).1.Reflects log := by
  rcases readPage_cases log state with ⟨-, hread⟩ | ⟨last, hlast, hread⟩
  · rw [hread]
    exact h
  · rw [hread, Reflects, upTo_last hlog hlast, rollupOf, foldl_append, ← rollupOf, ← h]
    rfl

theorem after_of_ended (hlog : Ordered (·.eventId) log) (h : (state.readPage log).2 = true) :
    after (·.eventId) log (state.readPage log).1.cursor = [] := by
  rcases readPage_cases log state with ⟨hnone, hread⟩ | ⟨last, hlast, hread⟩
  · rw [hread]
    exact hnone
  · rw [hread] at h ⊢
    have hshort : (state.batch log).length < projectPage := of_decide_eq_true h
    rw [after_last hlog hlast]
    rw [batch, page, length_take] at hshort
    exact drop_eq_nil_of_le (by omega)

/-- A turn that does not end the loop leaves less of the log. -/
theorem after_of_not_ended (hlog : Ordered (·.eventId) log) (h : (state.readPage log).2 = false) :
    (after (·.eventId) log (state.readPage log).1.cursor).length <
      (after (·.eventId) log state.cursor).length := by
  rcases readPage_cases log state with ⟨-, hread⟩ | ⟨last, hlast, hread⟩
  · rw [hread] at h
    cases h
  · have hne : after (·.eventId) log state.cursor ≠ [] := by
      intro hnil
      rw [batch, page, hnil, take_nil] at hlast
      exact absurd hlast (by simp)
    have hpos := length_pos_iff.2 hne
    rw [hread, after_last hlog hlast, length_drop]
    exact Nat.sub_lt hpos (by decide)

/-- The loop ends, and what it ends with is the fold of the whole log. -/
theorem catchUp_reflects (hlog : Ordered (·.eventId) log) (turns : Nat)
    (h : state.Reflects log) (hturns : (after (·.eventId) log state.cursor).length < turns) :
    ∃ after, state.catchUp log turns = some after ∧ after.rollups = rollupOf .saturating log := by
  -- each turn leaves less of the log than there are turns left
  induction turns generalizing state with
  | zero => exact absurd hturns (Nat.not_lt_zero _)
  | succ turns ih =>
    have hnext := h.readPage hlog
    rw [catchUp]
    rcases hread : state.readPage log with ⟨next, _ | _⟩
    · have hless := after_of_not_ended hlog (congrArg Prod.snd hread)
      rw [hread] at hnext hless
      exact ih hnext (lt_of_lt_of_le hless (Nat.le_of_lt_succ hturns))
    · have hnone := after_of_ended hlog (congrArg Prod.snd hread)
      rw [hread] at hnext hnone
      refine ⟨next, rfl, hnext.trans (congrArg _ ?_)⟩
      have hwhole := upTo_append_after hlog next.cursor
      rwa [hnone, append_nil] at hwhole

end StoredRollups

/-! ## What a run keeps -/

namespace Projector

/-- The saved rollup and those of the passes in flight are folds of the log up to their cursors. -/
structure Faithful (projector : Projector) : Prop where
  ordered : Ordered (·.eventId) projector.log
  stored : projector.stored.Reflects projector.log
  passes : ∀ pass ∈ projector.passes, pass.state.Reflects projector.log

namespace Faithful

variable {projector : Projector}

theorem started : Projector.started.Faithful where
  ordered := List.Pairwise.nil
  stored := StoredRollups.fresh_reflects
  passes := fun _ hpass => absurd hpass not_mem_nil

theorem arrive (h : projector.Faithful) {event : RecordedEvent}
    (hahead : projector.ArrivesAhead (.arrive event)) :
    (projector.step (.arrive event)).Faithful := by
  rcases hahead with hknown | ⟨hstored, hpasses⟩
  · have hsame : projector.step (.arrive event) = projector := by
      rw [step, file_of_key_mem h.ordered hknown]
    rwa [hsame]
  · exact
      { ordered := h.ordered.file event
        stored := h.stored.file hstored
        passes := fun pass hpass => (h.passes pass hpass).file (hpasses pass hpass) }

theorem load (h : projector.Faithful) : (projector.step .load).Faithful where
  ordered := h.ordered
  stored := h.stored
  passes := by
    intro pass hpass
    rcases mem_append.1 hpass with hpass | hpass
    · exact h.passes pass hpass
    · obtain rfl := mem_singleton.1 hpass
      exact h.stored

theorem read (h : projector.Faithful) (i : Nat) : (projector.step (.read i)).Faithful := by
  rw [step]
  split
  case h_1 state hpass =>
    have hstate := (h.passes _ (mem_of_getElem? hpass)).readPage h.ordered
    exact
      { ordered := h.ordered
        stored := h.stored
        passes := Slots.forall_mem_set h.passes hstate }
  case h_2 => exact h

theorem save (h : projector.Faithful) (i : Nat) : (projector.step (.save i)).Faithful := by
  rw [step]
  split
  case h_1 state hpass =>
    exact
      { ordered := h.ordered
        stored := h.passes _ (mem_of_getElem? hpass)
        passes := fun pass hpass => h.passes pass (mem_of_mem_eraseIdx hpass) }
  case h_2 => exact h

theorem stop (h : projector.Faithful) (i : Nat) : (projector.step (.stop i)).Faithful where
  ordered := h.ordered
  stored := h.stored
  passes := fun pass hpass => h.passes pass (mem_of_mem_eraseIdx hpass)

theorem step (h : projector.Faithful) (call : ProjectorCall)
    (hahead : projector.ArrivesAhead call) :
    (projector.step call).Faithful := by
  cases call with
  | arrive => exact h.arrive hahead
  | load => exact h.load
  | read i => exact h.read i
  | save i => exact h.save i
  | stop i => exact h.stop i

/-- A pass run to its end saves the fold of the whole log. -/
theorem project (h : projector.Faithful) :
    ∃ after, projector.project = some after ∧ after.log = projector.log ∧
      after.stored.rollups = rollupOf .saturating projector.log := by
  have hturns : (after (·.eventId) projector.log projector.stored.cursor).length <
      projector.log.length + 1 := Nat.lt_succ_of_le (length_filter_le _ _)
  obtain ⟨after, hafter, hrollups⟩ := StoredRollups.catchUp_reflects h.ordered _ h.stored hturns
  exact ⟨{ projector with stored := after }, by rw [Projector.project, hafter]; rfl, rfl, hrollups⟩

end Faithful

/-- Where every event arrives ahead of the cursors, a last pass leaves what a fold of the whole log,
    in order of event ids, gives. -/
theorem last_pass_equals_rescan (calls : List ProjectorCall) (projector : Projector)
    (hrun : Run ArrivesAhead started calls projector) :
    Ordered (·.eventId) projector.log ∧
      ∃ after, projector.project = some after ∧ after.log = projector.log ∧
        after.stored.rollups = rollupOf .saturating projector.log := by
  have hfaithful : projector.Faithful := by
    refine hrun.invariant (I := Faithful) ?_ .started
    intro before call after h hahead hstep
    cases hstep
    exact h.step call hahead
  exact ⟨hfaithful.ordered, hfaithful.project⟩

/-- An event of the first trading day that no fold but the count of events reads. -/
def countedEvent (n : Nat) : RecordedEvent :=
  ⟨⟨n⟩, ⟨0⟩, ⟨0⟩, none, .unread "device.printer.offline"⟩

/-- Two passes overlap, the third event arrives before the second and arrives twice. -/
def aheadCalls : List ProjectorCall :=
  [.arrive (countedEvent 1), .load, .read 0, .load, .arrive (countedEvent 3), .save 0,
    .arrive (countedEvent 2), .arrive (countedEvent 3), .read 0]

theorem last_pass_equals_rescan_aheadCalls :
    ∃ projector, Run ArrivesAhead started aheadCalls projector ∧ projector.log.length = 3 ∧
      Ordered (·.eventId) projector.log ∧
      ∃ after, projector.project = some after ∧ after.log = projector.log ∧
        after.stored.rollups = rollupOf .saturating projector.log := by
  obtain ⟨projector, hrun, hlength⟩ : ∃ projector, Run ArrivesAhead started aheadCalls projector ∧
      projector.log.length = 3 :=
    ⟨_, Transition.run_of_allAllowed (by decide), by decide⟩
  exact ⟨projector, hrun, hlength, last_pass_equals_rescan _ _ hrun⟩

/-- The event with the lower id arrives after a pass has folded the one with the higher. -/
def lateCalls : List ProjectorCall :=
  [.arrive (countedEvent 2), .load, .read 0, .save 0, .arrive (countedEvent 1)]

/-- How many events a rollup counts on the first trading day. -/
def eventsCounted (rollups : Rollups) : Option Int :=
  rollups.days[(⟨0⟩ : BusinessDate)]?.map (·.totalEvents)

theorem lateCalls_never_folded :
    ∃ projector after, Run (fun _ _ => True) started lateCalls projector ∧
      projector.project = some after ∧
      eventsCounted after.stored.rollups = some 1 ∧
      eventsCounted (rollupOf .saturating projector.log) = some 2 ∧
      after.stored.rollups.days ≠ (rollupOf .saturating projector.log).days := by
  obtain ⟨projector, after, hrun, hproject, hstored, hrescan⟩ : ∃ projector after,
      Run (fun _ _ => True) started lateCalls projector ∧ projector.project = some after ∧
      eventsCounted after.stored.rollups = some 1 ∧
      eventsCounted (rollupOf .saturating projector.log) = some 2 :=
    ⟨_, _, Transition.run_of_allAllowed (by decide), rfl, by decide +kernel, by decide +kernel⟩
  refine ⟨projector, after, hrun, hproject, hstored, hrescan, fun hdays => ?_⟩
  have hsame : eventsCounted after.stored.rollups =
      eventsCounted (rollupOf .saturating projector.log) := by
    rw [eventsCounted, hdays, eventsCounted]
  rw [hstored, hrescan] at hsame
  exact absurd hsame (by decide)

end Projector

end PosFramework
