import PosFramework.Lib.Transition
import PosFramework.Printing.Queue

set_option autoImplicit false

/-! # Jobs in flight

A job that was handed out is in flight until it is acknowledged or its claim lapses. The claim keeps
a printer to one such job by leaving out the printers whose rows show a running claim, but it looks
only at rows of the same agent that have not expired: a claim that outlives its job, or a printer
with jobs for two agents, lets a second job out. -/

namespace PosFramework

open PrintJobs List

/-- A job that was handed out, and the agent it was handed to. -/
structure HandedOut where
  agent : DeviceId
  claim : ClaimedPrintJob
deriving DecidableEq

/-- The queue at an instant, and the jobs that were handed out and are not acknowledged. -/
structure PrintRoom where
  jobs : PrintJobs
  clock : Int
  handedOut : List HandedOut

/-- The operations of the queue. -/
inductive PrintOp
  | enqueue (job : QueuedPrintJob) (expiresAt : Int) (cap : Nat)
  /-- A claim until `ends`, with what its query answers. -/
  | claim (agent : DeviceId) (ends : Int) (picked : List PrintJobRow)
  | acknowledge (jobId : EventId) (agent : DeviceId)
  | expire

structure PrintCall where
  now : Int
  op : PrintOp

inductive PrintRefusal
  | clockWentBack
  /-- The query does not answer so. -/
  | notAnAnswer

namespace PrintRoom

def opened (clock : Int) : PrintRoom := ⟨.empty, clock, []⟩

/-- What an operation does. -/
def perform (room : PrintRoom) (now : Int) : PrintOp → Except PrintRefusal PrintRoom
  | .enqueue job expiresAt cap =>
    .ok ⟨(room.jobs.enqueuePrintJob job now expiresAt cap).1, now, room.handedOut⟩
  | .claim agent ends picked =>
    if room.jobs.Answers agent now picked then
      let (jobs, claimed) := room.jobs.claimPrintJobs ends picked
      .ok ⟨jobs, now, room.handedOut ++ claimed.map (HandedOut.mk agent)⟩
    else .error .notAnAnswer
  | .acknowledge jobId agent =>
    .ok ⟨(room.jobs.acknowledgePrintJob jobId agent).1, now,
      room.handedOut.filter fun out => ¬ (out.claim.jobId = jobId ∧ out.agent = agent)⟩
  | .expire => .ok ⟨(room.jobs.expirePrintJobs now).1, now, room.handedOut⟩

def step (call : PrintCall) (room : PrintRoom) : Except PrintRefusal PrintRoom :=
  if call.now < room.clock then .error .clockWentBack else room.perform call.now call.op

abbrev Run (allowed : PrintRoom → PrintCall → Prop) :
    PrintRoom → List PrintCall → PrintRoom → Prop :=
  Transition.Run step allowed

/-- The claim has been neither acknowledged nor lapsed. -/
def InFlight (room : PrintRoom) (instant : Int) (out : HandedOut) : Prop :=
  out ∈ room.handedOut ∧ instant < out.claim.claimExpiresAt

/-- Two jobs in flight for one printer are the same job. -/
def OneInFlight (room : PrintRoom) (instant : Int) : Prop :=
  ∀ out another : HandedOut, room.InFlight instant out → room.InFlight instant another →
    out.claim.printerDeviceId = another.claim.printerDeviceId →
      out.claim.jobId = another.claim.jobId

/-- A printer's queued jobs are for one agent, and no claim runs past the life of a job it may hand
    out. -/
def Orderly (room : PrintRoom) (call : PrintCall) : Prop :=
  match call.op with
  | .enqueue job _ _ => ∀ row ∈ room.jobs.rows, row.printerDeviceId = job.printerDeviceId →
      row.agentDeviceId = job.agentDeviceId
  | .claim agent ends _ => ∀ row ∈ room.jobs.claimable agent call.now, ends ≤ row.expiresAt
  | .acknowledge _ _ | .expire => True

instance (room : PrintRoom) : (call : PrintCall) → Decidable (room.Orderly call)
  | ⟨_, .enqueue job _ _⟩ => inferInstanceAs (Decidable (∀ row ∈ room.jobs.rows,
      row.printerDeviceId = job.printerDeviceId → row.agentDeviceId = job.agentDeviceId))
  | ⟨now, .claim agent ends _⟩ =>
    inferInstanceAs (Decidable (∀ row ∈ room.jobs.claimable agent now, ends ≤ row.expiresAt))
  | ⟨_, .acknowledge _ _⟩ | ⟨_, .expire⟩ => inferInstanceAs (Decidable True)

/-! ## What a run keeps -/

/-- The row that stands for a running claim. -/
def Covers (row : PrintJobRow) (out : HandedOut) : Prop :=
  row.jobId = out.claim.jobId ∧ row.printerDeviceId = out.claim.printerDeviceId ∧
    row.agentDeviceId = out.agent ∧ row.claimExpiresAt = some out.claim.claimExpiresAt ∧
    out.claim.claimExpiresAt ≤ row.expiresAt

/-- Every running claim shows in the queue, and a printer's rows are for one agent. -/
structure Guarded (room : PrintRoom) : Prop where
  covered : ∀ out, room.InFlight room.clock out → ∃ row ∈ room.jobs.rows, Covers row out
  oneAgent : ∀ row ∈ room.jobs.rows, ∀ another ∈ room.jobs.rows,
    row.printerDeviceId = another.printerDeviceId → row.agentDeviceId = another.agentDeviceId
  oneInFlight : room.OneInFlight room.clock

variable {room after : PrintRoom} {out : HandedOut}

theorem InFlight.earlier {instant later : Int} (h : room.InFlight later out)
    (hle : instant ≤ later) : room.InFlight instant out :=
  ⟨h.1, lt_of_le_of_lt hle h.2⟩

theorem guarded_opened (clock : Int) : (opened clock).Guarded where
  covered _ h := absurd h.1 not_mem_nil
  oneAgent _ h := absurd h not_mem_nil
  oneInFlight _ _ h := absurd h.1 not_mem_nil

/-- Jobs that leave the queue or are acknowledged, or time that passes, where the row of a claim
    that still runs stays. -/
theorem Guarded.shrink (h : room.Guarded) (hclock : room.clock ≤ after.clock)
    (hrows : ∀ row ∈ after.jobs.rows, row ∈ room.jobs.rows)
    (hout : ∀ out ∈ after.handedOut, out ∈ room.handedOut)
    (hstays : ∀ out, after.InFlight after.clock out → ∀ row ∈ room.jobs.rows, Covers row out →
      row ∈ after.jobs.rows) : after.Guarded := by
  have hearlier : ∀ out, after.InFlight after.clock out → room.InFlight room.clock out :=
    fun out hflight => InFlight.earlier ⟨hout out hflight.1, hflight.2⟩ hclock
  refine ⟨fun out hflight => ?_, fun row hrow another hanother =>
    h.oneAgent row (hrows row hrow) another (hrows another hanother),
    fun out another hflight hother =>
      h.oneInFlight out another (hearlier out hflight) (hearlier another hother)⟩
  obtain ⟨row, hrow, hcovers⟩ := h.covered out (hearlier out hflight)
  exact ⟨row, hstays out hflight row hrow hcovers, hcovers⟩

variable {now : Int} {agent : DeviceId}

/-- A job that is put on the queue. -/
theorem Guarded.enqueue (h : room.Guarded) (hclock : room.clock ≤ now)
    {job : QueuedPrintJob} {expiresAt : Int} {cap : Nat}
    (hagent : ∀ row ∈ room.jobs.rows, row.printerDeviceId = job.printerDeviceId →
      row.agentDeviceId = job.agentDeviceId) :
    Guarded ⟨(room.jobs.enqueuePrintJob job now expiresAt cap).1, now, room.handedOut⟩ := by
  rcases room.jobs.enqueuePrintJob_rows job now expiresAt cap with hsame | hnew
  · rw [hsame]
    exact h.shrink hclock (fun _ hrow => hrow) (fun _ hout => hout) fun _ _ _ hrow _ => hrow
  · refine ⟨fun out hflight => ?_, fun row hrow another hanother hprinter => ?_,
      fun out another hflight hother =>
        h.oneInFlight out another (InFlight.earlier hflight hclock)
          (InFlight.earlier hother hclock)⟩
    · obtain ⟨row, hrow, hcovers⟩ := h.covered out (InFlight.earlier hflight hclock)
      refine ⟨row, ?_, hcovers⟩
      rw [hnew]
      exact mem_append_left _ hrow
    · rw [hnew, mem_append, mem_singleton] at hrow hanother
      rcases hrow with hrow | rfl <;> rcases hanother with hanother | rfl
      · exact h.oneAgent row hrow another hanother hprinter
      · exact hagent row hrow hprinter
      · exact (hagent another hanother hprinter.symm).symm
      · rfl

/-- A claim that runs keeps its printer out of the next claim. -/
theorem Guarded.not_claimable (h : room.Guarded) (hclock : room.clock ≤ now)
    (hflight : room.InFlight now out) {row : PrintJobRow}
    (hrow : row ∈ room.jobs.claimable agent now) :
    row.printerDeviceId ≠ out.claim.printerDeviceId := by
  intro hprinter
  obtain ⟨held, hheld, -, hheldPrinter, -, hends, hlife⟩ := h.covered out (hflight.earlier hclock)
  obtain ⟨hmem, hagent, -, -, hidle⟩ := mem_claimable.1 hrow
  have hsame : held.printerDeviceId = row.printerDeviceId := hheldPrinter.trans hprinter.symm
  refine hidle (mem_busy.2 ⟨held, hheld, ⟨?_, ?_, ?_⟩, hsame⟩)
  · rw [h.oneAgent held hheld row hmem hsame, hagent]
  · exact lt_of_lt_of_le hflight.2 hlife
  · simp [PrintJobRow.claimRuns, hends, hflight.2]

/-- A claim. -/
theorem Guarded.claim (h : room.Guarded) (hclock : room.clock ≤ now)
    {ends : Int} {picked : List PrintJobRow} (hanswers : room.jobs.Answers agent now picked)
    (hlife : ∀ row ∈ room.jobs.claimable agent now, ends ≤ row.expiresAt) :
    Guarded ⟨(room.jobs.claimPrintJobs ends picked).1, now,
      room.handedOut ++ (room.jobs.claimPrintJobs ends picked).2.map (HandedOut.mk agent)⟩ := by
  have hnew : ∀ out, out ∈ (room.jobs.claimPrintJobs ends picked).2.map (HandedOut.mk agent) →
      ∃ row ∈ picked, out = ⟨agent, ⟨row.jobId, row.printerDeviceId, row.document, ends⟩⟩ := by
    intro out hout
    simp only [claimPrintJobs, map_map, mem_map, Function.comp_apply] at hout
    obtain ⟨row, hrow, rfl⟩ := hout
    exact ⟨row, hrow, rfl⟩
  -- a claim from before that still runs is not on a printer that is claimed now
  have hapart : ∀ out, room.InFlight now out → ∀ row ∈ picked,
      row.printerDeviceId ≠ out.claim.printerDeviceId := fun out hflight row hrow =>
    h.not_claimable hclock hflight (hanswers.claimable row hrow)
  refine ⟨fun out hflight => ?_, fun row hrow another hanother hprinter => ?_,
    fun out another hflight hother hprinter => ?_⟩
  · rcases mem_append.1 hflight.1 with hold | hout
    · have hruns : room.InFlight now out := ⟨hold, hflight.2⟩
      obtain ⟨row, hrow, hcovers⟩ := h.covered out (hruns.earlier hclock)
      refine ⟨row, ?_, hcovers⟩
      rw [claimPrintJobs_rows, mem_map]
      refine ⟨row, hrow, if_neg fun hid => ?_⟩
      obtain ⟨pick, hpick, hids⟩ := mem_map.1 hid
      have hpickRow := (mem_claimable.1 (hanswers.claimable pick hpick)).1
      have hsame : pick = row := eq_of_jobId_eq hpickRow hrow hids
      exact hapart out hruns pick hpick (hsame ▸ hcovers.2.1)
    · obtain ⟨row, hrow, rfl⟩ := hnew out hout
      obtain ⟨hmem, hagent, -⟩ := mem_claimable.1 (hanswers.claimable row hrow)
      refine ⟨{ row with claimExpiresAt := some ends }, ?_, rfl, rfl, hagent, rfl,
        hlife row (hanswers.claimable row hrow)⟩
      rw [claimPrintJobs_rows, mem_map]
      exact ⟨row, hmem, if_pos (mem_map_of_mem hrow)⟩
  · -- a claim changes neither printers nor agents
    have hbefore : ∀ row ∈ (room.jobs.claimPrintJobs ends picked).1.rows, ∃ before ∈ room.jobs.rows,
        row.printerDeviceId = before.printerDeviceId ∧
        row.agentDeviceId = before.agentDeviceId := by
      intro row hrow
      obtain ⟨before, hbefore, rfl | rfl⟩ := mem_claimPrintJobs hrow
      · exact ⟨row, hbefore, rfl, rfl⟩
      · exact ⟨before, hbefore, rfl, rfl⟩
    obtain ⟨rowBefore, hrowBefore, hp, ha⟩ := hbefore row hrow
    obtain ⟨anotherBefore, hanotherBefore, hp', ha'⟩ := hbefore another hanother
    rw [ha, ha']
    exact h.oneAgent rowBefore hrowBefore anotherBefore hanotherBefore
      (hp.symm.trans (hprinter.trans hp'))
  · rcases mem_append.1 hflight.1 with hold | hout <;>
      rcases mem_append.1 hother.1 with hold' | hout'
    · exact h.oneInFlight out another (InFlight.earlier ⟨hold, hflight.2⟩ hclock)
        (InFlight.earlier ⟨hold', hother.2⟩ hclock) hprinter
    · obtain ⟨row, hrow, rfl⟩ := hnew another hout'
      exact absurd hprinter.symm (hapart out ⟨hold, hflight.2⟩ row hrow)
    · obtain ⟨row, hrow, rfl⟩ := hnew out hout
      exact absurd hprinter (hapart another ⟨hold', hother.2⟩ row hrow)
    · obtain ⟨row, hrow, rfl⟩ := hnew out hout
      obtain ⟨row', hrow', rfl⟩ := hnew another hout'
      have hsame : row = row' := inj_on_of_nodup_map hanswers.onePerPrinter hrow hrow' hprinter
      rw [hsame]

/-- An acknowledgement. -/
theorem Guarded.acknowledge (h : room.Guarded) (hclock : room.clock ≤ now)
    (jobId : EventId) (agent : DeviceId) :
    Guarded ⟨(room.jobs.acknowledgePrintJob jobId agent).1, now,
      room.handedOut.filter fun out => ¬ (out.claim.jobId = jobId ∧ out.agent = agent)⟩ := by
  refine h.shrink hclock (fun row hrow => (mem_keep.1 hrow).1)
    (fun out hout => (mem_filter.1 hout).1) fun out hflight row hrow hcovers => ?_
  refine mem_keep.2 ⟨hrow, ?_⟩
  have hkept := (mem_filter.1 hflight.1).2
  obtain ⟨hid, -, hagent, -⟩ := hcovers
  simpa [hid, hagent] using hkept

theorem Guarded.expire (h : room.Guarded) (hclock : room.clock ≤ now) :
    Guarded ⟨(room.jobs.expirePrintJobs now).1, now, room.handedOut⟩ := by
  refine h.shrink hclock (fun row hrow => (mem_keep.1 hrow).1) (fun _ hout => hout)
    fun out hflight row hrow hcovers => mem_keep.2 ⟨hrow, ?_⟩
  exact decide_eq_true (lt_of_lt_of_le hflight.2 hcovers.2.2.2.2)

/-- One call keeps the printers to one job each. -/
theorem Guarded.step (h : room.Guarded) {call : PrintCall} (horderly : room.Orderly call)
    (hstep : step call room = .ok after) : after.Guarded := by
  unfold PrintRoom.step at hstep
  split at hstep
  · contradiction
  next hclock =>
    have hclock : room.clock ≤ call.now := not_lt.1 hclock
    obtain ⟨now, op⟩ := call
    cases op with
    | enqueue =>
      cases hstep
      exact h.enqueue hclock horderly
    | claim =>
      dsimp only [perform] at hstep
      split at hstep
      next hanswers =>
        cases hstep
        exact h.claim hclock hanswers horderly
      · contradiction
    | acknowledge jobId agent =>
      cases hstep
      exact h.acknowledge hclock jobId agent
    | expire =>
      cases hstep
      exact h.expire hclock

/-- As long as a printer's jobs are for one agent and no claim outlives a job, no two jobs of one
    printer are in flight at any instant. -/
theorem one_job_in_flight {clock : Int} {calls : List PrintCall}
    (hrun : Run Orderly (opened clock) calls after) {instant : Int}
    (hlater : after.clock ≤ instant) :
    after.OneInFlight instant := by
  have hguarded := hrun.invariant (I := Guarded) (fun _ _ _ h hallowed hone => h.step hallowed hone)
    (guarded_opened clock)
  intro out another hflight hother
  exact hguarded.oneInFlight out another (hflight.earlier hlater) (hother.earlier hlater)

/-- A job for the first printer and the first agent. -/
def sampleJob (id : Nat) : QueuedPrintJob := ⟨⟨id⟩, ⟨1⟩, ⟨1⟩, ⟨1⟩, "receipt"⟩

/-- Two jobs, of which the second is claimed after the first is acknowledged. -/
def orderlyCalls : List PrintCall :=
  [⟨0, .enqueue (sampleJob 1) 600000 200⟩, ⟨0, .enqueue (sampleJob 2) 600000 200⟩,
    ⟨1, .claim ⟨1⟩ 30001 [(sampleJob 1).row 0 600000]⟩, ⟨2, .acknowledge ⟨1⟩ ⟨1⟩⟩,
    ⟨3, .claim ⟨1⟩ 30003 [(sampleJob 2).row 0 600000]⟩]

theorem run_orderlyCalls : ∃ after, Run Orderly (opened 0) orderlyCalls after ∧
    after.clock = 3 ∧ after.handedOut.map (·.claim.jobId) = [⟨2⟩] :=
  ⟨_, .cons (by decide) rfl <| .cons (by decide) rfl <| .cons (by decide) rfl <|
    .cons (by decide) rfl <| .cons (by decide) rfl <| .nil _, rfl, rfl⟩

theorem one_job_in_flight_orderlyCalls : ∃ after, Run Orderly (opened 0) orderlyCalls after ∧
    after.handedOut.map (·.claim.jobId) = [⟨2⟩] ∧ after.OneInFlight 4 := by
  obtain ⟨after, hrun, hclock, hout⟩ := run_orderlyCalls
  exact ⟨after, hrun, hout, one_job_in_flight hrun (hclock ▸ by decide)⟩

/-- A drawer kick that lives five seconds and a receipt behind it, each claimed for thirty. -/
def overlappingCalls : List PrintCall :=
  [⟨0, .enqueue (sampleJob 1) 5000 200⟩, ⟨1, .enqueue (sampleJob 2) 600001 200⟩,
    ⟨2, .claim ⟨1⟩ 30002 [(sampleJob 1).row 0 5000]⟩,
    ⟨6000, .claim ⟨1⟩ 36000 [(sampleJob 2).row 1 600001]⟩]

/-- The kick's row has expired when its claim still runs, and the receipt is handed out beside
    it. -/
theorem overlappingCalls_two_in_flight : ∃ after,
    Run (fun _ _ => True) (opened 0) overlappingCalls after ∧ ¬ after.OneInFlight after.clock := by
  refine ⟨_, .cons trivial rfl <| .cons trivial rfl <| .cons trivial rfl <| .cons trivial rfl <|
    .nil _, fun h => ?_⟩
  have hsame := h ⟨⟨1⟩, ⟨⟨1⟩, ⟨1⟩, "receipt", 30002⟩⟩ ⟨⟨1⟩, ⟨⟨2⟩, ⟨1⟩, "receipt", 36000⟩⟩
    ⟨by decide, by decide⟩ ⟨by decide, by decide⟩ rfl
  exact absurd hsame (by decide)

end PrintRoom

end PosFramework
