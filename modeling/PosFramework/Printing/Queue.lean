import PosFramework.Proto.Ids

set_option autoImplicit false

/-! # The print queue

The edge renders a job and a print agent puts its bytes on paper. In between stands the table
`print_jobs`: an agent claims the oldest job of each of its printers for a while, and says the job's
id back when it is written. A job that nobody claims in time is deleted. -/

namespace PosFramework

open List

/-- A row of `print_jobs`. The three instants are Unix milliseconds. -/
structure PrintJobRow where
  jobId : EventId
  storeId : StoreId
  printerDeviceId : DeviceId
  agentDeviceId : DeviceId
  document : String
  queuedAt : Int
  expiresAt : Int
  claimExpiresAt : Option Int
deriving DecidableEq

/-- The table, whose primary key is the job's id. -/
structure PrintJobs where
  rows : List PrintJobRow
  keyed : (rows.map PrintJobRow.jobId).Nodup

namespace PrintJobs

def empty : PrintJobs := ⟨[], List.nodup_nil⟩

/-- Rows that are deleted take their ids with them. -/
def keep (jobs : PrintJobs) (kept : PrintJobRow → Bool) : PrintJobs :=
  ⟨jobs.rows.filter kept, jobs.keyed.sublist (filter_sublist.map _)⟩

end PrintJobs

/-! ## Putting a job on the queue -/

structure QueuedPrintJob where
  jobId : EventId
  storeId : StoreId
  printerDeviceId : DeviceId
  agentDeviceId : DeviceId
  document : String

/-- What an enqueue answers. -/
inductive PrintEnqueue
  | queued
  | queueFull
  | alreadyQueued

/-- The row a job is inserted as. -/
def QueuedPrintJob.row (job : QueuedPrintJob) (queuedAt expiresAt : Int) : PrintJobRow :=
  { jobId := job.jobId
    storeId := job.storeId
    printerDeviceId := job.printerDeviceId
    agentDeviceId := job.agentDeviceId
    document := job.document
    queuedAt := queuedAt
    expiresAt := expiresAt
    claimExpiresAt := none }

namespace PrintJobs

/-- A job is queued, once, and while the printer's queue has room. -/
def enqueuePrintJob (jobs : PrintJobs) (job : QueuedPrintJob) (queuedAt expiresAt : Int)
    (cap : Nat) : PrintJobs × PrintEnqueue :=
  -- the cap counts the printer's unexpired rows, whichever agent they are for
  let queued := jobs.rows.countP fun row =>
    row.printerDeviceId = job.printerDeviceId ∧ queuedAt < row.expiresAt
  if cap ≤ queued then (jobs, .queueFull)
  else if h : job.jobId ∈ jobs.rows.map PrintJobRow.jobId then (jobs, .alreadyQueued)
  else
    (⟨jobs.rows ++ [job.row queuedAt expiresAt], by
      rw [map_append]
      refine jobs.keyed.append (nodup_singleton _) fun id hid hnew => ?_
      rw [map_singleton, mem_singleton] at hnew
      subst hnew
      exact h hid⟩, .queued)

/-! ## Claiming -/

end PrintJobs

/-- `claim_expires_at > now`, which is not true of a row that nobody has claimed. -/
def PrintJobRow.claimRuns (row : PrintJobRow) (now : Int) : Bool :=
  row.claimExpiresAt.any fun ends => decide (now < ends)

/-- A job as an agent gets it. -/
structure ClaimedPrintJob where
  jobId : EventId
  printerDeviceId : DeviceId
  document : String
  claimExpiresAt : Int
deriving DecidableEq

namespace PrintJobs

/-- The printers the agent has a running claim on: the subquery of the claim. -/
def busy (jobs : PrintJobs) (agent : DeviceId) (now : Int) : List DeviceId :=
  (jobs.rows.filter fun row =>
    row.agentDeviceId = agent ∧ now < row.expiresAt ∧ row.claimRuns now).map
    PrintJobRow.printerDeviceId

/-- The rows the claim's query groups by printer. -/
def claimable (jobs : PrintJobs) (agent : DeviceId) (now : Int) : List PrintJobRow :=
  jobs.rows.filter fun row =>
    row.agentDeviceId = agent ∧ now < row.expiresAt ∧ ¬ row.claimRuns now ∧
      row.printerDeviceId ∉ jobs.busy agent now

/-- What the claim's query may answer: one row of each group, which attains the group's minimum.
    Which of several such rows it is, the database decides. -/
structure Answers (jobs : PrintJobs) (agent : DeviceId) (now : Int)
    (picked : List PrintJobRow) : Prop where
  claimable : ∀ row ∈ picked, row ∈ jobs.claimable agent now
  oldest : ∀ row ∈ picked, ∀ another ∈ jobs.claimable agent now,
    another.printerDeviceId = row.printerDeviceId → row.queuedAt ≤ another.queuedAt
  onePerPrinter : (picked.map PrintJobRow.printerDeviceId).Nodup
  everyPrinter : ∀ row ∈ jobs.claimable agent now,
    row.printerDeviceId ∈ picked.map PrintJobRow.printerDeviceId

instance (jobs : PrintJobs) (agent : DeviceId) (now : Int) (picked : List PrintJobRow) :
    Decidable (jobs.Answers agent now picked) :=
  decidable_of_iff
    ((∀ row ∈ picked, row ∈ jobs.claimable agent now) ∧
      (∀ row ∈ picked, ∀ another ∈ jobs.claimable agent now,
        another.printerDeviceId = row.printerDeviceId → row.queuedAt ≤ another.queuedAt) ∧
      (picked.map PrintJobRow.printerDeviceId).Nodup ∧
      ∀ row ∈ jobs.claimable agent now,
        row.printerDeviceId ∈ picked.map PrintJobRow.printerDeviceId)
    ⟨fun h => ⟨h.1, h.2.1, h.2.2.1, h.2.2.2⟩, fun h => ⟨h.1, h.2, h.3, h.4⟩⟩

end PrintJobs

/-- The row with its claim set, if it is the one that is claimed. -/
def PrintJobRow.leased (row : PrintJobRow) (jobId : EventId) (ends : Int) : PrintJobRow :=
  if row.jobId = jobId then { row with claimExpiresAt := some ends } else row

theorem PrintJobRow.jobId_leased (row : PrintJobRow) (jobId : EventId) (ends : Int) :
    (row.leased jobId ends).jobId = row.jobId := by
  unfold leased
  split <;> rfl

namespace PrintJobs

/-- The claim of one row. -/
def lease (jobs : PrintJobs) (jobId : EventId) (ends : Int) : PrintJobs :=
  ⟨jobs.rows.map (·.leased jobId ends), by
    rw [map_map]
    have hids : PrintJobRow.jobId ∘ (·.leased jobId ends) = PrintJobRow.jobId :=
      funext fun row => row.jobId_leased jobId ends
    rw [hids]
    exact jobs.keyed⟩

/-- One claim, where the query answered `picked`. -/
def claimPrintJobs (jobs : PrintJobs) (ends : Int) (picked : List PrintJobRow) :
    PrintJobs × List ClaimedPrintJob :=
  (picked.foldl (fun jobs row => jobs.lease row.jobId ends) jobs,
    picked.map fun row =>
      { jobId := row.jobId
        printerDeviceId := row.printerDeviceId
        document := row.document
        claimExpiresAt := ends })

/-! ## Taking jobs off the queue -/

/-- Delete an acknowledged job, and say whether it was still there. -/
def acknowledgePrintJob (jobs : PrintJobs) (jobId : EventId) (agent : DeviceId) :
    PrintJobs × Bool :=
  let acknowledged := fun row : PrintJobRow =>
    decide (row.jobId = jobId ∧ row.agentDeviceId = agent)
  (jobs.keep fun row => !acknowledged row, jobs.rows.any acknowledged)

/-- Delete every job past its time, and say how many. -/
def expirePrintJobs (jobs : PrintJobs) (now : Int) : PrintJobs × Nat :=
  (jobs.keep fun row => decide (now < row.expiresAt),
    jobs.rows.countP fun row => row.expiresAt ≤ now)

/-! ## What each operation leaves -/

variable {jobs : PrintJobs} {row another : PrintJobRow} {agent : DeviceId}
  {picked : List PrintJobRow} {now : Int}

theorem mem_keep {kept : PrintJobRow → Bool} :
    row ∈ (jobs.keep kept).rows ↔ row ∈ jobs.rows ∧ kept row = true := mem_filter

theorem eq_of_jobId_eq (hrow : row ∈ jobs.rows)
    (hanother : another ∈ jobs.rows) (hid : row.jobId = another.jobId) : row = another :=
  inj_on_of_nodup_map jobs.keyed hrow hanother hid

/-- A job that is put on the queue is a new last row; a refused one leaves the queue as it was. -/
theorem enqueuePrintJob_rows (jobs : PrintJobs) (job : QueuedPrintJob) (queuedAt expiresAt : Int)
    (cap : Nat) :
    (jobs.enqueuePrintJob job queuedAt expiresAt cap).1 = jobs ∨
      (jobs.enqueuePrintJob job queuedAt expiresAt cap).1.rows =
        jobs.rows ++ [job.row queuedAt expiresAt] := by
  unfold enqueuePrintJob
  dsimp only
  split
  · exact .inl rfl
  · split
    · exact .inl rfl
    · exact .inr rfl

theorem mem_claimable :
    row ∈ jobs.claimable agent now ↔
      row ∈ jobs.rows ∧ row.agentDeviceId = agent ∧ now < row.expiresAt ∧ ¬ row.claimRuns now ∧
        row.printerDeviceId ∉ jobs.busy agent now := by
  simp [claimable, mem_filter]

theorem mem_busy {printer : DeviceId} :
    printer ∈ jobs.busy agent now ↔
      ∃ row ∈ jobs.rows, (row.agentDeviceId = agent ∧ now < row.expiresAt ∧ row.claimRuns now) ∧
        row.printerDeviceId = printer := by
  simp [busy, mem_map, mem_filter, and_assoc]

/-- Of a printer that is not busy, every unexpired row of the agent can be claimed. -/
theorem Answers.queuedAt_le
    (h : jobs.Answers agent now picked) (hrow : row ∈ picked)
    (hanother : another ∈ jobs.rows) (hagent : another.agentDeviceId = agent)
    (hfresh : now < another.expiresAt) (hprinter : another.printerDeviceId = row.printerDeviceId) :
    row.queuedAt ≤ another.queuedAt := by
  have hidle := (mem_claimable.1 (h.claimable row hrow)).2.2.2.2
  refine h.oldest row hrow another (mem_claimable.2 ⟨hanother, hagent, hfresh, ?_, ?_⟩) hprinter
  · intro hruns
    exact hidle (mem_busy.2 ⟨another, hanother, ⟨hagent, hfresh, hruns⟩, hprinter⟩)
  · rwa [hprinter]

/-- After a claim a row is as it was but for the end of its claim. -/
theorem claimPrintJobs_rows (jobs : PrintJobs) (ends : Int) (picked : List PrintJobRow) :
    (jobs.claimPrintJobs ends picked).1.rows = jobs.rows.map fun row =>
      if row.jobId ∈ picked.map PrintJobRow.jobId then { row with claimExpiresAt := some ends }
      else row := by
  unfold claimPrintJobs
  induction picked generalizing jobs with
  | nil => simp
  | cons pick rest ih =>
    rw [foldl_cons, ih]
    show List.map _ (jobs.rows.map (·.leased pick.jobId ends)) = _
    rw [map_map]
    refine map_congr_left fun row _ => ?_
    rw [Function.comp_apply, row.jobId_leased, PrintJobRow.leased]
    by_cases hpick : row.jobId = pick.jobId
    · simp [hpick]
    · simp [hpick]

theorem mem_claimPrintJobs {ends : Int} (h : row ∈ (jobs.claimPrintJobs ends picked).1.rows) :
    ∃ before ∈ jobs.rows, row = before ∨ row = { before with claimExpiresAt := some ends } := by
  rw [claimPrintJobs_rows, mem_map] at h
  obtain ⟨before, hbefore, rfl⟩ := h
  refine ⟨before, hbefore, ?_⟩
  split
  · exact .inr rfl
  · exact .inl rfl

end PrintJobs

end PosFramework
