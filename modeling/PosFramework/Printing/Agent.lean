import PosFramework.Lib.Fallible
import PosFramework.Lib.Keyed
import PosFramework.Lib.Transition
import PosFramework.Printing.InFlight

set_option autoImplicit false

/-! # The print agent

An agent claims the jobs of its printers, writes each, records it, and acknowledges it. An
acknowledgement may be lost, and then the queue hands the job out again; the record tells the agent
that it is on paper already. The record keeps one job per printer, the last. That is enough as long
as the queue hands back the job that was handed out last, which it does unless two jobs of a printer
were queued in the same millisecond. -/

namespace PosFramework

open PrintJobs Fallible List

/-- The last job written on each printer. -/
structure LastWritten where
  byPrinter : Std.ExtTreeMap DeviceId EventId

namespace LastWritten

def alreadyWritten (written : LastWritten) (printer : DeviceId) (job : EventId) : Bool :=
  written.byPrinter[printer]?.any fun last => last = job

def record (written : LastWritten) (printer : DeviceId) (job : EventId) : LastWritten :=
  ⟨written.byPrinter.insert printer job⟩

theorem alreadyWritten_iff {written : LastWritten} {printer : DeviceId} {job : EventId} :
    written.alreadyWritten printer job = true ↔ written.byPrinter[printer]? = some job := by
  unfold alreadyWritten
  cases written.byPrinter[printer]? <;> simp

end LastWritten

/-- Where an agent is in its cycle. The record is on disk; the rest is lost in a restart. -/
structure PrintAgent where
  written : LastWritten
  /-- The leased jobs that are not handled yet. -/
  leased : List ClaimedPrintJob
  acknowledging : Option EventId

/-- A queue and one agent, with the jobs that were ever enqueued and those that are on paper. -/
structure PrintShop where
  room : PrintRoom
  agent : PrintAgent
  enqueued : List EventId
  printed : List (DeviceId × EventId)

/-- What happens next: a call on the queue by anyone else, or a step of the agent's cycle. -/
inductive ShopCall
  | queue (call : PrintCall)
  | claim (now ends : Int) (picked : List PrintJobRow)
  /-- The next leased job, and whether its printer takes it. -/
  | write (taken : Bool)
  | acknowledge (now : Int) (arrives : Bool)
  | restart

inductive ShopRefusal
  | queue (refusal : PrintRefusal)
  /-- The call is the agent's own. -/
  | agentsCall
  /-- The agent is elsewhere in its cycle. -/
  | outOfTurn

/-- The agent that makes a call on the queue. -/
def PrintOp.caller : PrintOp → Option DeviceId
  | .claim agent _ _ | .acknowledge _ agent => some agent
  | .enqueue _ _ _ | .expire => none

/-- The job a call puts on the queue. -/
def PrintOp.offered : PrintOp → List EventId
  | .enqueue job _ _ => [job.jobId]
  | .claim _ _ _ | .acknowledge _ _ | .expire => []

namespace PrintShop

def opened (clock : Int) (written : LastWritten) : PrintShop :=
  ⟨.opened clock, ⟨written, [], none⟩, [], []⟩

/-- The room after a call. -/
def onQueue (shop : PrintShop) (call : PrintCall) : Except ShopRefusal PrintRoom :=
  match shop.room.step call with
  | .ok room => .ok room
  | .error refusal => .error (.queue refusal)

section

variable (me : DeviceId)

/-- One step of `one_cycle`, or of the queue between two of its steps. -/
def step (call : ShopCall) (shop : PrintShop) : Except ShopRefusal PrintShop :=
  match call with
  | .queue call =>
    if call.op.caller = some me then .error .agentsCall
    else do
      let room ← shop.onQueue call
      pure { shop with room := room, enqueued := call.op.offered ++ shop.enqueued }
  | .claim now ends picked =>
    match shop.agent.leased, shop.agent.acknowledging with
    | [], none => do
      let room ← shop.onQueue ⟨now, .claim me ends picked⟩
      pure { shop with
        room := room
        agent := { shop.agent with leased := (shop.room.jobs.claimPrintJobs ends picked).2 } }
    | _, _ => .error .outOfTurn
  | .write taken =>
    match shop.agent.leased, shop.agent.acknowledging with
    | job :: rest, none =>
      -- a redelivery after a lost acknowledgement is acknowledged and not printed
      if shop.agent.written.alreadyWritten job.printerDeviceId job.jobId then
        .ok { shop with agent := ⟨shop.agent.written, rest, some job.jobId⟩ }
      else if taken then
        -- no restart comes between the write and the record
        .ok { shop with
          agent := ⟨shop.agent.written.record job.printerDeviceId job.jobId, rest,
            some job.jobId⟩
          printed := (job.printerDeviceId, job.jobId) :: shop.printed }
      else .ok { shop with agent := ⟨shop.agent.written, rest, none⟩ }
    | _, _ => .error .outOfTurn
  | .acknowledge now arrives =>
    match shop.agent.acknowledging with
    | some jobId =>
      if arrives then do
        let room ← shop.onQueue ⟨now, .acknowledge jobId me⟩
        pure { shop with room := room, agent := { shop.agent with acknowledging := none } }
      else .ok { shop with agent := { shop.agent with acknowledging := none } }
    | none => .error .outOfTurn
  | .restart => .ok { shop with agent := ⟨shop.agent.written, [], none⟩ }

abbrev Run (allowed : PrintShop → ShopCall → Prop) : PrintShop → List ShopCall → PrintShop → Prop :=
  Transition.Run (step me) allowed

end

/-- A job is enqueued under an id that no job had before. -/
def FreshIds (shop : PrintShop) : ShopCall → Prop
  | .queue ⟨_, .enqueue job _ _⟩ => job.jobId ∉ shop.enqueued
  | _ => True

/-- A job is enqueued at an instant after that of every unexpired job its agent has queued for the
    printer. -/
def LaterThanQueued (shop : PrintShop) : ShopCall → Prop
  | .queue ⟨now, .enqueue job _ _⟩ => ∀ row ∈ shop.room.jobs.rows,
      row.printerDeviceId = job.printerDeviceId → row.agentDeviceId = job.agentDeviceId →
      now < row.expiresAt → row.queuedAt < now
  | _ => True

instance (shop : PrintShop) : (call : ShopCall) → Decidable (shop.FreshIds call)
  | .queue ⟨_, .enqueue job _ _⟩ => inferInstanceAs (Decidable (job.jobId ∉ shop.enqueued))
  | .queue ⟨_, .claim _ _ _⟩ | .queue ⟨_, .acknowledge _ _⟩ | .queue ⟨_, .expire⟩ | .claim _ _ _
  | .write _ | .acknowledge _ _ | .restart => inferInstanceAs (Decidable True)

instance (shop : PrintShop) : (call : ShopCall) → Decidable (shop.LaterThanQueued call)
  | .queue ⟨now, .enqueue job _ _⟩ => inferInstanceAs (Decidable (∀ row ∈ shop.room.jobs.rows,
      row.printerDeviceId = job.printerDeviceId → row.agentDeviceId = job.agentDeviceId →
      now < row.expiresAt → row.queuedAt < now))
  | .queue ⟨_, .claim _ _ _⟩ | .queue ⟨_, .acknowledge _ _⟩ | .queue ⟨_, .expire⟩ | .claim _ _ _
  | .write _ | .acknowledge _ _ | .restart => inferInstanceAs (Decidable True)

end PrintShop

/-! ## The jobs that can still be handed out -/

namespace PrintRoom

/-- The agent has a job on the queue that is not expired at the instant. -/
def WaitsAt (room : PrintRoom) (instant : Int) (me printer : DeviceId) (job : EventId)
    (queuedAt : Int) : Prop :=
  ∃ row ∈ room.jobs.rows, row.agentDeviceId = me ∧ instant < row.expiresAt ∧
    row.printerDeviceId = printer ∧ row.jobId = job ∧ row.queuedAt = queuedAt

/-- The agent has an unexpired job on the queue. -/
abbrev Waits (room : PrintRoom) : DeviceId → DeviceId → EventId → Int → Prop :=
  room.WaitsAt room.clock

variable {room after : PrintRoom} {me printer : DeviceId} {job : EventId} {queuedAt instant : Int}

theorem WaitsAt.earlier {later : Int} (h : room.WaitsAt later me printer job queuedAt)
    (hle : instant ≤ later) : room.WaitsAt instant me printer job queuedAt := by
  obtain ⟨row, hrow, hagent, hlife, hrest⟩ := h
  exact ⟨row, hrow, hagent, lt_of_le_of_lt hle hlife, hrest⟩

/-- Where every row is one from before, but perhaps for the end of its claim, nothing waits that did
    not. -/
theorem WaitsAt.of_rows (h : after.WaitsAt instant me printer job queuedAt)
    (hrows : ∀ row ∈ after.jobs.rows, ∃ before ∈ room.jobs.rows, ∃ claim : Option Int,
      row = { before with claimExpiresAt := claim }) :
    room.WaitsAt instant me printer job queuedAt := by
  obtain ⟨row, hrow, hagent, hlife, hprinter, hid, hqueued⟩ := h
  obtain ⟨before, hbefore, claim, rfl⟩ := hrows row hrow
  exact ⟨before, hbefore, hagent, hlife, hprinter, hid, hqueued⟩

/-- A call is made at the instant it names, which is not in the past. -/
theorem clock_step {call : PrintCall} (hstep : step call room = .ok after) :
    room.clock ≤ call.now ∧ after.clock = call.now := by
  unfold step at hstep
  split at hstep
  · contradiction
  next hclock =>
    refine ⟨not_lt.1 hclock, ?_⟩
    obtain ⟨now, op⟩ := call
    cases op with
    | enqueue => cases hstep; rfl
    | claim =>
      dsimp only [perform] at hstep
      split at hstep
      · cases hstep; rfl
      · contradiction
    | acknowledge => cases hstep; rfl
    | expire => cases hstep; rfl

/-- After a call such jobs wait as did before and are not expired, and the one it has enqueued. -/
theorem waits_step {call : PrintCall} (hstep : step call room = .ok after)
    (h : after.Waits me printer job queuedAt) :
    room.WaitsAt call.now me printer job queuedAt ∨
      ∃ (queued : QueuedPrintJob) (expiresAt : Int) (cap : Nat),
        call.op = .enqueue queued expiresAt cap ∧ queued.agentDeviceId = me ∧
          queued.printerDeviceId = printer ∧ queued.jobId = job ∧ queuedAt = call.now := by
  unfold step at hstep
  split at hstep
  · contradiction
  · obtain ⟨now, op⟩ := call
    cases op with
    | enqueue queued expiresAt cap =>
      cases hstep
      obtain ⟨row, hrow, hagent, hlife, hprinter, hid, hqueued⟩ := h
      have hold : row ∈ room.jobs.rows → room.WaitsAt now me printer job queuedAt := fun hmem =>
        ⟨row, hmem, hagent, hlife, hprinter, hid, hqueued⟩
      rcases room.jobs.enqueuePrintJob_rows queued now expiresAt cap with hsame | hnew
      · exact .inl (hold (hsame ▸ hrow))
      · rw [hnew, mem_append, mem_singleton] at hrow
        rcases hrow with hmem | rfl
        · exact .inl (hold hmem)
        · exact .inr ⟨queued, expiresAt, cap, rfl, hagent, hprinter, hid, hqueued.symm⟩
    | claim agent ends picked =>
      dsimp only [perform] at hstep
      split at hstep
      · cases hstep
        refine .inl (h.of_rows fun row hrow => ?_)
        obtain ⟨before, hbefore, rfl | rfl⟩ := mem_claimPrintJobs hrow
        · exact ⟨row, hbefore, row.claimExpiresAt, rfl⟩
        · exact ⟨before, hbefore, some ends, rfl⟩
      · contradiction
    | acknowledge =>
      cases hstep
      exact .inl (h.of_rows fun row hrow =>
        ⟨row, (mem_keep.1 hrow).1, row.claimExpiresAt, rfl⟩)
    | expire =>
      cases hstep
      exact .inl (h.of_rows fun row hrow =>
        ⟨row, (mem_keep.1 hrow).1, row.claimExpiresAt, rfl⟩)

theorem answers_of_step {now ends : Int} {picked : List PrintJobRow}
    (hstep : step ⟨now, .claim me ends picked⟩ room = .ok after) :
    room.jobs.Answers me now picked := by
  unfold step at hstep
  split at hstep
  · contradiction
  · dsimp only [perform] at hstep
    split at hstep
    · assumption
    · contradiction

/-- The job, if it waits, is the oldest of its printer's. -/
def Oldest (room : PrintRoom) (me printer : DeviceId) (job : EventId) : Prop :=
  ∀ queuedAt, room.Waits me printer job queuedAt → ∀ another queuedAt',
    room.Waits me printer another queuedAt' → another ≠ job → queuedAt < queuedAt'

/-- A job that a claim may hand out is the oldest of its printer's, where no two are of an age. -/
theorem oldest_of_answers {now ends : Int} {picked : List PrintJobRow} {pick : PrintJobRow}
    (hstep : step ⟨now, .claim me ends picked⟩ room = .ok after)
    (hanswers : room.jobs.Answers me now picked) (hpick : pick ∈ picked)
    (hapart : ∀ job queuedAt another queuedAt', room.Waits me pick.printerDeviceId job queuedAt →
      room.Waits me pick.printerDeviceId another queuedAt' → job ≠ another → queuedAt ≠ queuedAt') :
    after.Oldest me pick.printerDeviceId pick.jobId := by
  have hclock : room.clock ≤ now := (clock_step hstep).1
  intro queuedAt hwaits another queuedAt' hanother hne
  rcases waits_step hstep hwaits with hwaits | ⟨_, _, _, hop, _⟩
  · rcases waits_step hstep hanother with hanother | ⟨_, _, _, hop, _⟩
    · have hdiffer := hapart _ _ _ _ (hwaits.earlier hclock) (hanother.earlier hclock) hne.symm
      obtain ⟨row, hrow, -, -, -, hid, rfl⟩ := hwaits
      obtain ⟨row', hrow', hagent', hlife', hprinter', -, rfl⟩ := hanother
      have hmem := (mem_claimable.1 (hanswers.claimable pick hpick)).1
      obtain rfl : row = pick := eq_of_jobId_eq hrow hmem hid
      exact lt_of_le_of_ne (hanswers.queuedAt_le hpick hrow' hagent' hlife' hprinter') hdiffer
    · contradiction
  · contradiction

end PrintRoom

/-! ## What a run keeps -/

namespace PrintShop

open PrintRoom

/-- A job on paper that can still be handed out is its printer's oldest and the one on record; and
    of the printer of a leased job no other job on paper can be handed out. -/
structure Settled (me : DeviceId) (shop : PrintShop) : Prop where
  waitsKnown : ∀ printer job queuedAt, shop.room.Waits me printer job queuedAt →
    job ∈ shop.enqueued
  printedKnown : ∀ printer job, (printer, job) ∈ shop.printed → job ∈ shop.enqueued
  leasedKnown : ∀ claim ∈ shop.agent.leased, claim.jobId ∈ shop.enqueued
  apart : ∀ printer job queuedAt another queuedAt', shop.room.Waits me printer job queuedAt →
    shop.room.Waits me printer another queuedAt' → job ≠ another → queuedAt ≠ queuedAt'
  printedOldest : ∀ printer job, (printer, job) ∈ shop.printed → shop.room.Oldest me printer job
  printedRecorded : ∀ printer job queuedAt, (printer, job) ∈ shop.printed →
    shop.room.Waits me printer job queuedAt → shop.agent.written.byPrinter[printer]? = some job
  leasedOldest : ∀ claim ∈ shop.agent.leased,
    shop.room.Oldest me claim.printerDeviceId claim.jobId
  leasedRecorded : ∀ claim ∈ shop.agent.leased,
    (claim.printerDeviceId, claim.jobId) ∈ shop.printed →
    shop.agent.written.byPrinter[claim.printerDeviceId]? = some claim.jobId
  leasedAlone : ∀ claim ∈ shop.agent.leased, ∀ job, (claim.printerDeviceId, job) ∈ shop.printed →
    job ≠ claim.jobId → ∀ queuedAt, ¬ shop.room.Waits me claim.printerDeviceId job queuedAt
  onePerPrinter : (shop.agent.leased.map ClaimedPrintJob.printerDeviceId).Nodup
  once : shop.printed.Nodup

variable {me : DeviceId} {shop after : PrintShop} {room : PrintRoom} {rest : List ClaimedPrintJob}
  {job : ClaimedPrintJob}

theorem settled_opened (me : DeviceId) (clock : Int) (written : LastWritten) :
    (opened clock written).Settled me := by
  have hidle : ∀ printer job queuedAt,
      ¬ (opened clock written).room.Waits me printer job queuedAt :=
    fun _ _ _ ⟨_, hrow, _⟩ => absurd hrow not_mem_nil
  exact ⟨fun _ _ _ h => absurd h (hidle _ _ _), fun _ _ h => absurd h not_mem_nil,
    fun _ h => absurd h not_mem_nil, fun _ _ _ _ _ h => absurd h (hidle _ _ _),
    fun _ _ h => absurd h not_mem_nil, fun _ _ _ h => absurd h not_mem_nil,
    fun _ h => absurd h not_mem_nil, fun _ h => absurd h not_mem_nil,
    fun _ h => absurd h not_mem_nil, nodup_nil, nodup_nil⟩

/-- What waits after a call on the queue waited before, or is a job that nobody has known and that
    is later than all that wait for the printer. -/
theorem waits_onRoom {call : PrintCall}
    (hstep : shop.room.step call = .ok room) (hfresh : shop.FreshIds (.queue call))
    (hlater : shop.LaterThanQueued (.queue call)) {printer : DeviceId} {job : EventId}
    {queuedAt : Int} (hwaits : room.Waits me printer job queuedAt) :
    shop.room.Waits me printer job queuedAt ∨
      (job ∈ call.op.offered ∧ job ∉ shop.enqueued ∧
        ∀ another queuedAt', room.Waits me printer another queuedAt' → another ≠ job →
          shop.room.Waits me printer another queuedAt' ∧ queuedAt' < queuedAt) := by
  have hclock := (clock_step hstep).1
  rcases waits_step hstep hwaits with hwaits | ⟨queued, expiresAt, cap, hop, hme, rfl, rfl, rfl⟩
  · exact .inl (hwaits.earlier hclock)
  · obtain ⟨now, op⟩ := call
    subst hop
    refine .inr ⟨mem_singleton_self _, hfresh, fun another queuedAt' hanother hne => ?_⟩
    rcases waits_step hstep hanother with hanother | ⟨_, _, _, hop, _, _, rfl, _⟩
    · refine ⟨hanother.earlier hclock, ?_⟩
      obtain ⟨row, hrow, hagent, hlife, hprinter, -, rfl⟩ := hanother
      exact hlater row hrow hprinter (hagent.trans hme.symm) hlife
    · cases hop
      exact absurd rfl hne

/-- A call on the queue, whoever makes it. -/
theorem Settled.onRoom (h : shop.Settled me) {call : PrintCall}
    (hstep : shop.room.step call = .ok room)
    (hfresh : shop.FreshIds (.queue call)) (hlater : shop.LaterThanQueued (.queue call)) :
    Settled me { shop with room := room, enqueued := call.op.offered ++ shop.enqueued } := by
  have hcases : ∀ {printer job queuedAt}, room.Waits me printer job queuedAt → _ :=
    fun {_ _ _} hwaits => waits_onRoom hstep hfresh hlater hwaits
  -- a job that is known and waits has waited before
  have hknown : ∀ {printer job queuedAt}, job ∈ shop.enqueued →
      room.Waits me printer job queuedAt → shop.room.Waits me printer job queuedAt := by
    intro printer job queuedAt hjob hwaits
    rcases hcases hwaits with hbefore | ⟨_, hnew, _⟩
    · exact hbefore
    · exact absurd hjob hnew
  have holdest : ∀ {printer job}, job ∈ shop.enqueued → shop.room.Oldest me printer job →
      room.Oldest me printer job := by
    intro printer job hjob hold queuedAt hwaits another queuedAt' hanother hne
    rcases hcases hanother with hbefore | ⟨_, _, hlast⟩
    · exact hold queuedAt (hknown hjob hwaits) another queuedAt' hbefore hne
    · exact (hlast job queuedAt hwaits hne.symm).2
  refine ⟨fun printer job queuedAt hwaits => ?_,
    fun printer job hprinted => mem_append_right _ (h.printedKnown printer job hprinted),
    fun claim hclaim => mem_append_right _ (h.leasedKnown claim hclaim),
    fun printer job queuedAt another queuedAt' hwaits hanother hne => ?_,
    fun printer job hprinted =>
      holdest (h.printedKnown printer job hprinted) (h.printedOldest printer job hprinted),
    fun printer job queuedAt hprinted hwaits => h.printedRecorded printer job queuedAt hprinted
      (hknown (h.printedKnown printer job hprinted) hwaits),
    fun claim hclaim => holdest (h.leasedKnown claim hclaim) (h.leasedOldest claim hclaim),
    h.leasedRecorded,
    fun claim hclaim job hprinted hne queuedAt hwaits => h.leasedAlone claim hclaim job hprinted hne
      queuedAt (hknown (h.printedKnown _ job hprinted) hwaits),
    h.onePerPrinter, h.once⟩
  · rcases hcases hwaits with hbefore | ⟨hoffered, _⟩
    · exact mem_append_right _ (h.waitsKnown printer job queuedAt hbefore)
    · exact mem_append_left _ hoffered
  · rcases hcases hwaits with hbefore | ⟨_, _, hlast⟩
    · rcases hcases hanother with hbefore' | ⟨_, _, hlast⟩
      · exact h.apart printer job queuedAt another queuedAt' hbefore hbefore' hne
      · exact (hlast job queuedAt hwaits hne).2.ne
    · exact (hlast another queuedAt' hanother hne.symm).2.ne'

/-- A claim of the agent's. -/
theorem Settled.claim (h : shop.Settled me) {now ends : Int} {picked : List PrintJobRow}
    (hstep : shop.room.step ⟨now, .claim me ends picked⟩ = .ok room)
    (hanswers : shop.room.jobs.Answers me now picked) :
    Settled me { shop with
      room := room
      agent := { shop.agent with leased := (shop.room.jobs.claimPrintJobs ends picked).2 } } := by
  have hclock : shop.room.clock ≤ now := (clock_step hstep).1
  have hafter := h.onRoom hstep trivial trivial
  have hpicked : ∀ claim ∈ (shop.room.jobs.claimPrintJobs ends picked).2, ∃ pick ∈ picked,
      claim.printerDeviceId = pick.printerDeviceId ∧ claim.jobId = pick.jobId := by
    intro claim hclaim
    obtain ⟨pick, hpick, rfl⟩ := mem_map.1 hclaim
    exact ⟨pick, hpick, rfl, rfl⟩
  -- a picked job has waited, also at the instant of the claim
  have hwaited : ∀ pick ∈ picked,
      shop.room.WaitsAt now me pick.printerDeviceId pick.jobId pick.queuedAt := by
    intro pick hpick
    obtain ⟨hmem, hagent, hlife, -⟩ := mem_claimable.1 (hanswers.claimable pick hpick)
    exact ⟨pick, hmem, hagent, hlife, rfl, rfl, rfl⟩
  refine ⟨hafter.waitsKnown, hafter.printedKnown, fun claim hclaim => ?_, hafter.apart,
    hafter.printedOldest, hafter.printedRecorded, fun claim hclaim => ?_,
    fun claim hclaim hprinted => ?_, fun claim hclaim job hprinted hne queuedAt hwaits => ?_, ?_,
    h.once⟩
  · obtain ⟨pick, hpick, -, hid⟩ := hpicked claim hclaim
    rw [hid]
    exact h.waitsKnown _ _ _ ((hwaited pick hpick).earlier hclock)
  · obtain ⟨pick, hpick, hprinter, hid⟩ := hpicked claim hclaim
    rw [hprinter, hid]
    exact oldest_of_answers hstep hanswers hpick fun job queuedAt another queuedAt' =>
      h.apart pick.printerDeviceId job queuedAt another queuedAt'
  · obtain ⟨pick, hpick, hprinter, hid⟩ := hpicked claim hclaim
    rw [hprinter, hid] at hprinted ⊢
    exact h.printedRecorded _ _ _ hprinted ((hwaited pick hpick).earlier hclock)
  · obtain ⟨pick, hpick, hprinter, hid⟩ := hpicked claim hclaim
    rw [hprinter] at hprinted hwaits
    rw [hid] at hne
    rcases waits_step hstep hwaits with hbefore | ⟨_, _, _, hop, _⟩
    · -- a job on paper would be older than the one that was picked for being the oldest
      have hlt := h.printedOldest _ job hprinted queuedAt (hbefore.earlier hclock) pick.jobId
        pick.queuedAt ((hwaited pick hpick).earlier hclock) hne.symm
      obtain ⟨row, hrow, hagent, hlife, hrowPrinter, -, rfl⟩ := hbefore
      exact absurd (hanswers.queuedAt_le hpick hrow hagent hlife hrowPrinter) (not_le.2 hlt)
    · contradiction
  · rw [claimPrintJobs, map_map]
    exact hanswers.onePerPrinter

/-- A leased job that is handled, and the rest of the cycle. -/
theorem Settled.tail (h : shop.Settled me)
    (hleased : shop.agent.leased = job :: rest) (acknowledging : Option EventId) :
    Settled me { shop with agent := ⟨shop.agent.written, rest, acknowledging⟩ } := by
  have hmem : ∀ claim ∈ rest, claim ∈ shop.agent.leased := fun claim hclaim =>
    hleased ▸ mem_cons_of_mem job hclaim
  have hnodup := h.onePerPrinter
  rw [hleased, map_cons, nodup_cons] at hnodup
  exact ⟨h.waitsKnown, h.printedKnown, fun claim hclaim => h.leasedKnown claim (hmem claim hclaim),
    h.apart, h.printedOldest, h.printedRecorded,
    fun claim hclaim => h.leasedOldest claim (hmem claim hclaim),
    fun claim hclaim => h.leasedRecorded claim (hmem claim hclaim),
    fun claim hclaim => h.leasedAlone claim (hmem claim hclaim), hnodup.2, h.once⟩

/-- A leased job that is written and recorded. -/
theorem Settled.write (h : shop.Settled me) (hleased : shop.agent.leased = job :: rest)
    (hnot : shop.agent.written.byPrinter[job.printerDeviceId]? ≠ some job.jobId) :
    Settled me { shop with
      agent := ⟨shop.agent.written.record job.printerDeviceId job.jobId, rest, some job.jobId⟩
      printed := (job.printerDeviceId, job.jobId) :: shop.printed } := by
  have htail := h.tail hleased none
  have hjob : job ∈ shop.agent.leased := hleased ▸ mem_cons_self
  have hother : ∀ claim ∈ rest, claim.printerDeviceId ≠ job.printerDeviceId := by
    intro claim hclaim hprinter
    have hnodup := h.onePerPrinter
    rw [hleased, map_cons, nodup_cons] at hnodup
    exact hnodup.1 (hprinter ▸ mem_map_of_mem hclaim)
  have hrecord : ∀ printer, (shop.agent.written.record job.printerDeviceId job.jobId).byPrinter[
      printer]? = if job.printerDeviceId = printer then some job.jobId
        else shop.agent.written.byPrinter[printer]? := fun printer => Keyed.get_insert _ _ _ _
  refine ⟨h.waitsKnown, fun printer id hprinted => ?_, htail.leasedKnown, h.apart,
    fun printer id hprinted => ?_, fun printer id queuedAt hprinted hwaits => ?_,
    htail.leasedOldest, fun claim hclaim hprinted => ?_, fun claim hclaim id hprinted => ?_,
    htail.onePerPrinter, ?_⟩
  · rcases mem_cons.1 hprinted with hnew | hold
    · cases hnew
      exact h.leasedKnown job hjob
    · exact h.printedKnown printer id hold
  · rcases mem_cons.1 hprinted with hnew | hold
    · cases hnew
      exact h.leasedOldest job hjob
    · exact h.printedOldest printer id hold
  · rw [hrecord]
    rcases mem_cons.1 hprinted with hnew | hold
    · cases hnew
      exact if_pos rfl
    · by_cases hprinter : job.printerDeviceId = printer
      · subst hprinter
        rw [if_pos rfl]
        by_contra hid
        exact h.leasedAlone job hjob id hold (fun heq => hid (heq ▸ rfl)) queuedAt hwaits
      · rw [if_neg hprinter]
        exact h.printedRecorded printer id queuedAt hold hwaits
  · rcases mem_cons.1 hprinted with hnew | hold
    · exact absurd (congrArg Prod.fst hnew) (hother claim hclaim)
    · rw [hrecord, if_neg (hother claim hclaim).symm]
      exact htail.leasedRecorded claim hclaim hold
  · rcases mem_cons.1 hprinted with hnew | hold
    · exact absurd (congrArg Prod.fst hnew) (hother claim hclaim)
    · exact htail.leasedAlone claim hclaim id hold
  · exact nodup_cons.2 ⟨fun hprinted => hnot (h.leasedRecorded job hjob hprinted), h.once⟩

theorem Settled.acknowledging (h : shop.Settled me) (acknowledging : Option EventId) :
    Settled me { shop with agent := { shop.agent with acknowledging := acknowledging } } :=
  ⟨h.waitsKnown, h.printedKnown, h.leasedKnown, h.apart, h.printedOldest, h.printedRecorded,
    h.leasedOldest, h.leasedRecorded, h.leasedAlone, h.onePerPrinter, h.once⟩

theorem onQueue_eq_ok {call : PrintCall} (h : shop.onQueue call = .ok room) :
    shop.room.step call = .ok room := by
  unfold onQueue at h
  cases hstep : shop.room.step call with
  | ok =>
    rw [hstep] at h
    cases h
    rfl
  | error =>
    rw [hstep] at h
    contradiction

/-- One step of the cycle, or of the queue between two. -/
theorem Settled.step (h : shop.Settled me) {call : ShopCall} (hfresh : shop.FreshIds call)
    (hlater : shop.LaterThanQueued call) (hstep : step me call shop = .ok after) :
    after.Settled me := by
  cases call with
  | queue call =>
    dsimp only [PrintShop.step] at hstep
    split at hstep
    · contradiction
    · simp only [bind_eq_ok, pure_eq_ok] at hstep
      obtain ⟨room, hroom, rfl⟩ := hstep
      exact h.onRoom (onQueue_eq_ok hroom) hfresh hlater
  | claim =>
    dsimp only [PrintShop.step] at hstep
    split at hstep
    · simp only [bind_eq_ok, pure_eq_ok] at hstep
      obtain ⟨room, hroom, rfl⟩ := hstep
      have hroom := onQueue_eq_ok hroom
      exact h.claim hroom (answers_of_step hroom)
    · contradiction
  | write =>
    dsimp only [PrintShop.step] at hstep
    split at hstep
    next job rest hleased hidle =>
      split at hstep
      · cases hstep
        exact h.tail hleased _
      next hnot =>
        split at hstep
        · cases hstep
          exact h.write hleased fun hwritten =>
            hnot (LastWritten.alreadyWritten_iff.2 hwritten)
        · cases hstep
          exact h.tail hleased _
    · contradiction
  | acknowledge =>
    dsimp only [PrintShop.step] at hstep
    split at hstep
    next jobId hjob =>
      split at hstep
      · simp only [bind_eq_ok, pure_eq_ok] at hstep
        obtain ⟨room, hroom, rfl⟩ := hstep
        exact (h.onRoom (onQueue_eq_ok hroom) trivial trivial).acknowledging none
      · cases hstep
        exact h.acknowledging none
    · contradiction
  | restart =>
    cases hstep
    exact ⟨h.waitsKnown, h.printedKnown, fun _ hclaim => absurd hclaim not_mem_nil, h.apart,
      h.printedOldest, h.printedRecorded, fun _ hclaim => absurd hclaim not_mem_nil,
      fun _ hclaim => absurd hclaim not_mem_nil,
      fun _ hclaim => absurd hclaim not_mem_nil, nodup_nil, h.once⟩

/-- Where every job is queued at an instant after that of all its printer still has on the queue, no
    job is printed twice: whatever acknowledgements are lost, whatever claims lapse and whenever the
    agent restarts. -/
theorem printed_at_most_once {clock : Int} {written : LastWritten} {calls : List ShopCall}
    (hrun : Run me (fun shop call => shop.FreshIds call ∧ shop.LaterThanQueued call)
      (opened clock written) calls after) : after.printed.Nodup :=
  (hrun.invariant (I := Settled me)
    (fun _ _ _ h hallowed hone => h.step hallowed.1 hallowed.2 hone)
    (settled_opened me clock written)).once

/-- A job with the id, for the first printer and the first agent. -/
def ticket (id : Nat) : QueuedPrintJob := ⟨⟨id⟩, ⟨1⟩, ⟨1⟩, ⟨1⟩, "ticket"⟩

/-- Two jobs a millisecond apart. The first is printed, its acknowledgement is lost, and it is
    handed out again before the second is. -/
def redeliveredCalls : List ShopCall :=
  [.queue ⟨0, .enqueue (ticket 2) 600000 200⟩, .claim 0 30000 [(ticket 2).row 0 600000],
    .write true, .acknowledge 0 false, .queue ⟨1, .enqueue (ticket 1) 600001 200⟩,
    .claim 30000 60000 [{ (ticket 2).row 0 600000 with claimExpiresAt := some 30000 }],
    .write true, .acknowledge 30000 true, .claim 30000 60000 [(ticket 1).row 1 600001],
    .write true]

theorem run_redeliveredCalls : ∃ after,
    Run ⟨1⟩ (fun shop call => shop.FreshIds call ∧ shop.LaterThanQueued call)
      (opened 0 ⟨∅⟩) redeliveredCalls after ∧ after.printed = [(⟨1⟩, ⟨1⟩), (⟨1⟩, ⟨2⟩)] :=
  ⟨_, .cons (by decide) rfl <| .cons (by decide) rfl <| .cons (by decide) rfl <|
    .cons (by decide) rfl <| .cons (by decide) rfl <| .cons (by decide) rfl <|
    .cons (by decide) rfl <| .cons (by decide) rfl <| .cons (by decide) rfl <|
    .cons (by decide) rfl <| .nil _, rfl⟩

theorem printed_at_most_once_redeliveredCalls : ∃ after,
    Run ⟨1⟩ (fun shop call => shop.FreshIds call ∧ shop.LaterThanQueued call)
      (opened 0 ⟨∅⟩) redeliveredCalls after ∧ after.printed.length = 2 ∧ after.printed.Nodup := by
  obtain ⟨after, hrun, hprinted⟩ := run_redeliveredCalls
  exact ⟨after, hrun, congrArg List.length hprinted, printed_at_most_once hrun⟩

/-- Two jobs of one millisecond. When the claim of the first has lapsed, the second is handed out
    ahead of it and takes its place on record. -/
def sameInstantCalls : List ShopCall :=
  [.queue ⟨0, .enqueue (ticket 2) 600000 200⟩, .claim 0 30000 [(ticket 2).row 0 600000],
    .write true, .acknowledge 0 false, .queue ⟨0, .enqueue (ticket 1) 600000 200⟩,
    .claim 30000 60000 [(ticket 1).row 0 600000], .write true, .acknowledge 30000 true,
    .claim 30000 60000 [{ (ticket 2).row 0 600000 with claimExpiresAt := some 30000 }],
    .write true]

theorem sameInstantCalls_prints_twice : ∃ after,
    Run ⟨1⟩ FreshIds (opened 0 ⟨∅⟩) sameInstantCalls after ∧
      after.printed = [(⟨1⟩, ⟨2⟩), (⟨1⟩, ⟨1⟩), (⟨1⟩, ⟨2⟩)] ∧ ¬ after.printed.Nodup :=
  ⟨_, .cons (by decide) rfl <| .cons (by decide) rfl <| .cons (by decide) rfl <|
    .cons (by decide) rfl <| .cons (by decide) rfl <| .cons (by decide) rfl <|
    .cons (by decide) rfl <| .cons (by decide) rfl <| .cons (by decide) rfl <|
    .cons (by decide) rfl <| .nil _, rfl, by decide⟩

end PrintShop

end PosFramework
