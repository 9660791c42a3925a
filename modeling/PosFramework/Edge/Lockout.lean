import PosFramework.Lib.Keyed
import PosFramework.Lib.Transition
import PosFramework.Proto.Time
import PosFramework.Edge.Session

set_option autoImplicit false

/-! # The PIN lockout

A sign-in checks whether the employee is locked out, verifies the PIN, which is slow, and records
the outcome. The check and the record are two critical sections, so attempts overlap: several may
pass the check before the first of them is recorded. The record judges again, and it is the record
alone that bounds how many wrong PINs a stretch of time can hold. -/

namespace PosFramework

open List Option

/-- The numbers in force: how many wrong PINs lock an employee out, which is a `u32`, and for how
    many milliseconds. -/
structure LockoutPolicy where
  maxFailures : Nat
  lockoutMs : Nat
  maxFailures_le : maxFailures ≤ 4294967295

/-- One employee's failure state. -/
structure LockoutRecord where
  failures : Nat
  lockedUntilMs : Option Int

/-- When a lockout that begins now ends. Both steps saturate as 64-bit integers do. -/
def LockoutPolicy.lockoutEnd (policy : LockoutPolicy) (now : Timestamp) : Int :=
  min (now.epochMs + min (policy.lockoutMs : Int) 9223372036854775807) 9223372036854775807

namespace LockoutRecord

def fresh : LockoutRecord := ⟨0, none⟩

/-- A lockout that has elapsed is cleared before an attempt is judged. -/
def cleared (record : LockoutRecord) (now : Timestamp) : LockoutRecord :=
  match record.lockedUntilMs with
  | some ends => if ends ≤ now.epochMs then fresh else record
  | none => record

/-- What an attempt makes of an employee's record, and what it is answered. -/
def judge (record : LockoutRecord) (verified : Bool) (now : Timestamp) (policy : LockoutPolicy) :
    LockoutRecord × SignIn :=
  let record := record.cleared now
  match record.lockedUntilMs with
  | some ends => (record, .lockedOut ends)
  | none =>
    if verified then (fresh, .ok)
    else
      let failures := min (record.failures + 1) 4294967295
      if policy.maxFailures ≤ failures then
        (⟨failures, some (policy.lockoutEnd now)⟩, .lockedOut (policy.lockoutEnd now))
      else (⟨failures, none⟩, .wrong (policy.maxFailures - failures))

end LockoutRecord

/-- The attempts of every employee. -/
structure Lockout where
  state : Std.ExtTreeMap EmployeeId LockoutRecord

namespace Lockout

variable (lockout : Lockout)

/-- What is kept of an employee. -/
def recordOf (employee : EmployeeId) : LockoutRecord :=
  lockout.state[employee]?.getD .fresh

/-- The second critical section: an outcome is judged and kept. -/
def record (employee : EmployeeId) (verified : Bool) (now : Timestamp)
    (policy : LockoutPolicy) : Lockout × SignIn :=
  let (judged, answer) := (lockout.recordOf employee).judge verified now policy
  (⟨lockout.state.insert employee judged⟩, answer)

/-- When the lockout that holds an employee back now ends, if there is one. -/
def lockedOut? (employee : EmployeeId) (now : Timestamp) : Option Int :=
  match lockout.state[employee]? with
  | some record => record.lockedUntilMs.filter fun ends => now.epochMs < ends
  | none => none

section

variable (verifyPin : String → String → Bool)

/-- A sign-in without anything between its check and its record. -/
def authenticate (lockout : Lockout) (employee : EmployeeId) (phcHash pin : String)
    (now : Timestamp) (policy : LockoutPolicy) : Lockout × SignIn :=
  match lockout.lockedOut? employee now with
  | some ends => (lockout, .lockedOut ends)
  | none => lockout.record employee (verifyPin phcHash pin) now policy

end

end Lockout

/-! ## Attempts that overlap -/

/-- Where an attempt is. -/
inductive PinPhase
  | verifying
  | recording (verified : Bool)
  | answered (answer : SignIn)

/-- An attempt to sign in. -/
structure PinAttempt where
  employee : EmployeeId
  phcHash : String
  pin : String
  now : { t : Timestamp // t.InRange }
  phase : PinPhase

/-- What a record step made of the PIN: right, wrong and counted, or not looked at. -/
inductive Verdict
  | right
  | wrong
  | refused
deriving DecidableEq

/-- An outcome as it was recorded. -/
structure Judgement where
  employee : EmployeeId
  now : Timestamp
  verdict : Verdict

/-- The lockout, the attempts made so far, and the judgements of their record steps, the latest
    first. -/
structure SignInDesk where
  lockout : Lockout
  attempts : List PinAttempt
  judged : List Judgement

/-- One critical section of an attempt, or the verification between the two. -/
inductive PinCall
  | check (employee : EmployeeId) (phcHash pin : String) (now : { t : Timestamp // t.InRange })
  | verify (i : Nat)
  | record (i : Nat)

/-- The verdict of a record step, from its answer: one that answers a lockout has counted the PIN,
    unless the lockout was there before. -/
def LockoutRecord.verdict (record : LockoutRecord) (verified : Bool) (now : Timestamp)
    (policy : LockoutPolicy) : Verdict :=
  match (record.judge verified now policy).2 with
  | .ok => .right
  | .wrong _ => .wrong
  | .lockedOut _ => if (record.cleared now).lockedUntilMs.isSome then .refused else .wrong

namespace SignInDesk

def opened : SignInDesk := ⟨⟨∅⟩, [], []⟩

section

variable (verifyPin : String → String → Bool) (policy : LockoutPolicy) (desk : SignInDesk)

/-- The record step of an attempt. -/
def recordStep (i : Nat) (attempt : PinAttempt) (verified : Bool) : SignInDesk :=
  let (lockout, answer) := desk.lockout.record attempt.employee verified attempt.now policy
  { lockout := lockout
    attempts := desk.attempts.set i { attempt with phase := .answered answer }
    judged := ⟨attempt.employee, attempt.now,
      (desk.lockout.recordOf attempt.employee).verdict verified attempt.now policy⟩ :: desk.judged }

/-- One critical section, or a verification. -/
def step : PinCall → SignInDesk
  | .check employee phcHash pin now =>
    let phase := match desk.lockout.lockedOut? employee now with
      | some ends => .answered (.lockedOut ends)
      | none => .verifying
    { desk with attempts := desk.attempts ++ [⟨employee, phcHash, pin, now, phase⟩] }
  | .verify i =>
    match desk.attempts[i]? with
    | some attempt =>
      match attempt.phase with
      | .verifying =>
        let verified := verifyPin attempt.phcHash attempt.pin
        { desk with attempts := desk.attempts.set i { attempt with phase := .recording verified } }
      | .recording _ | .answered _ => desk
    | none => desk
  | .record i =>
    match desk.attempts[i]? with
    | some attempt =>
      match attempt.phase with
      | .recording verified => desk.recordStep policy i attempt verified
      | .verifying | .answered _ => desk
    | none => desk

/-- Record steps read a clock that does not go back. -/
def ClockInOrder : PinCall → Prop
  | .record i => ∀ attempt ∈ desk.attempts[i]?, ∀ judgement ∈ desk.judged,
      judgement.now.epochMs ≤ attempt.now.val.epochMs
  | .check _ _ _ _ | .verify _ => True

instance (desk : SignInDesk) : (call : PinCall) → Decidable (desk.ClockInOrder call)
  | .record i => inferInstanceAs (Decidable (∀ attempt ∈ desk.attempts[i]?,
      ∀ judgement ∈ desk.judged, judgement.now.epochMs ≤ attempt.now.val.epochMs))
  | .check _ _ _ _ | .verify _ => inferInstanceAs (Decidable True)

abbrev Run : SignInDesk → List PinCall → SignInDesk → Prop :=
  Transition.Run (ε := Empty) (fun call desk => .ok (desk.step verifyPin policy call)) ClockInOrder

/-- The three steps of an attempt that nothing comes between do what `authenticate` does. -/
theorem step_authenticate (lockout : Lockout) (employee : EmployeeId) (phcHash pin : String)
    (now : { t : Timestamp // t.InRange }) :
    ∃ phase judged, ([.check employee phcHash pin now, .verify 0, .record 0].foldl
        (step verifyPin policy) ⟨lockout, [], []⟩) =
      ⟨(lockout.authenticate verifyPin employee phcHash pin now policy).1,
        [⟨employee, phcHash, pin, now, phase⟩], judged⟩ ∧
      phase = .answered (lockout.authenticate verifyPin employee phcHash pin now policy).2 := by
  unfold Lockout.authenticate
  cases hlocked : lockout.lockedOut? employee now with
  | some ends => exact ⟨_, [], by simp [step, hlocked], rfl⟩
  | none => exact ⟨_, _, by simp [step, hlocked, recordStep]; rfl, rfl⟩

end

end SignInDesk

/-! ## Wrong PINs in a stretch of time -/

namespace Judgement

/-- The record step judged a wrong PIN of the employee. -/
def isWrong (employee : EmployeeId) (judgement : Judgement) : Bool :=
  judgement.employee = employee ∧ judgement.verdict = .wrong

def isRight (employee : EmployeeId) (judgement : Judgement) : Bool :=
  judgement.employee = employee ∧ judgement.verdict = .right

/-- A wrong PIN of the employee, not before `start`. -/
def wrongSince (employee : EmployeeId) (start : Int) (judgement : Judgement) : Bool :=
  judgement.isWrong employee ∧ start ≤ judgement.now.epochMs

/-- A wrong PIN of the employee, in the `span` milliseconds from `start`. -/
def wrongWithin (employee : EmployeeId) (start : Int) (span : Nat) (judgement : Judgement) : Bool :=
  judgement.wrongSince employee start ∧ judgement.now.epochMs ≤ start + span

end Judgement

/-- A lockout that has elapsed has lasted as long as the policy says. -/
theorem LockoutPolicy.le_of_lockoutEnd_le {policy : LockoutPolicy} {began now : Timestamp}
    (hbegan : began.InRange) (hnow : now.InRange) (h : policy.lockoutEnd began ≤ now.epochMs) :
    began.epochMs + policy.lockoutMs ≤ now.epochMs := by
  obtain ⟨hlow, -⟩ := hbegan
  obtain ⟨-, hhigh⟩ := hnow
  unfold lockoutEnd at h
  omega

/-- How an employee's record follows from the judgements: it counts the wrong PINs since the last
    right one, except those that lie a whole lockout back. -/
structure LockoutRecord.Follows (record : LockoutRecord) (policy : LockoutPolicy)
    (employee : EmployeeId) (judged : List Judgement) : Prop where
  open_lt : record.lockedUntilMs = none → record.failures < policy.maxFailures
  failures_le : record.failures ≤ policy.maxFailures
  began : ∀ ends ∈ record.lockedUntilMs, ∃ began : Timestamp, began.InRange ∧
    ends = policy.lockoutEnd began ∧
    ∀ judgement ∈ judged, judgement.isWrong employee → judgement.now.epochMs ≤ began.epochMs
  counts : ∀ recent earlier, judged = recent ++ earlier →
    (∀ judgement ∈ recent, judgement.isRight employee = false) → ∀ start : Int,
    recent.countP (Judgement.wrongSince employee start) ≤ record.failures ∨
      ∃ judgement ∈ recent, judgement.isWrong employee ∧
        start + policy.lockoutMs ≤ judgement.now.epochMs

namespace LockoutRecord

variable {policy : LockoutPolicy} {employee : EmployeeId} {record : LockoutRecord}
  {judged : List Judgement} {now : Timestamp}

theorem follows_fresh (hpolicy : 1 ≤ policy.maxFailures) : fresh.Follows policy employee [] where
  open_lt _ := hpolicy
  failures_le := Nat.zero_le _
  began _ hends := absurd hends (not_mem_none _)
  counts recent earlier h _ start := by
    obtain ⟨rfl, -⟩ := append_eq_nil_iff.1 h.symm
    exact .inl (Nat.zero_le _)

/-- A judgement that is neither right nor wrong for the employee changes nothing. -/
theorem Follows.skip (h : record.Follows policy employee judged) {judgement : Judgement}
    (hwrong : judgement.isWrong employee = false) :
    record.Follows policy employee (judgement :: judged) where
  open_lt := h.open_lt
  failures_le := h.failures_le
  began ends hends := by
    obtain ⟨began, hrange, hends, hlast⟩ := h.began ends hends
    refine ⟨began, hrange, hends, fun other hother hisWrong => ?_⟩
    rcases mem_cons.1 hother with rfl | hother
    · exact absurd (hwrong.symm.trans hisWrong) Bool.false_ne_true
    · exact hlast other hother hisWrong
  counts recent earlier hsplit hright start := by
    cases recent with
    | nil => exact .inl (Nat.zero_le _)
    | cons latest recent =>
      rw [cons_append, cons.injEq] at hsplit
      obtain ⟨rfl, hsplit⟩ := hsplit
      have hnot : judgement.wrongSince employee start = false := by
        simp [Judgement.wrongSince, hwrong]
      rw [countP_cons_of_neg (by simp [hnot])]
      rcases h.counts recent earlier hsplit
        (fun other hother => hright other (mem_cons_of_mem _ hother)) start with hle | hfar
      · exact .inl hle
      · obtain ⟨other, hother, hfar⟩ := hfar
        exact .inr ⟨other, mem_cons_of_mem _ hother, hfar⟩

/-- After a right PIN the count begins anew. -/
theorem follows_right (hpolicy : 1 ≤ policy.maxFailures) {judgement : Judgement}
    (hright : judgement.isRight employee = true) :
    fresh.Follows policy employee (judgement :: judged) where
  open_lt _ := hpolicy
  failures_le := Nat.zero_le _
  began _ hends := absurd hends (not_mem_none _)
  counts recent earlier hsplit hnone start := by
    cases recent with
    | nil => exact .inl (Nat.zero_le _)
    | cons =>
      obtain ⟨rfl, -⟩ := hsplit
      exact absurd (hright.symm.trans (hnone _ mem_cons_self)) Bool.false_ne_true.symm

/-- A record that holds nobody back is the one from before, or that of a lockout served. -/
theorem cleared_of_open (hopen : (record.cleared now).lockedUntilMs = none) :
    (record.lockedUntilMs = none ∧ record.cleared now = record) ∨
      ∃ ends ∈ record.lockedUntilMs, ends ≤ now.epochMs ∧ record.cleared now = fresh := by
  unfold cleared at hopen ⊢
  cases hlocked : record.lockedUntilMs with
  | none => exact .inl ⟨rfl, rfl⟩
  | some ends =>
    by_cases hends : ends ≤ now.epochMs
    · exact .inr ⟨ends, rfl, hends, if_pos hends⟩
    · simp only [if_neg hends, hlocked] at hopen
      contradiction

/-- A record that still holds the employee back is the one from before. -/
theorem cleared_of_locked {ends : Int} (hlocked : (record.cleared now).lockedUntilMs = some ends) :
    record.cleared now = record := by
  unfold cleared at hlocked ⊢
  cases hends : record.lockedUntilMs with
  | none => rfl
  | some ends' =>
    rw [hends] at hlocked
    by_cases hserved : ends' ≤ now.epochMs
    · simp only [if_pos hserved, fresh] at hlocked
      contradiction
    · exact if_neg hserved

/-- Nobody who is locked out has their PIN looked at. -/
theorem judge_of_locked {ends : Int} (hlocked : (record.cleared now).lockedUntilMs = some ends)
    (verified : Bool) (policy : LockoutPolicy) :
    record.judge verified now policy = (record, .lockedOut ends) := by
  have hsame := cleared_of_locked hlocked
  rw [hsame] at hlocked
  simp only [judge, hsame, hlocked]

theorem verdict_of_open (hopen : (record.cleared now).lockedUntilMs = none) :
    record.verdict false now policy = .wrong := by
  unfold verdict
  cases hanswer : (record.judge false now policy).2 with
  | ok =>
    simp only [judge, hopen, Bool.false_eq_true, if_false] at hanswer
    split at hanswer <;> contradiction
  | wrong => rfl
  | lockedOut ends => simp [hopen]

/-- One more wrong PIN, weighed against the count after a served lockout is cleared. -/
theorem Follows.counts_wrong (h : record.Follows policy employee judged) (hnow : now.InRange)
    (hopen : (record.cleared now).lockedUntilMs = none) {recent earlier : List Judgement}
    (hsplit : judged = recent ++ earlier)
    (hright : ∀ judgement ∈ recent, judgement.isRight employee = false) (start : Int) :
    recent.countP (Judgement.wrongSince employee start) ≤ (record.cleared now).failures ∨
      (∃ judgement ∈ recent, judgement.isWrong employee ∧
        start + policy.lockoutMs ≤ judgement.now.epochMs) ∨
      start + policy.lockoutMs ≤ now.epochMs := by
  rcases cleared_of_open hopen with ⟨-, hsame⟩ | ⟨ends, hlocked, hserved, hfresh⟩
  · rw [hsame]
    exact (h.counts recent earlier hsplit hright start).imp_right .inl
  · rw [hfresh]
    -- a lockout was served since the latest wrong PIN, so since any that lies after the start
    obtain ⟨began, hbegan, rfl, hlast⟩ := h.began ends hlocked
    by_cases hany : ∃ judgement ∈ recent, judgement.wrongSince employee start = true
    · obtain ⟨judgement, hmem, hsince⟩ := hany
      simp only [Judgement.wrongSince, decide_eq_true_eq] at hsince
      have hbefore := hlast judgement (hsplit ▸ mem_append_left _ hmem) hsince.1
      have hlasted := LockoutPolicy.le_of_lockoutEnd_le hbegan hnow hserved
      exact .inr (.inr (by omega))
    · push Not at hany
      exact .inl (countP_eq_zero.2 hany).le

/-- A wrong PIN that is judged. -/
theorem Follows.wrong (h : record.Follows policy employee judged)
    (hpolicy : 1 ≤ policy.maxFailures) (hnow : now.InRange)
    (hopen : (record.cleared now).lockedUntilMs = none)
    (horder : ∀ judgement ∈ judged, judgement.now.epochMs ≤ now.epochMs) :
    (record.judge false now policy).1.Follows policy employee
    (⟨employee, now, .wrong⟩ :: judged) := by
  have hlt : (record.cleared now).failures < policy.maxFailures := by
    rcases cleared_of_open hopen with ⟨hnone, hsame⟩ | ⟨_, _, _, hfresh⟩
    · rw [hsame]
      exact h.open_lt hnone
    · rw [hfresh]
      exact hpolicy
  have hfailures : min ((record.cleared now).failures + 1) 4294967295 =
      (record.cleared now).failures + 1 := by
    have := policy.maxFailures_le
    omega
  have hcounts : ∀ recent earlier, ⟨employee, now, .wrong⟩ :: judged = recent ++ earlier →
      (∀ judgement ∈ recent, judgement.isRight employee = false) → ∀ start : Int,
      recent.countP (Judgement.wrongSince employee start) ≤ (record.cleared now).failures + 1 ∨
        ∃ judgement ∈ recent, judgement.isWrong employee ∧
          start + policy.lockoutMs ≤ judgement.now.epochMs := by
    intro recent earlier hsplit hright start
    cases recent with
    | nil => exact .inl (Nat.zero_le _)
    | cons =>
      rw [cons_append, cons.injEq] at hsplit
      obtain ⟨rfl, hsplit⟩ := hsplit
      rcases h.counts_wrong hnow hopen hsplit
        (fun other hother => hright other (mem_cons_of_mem _ hother)) start with
        hle | ⟨other, hother, hfar⟩ | hfar
      · refine .inl (le_trans ?_ (Nat.add_le_add_right hle 1))
        rw [countP_cons]
        exact Nat.add_le_add_left (ite_le_one le_rfl (Nat.zero_le 1)) _
      · exact .inr ⟨other, mem_cons_of_mem _ hother, hfar⟩
      · exact .inr ⟨_, mem_cons_self, by simp [Judgement.isWrong], hfar⟩
  have hjudge : (record.judge false now policy).1 =
      if policy.maxFailures ≤ (record.cleared now).failures + 1 then
        ⟨(record.cleared now).failures + 1, some (policy.lockoutEnd now)⟩
      else ⟨(record.cleared now).failures + 1, none⟩ := by
    simp only [judge, hopen, hfailures, Bool.false_eq_true, if_false]
    split <;> rfl
  rw [hjudge]
  split
  next hmax =>
    refine ⟨fun hnone => absurd hnone (some_ne_none _), hlt, fun ends hends => ?_, hcounts⟩
    obtain rfl : policy.lockoutEnd now = ends := some.inj hends
    refine ⟨now, hnow, rfl, fun judgement hjudgement _ => ?_⟩
    rcases mem_cons.1 hjudgement with rfl | hjudgement
    · exact le_rfl
    · exact horder judgement hjudgement
  next hmax =>
    exact ⟨fun _ => not_le.1 hmax, hlt, fun _ hends => absurd hends (not_mem_none _), hcounts⟩

end LockoutRecord

variable {employee : EmployeeId}

/-- Whoever the check would refuse, the record step refuses. -/
theorem Lockout.cleared_of_lockedOut {lockout : Lockout} {now : Timestamp}
    {ends : Int} (h : lockout.lockedOut? employee now = some ends) :
    ((lockout.recordOf employee).cleared now).lockedUntilMs = some ends := by
  unfold lockedOut? at h
  unfold recordOf
  cases hrecord : lockout.state[employee]? with
  | none =>
    rw [hrecord] at h
    contradiction
  | some =>
    simp only [hrecord, filter_eq_some_iff, decide_eq_true_eq] at h
    obtain ⟨hends, hlater⟩ := h
    simp only [getD_some, LockoutRecord.cleared, hends, if_neg (not_le.2 hlater)]

/-! ## Every run -/

namespace SignInDesk

/-- No stretch of the judgements without a right PIN of the employee's holds more wrong ones than
    the policy allows, within any time shorter than a lockout. -/
def InBudget (policy : LockoutPolicy) (employee : EmployeeId) (judged : List Judgement) : Prop :=
  ∀ later stretch earlier, judged = later ++ stretch ++ earlier →
    (∀ judgement ∈ stretch, judgement.isRight employee = false) →
    ∀ (start : Int) (span : Nat), span < policy.lockoutMs →
      stretch.countP (Judgement.wrongWithin employee start span) ≤ policy.maxFailures

/-- Every employee's record follows from the judgements, which are in budget. -/
structure Bounded (policy : LockoutPolicy) (desk : SignInDesk) : Prop where
  follows : ∀ employee, (desk.lockout.recordOf employee).Follows policy employee desk.judged
  budget : ∀ employee, InBudget policy employee desk.judged

variable {verifyPin : String → String → Bool} {policy : LockoutPolicy} {desk : SignInDesk}

theorem bounded_opened (hpolicy : 1 ≤ policy.maxFailures) : opened.Bounded policy where
  follows _ := LockoutRecord.follows_fresh hpolicy
  budget employee later stretch earlier hsplit _ _ _ _ := by
    obtain ⟨hstretch, -⟩ := append_eq_nil_iff.1 hsplit.symm
    obtain ⟨-, rfl⟩ := append_eq_nil_iff.1 hstretch
    exact Nat.zero_le _

/-- What the record step makes of the record of the employee and of every other. -/
theorem recordOf_record (lockout : Lockout) (employee another : EmployeeId) (verified : Bool)
    (now : Timestamp) :
    (lockout.record employee verified now policy).1.recordOf another =
      if employee = another then ((lockout.recordOf employee).judge verified now policy).1
      else lockout.recordOf another := by
  show (Std.ExtTreeMap.insert _ _ _)[another]?.getD _ = _
  rw [Keyed.get_insert]
  split <;> rfl

/-- The record of every employee after a record step. -/
theorem follows_recordStep (h : desk.Bounded policy) (hpolicy : 1 ≤ policy.maxFailures)
    {attempt : PinAttempt} (verified : Bool)
    (horder : ∀ judgement ∈ desk.judged, judgement.now.epochMs ≤ attempt.now.val.epochMs)
    (i : Nat) (employee : EmployeeId) :
    ((desk.recordStep policy i attempt verified).lockout.recordOf employee).Follows policy employee
      (desk.recordStep policy i attempt verified).judged := by
  set record := desk.lockout.recordOf attempt.employee with hrecord
  show ((desk.lockout.record attempt.employee verified attempt.now policy).1.recordOf
    employee).Follows policy employee
      (⟨attempt.employee, attempt.now, record.verdict verified attempt.now policy⟩ :: desk.judged)
  rw [recordOf_record]
  by_cases hemployee : attempt.employee = employee
  · subst hemployee
    rw [if_pos rfl, ← hrecord]
    have hfollows : record.Follows policy attempt.employee desk.judged := h.follows attempt.employee
    cases hlocked : (record.cleared attempt.now).lockedUntilMs with
    | some ends =>
      have hjudge := LockoutRecord.judge_of_locked hlocked verified policy
      have hverdict : record.verdict verified attempt.now policy = .refused := by
        simp [LockoutRecord.verdict, hjudge, hlocked]
      rw [hverdict, hjudge]
      exact hfollows.skip (by simp [Judgement.isWrong])
    | none =>
      cases verified with
      | true =>
        have hjudge : record.judge true attempt.now policy = (.fresh, .ok) := by
          simp [LockoutRecord.judge, hlocked]
        have hverdict : record.verdict true attempt.now policy = .right := by
          simp [LockoutRecord.verdict, hjudge]
        rw [hverdict, hjudge]
        exact LockoutRecord.follows_right hpolicy (by simp [Judgement.isRight])
      | false =>
        rw [LockoutRecord.verdict_of_open hlocked]
        exact hfollows.wrong hpolicy attempt.now.property hlocked horder
  · rw [if_neg hemployee]
    exact (h.follows employee).skip (by simp [Judgement.isWrong, hemployee])

/-- One more judgement, at an instant that is not before that of any other. -/
theorem InBudget.cons {judged : List Judgement} {judgement : Judgement}
    {record : LockoutRecord} (h : InBudget policy employee judged)
    (hfollows : record.Follows policy employee (judgement :: judged))
    (horder : ∀ other ∈ judged, other.now.epochMs ≤ judgement.now.epochMs) :
    InBudget policy employee (judgement :: judged) := by
  intro later stretch earlier hsplit hright start span hspan
  cases later with
  | cons latest later =>
    rw [cons_append, cons_append, cons.injEq] at hsplit
    exact h later stretch earlier hsplit.2 hright start span hspan
  | nil =>
    cases stretch with
    | nil => exact Nat.zero_le _
    | cons latest stretch =>
      rw [nil_append] at hsplit
      have hcounts := hfollows.counts _ _ hsplit hright start
      rw [cons_append, cons.injEq] at hsplit
      obtain ⟨rfl, hsplit⟩ := hsplit
      by_cases hwithin : judgement.wrongWithin employee start span = true
      · -- the window reaches up to the new judgement, so all since its start lies within
        have hends : judgement.now.epochMs ≤ start + span := (of_decide_eq_true hwithin).2
        rcases hcounts with hle | ⟨other, hother, -, hfar⟩
        · refine le_trans (countP_mono_left fun other _ hother => ?_)
            (hle.trans hfollows.failures_le)
          exact (of_decide_eq_true hother).1
        · have hbefore : other.now.epochMs ≤ judgement.now.epochMs := by
            rcases mem_cons.1 hother with rfl | hother
            · exact le_rfl
            · exact horder other (hsplit ▸ mem_append_left _ hother)
          omega
      · rw [countP_cons_of_neg hwithin]
        exact h [] stretch earlier hsplit
          (fun other hother => hright other (mem_cons_of_mem _ hother)) start span hspan

/-- One step of any attempt. -/
theorem Bounded.step (h : desk.Bounded policy) (hpolicy : 1 ≤ policy.maxFailures) {call : PinCall}
    (horder : desk.ClockInOrder call) : (desk.step verifyPin policy call).Bounded policy := by
  cases call with
  | check => exact ⟨h.follows, h.budget⟩
  | verify i =>
    simp only [SignInDesk.step]
    split
    · split
      · exact ⟨h.follows, h.budget⟩
      · exact h
      · exact h
    · exact h
  | record i =>
    simp only [SignInDesk.step]
    split
    next attempt hattempt =>
      split
      next verified hphase =>
        have horder := horder attempt hattempt
        have hfollows := follows_recordStep h hpolicy verified horder i
        exact ⟨hfollows, fun employee => (h.budget employee).cons (hfollows employee) horder⟩
      · exact h
      · exact h
    · exact h

/-- In every run of attempts that overlap at will, no time shorter than a lockout holds more judged
    wrong PINs of an employee than the policy allows, unless a right one comes between; and whoever
    is locked out gets one answer, whether the PIN is right or wrong, and no PIN of theirs is
    counted. -/
theorem pin_guess_budget (hpolicy : 1 ≤ policy.maxFailures) {calls : List PinCall}
    (hrun : Run verifyPin policy opened calls desk) :
    (∀ employee later stretch earlier, desk.judged = later ++ stretch ++ earlier →
      (∀ judgement ∈ stretch, judgement.isRight employee = false) →
      ∀ (start : Int) (span : Nat), span < policy.lockoutMs →
        stretch.countP (Judgement.wrongWithin employee start span) ≤ policy.maxFailures) ∧
    ∀ employee now ends, desk.lockout.lockedOut? employee now = some ends →
      (∀ phcHash pin, desk.lockout.authenticate verifyPin employee phcHash pin now policy =
        (desk.lockout, .lockedOut ends)) ∧
      ∀ verified, (desk.lockout.record employee verified now policy).2 = .lockedOut ends ∧
        (desk.lockout.record employee verified now policy).1.recordOf employee =
          desk.lockout.recordOf employee := by
  have hbounded := hrun.invariant (I := Bounded policy)
    (fun _ _ _ h hallowed hone => by cases hone; exact h.step hpolicy hallowed)
    (bounded_opened hpolicy)
  refine ⟨hbounded.budget, fun employee now ends hlocked =>
    ⟨fun phcHash pin => ?_, fun verified => ?_⟩⟩
  · simp only [Lockout.authenticate, hlocked]
  · have hjudge := LockoutRecord.judge_of_locked
      (Lockout.cleared_of_lockedOut hlocked) verified policy
    refine ⟨?_, ?_⟩
    · simp only [Lockout.record, hjudge]
    · rw [recordOf_record, if_pos rfl, hjudge]

/-- Two wrong PINs, five minutes. -/
def samplePolicy : LockoutPolicy := ⟨2, 300000, by decide⟩

/-- Three attempts with a wrong PIN that have all passed the check before the first is recorded. -/
def overlappingAttempts : List PinCall :=
  let instant : { t : Timestamp // t.InRange } := ⟨⟨0⟩, by decide⟩
  [.check ⟨1⟩ "2468" "0000" instant, .check ⟨1⟩ "2468" "1111" instant,
    .check ⟨1⟩ "2468" "2222" instant, .verify 0, .verify 1, .verify 2, .record 0, .record 1,
    .record 2]

theorem pin_guess_budget_overlappingAttempts : ∃ desk,
    Run (fun phcHash pin => phcHash == pin) samplePolicy opened overlappingAttempts desk ∧
      desk.judged.map Judgement.verdict = [.refused, .wrong, .wrong] ∧
      desk.judged.countP (Judgement.wrongWithin ⟨1⟩ 0 299999) ≤ 2 := by
  have hrun : ∃ desk,
      Run (fun phcHash pin => phcHash == pin) samplePolicy opened overlappingAttempts desk ∧
        desk.judged = [⟨⟨1⟩, ⟨0⟩, .refused⟩, ⟨⟨1⟩, ⟨0⟩, .wrong⟩, ⟨⟨1⟩, ⟨0⟩, .wrong⟩] :=
    ⟨_, Transition.run_of_allAllowed (by decide), rfl⟩
  obtain ⟨desk, hrun, hjudged⟩ := hrun
  have hbudget := (pin_guess_budget (by decide) hrun).1 ⟨1⟩ [] desk.judged [] (by simp)
    (by rw [hjudged]; decide) 0 299999 (by decide)
  exact ⟨desk, hrun, by rw [hjudged]; rfl, hbudget⟩

end SignInDesk

end PosFramework
