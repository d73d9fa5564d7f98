import Mathlib.Algebra.Group.Int.Defs
import Mathlib.Data.Finset.Max
import FlowFabric.Foundation.Hash
import FlowFabric.Foundation.Run

/-! Admission under a quota policy: ff_check_admission_and_record and ff_release_admission. The window,
the guard of an execution, the counter and the set of admitted executions are four keys with lives of
their own. check_quota of the claim cycle asks for admission with the limits it has read. -/
namespace FlowFabric
open Foundation Finset

/-- The keys of one policy. Members of the window have one score each. -/
structure Quota where
  window : Finset (String × Int) := ∅
  /-- The concurrency counter. -/
  counter : Nat := 0
  /-- When the admitted guards expire. -/
  guard : String → Option Int := fun _ => none
  admittedSet : Finset String := ∅

/-- What ff_create_quota_policy writes. -/
def newQuota : Quota := {}

inductive QuotaReply
  | alreadyAdmitted
  | rateExceeded (retryAfterMs : Int)
  | concurrencyExceeded
  | admitted
  | released
  | raised
  deriving DecidableEq

structure CheckAdmissionArgs where
  executionId : String
  nowMs : Int
  (windowSeconds rateLimit concurrencyCap : Nat)
  /-- The number drawn between zero and the jitter. -/
  jitter : Nat := 0

def CheckAdmissionArgs.windowMs (a : CheckAdmissionArgs) : Nat := a.windowSeconds * 1000

namespace Quota

variable (q : Quota)

/-- The server has a key up to the moment it expires and in it. -/
def guarded (executionId : String) (now : Int) : Bool :=
  (q.guard executionId).any fun expiresAt => decide (now ≤ expiresAt)

variable (a : CheckAdmissionArgs)

def prune : Quota :=
  { q with window := q.window.filter fun e => a.nowMs - a.windowMs < e.2 }

def rateExceeded : Bool := decide (0 < double a.rateLimit ∧ double a.rateLimit ≤ double q.window.card)

def concurrencyExceeded : Bool := decide (0 < double a.concurrencyCap ∧ double a.concurrencyCap ≤ double q.counter)

def retryAfterMs : Int :=
  match (q.window.image Prod.snd).min with
  | some oldest => max 0 (oldest + a.windowMs - a.nowMs)
  | none => 0

def enter (executionId : String) (score : Int) : Quota :=
  { q with window := insert (executionId,score) (q.window.filter fun e => e.1 ≠ executionId) }

/-- Set the guard for the length of the window. The command fails on a time that is no 64-bit
integer. -/
def setGuard (server : Server) (q : Quota) (a : CheckAdmissionArgs) (now : Int) : Option Quota :=
  if a.windowMs = 0 then some q
  else match server.argument (double a.windowMs) with
  | some ttl =>
    if now + ttl < 2 ^ 63 then
      some { q with guard := fun x => if x = a.executionId then some (now + ttl) else q.guard x }
    else none
  | none => none

def enrol : Quota :=
  { q with
    counter := if 0 < double a.concurrencyCap then q.counter + 1 else q.counter
    admittedSet := insert a.executionId q.admittedSet }

end Quota

def checkAdmissionAndRecord (server : Server) (a : CheckAdmissionArgs) (now : Int) (q : Quota) : QuotaReply × Quota :=
  if q.guarded a.executionId now then (.alreadyAdmitted,q)
  else
    let q := q.prune a
    if q.rateExceeded a then (.rateExceeded (q.retryAfterMs a + a.jitter),q)
    else if q.concurrencyExceeded a then (.concurrencyExceeded,q)
    else
      let q := q.enter a.executionId a.nowMs
      match q.setGuard server a now with
      | none => (.raised,q)
      | some q => (.admitted,q.enrol a)

/-- The counter is taken down whether the execution was admitted or not, and the window keeps
its entry. -/
def releaseAdmission (executionId : String) (q : Quota) : QuotaReply × Quota :=
  (.released,
    { q with
      guard := fun x => if x = executionId then none else q.guard x, admittedSet := q.admittedSet.erase executionId
      counter := q.counter - 1 })

inductive QuotaOp
  | checkAdmissionAndRecord (a : CheckAdmissionArgs)
  | releaseAdmission (executionId : String)

structure QuotaCall where
  now : Int
  op : QuotaOp

def quotaStep (server : Server) (i : QuotaCall) (q : Quota) : QuotaReply × Quota :=
  match i.op with
  | .checkAdmissionAndRecord a => checkAdmissionAndRecord server a i.now q
  | .releaseAdmission executionId => releaseAdmission executionId q

def quotaNext (server : Server) (i : QuotaCall) (q : Quota) : Quota := (quotaStep server i q).2

def quotaRun (server : Server) (calls : List QuotaCall) : Quota := runFrom (quotaNext server) newQuota calls

variable {server : Server} {a : CheckAdmissionArgs} {now : Int} {q q' : Quota}

structure Admits (a : CheckAdmissionArgs) (now : Int) (q q' : Quota) : Prop where
  unguarded : q.guarded a.executionId now = false
  below : q.concurrencyExceeded a = false
  window : q'.window = ((q.prune a).enter a.executionId a.nowMs).window
  counter : q'.counter = if 0 < double a.concurrencyCap then q.counter + 1 else q.counter
  admittedSet : q'.admittedSet = insert a.executionId q.admittedSet
  guard : ∀ x, x ≠ a.executionId → q'.guard x = q.guard x

open Quota

theorem setGuard_eq (h : q.setGuard server a now = some q') :
    q'.window = q.window ∧ q'.counter = q.counter ∧ q'.admittedSet = q.admittedSet ∧
      ∀ x, x ≠ a.executionId → q'.guard x = q.guard x := by
  unfold setGuard at h
  split at h
  · cases h
    exact ⟨rfl,rfl,rfl,fun _ _ => rfl⟩
  · split at h
    · split at h
      · cases h
        exact ⟨rfl,rfl,rfl,fun x hx => if_neg hx⟩
      · cases h
    · cases h

theorem check_cases (server : Server) (a : CheckAdmissionArgs) (now : Int) (q : Quota) :
    ((checkAdmissionAndRecord server a now q).1 ≠ .admitted ∧
      (checkAdmissionAndRecord server a now q).2.counter = q.counter ∧
      (checkAdmissionAndRecord server a now q).2.admittedSet = q.admittedSet) ∨
    ((checkAdmissionAndRecord server a now q).1 = .admitted ∧
      Admits a now q (checkAdmissionAndRecord server a now q).2) := by
  unfold checkAdmissionAndRecord
  by_cases hg : q.guarded a.executionId now
  · rw [if_pos hg]
    exact .inl ⟨by simp,rfl,rfl⟩
  rw [if_neg hg]
  dsimp only
  split
  · exact .inl ⟨by simp,rfl,rfl⟩
  split
  · exact .inl ⟨by simp,rfl,rfl⟩
  rename_i hc
  cases hs : ((q.prune a).enter a.executionId a.nowMs).setGuard server a now with
  | none => exact .inl ⟨by simp,rfl,rfl⟩
  | some =>
    obtain ⟨hw,hn,ha,hguard⟩ := setGuard_eq hs
    refine .inr ⟨rfl,eq_false_of_ne_true hg,eq_false_of_ne_true hc,hw,?_,?_,hguard⟩
    · simp only [enrol,hn]
      rfl
    · simp only [enrol,ha]
      rfl

/-- The four keys are the same, as far as a script can tell at this time. -/
structure Quota.SameAt (now : Int) (q q' : Quota) : Prop where
  window : q'.window = q.window
  counter : q'.counter = q.counter
  admittedSet : q'.admittedSet = q.admittedSet
  guarded : ∀ x, q'.guarded x now = q.guarded x now

/-- Only admitted executions are released, unless the counter is at zero, and none is admitted
twice. -/
def QuotaCall.accounts (server : Server) (i : QuotaCall) (q : Quota) : Bool :=
  match i.op with
  | .checkAdmissionAndRecord a =>
    decide ((checkAdmissionAndRecord server a i.now q).1 ≠ .admitted ∨ a.executionId ∉ q.admittedSet)
  | .releaseAdmission x => decide (x ∈ q.admittedSet ∨ q.counter = 0)

def Quota.counts (q : Quota) : Prop := q.counter = q.admittedSet.card

def QuotaOp.capped (cap : Nat) : QuotaOp → Bool
  | checkAdmissionAndRecord a => decide (a.concurrencyCap = cap)
  | releaseAdmission _ => true

variable {i : QuotaCall} {cap : Nat}

theorem Admits.counter_succ (h : Admits a now q q') (hcap : 0 < a.concurrencyCap) : q'.counter = q.counter + 1 := by
  rw [h.counter,if_pos (double_pos hcap)]

theorem Admits.counter_lt (h : Admits a now q q') (hcap : 0 < a.concurrencyCap) : q.counter < a.concurrencyCap := by
  have hbelow : ¬ double a.concurrencyCap ≤ double q.counter :=
    fun hle => absurd h.below (by simp [concurrencyExceeded,double_pos hcap,hle])
  by_contra hge
  exact hbelow (double_mono (Nat.le_of_not_lt hge))

private theorem counter_le_next (hi : i.op.capped cap) (hcap : 0 < cap) (hq : q.counter ≤ cap) :
    (quotaNext server i q).counter ≤ cap := by
  obtain ⟨now,op⟩ := i
  cases op with
  | checkAdmissionAndRecord a =>
    obtain rfl : a.concurrencyCap = cap := of_decide_eq_true hi
    rcases check_cases server a now q with ⟨hr,hc,hs⟩ | ⟨hr,admits⟩
    · rw [quotaNext,quotaStep,hc]
      exact hq
    · rw [quotaNext,quotaStep,admits.counter_succ hcap]
      exact admits.counter_lt hcap
  | releaseAdmission => exact (Nat.sub_le _ _).trans hq

theorem release_of_not_admitted {x : String} (hx : x ∉ q.admittedSet) :
    q.SameAt now (releaseAdmission x q).2 ↔ q.counter = 0 ∧ q.guarded x now = false := by
  constructor
  · intro h
    have hc : q.counter - 1 = q.counter := h.counter
    refine ⟨by omega,?_⟩
    rw [← h.guarded x]
    simp [guarded,releaseAdmission]
  · rintro ⟨hc,hg⟩
    refine ⟨rfl,?_,erase_eq_of_notMem hx,fun y => ?_⟩
    · simp [releaseAdmission,hc]
    · by_cases hy : y = x
      · rw [hy,hg]
        simp [guarded,releaseAdmission]
      · simp [guarded,releaseAdmission,hy]

theorem enter_window_eq_iff : ((q.prune a).enter a.executionId a.nowMs).window = q.window ↔
      (a.executionId,a.nowMs) ∈ q.window ∧ ∀ e ∈ q.window,
        e = (a.executionId,a.nowMs) ∨ (e.1 ≠ a.executionId ∧ a.nowMs - a.windowMs < e.2) := by
  have hmem : ∀ e, e ∈ ((q.prune a).enter a.executionId a.nowMs).window ↔ e = (a.executionId,a.nowMs) ∨
        (e ∈ q.window ∧ a.nowMs - a.windowMs < e.2) ∧ e.1 ≠ a.executionId := by
    intro e
    simp [enter,prune]
  constructor
  · intro h
    refine ⟨h ▸ (hmem _).mpr (.inl rfl),fun e he => ?_⟩
    rw [← h,hmem] at he
    rcases he with he | ⟨⟨-,hlt⟩,hne⟩
    · exact .inl he
    · exact .inr ⟨hne,hlt⟩
  · rintro ⟨hin,hall⟩
    ext e
    rw [hmem]
    constructor
    · rintro (rfl | ⟨⟨he,-⟩,-⟩)
      · exact hin
      · exact he
    · intro he
      rcases hall e he with rfl | ⟨hne,hlt⟩
      · exact .inl rfl
      · exact .inr ⟨⟨he,hlt⟩,hne⟩

theorem release_of_admitted (h : Admits a now q q') (hcap : 0 < a.concurrencyCap) :
    q.SameAt now (releaseAdmission a.executionId q').2 ↔
      a.executionId ∉ q.admittedSet ∧ (a.executionId,a.nowMs) ∈ q.window ∧
        ∀ e ∈ q.window, e = (a.executionId,a.nowMs) ∨ (e.1 ≠ a.executionId ∧ a.nowMs - a.windowMs < e.2) := by
  have hset : (releaseAdmission a.executionId q').2.admittedSet = q.admittedSet.erase a.executionId := by
    simp [releaseAdmission,h.admittedSet]
  have hwindow : (releaseAdmission a.executionId q').2.window =
      ((q.prune a).enter a.executionId a.nowMs).window := h.window
  rw [← enter_window_eq_iff,← hwindow]
  constructor
  · intro same
    refine ⟨?_,same.window⟩
    rw [← same.admittedSet,hset]
    exact notMem_erase _ _
  · rintro ⟨hm,hw⟩
    refine ⟨hw,?_,hset.trans (erase_eq_of_notMem hm),fun x => ?_⟩
    · simp [releaseAdmission,h.counter_succ hcap]
    · by_cases hx : x = a.executionId
      · rw [hx,h.unguarded]
        simp [guarded,releaseAdmission]
      · simp [guarded,releaseAdmission,hx,h.guard x hx]

/-- Under a positive cap, in every run of checks and releases: the counter stays within the cap.
It is the number of admitted executions throughout exactly if only admitted executions are
released, unless the counter is at zero, and none is admitted again. In the state reached,
releasing an execution that is not admitted changes nothing exactly if the counter is zero and no
guard is up, and releasing one that has just been admitted restores the keys exactly if it was
not in the set and the window held it under this time with nothing expired. -/
theorem admissions_are_counted (server : Server) (cap : Nat) (calls : List QuotaCall) (hcap : 0 < cap)
    (hi : ∀ i ∈ calls, i.op.capped cap) : (quotaRun server calls).counter ≤ cap ∧
    (Throughout (quotaNext server) Quota.counts newQuota calls ↔
      Along (quotaNext server) (fun q i => i.accounts server q) newQuota calls) ∧
    (∀ now x, x ∉ (quotaRun server calls).admittedSet →
      ((quotaRun server calls).SameAt now (releaseAdmission x (quotaRun server calls)).2 ↔
        (quotaRun server calls).counter = 0 ∧ (quotaRun server calls).guarded x now = false)) ∧
    ∀ now a, a.concurrencyCap = cap → (checkAdmissionAndRecord server a now (quotaRun server calls)).1 = .admitted →
      ((quotaRun server calls).SameAt now (releaseAdmission a.executionId
          (checkAdmissionAndRecord server a now (quotaRun server calls)).2).2 ↔
        a.executionId ∉ (quotaRun server calls).admittedSet ∧ (a.executionId,a.nowMs) ∈ (quotaRun server calls).window ∧
        ∀ e ∈ (quotaRun server calls).window, e = (a.executionId,a.nowMs) ∨
          (e.1 ≠ a.executionId ∧ a.nowMs - a.windowMs < e.2)) := by
  refine ⟨?_,?_,fun now x hx => release_of_not_admitted hx,fun now a ha hr => ?_⟩
  · exact (Along.of_forall hi _).invariant (I := fun q : Quota => q.counter ≤ cap)
      (fun q i hq h => counter_le_next h hcap hq) (Nat.zero_le cap)
  · refine throughout_iff_along_of (J := fun _ => True) (fun _ _ _ _ => trivial) (fun q i _ h hq => ?_)
      trivial (Along.of_forall hi _) rfl
    obtain ⟨now,op⟩ := i
    unfold counts at hq ⊢
    cases op with
    | checkAdmissionAndRecord a =>
      have hcap' : a.concurrencyCap = cap := of_decide_eq_true h
      simp only [QuotaCall.accounts,quotaNext,quotaStep,decide_eq_true_eq]
      rcases check_cases server a now q with ⟨hr,hc,hs⟩ | ⟨hr,admits⟩
      · rw [hc,hs]
        exact iff_of_true (.inl hr) hq
      · rw [admits.counter_succ (hcap' ▸ hcap),admits.admittedSet,hq]
        by_cases hm : a.executionId ∈ q.admittedSet
        · simp [hr,hm]
        · simp [hm]
    | releaseAdmission x =>
      simp only [QuotaCall.accounts,quotaNext,quotaStep,releaseAdmission,decide_eq_true_eq]
      by_cases hm : x ∈ q.admittedSet
      · simp [hm,hq,card_erase_of_mem]
      · simp only [hm,false_or,erase_eq_of_notMem hm]
        omega
  · rcases check_cases server a now (quotaRun server calls) with ⟨hne,-⟩ | ⟨-,admits⟩
    · exact absurd hr hne
    · exact release_of_admitted admits (ha ▸ hcap)

namespace Client

/-- A window of one second and a cap of two. -/
def admission (executionId : String) (now : Int) : CheckAdmissionArgs where
  executionId := executionId
  nowMs := now
  windowSeconds := 1
  rateLimit := 0
  concurrencyCap := 2

def check (now : Int) (executionId : String) : QuotaCall := ⟨now,.checkAdmissionAndRecord (admission executionId now)⟩

def release (now : Int) (executionId : String) : QuotaCall := ⟨now,.releaseAdmission executionId⟩

/-- Two executions are admitted and one of them is released. -/
theorem two_admissions_are_counted : let calls := [check 1 "A",check 2 "B",release 3 "A"]
    Throughout (quotaNext .strict) counts newQuota calls ∧ (quotaRun .strict calls).counter = 1 :=
  ⟨(admissions_are_counted .strict 2 _ (by decide) (by decide)).2.1.mpr (by decide +kernel),
    by decide +kernel⟩

/-- Releasing an execution that was never admitted takes the counter from another one, admitting
one again after its guard has expired counts it twice, and a release leaves the window. -/
theorem admissions_miscounted :
    let foreign := quotaRun .strict [check 1 "A",release 2 "B"]
    let again := quotaRun .strict [check 1 "A",check 5000 "A"]
    let undone := quotaRun .strict [check 1 "A",release 1 "A"]
    (foreign.counter = 0 ∧ foreign.admittedSet = {"A"}) ∧ (again.counter = 2 ∧ again.admittedSet = {"A"}) ∧
      (checkAdmissionAndRecord .strict (admission "A" 1) 1 newQuota).1 = .admitted ∧
      newQuota.window = ∅ ∧ undone.window = {("A",1)} := by
  decide +kernel

end Client

/-- The limits of a quota policy. Zero is no limit. -/
structure QuotaPolicyLimits where
  (maxRequestsPerWindow requestsPerWindowSeconds activeConcurrencyCap : Nat)
  jitterMs : Nat := 0

namespace QuotaPolicyLimits
variable (l : QuotaPolicyLimits)

def isUnlimited : Bool := decide (l.maxRequestsPerWindow = 0 ∧ l.activeConcurrencyCap = 0)

/-- A window of zero seconds becomes a minute. -/
def windowSecs : Nat := if l.requestsPerWindowSeconds = 0 then 60 else l.requestsPerWindowSeconds

def admissionArgs (executionId : String) (nowMs : Int) (jitter : Nat) : CheckAdmissionArgs where
  executionId := executionId
  nowMs := nowMs
  windowSeconds := l.windowSecs
  rateLimit := l.maxRequestsPerWindow
  concurrencyCap := l.activeConcurrencyCap
  jitter := jitter

end QuotaPolicyLimits

inductive QuotaCheckOutcome
  | noQuota
  | blocked (detail : String)
  | admitted (quotaId executionId : String)

/-- What the scheduler makes of the reply. Anything but the four known ones is an error. -/
def QuotaReply.outcome (quotaId executionId : String) (l : QuotaPolicyLimits) :
    QuotaReply → Except String QuotaCheckOutcome
  | .admitted | .alreadyAdmitted => .ok (.admitted quotaId executionId)
  | .rateExceeded _ =>
    .ok (.blocked ("quota " ++ quotaId ++ ": rate limit " ++ toString l.maxRequestsPerWindow ++ "/" ++
      toString l.maxRequestsPerWindow ++ " per " ++ toString l.windowSecs ++ "s window"))
  | .concurrencyExceeded =>
    .ok (.blocked ("quota " ++ quotaId ++ ": concurrency cap " ++ toString l.activeConcurrencyCap))
  | .released | .raised => .error ("check_admission " ++ quotaId)

def checkQuota (server : Server) (quotaId executionId : String) (l : QuotaPolicyLimits) (nowMs : Int)
    (jitter : Nat) (now : Int) (q : Quota) : Except String QuotaCheckOutcome × Quota :=
  if l.isUnlimited then (.ok .noQuota,q)
  else
    let checked := checkAdmissionAndRecord server (l.admissionArgs executionId nowMs jitter) now q
    (checked.1.outcome quotaId executionId l,checked.2)

def QuotaReply.admits : QuotaReply → Bool
  | .admitted | .alreadyAdmitted => true
  | _ => false

theorem check_guard (h : (checkAdmissionAndRecord server a now q).1 ≠ .admitted) :
    (checkAdmissionAndRecord server a now q).2.guard = q.guard := by
  unfold checkAdmissionAndRecord at h ⊢
  by_cases hg : q.guarded a.executionId now
  · rw [if_pos hg]
  rw [if_neg hg] at h ⊢
  dsimp only at h ⊢
  split
  · rfl
  split
  · rfl
  cases hs : ((q.prune a).enter a.executionId a.nowMs).setGuard server a now with
  | none => rfl
  | some => simp_all

theorem check_alreadyAdmitted (h : (checkAdmissionAndRecord server a now q).1 = .alreadyAdmitted) :
    q.guarded a.executionId now = true := by
  by_contra hg
  unfold checkAdmissionAndRecord at h
  rw [if_neg hg] at h
  dsimp only at h
  split at h
  · cases h
  split at h
  · cases h
  split at h <;> cases h

end FlowFabric
