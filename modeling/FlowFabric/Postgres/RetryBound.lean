import FlowFabric.Postgres.Absorbing

/-! The retries of one execution. A failure comes in by the handle of a worker, by the arguments of
fail_execution or by the attempt_timeout reconciler, and each of the three asks something else
whether there is a retry left: the class of the failure, the retry_count of raw_fields, the attempt
index of the core row. -/
namespace FlowFabric.Postgres
open Foundation Option Nat

/-! ### The policy -/

def asU64 : Json → Option Nat
  | .num n => if 0 ≤ n ∧ n < 2 ^ 64 then some n.toNat else none
  | _ => none

/-- The max_retries of the text that comes with fail_execution. The cast drops the upper bits. -/
def parseRetryPolicy : JsonText → Nat
  | .doc value => ((value.field "max_retries").bind asU64).getD 0 % 2 ^ 32
  | .empty | .malformed => 0

variable (policy : Option Json)

/-- The max_retries that attempt_timeout reads out of the policy column. -/
def extractMaxRetries : Nat :=
  ((((policy.bind (·.field "retry_policy")).bind (·.field "max_retries")).bind asU64).filter (· < 2 ^ 32)).getD 0

def retryPolicyText : JsonText :=
  match policy.bind (·.field "retry_policy") with
  | some retryPolicy => .doc retryPolicy
  | none => .empty

/-- The policy is stored from a record whose max_retries has 32 bits. -/
def PolicyFits : Prop :=
  ∀ retryPolicy ∈ policy.bind (·.field "retry_policy"), ∀ n ∈ (retryPolicy.field "max_retries").bind asU64, n < 2 ^ 32

private theorem parseRetryPolicy_stored {policy : Option Json} (h : PolicyFits policy) :
    parseRetryPolicy (retryPolicyText policy) = extractMaxRetries policy := by
  rw [retryPolicyText,extractMaxRetries]
  cases hp : policy.bind (·.field "retry_policy") with
  | none => rfl
  | some retryPolicy =>
    rw [bind_some]
    dsimp only [parseRetryPolicy]
    cases hn : (retryPolicy.field "max_retries").bind asU64 with
    | none => rfl
    | some n =>
      have small : n < 2 ^ 32 := h retryPolicy hp n hn
      rw [getD_some,mod_eq_of_lt small,filter_some,if_pos (decide_eq_true small),getD_some]

/-! ### Failures -/

def Op.isFailure : Op → Bool
  | .worker _ (.fail _) | .failExecution .. | .expireAttempt _ => true
  | _ => false

/-- The failure is taken: the call commits, and the reconciler finds the attempt to be due. -/
def failureAccepted (c : Call) (r : Rows) : Bool :=
  c.op.isFailure && match step c r with
    | .ok done => decide (done.reply ≠ .nothing)
    | .error _ => false

/-! ### What an accepted failure leaves -/

variable {r : Rows} {done : Committed} {now : Int} {maxRetries : Nat} {a : EndArgs}

theorem failureAccepted_ok {c : Call} (h : failureAccepted c r = true) :
    c.op.isFailure = true ∧ ∃ done, step c r = .ok done ∧ done.reply ≠ .nothing := by
  rw [failureAccepted,Bool.and_eq_true] at h
  refine ⟨h.1,?_⟩
  cases hs : step c r with
  | ok done =>
    rw [hs] at h
    exact ⟨done,rfl,of_decide_eq_true h.2⟩
  | error =>
    rw [hs] at h
    exact absurd h.2 Bool.false_ne_true

def Rows.settled (r : Rows) : Prop := r.core.lifecyclePhase = .runnable ∨ r.core.lifecyclePhase = .terminal

private theorem fail_settled {h : Handle} {classification : FailureClass}
    (hs : fail h classification now r = .ok done) : done.rows.settled := by
  rw [fail] at hs
  split at hs
  · simp only [failRetry,bind_ok,pure_ok] at hs
    obtain ⟨-,-,-,-,rfl⟩ := hs
    exact .inl rfl
  · simp only [failTerminal,fenced,bind_ok,pure_ok] at hs
    obtain ⟨-,-,rfl⟩ := hs
    exact .inr rfl

theorem failExecution_ok (hs : failExecution a maxRetries now r = .ok done) : done.rows = (r.failedFor a now).updateCore
      (if r.core.rawFields.retryCount < maxRetries then CoreRow.backedOff else .failed now) := by
  simp only [failExecution,bind_ok] at hs
  obtain ⟨-,-,row,-,-,-,-,-,hd⟩ := hs
  split at hd
  · rename_i hc
    rw [← (pure_ok _ _).mp hd,if_pos hc]
  · rename_i hc
    rw [← (pure_ok _ _).mp hd,if_neg hc]

theorem expireAttempt_settled {i : Nat}
    (hs : expireAttempt i now r = .ok done) (hr : done.reply ≠ .nothing) : done.rows.settled := by
  rw [expireAttempt] at hs
  split at hs
  · split at hs
    · simp only [bind_ok,pure_ok] at hs
      obtain ⟨-,-,rfl⟩ := hs
      exact .inl rfl
    · rw [← (pure_ok _ _).mp hs]
      exact .inr rfl
  · cases hs
    exact absurd rfl hr

theorem next_settled {c : Call} (h : failureAccepted c r = true) : (next c r).settled := by
  obtain ⟨hf,done,hs,hr⟩ := failureAccepted_ok h
  rw [next_of_ok hs]
  obtain ⟨op,now⟩ := c
  cases op with
  | worker h op =>
    cases op with
    | fail => exact fail_settled hs
    | renew | progress | complete | delay | waitChildren | suspend | appendFrame => cases hf
  | failExecution =>
    rw [failExecution_ok hs]
    split
    · exact .inl rfl
    · exact .inr rfl
  | expireAttempt => exact expireAttempt_settled hs hr
  | _ => cases hf

/-! ### Counting -/

/-- The rows with the retries that have been scheduled so far and the failures that were accepted. -/
structure Retries where
  rows : Rows
  (scheduled failures : Nat := 0)

open Retries

namespace Retries

/-- A failure schedules a retry when it leaves the execution to be claimed again. -/
def after (c : Call) (s : Retries) : Retries where
  rows := next c s.rows
  scheduled :=
    if failureAccepted c s.rows = true ∧ (next c s.rows).core.lifecyclePhase = .runnable then s.scheduled + 1
    else s.scheduled
  failures := if failureAccepted c s.rows = true then s.failures + 1 else s.failures

structure Bounded (s : Retries) (c : Call) : Prop where
  scheduled : (s.after c).scheduled ≤ s.rows.core.maxRetries
  failures : (s.after c).failures ≤ s.rows.core.maxRetries + 1
  exhausted : failureAccepted c s.rows = true → s.scheduled = s.rows.core.maxRetries →
    (next c s.rows).core.lifecyclePhase = .terminal ∧ (next c s.rows).core.publicState = .failed

/-- The calls of a run: no replay starts the count anew, and fail_execution has the policy that is stored. -/
def Plain (policy : Option Json) (c : Call) : Prop :=
  c.op ≠ .replayExecution ∧
    ∀ a maxRetries, c.op = .failExecution a maxRetries → maxRetries = parseRetryPolicy (retryPolicyText policy)

/-- Nothing is written on an ended execution, and the failure after the last retry is one that
fail_execution is told of and has counted the retries for. -/
structure Rationed (s : Retries) (c : Call) : Prop where
  live : s.rows.core.isEnded → failureAccepted c s.rows = false ∧ ¬ c.op.overwrites c.now s.rows
  last : failureAccepted c s.rows = true → s.scheduled = s.rows.core.maxRetries →
    (∃ a maxRetries, c.op = .failExecution a maxRetries) ∧ s.rows.core.maxRetries ≤ s.rows.core.rawFields.retryCount

/-- One failure ends an execution, and every other one has scheduled a retry. -/
structure Counted (policy : Option Json) (s : Retries) : Prop where
  stored : s.rows.core.maxRetries = parseRetryPolicy (retryPolicyText policy)
  scheduled : s.scheduled ≤ s.rows.core.maxRetries
  failures : s.failures ≤ s.scheduled + if s.rows.core.isEnded then 1 else 0

variable {policy : Option Json} {s : Retries} {c : Call}

theorem Counted.of_open (h : s.Counted policy) (ho : ¬ s.rows.core.isEnded) : s.failures ≤ s.scheduled := by
  have := h.failures
  rwa [if_neg ho] at this

theorem Rationed.exhausted (h : s.Counted policy) (hp : Plain policy c) (hr : s.Rationed c)
    (ha : failureAccepted c s.rows = true) (hs : s.scheduled = s.rows.core.maxRetries) :
    (next c s.rows).core.lifecyclePhase = .terminal ∧ (next c s.rows).core.publicState = .failed := by
  obtain ⟨op,now⟩ := c
  obtain ⟨⟨a,maxRetries,rfl⟩,hc⟩ := hr.last ha hs
  obtain rfl : maxRetries = s.rows.core.maxRetries := (hp.2 a maxRetries rfl).trans h.stored.symm
  obtain ⟨-,done,hs,-⟩ := failureAccepted_ok ha
  rw [next_of_ok hs,failExecution_ok hs,if_neg (not_lt.mpr hc)]
  exact ⟨rfl,rfl⟩

theorem Rationed.isEnded (hp : Plain policy c) (hr : s.Rationed c) (he : s.rows.core.isEnded) :
    (next c s.rows).core.isEnded := by
  rcases next_writes c s.rows with h | hw
  · rwa [h]
  · exact (hw.sameEnd he (fun ho => absurd ho hp.1) (hr.live he).2).isEnded.mpr he

theorem after_maxRetries (s : Retries) (c : Call) : (s.after c).rows.core.maxRetries = s.rows.core.maxRetries := by
  rcases next_writes c s.rows with h | hw
  · rw [after,h]
  · exact hw.kept.1

section
variable (h : s.Counted policy)
include h

variable (hp : Plain policy c) (hr : s.Rationed c)
include hp hr

theorem Counted.after : (s.after c).Counted policy := by
  by_cases ha : failureAccepted c s.rows = true
  · have ho : ¬ s.rows.core.isEnded := by
      intro he
      rw [(hr.live he).1] at ha
      cases ha
    rcases next_settled ha with hn | hn
    · have scheduled : (s.after c).scheduled = s.scheduled + 1 := if_pos ⟨ha,hn⟩
      have failures : (s.after c).failures = s.failures + 1 := if_pos ha
      have left : s.scheduled ≠ s.rows.core.maxRetries := by
        intro hm
        have ended := (hr.exhausted h hp ha hm).1
        rw [hn] at ended
        cases ended
      have few := h.of_open ho
      have bound := h.scheduled
      refine ⟨(after_maxRetries s c).trans h.stored,?_,?_⟩
      · rw [scheduled,after_maxRetries]
        omega
      · rw [scheduled,failures]
        omega
    · have scheduled : (s.after c).scheduled = s.scheduled := by
        refine if_neg fun hx => ?_
        rw [hn] at hx
        cases hx.2
      have failures : (s.after c).failures = s.failures + 1 := if_pos ha
      have ended : (s.after c).rows.core.isEnded := .inl hn
      refine ⟨(after_maxRetries s c).trans h.stored,?_,?_⟩
      · rw [scheduled,after_maxRetries]
        exact h.scheduled
      · rw [scheduled,failures,if_pos ended]
        exact succ_le_succ (h.of_open ho)
  · have scheduled : (s.after c).scheduled = s.scheduled := if_neg fun hx => ha hx.1
    have failures : (s.after c).failures = s.failures := if_neg ha
    refine ⟨(after_maxRetries s c).trans h.stored,?_,?_⟩
    · rw [scheduled,after_maxRetries]
      exact h.scheduled
    · rw [scheduled,failures]
      by_cases he : s.rows.core.isEnded
      · have ended : (s.after c).rows.core.isEnded := hr.isEnded hp he
        have few := h.failures
        rw [if_pos he] at few
        rwa [if_pos ended]
      · exact (h.of_open he).trans (le_add_right _ _)

end

/-- An execution gets no more retries than its policy allows, when the failure after the last of them is
fail_execution's and nothing is written once it has ended. -/
theorem retries_bounded (policy : Option Json) (hp : PolicyFits policy) (r : Rows)
    (hr : r.core.maxRetries = extractMaxRetries policy) (cs : List Call)
    (hc : Along after (fun s c => Plain policy c ∧ s.Rationed c) ⟨r,0,0⟩ cs) : Along after Bounded ⟨r,0,0⟩ cs := by
  have start : Counted policy ⟨r,0,0⟩ := ⟨hr.trans (parseRetryPolicy_stored hp).symm,zero_le _,zero_le _⟩
  refine Along.weaken (J := Counted policy) ?_ ?_ start hc
  · intro s c hs h
    have later := hs.after h.1 h.2
    have scheduled := later.scheduled
    have failures := later.failures
    rw [after_maxRetries] at scheduled
    refine ⟨scheduled,?_,h.2.exhausted hs h.1⟩
    split at failures <;> omega
  · intro s c hs h
    exact hs.after h.1 h.2

end Retries

namespace Client

def onePolicy : Json := .obj [("retry_policy",.obj [("max_retries",.num 1)])]

def retryable : Rows := { core := { waiting with maxRetries := 1, deadlineAtMs := some 5 } }

def failsBy (leaseEpoch : Nat) (now : Int) : Call := ⟨.failExecution ⟨some leaseEpoch,.leaseHolder,0⟩ 1,now⟩

/-- The execution fails, is promoted when the deadline has passed, and fails again. -/
def failsTwice : List Call := [claims alice 0,failsBy 1 1,⟨.promoteDelayed,6⟩,claims alice 7,failsBy 2 8]

theorem failing_twice_bounded : Along after Retries.Bounded ⟨retryable,0,0⟩ failsTwice ∧
      (runFrom after ⟨retryable,0,0⟩ failsTwice).scheduled = 1 ∧
      (runFrom after ⟨retryable,0,0⟩ failsTwice).failures = 2 := by
  have fits : PolicyFits (some onePolicy) := by
    rintro retryPolicy ⟨⟩ n ⟨⟩
    decide
  have other {s : Retries} {c : Call} (hp : Retries.Plain (some onePolicy) c) (ho : ¬ s.rows.core.isEnded)
      (hf : failureAccepted c s.rows = false) : Retries.Plain (some onePolicy) c ∧ s.Rationed c :=
    ⟨hp,fun he => absurd he ho,fun ha => absurd ha (by rw [hf]; decide)⟩
  refine ⟨retries_bounded (some onePolicy) fits retryable rfl failsTwice ⟨?_,?_,?_,?_,?_,trivial⟩,
    by decide,by decide⟩
  · exact other ⟨fun h => (nomatch h),fun _ _ h => (nomatch h)⟩ (by decide) rfl
  · exact ⟨⟨fun h => (nomatch h),fun _ _ h => by cases h; rfl⟩,fun he => absurd he (by decide),
      fun _ hs => absurd hs (by decide)⟩
  · exact other ⟨fun h => (nomatch h),fun _ _ h => (nomatch h)⟩ (by decide) rfl
  · exact other ⟨fun h => (nomatch h),fun _ _ h => (nomatch h)⟩ (by decide) rfl
  · exact ⟨⟨fun h => (nomatch h),fun _ _ h => by cases h; rfl⟩,fun he => absurd he (by decide),
      fun _ _ => ⟨⟨_,_,rfl⟩,by decide⟩⟩

def failsAs (classification : FailureClass) : List Call := [claims alice 0,does 0 1 (.fail classification) 1]

/-- A transient failure is retried where the policy has no retry, and a permanent one ends the execution
with the public state of one that runs. -/
theorem retried_beyond_policy :
    fresh.core.maxRetries = 0 ∧ ¬ Along after Retries.Bounded ⟨fresh,0,0⟩ (failsAs .transient) ∧
      ¬ Along after Retries.Bounded ⟨fresh,0,0⟩ (failsAs .permanent) := by
  refine ⟨rfl,fun h => ?_,fun h => ?_⟩
  · exact absurd h.2.1.scheduled (by decide)
  · exact absurd (h.2.1.exhausted (by decide) (by decide)).2 (by decide)

end Client
end FlowFabric.Postgres
