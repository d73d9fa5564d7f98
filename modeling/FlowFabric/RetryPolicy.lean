import FlowFabric.Effect

/-! The retry policy of a failed execution: when ff_fail_execution, which has ended the attempt before it reads
the policy, carries the failure out as a whole. -/
namespace FlowFabric
open Foundation Double

/-- The limit as it is compared with the retries made. -/
def maxRetries (document : Json) : Option Double :=
  match document.field "max_retries" with
  | none | some (.bool false) => some (.finite 0)
  | some limit => limit.toNumber

/-- The delay that a table names is a number: none that it is calculated from is not one, and it is not zero
times an infinite one. -/
def DelayReads (table : Json) (retryCount : Nat) : Prop :=
  match table.field "type" with
  | some (.str "exponential") =>
    (backoffField table "initial_delay_ms" 1000).mul ((backoffField table "multiplier" 2).pow retryCount) ≠ .nan
  | some (.str "fixed") => backoffField table "delay_ms" 1000 ≠ .nan
  | _ => True

/-- A table, a text, or nothing: what can be asked for its type. -/
def BackoffReads (retryCount : Nat) : Option Json → Prop
  | some .null | some (.bool true) | some (.num _) | some (.float _) => False
  | some (.arr items) => DelayReads (.arr items) retryCount
  | some (.obj fields) => DelayReads (.obj fields) retryCount
  | _ => True

def PolicyReads (policy : JsonText) (retryCount : Nat) : Prop :=
  ∀ document, policy = .doc document → document.isTable → ∃ n, maxRetries document = some n ∧
    ((ofInt retryCount).lt n = true → BackoffReads retryCount (document.field "backoff"))

section
variable {policy : JsonText} {retryCount : Nat} {x y : Double}

private theorem min_ne_nan : x.min y ≠ .nan ↔ x ≠ .nan := by
  have numbers : y.lt x = true → x ≠ .nan ∧ y ≠ .nan := by
    cases x <;> cases y <;> simp [Double.lt]
  unfold Double.min
  split
  · rename_i h
    simp [numbers h]
  · rfl

private theorem add_ne_nan (q : ℚ) : (finite q).add x ≠ .nan ↔ x ≠ .nan := by
  cases x with
  | finite p =>
    refine iff_of_true ?_ (by simp)
    simp only [add,ofRat]
    split <;> simp
  | nan | infinite => simp [add]

private theorem tableBackoffMs_ne_nan (table : Json) :
    tableBackoffMs table retryCount ≠ .nan ↔ DelayReads table retryCount := by
  unfold tableBackoffMs DelayReads
  split <;> simp_all [min_ne_nan]

private theorem backoffMs_iff (backoff : Option Json) :
    (∃ d, backoffMs backoff retryCount = some d ∧ d ≠ .nan) ↔ BackoffReads retryCount backoff := by
  cases backoff with
  | none => simp [backoffMs,BackoffReads]
  | some j =>
    cases j with
    | bool b => cases b <;> simp [backoffMs,BackoffReads]
    | arr | obj => simp [backoffMs,BackoffReads,tableBackoffMs_ne_nan]
    | _ => simp [backoffMs,BackoffReads]

private theorem retryDecision_iff : (∃ decision, retryDecision policy retryCount = some decision ∧
    decision ≠ some .nan) ↔ PolicyReads policy retryCount := by
  cases policy with
  | empty | malformed => simp [retryDecision,PolicyReads]
  | doc document =>
    have decision (ht : document.isTable) : retryDecision (.doc document) retryCount = (maxRetries document).bind fun n =>
        if (ofInt retryCount).lt n then (backoffMs (document.field "backoff") retryCount).map some
        else some none := by
      simp only [retryDecision,ht,if_true,maxRetries]
      cases document.field "max_retries" with
      | none => rfl
      | some limit =>
        cases limit with
        | bool b => cases b <;> rfl
        | _ => rfl
    by_cases ht : document.isTable
    · rw [decision ht]
      cases hn : maxRetries document with
      | none => simp [PolicyReads,ht,hn]
      | some n =>
        by_cases retries : (ofInt retryCount).lt n = true
        · simp [PolicyReads,ht,hn,retries,← backoffMs_iff]
        · simp [PolicyReads,ht,hn,retries]
    · simp [retryDecision,PolicyReads,ht]

end

/-- Under a valid lease the failure is carried out as a whole if and only if the policy can be read. If not,
the attempt is over and its execution still active, or the execution is put off and in no index. -/
theorem fail_completes_iff (s : Store) (a : FailArgs) (now : Int) (c : ExecCore) (fence : Fence)
    (hc : s.core = some c) (hf : fenceOrOverride c a.fence a.source = .ok fence) (held : checkLease c fence now = .valid)
    (hnow : |now| < clockEnd) :
    let t := step ⟨now,.fail a⟩ s
    ((∃ delayUntil, t = (.ok ["retry_scheduled",delayUntil.text],failRetry a c delayUntil (failEnd a now s))) ∨
        t = (.ok ["terminal_failed"],failTerminal a c now (failEnd a now s)) ↔
      PolicyReads a.retryPolicyJson c.retryCount) ∧ (¬ PolicyReads a.retryPolicyJson c.retryCount → t.1 = .raised ∧
      (t.2 = failRetry a c .nan (failEnd a now s) ∨ t.2.core = some c ∧ c.lifecyclePhase = .active ∧
        ∃ r, t.2.attempt a.keys.attemptIndex = some r ∧ r.attemptState = .endedFailure ∧ r.endedAt = some now)) := by
  intro t
  have active := (checkLease_valid held).active
  have result : t = (retryDecision a.retryPolicyJson c.retryCount).elim (.raised,failEnd a now s) fun decision =>
      decision.elim (.ok ["terminal_failed"],failTerminal a c now (failEnd a now s)) fun backoff =>
        let delayUntil := (ofInt now).add backoff
        (if delayUntil = .nan then .raised else .ok ["retry_scheduled",delayUntil.text],
          failRetry a c delayUntil (failEnd a now s)) := by
    change commit s (failExecution a now s) = _
    rw [failExecution,hc]
    change commit s (fenceOrOverride c a.fence a.source >>= _) = _
    rw [hf]
    change commit s (validateLeaseAndMarkExpired c fence now s _) = _
    rw [validateLeaseAndMarkExpired,held]
    rcases retryDecision a.retryPolicyJson c.retryCount with - | - | - <;> rfl
  have raised (h : t.1 = .raised) : ¬ ((∃ delayUntil, t = (.ok ["retry_scheduled",delayUntil.text],
      failRetry a c delayUntil (failEnd a now s))) ∨ t = (.ok ["terminal_failed"],failTerminal a c now (failEnd a now s))) := by
    rintro (⟨delayUntil,ht⟩ | ht) <;> rw [ht] at h <;> cases h
  rw [← retryDecision_iff]
  cases hd : retryDecision a.retryPolicyJson c.retryCount with
  | none =>
    rw [hd] at result
    exact ⟨iff_of_false (raised (by rw [result]; rfl)) (by simp),fun _ => ⟨by rw [result]; rfl,
      .inr ⟨by rw [result]; exact hc,active,_,by rw [result]; exact if_pos rfl,rfl,rfl⟩⟩⟩
  | some decision =>
    rw [hd] at result
    cases decision with
    | none => exact ⟨iff_of_true (.inr result) ⟨_,rfl,by simp⟩,fun h => (h ⟨_,rfl,by simp⟩).elim⟩
    | some backoff =>
      have sum : (ofInt now).add backoff ≠ .nan ↔ backoff ≠ .nan := by
        rw [ofInt_of_lt (hnow.trans (by decide))]
        exact add_ne_nan _
      by_cases hb : backoff = .nan
      · have overflow : (ofInt now).add backoff = .nan := not_not.mp (sum.not.mpr (not_not.mpr hb))
        have stopped : t = (.raised,failRetry a c .nan (failEnd a now s)) := by
          rw [result]
          change (if _ then _ else _,failRetry a c _ _) = _
          rw [if_pos overflow,overflow]
        exact ⟨iff_of_false (raised (by rw [stopped])) (by simp [hb]),fun _ => by simp [stopped]⟩
      · have reads : ∃ decision, some (some backoff) = some decision ∧ decision ≠ some .nan := ⟨_,rfl,by simpa using hb⟩
        refine ⟨iff_of_true (.inl ⟨(ofInt now).add backoff,?_⟩) reads,fun h => (h reads).elim⟩
        rw [result]
        change (if _ then _ else _,failRetry a c _ _) = _
        rw [if_neg (sum.mpr hb)]

namespace Client

def failing (policy : Json) : FailArgs :=
  { executionId := "e", fence := ⟨"L1","1","a1"⟩, failureReason := "boom", retryPolicyJson := .doc policy
    keys := { workerInstanceId := "wi" } }

def working : Store := run [create 10,grant 11,claim 12 "L1" "a1"]

/-- Three retries, written as a text, without a backoff. -/
theorem fail_completes_plain : let a := failing (.obj [("max_retries",.str "3.0")])
    ∃ c, working.core = some c ∧ ((∃ delayUntil, step ⟨13,.fail a⟩ working =
          (.ok ["retry_scheduled",delayUntil.text],failRetry a c delayUntil (failEnd a 13 working))) ∨
        step ⟨13,.fail a⟩ working = (.ok ["terminal_failed"],failTerminal a c 13 (failEnd a 13 working))) := by
  intro a
  refine ⟨_,rfl,(fail_completes_iff working a 13 _ ⟨"L1","1","a1"⟩ rfl rfl rfl (by decide)).1.mpr ?_⟩
  rintro _ ⟨⟩ -
  exact ⟨.finite 3,by decide +kernel,fun _ => trivial⟩

/-- With a backoff that is null, and with a delay that is not a number. -/
theorem fail_stops_halfway :
    let i (backoff : Json) : Call := ⟨13,.fail (failing (.obj [("max_retries",.num 3),("backoff",backoff)]))⟩
    let unread := step (i .null) working
    let unscheduled := step (i (.obj [("type",.str "fixed"),("delay_ms",.str "nan")])) working
    unread.1 = .raised ∧ (unread.2.attempt 0).map (·.attemptState) = some .endedFailure ∧
      unread.2.core.map (fun c => (c.lifecyclePhase,c.ownershipState)) = some (.active,.leased) ∧
    unscheduled.1 = .raised ∧ unscheduled.2.core.map (·.lifecyclePhase) = some .runnable ∧
      unscheduled.2.zset .delayed = none := by
  decide +kernel

end Client
end FlowFabric
