import FlowFabric.Foundation.Run
import Mathlib.Algebra.Group.Nat.Defs

/-! The circuit breaker layer of the SDK. Every call of the hooked backend runs the before hook, the
inner call and the after hook; a call that is turned away skips the inner call only. The hooks share
one state and no call is told apart from another in it. -/
namespace FlowFabric.Layer
open Foundation Function

/-- The errors of a backend call. The hooks look for the transport fault alone. -/
inductive EngineError where
  | notFound
  | validation
  | contention
  | conflict
  | state
  | bug
  | transport (backend source : String)
  | unavailable
  | resourceExhausted
  | timeout
  | streamDisconnected
  | streamBackpressure
  | contextual (source : EngineError) (context : String)
  deriving DecidableEq

def isTransport : EngineError → Bool
  | .transport _ _ => true
  | .contextual source _ => isTransport source
  | _ => false

inductive HookOutcome where
  | ok
  | err (e : EngineError)
  deriving DecidableEq

def HookOutcome.isTransportErr : HookOutcome → Bool
  | .err e => isTransport e
  | .ok => false

inductive Admit where
  | proceed
  | reject (err : EngineError)

def syntheticOpenError : EngineError := .transport "ff-sdk-layer" "circuit open"

structure CircuitBreakerConfig where
  (failureThreshold coolDown : Nat)

inductive BreakerState where
  | closed (consecutiveFailures : Nat)
  | opened (openedAt : Nat)
  | halfOpen
  deriving DecidableEq

variable (config : CircuitBreakerConfig)

def before (now : Nat) : BreakerState → Admit × BreakerState
  | .closed n => (.proceed,.closed n)
  | .opened openedAt =>
    if config.coolDown ≤ now - openedAt then (.proceed,.halfOpen)
    else (.reject syntheticOpenError,.opened openedAt)
  | .halfOpen => (.reject syntheticOpenError,.halfOpen)

/-- The number of failures is a saturating u32. -/
def saturatingSucc (n : Nat) : Nat := min (n + 1) (2 ^ 32 - 1)

def after (now : Nat) (outcome : HookOutcome) : BreakerState → BreakerState
  | .closed consecutiveFailures =>
    if outcome.isTransportErr then
      if config.failureThreshold ≤ saturatingSucc consecutiveFailures then .opened now
      else .closed (saturatingSucc consecutiveFailures)
    else if outcome = .ok then .closed 0
    else .closed consecutiveFailures
  | .opened openedAt => .opened openedAt
  | .halfOpen => if outcome.isTransportErr then .opened now else .closed 0

inductive CallPhase where
  | idle
  | admitted
  | rejected (err : EngineError)
  | returned (outcome : HookOutcome)
  | done
  deriving DecidableEq

/-- What the after hook of the call is given, once it can run. -/
def CallPhase.outcome : CallPhase → Option HookOutcome
  | .rejected err => some (.err err)
  | .returned outcome => some outcome
  | _ => none

def Admit.phase : Admit → CallPhase
  | .proceed => .admitted
  | .reject err => .rejected err

/-- The breaker among its calls. The trial is the call that was admitted when the breaker last went
half-open, which the code does not record. -/
structure Breaker where
  state : BreakerState
  calls : Nat → CallPhase
  trial : Option Nat

def Breaker.layer : Breaker := ⟨.closed 0,fun _ => .idle,none⟩

/-- The steps of with_hooks!, each for one call. -/
inductive HookStep where
  | before (call now : Nat)
  | inner (call : Nat) (outcome : HookOutcome)
  | after (call now : Nat)

def Breaker.runBefore (call now : Nat) (b : Breaker) : Breaker where
  state := (before config now b.state).2
  calls := Function.update b.calls call (before config now b.state).1.phase
  trial := if b.state ≠ .halfOpen ∧ (before config now b.state).2 = .halfOpen then some call else b.trial

def Breaker.runAfter (call now : Nat) (outcome : HookOutcome) (b : Breaker) : Breaker :=
  { b with state := after config now outcome b.state, calls := Function.update b.calls call .done }

/-- A step of a call that is not there yet, or past it already, changes nothing. -/
def hookNext : HookStep → Breaker → Breaker
  | .before call now, b => if b.calls call = .idle then b.runBefore config call now else b
  | .inner call outcome, b =>
    if b.calls call = .admitted then { b with calls := Function.update b.calls call (.returned outcome) } else b
  | .after call now, b =>
    match (b.calls call).outcome with
    | some outcome => b.runAfter config call now outcome
    | none => b

section
variable {config : CircuitBreakerConfig} {call now : Nat} {outcome : HookOutcome} {b : Breaker}

theorem hookNext_before (h : b.calls call = .idle) :
    hookNext config (.before call now) b = b.runBefore config call now := if_pos h

theorem hookNext_before_of_ne (h : b.calls call ≠ .idle) : hookNext config (.before call now) b = b := if_neg h

theorem hookNext_after (h : (b.calls call).outcome = some outcome) :
    hookNext config (.after call now) b = b.runAfter config call now outcome := by
  simp only [hookNext,h]

theorem hookNext_after_of_none (h : (b.calls call).outcome = none) : hookNext config (.after call now) b = b := by
  simp only [hookNext,h]

@[simp] theorem hookNext_inner_state : (hookNext config (.inner call outcome) b).state = b.state := by
  simp only [hookNext]
  split <;> rfl

@[simp] theorem hookNext_inner_trial : (hookNext config (.inner call outcome) b).trial = b.trial := by
  simp only [hookNext]
  split <;> rfl

theorem before_halfOpen {s : BreakerState} (hs : s ≠ .halfOpen) (h : (before config now s).2 = .halfOpen) :
    (before config now s).1 = .proceed := by
  cases s with
  | closed => cases h
  | opened =>
    simp only [before] at h ⊢
    split at h
    · rw [if_pos ‹_›]
    · cases h
  | halfOpen => exact absurd rfl hs

theorem after_ne_halfOpen (s : BreakerState) : after config now outcome s ≠ .halfOpen := by
  cases s with
  | closed =>
    simp only [after]
    split
    · split <;> simp
    · split <;> simp
  | opened => simp [after]
  | halfOpen =>
    simp only [after]
    split <;> simp

end

/-- While the breaker is half-open its trial has not run its after hook. -/
def Breaker.TrialPending (b : Breaker) : Prop :=
  b.state = .halfOpen → ∃ call, b.trial = some call ∧
    (b.calls call = .admitted ∨ ∃ outcome, b.calls call = .returned outcome)

open Breaker

private theorem trialPending_next (config : CircuitBreakerConfig) (b : Breaker) (i : HookStep) (h : b.TrialPending) :
    (hookNext config i b).TrialPending := by
  cases i with
  | before call =>
    by_cases idle : b.calls call = .idle
    · rw [hookNext_before idle]
      intro half
      by_cases hs : b.state = .halfOpen
      · obtain ⟨t,ht,phase⟩ := h hs
        -- The trial is not the idle call that asks to be let in.
        have ne : t ≠ call := by
          rintro rfl
          rcases phase with phase | ⟨o,phase⟩ <;> simp [idle] at phase
        refine ⟨t,?_,?_⟩
        · simpa [runBefore,hs] using ht
        · simpa [runBefore,update_of_ne ne] using phase
      · have admitted := before_halfOpen hs half
        refine ⟨call,?_,.inl ?_⟩
        · exact if_pos ⟨hs,half⟩
        · simp [runBefore,admitted,Admit.phase]
    · rwa [hookNext_before_of_ne idle]
  | inner call outcome =>
    intro half
    rw [hookNext_inner_state] at half
    obtain ⟨t,ht,phase⟩ := h half
    refine ⟨t,by rwa [hookNext_inner_trial],?_⟩
    simp only [hookNext]
    split
    · by_cases same : t = call
      · subst same
        exact .inr ⟨outcome,by simp⟩
      · simpa [update_of_ne same] using phase
    · exact phase
  | after call =>
    cases ho : (b.calls call).outcome with
    | none => rwa [hookNext_after_of_none ho]
    | some =>
      rw [hookNext_after ho]
      intro half
      exact absurd half (after_ne_halfOpen b.state)

structure Disciplined (config : CircuitBreakerConfig) (b : Breaker) (i : HookStep) : Prop where
  /-- A half-open period begins with the admission of its trial. -/
  starts : b.state ≠ .halfOpen → (hookNext config i b).state = .halfOpen → ∃ call now, i = .before call now ∧
    b.calls call = .idle ∧ (hookNext config i b).calls call = .admitted ∧ (hookNext config i b).trial = some call
  /-- No other call is admitted. -/
  admits : b.state = .halfOpen → ∀ call, (hookNext config i b).calls call = .admitted → b.calls call = .admitted
  /-- The period ends only with the result of the trial. -/
  ends : b.state = .halfOpen → (hookNext config i b).state ≠ .halfOpen → ∃ call now outcome,
    i = .after call now ∧ b.trial = some call ∧ b.calls call = .returned outcome
  /-- That result closes the breaker unless it is a transport error, which opens it again. -/
  resolves : b.state = .halfOpen → ∀ call now outcome, i = .after call now → b.trial = some call →
    b.calls call = .returned outcome →
    (hookNext config i b).state = if outcome.isTransportErr then .opened now else .closed 0
  /-- A call that was turned away leaves the state alone. -/
  rejected : b.state = .halfOpen → ∀ call now err, i = .after call now → b.calls call = .rejected err →
    (hookNext config i b).state = .halfOpen
  /-- So does the late result of a call that is not the trial. -/
  late : b.state = .halfOpen → ∀ call now outcome, i = .after call now → b.trial ≠ some call →
    b.calls call = .returned outcome → (hookNext config i b).state = .halfOpen

/-- No after hook runs while the breaker is half-open but that of the trial. -/
def OwnAfter (b : Breaker) : HookStep → Prop
  | .after call _ => b.state = .halfOpen → (b.calls call).outcome.isSome → b.trial = some call
  | _ => True

section
variable {config : CircuitBreakerConfig} {b : Breaker} {call now : Nat}

private theorem disciplined_before (call now : Nat) (b : Breaker) : Disciplined config b (.before call now) := by
  by_cases idle : b.calls call = .idle
  · constructor
    · rw [hookNext_before idle]
      intro hs half
      refine ⟨call,now,rfl,idle,?_,if_pos ⟨hs,half⟩⟩
      simp [runBefore,before_halfOpen hs half,Admit.phase]
    · rw [hookNext_before idle]
      intro hs other
      by_cases same : other = call
      · subst same
        simp [runBefore,hs,before,Admit.phase]
      · simp [runBefore,update_of_ne same]
    · rw [hookNext_before idle]
      intro hs left
      simp [runBefore,hs,before] at left
    all_goals
      intro _ _ _ _ i
      cases i
  · constructor <;> rw [hookNext_before_of_ne idle]
    · intro hs half
      exact absurd half hs
    · exact fun _ _ h => h
    · intro hs left
      exact absurd hs left
    all_goals
      intro _ _ _ _ i
      cases i

private theorem disciplined_inner (call : Nat) (outcome : HookOutcome) (b : Breaker) :
    Disciplined config b (.inner call outcome) := by
  constructor
  · rw [hookNext_inner_state]
    intro hs half
    exact absurd half hs
  · intro hs other
    simp only [hookNext]
    split
    · by_cases same : other = call
      · subst same
        simp
      · simp [update_of_ne same]
    · exact id
  · rw [hookNext_inner_state]
    intro hs left
    exact absurd hs left
  all_goals
    intro _ _ _ _ i
    cases i

private theorem disciplined_after (h : b.TrialPending) (own : OwnAfter b (.after call now)) :
    Disciplined config b (.after call now) := by
  cases ho : (b.calls call).outcome with
  | none =>
    -- The call is not there yet: nothing happens.
    constructor <;> rw [hookNext_after_of_none ho]
    · intro hs half
      exact absurd half hs
    · exact fun _ _ h => h
    · intro hs left
      exact absurd hs left
    · intro _ _ _ _ i _ phase
      cases i
      simp [phase,CallPhase.outcome] at ho
    · exact fun hs _ _ _ _ _ => hs
    · exact fun hs _ _ _ _ _ _ => hs
  | some outcome =>
    have trial (hs : b.state = .halfOpen) : b.trial = some call := own hs (by simp [ho])
    have returned (hs : b.state = .halfOpen) : b.calls call = .returned outcome := by
      obtain ⟨t,ht,phase⟩ := h hs
      obtain rfl : t = call := Option.some.inj (ht.symm.trans (trial hs))
      rcases phase with phase | ⟨o,phase⟩ <;> rw [phase] at ho ⊢ <;> cases ho
      rfl
    constructor
    · rw [hookNext_after ho]
      intro _ half
      exact absurd half (after_ne_halfOpen b.state)
    · rw [hookNext_after ho]
      intro _ other
      by_cases same : other = call
      · subst same
        simp [runAfter]
      · simp [runAfter,update_of_ne same]
    · intro hs _
      exact ⟨call,now,outcome,rfl,trial hs,returned hs⟩
    · intro hs other time result i _ phase
      cases i
      obtain rfl : outcome = result := by
        rw [phase] at ho
        exact (Option.some.inj ho).symm
      rw [hookNext_after ho]
      simp [runAfter,hs,after]
    · intro hs other time err i phase
      cases i
      rw [returned hs] at phase
      cases phase
    · intro hs other time result i notTrial
      cases i
      exact absurd (trial hs) notTrial

end

/-- A run of calls keeps the half-open discipline exactly when no after hook but that of the trial
runs in a half-open period. -/
theorem halfOpen_disciplined_iff (config : CircuitBreakerConfig) (steps : List HookStep) :
    Along (hookNext config) (Disciplined config) Breaker.layer steps ↔
      Along (hookNext config) OwnAfter Breaker.layer steps := by
  have every : Along (hookNext config) (fun _ _ => True) layer steps := Along.of_forall (fun _ _ => trivial) _
  refine Along.iff_of (J := Breaker.TrialPending) ?_ ?_ ?_ every
  · intro b i h _
    cases i with
    | before call now => exact ⟨fun _ => trivial,fun _ => disciplined_before call now b⟩
    | inner call outcome => exact ⟨fun _ => trivial,fun _ => disciplined_inner call outcome b⟩
    | after call now =>
      refine ⟨?_,disciplined_after h⟩
      intro d hs ran
      obtain ⟨outcome,ho⟩ := Option.isSome_iff_exists.mp ran
      have left : (hookNext config (.after call now) b).state ≠ .halfOpen := by
        rw [hookNext_after ho]
        exact after_ne_halfOpen b.state
      obtain ⟨_,_,_,i,trial,_⟩ := d.ends hs left
      cases i
      exact trial
  · intro b i h _ _
    exact trialPending_next config b i h
  · intro half
    cases half

/-- Call 1 is the trial and still out. The after hook of call 2, which was turned away, opens the
breaker again; that of call 3, which was admitted before the breaker opened, closes it. -/
theorem trial_is_overruled :
    let config : CircuitBreakerConfig := ⟨1,10⟩
    let b := runFrom (hookNext config) layer [.before 0 0,.before 3 0,
      .inner 0 (.err (.transport "valkey" "broken pipe")),.after 0 1,.before 1 11,.before 2 12,.inner 3 .ok]
    b.state = .halfOpen ∧ b.trial = some 1 ∧ b.calls 1 = .admitted ∧
      (b.calls 2 = .rejected syntheticOpenError ∧ (hookNext config (.after 2 12) b).state = .opened 12) ∧
      b.calls 3 = .returned .ok ∧ (hookNext config (.after 3 12) b).state = .closed 0 := by
  decide

end FlowFabric.Layer
