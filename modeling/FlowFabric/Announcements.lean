import FlowFabric.Visible

/-! The completions channel, which wakes the children of a flow member: what is published on
it, and when. -/
namespace FlowFabric
open Foundation Store Op Client

def Op.subject : Op → Option String
  | .create a => some a.executionId
  | .issueClaimGrant a | .issueReclaimGrant a => some a.executionId
  | .claim a | .issueGrantAndClaim a => some a.executionId
  | .claimResumed a => some a.executionId
  | .reclaim a => some a.executionId
  | .renewLease a => some a.executionId
  | .revokeLease a => some a.executionId
  | .updateProgress a => some a.executionId
  | .appendFrame a => some a.executionId
  | .complete a => some a.executionId
  | .fail a => some a.executionId
  | .delay a => some a.executionId
  | .moveToWaitingChildren a => some a.executionId
  | .cancel a => some a.executionId
  | .expire a => some a.executionId
  | .changePriority a => some a.executionId
  | .promoteDelayed a => some a.executionId
  | .block a => some a.executionId
  | .unblock a => some a.executionId
  | .suspend a => some a.executionId
  | .resume a => some a.executionId
  | .createPendingWaitpoint a => some a.executionId
  | .expireSuspension a => some a.executionId
  | .deliverSignal a | .bufferSignal a => some a.executionId
  | .addToFlow a => some a.executionId
  | .replay a => some a.executionId
  | .markLeaseExpiredIfDue | .closeWaitpoint _ | .rotateSecret _ | .setEdgeGroupPolicy _
  | .applyDependency _ | .resolveDependency _ | .promoteBlocked => none

def Op.isFor (op : Op) (id : String) : Bool := op.subject.all fun other => decide (other = id)

def Store.belongsTo (s : Store) (id : String) : Prop := ∀ c, s.core = some c → c.executionId = id

def Store.isFinished (s : Store) : Bool := s.core.any fun c => decide (c.lifecyclePhase = .terminal)

def Call.finishes (i : Call) (s : Store) : Bool := !s.isFinished && (next i s).isFinished

def Op.cascades : Op → Bool
  | .cancel a => decide (a.source = "flow_cascade")
  | _ => false

/-- A flow member that finishes is announced once, with the outcome just written. Nothing else
is. -/
def Announces (id : String) (i : Call) (s : Store) : Prop :=
  (i.finishes s → ∀ c, (next i s).core = some c → c.flowId ≠ "" → (next i s).published =
      s.published ++ if i.op.cascades then [] else [⟨id,c.flowId,c.terminalOutcome⟩]) ∧
  (i.finishes s = false → (next i s).published = s.published)

def Op.exceedsReclaims (op : Op) (s : Store) : Bool :=
  match op with
  | .reclaim a =>
    a.leaseTtlMs.toNumber.isSome && s.core.any fun c =>
      decide (c.flowId ≠ "" ∧ c.lifecyclePhase = .active ∧
        (c.ownershipState = .leaseExpiredReclaimable ∨ c.ownershipState = .leaseRevoked)) &&
      reclaimsExhausted a s c
  | _ => false

variable {s t : Store} {now : Int} {op : Op} {c c' : ExecCore} {id : String}

theorem isFinished_eq (hc : s.core = some c) : s.isFinished = decide (c.lifecyclePhase = .terminal) := by
  simp [isFinished,hc]

theorem belongsTo_of (hc : s.core = some c) (hid : c.executionId = id) : s.belongsTo id := by
  intro c' hc'
  rw [hc] at hc'
  cases hc'
  exact hid

inductive Announced (id : String) (s : Store) (now : Int) (op : Op) (t : Store) : Prop
  | silent (belongs : t.belongsTo id) (published : t.published = s.published) (unmoved : t.isFinished → s.isFinished)
  | finished (c c' : ExecCore) (hc' : t.core = some c') (belongs : t.belongsTo id)
      (unfinished : s.isFinished = false) (ended : t.isFinished) (member : c'.flowId = c.flowId)
      (published : t.published = (s.announce id c c'.terminalOutcome (!op.cascades)).published)
  | capped (a : ReclaimArgs) (c : ExecCore) (belongs : t.belongsTo id) (hop : op = .reclaim a)
      (hc : s.core = some c) (lost : Reclaimable c) (exhausted : reclaimsExhausted a s c)
      (ht : t = reclaimCap a c now s)

namespace Announced

variable (hb : s.belongsTo id)
include hb

theorem kept (hc : t.core = s.core) (hp : t.published = s.published) : Announced id s now op t := by
  refine .silent ?_ hp ?_
  · unfold belongsTo
    rw [hc]
    exact hb
  · simp [isFinished,hc]

variable (hc : s.core = some c)
include hc

theorem live (hc' : t.core = some c')
    (hid : c'.executionId = c.executionId) (hl : decide (c'.lifecyclePhase = .terminal) = false)
    (hp : t.published = s.published) : Announced id s now op t := by
  refine .silent (belongsTo_of hc' (hid.trans (hb c hc))) hp ?_
  simp [isFinished_eq hc',hl]

theorem touched (hc' : t.core = some c')
    (hid : c'.executionId = c.executionId) (hl : c'.lifecyclePhase = c.lifecyclePhase)
    (hp : t.published = s.published) : Announced id s now op t := by
  refine .silent (belongsTo_of hc' (hid.trans (hb c hc))) hp ?_
  simp [isFinished_eq hc',isFinished_eq hc,hl]

theorem finish (hu : c.lifecyclePhase ≠ .terminal)
    (hc' : t.core = some c') (hid : c'.executionId = c.executionId) (hf : c'.flowId = c.flowId)
    (hl : c'.lifecyclePhase = .terminal)
    (hp : t.published = (s.announce id c c'.terminalOutcome (!op.cascades)).published) : Announced id s now op t :=
  .finished c c' hc' (belongsTo_of hc' (hid.trans (hb c hc))) (by simp [isFinished_eq hc,hu])
    (by simp [isFinished_eq hc',hl]) hf hp

end Announced

theorem isFor_eq {who : String} (h : op.isFor id) (hs : op.subject = some who) : who = id := by simpa [isFor,hs] using h

private theorem announced_resumed {w : WaitKeys} {delayMs : Int} (hb : s.belongsTo id) (hc : s.core = some c)
    (ht : t.core = ((s.setWait w).resumeSuspended c delayMs now).core)
    (hp : t.published = ((s.setWait w).resumeSuspended c delayMs now).published) : Announced id s now op t := by
  unfold resumeSuspended at ht hp
  split at ht
  · rename_i suspended
    rw [if_pos suspended] at hp
    exact .live hb hc ht rfl rfl hp
  · rename_i other
    rw [if_neg other] at hp
    exact .kept hb ht hp

theorem Effect.announced (h : Effect s now op t) (hl : s.lives Life.Sound) (hb : s.belongsTo id)
    (hf : op.isFor id) (hid : id ≠ "") : Announced id s now op t := by
  cases h with
  | created a priority caps =>
    have hnew : ∀ c, newCore a priority now caps = c → c.executionId = id := by
      rintro c rfl
      exact isFor_eq hf rfl
    refine .silent (belongsTo_of rfl (hnew _ rfl)) rfl ?_
    simp [isFinished,createdStore,newCore]
  | claimed _ a c r hop hr hc | claimResumed a c r timeout hr hc | grantClaimResumed a c r hr hc
  | reclaimed a c r hr hc | failRetried a c f delayUntil hc | delayed a c f hc | moved a c f hc | promoted a c hc
  | blocked a c e hc | unblocked a c hc | suspended a c b w hc | resumed a c p hc | autoResumed a c p hc
  | escalated a c p hc | replayedSkipped a c hc | replayedNormal a c hc => exact .live hb hc rfl rfl rfl rfl
  | reclaimCapped a c hc lost exhausted => exact .capped a c (belongsTo_of rfl (hb c hc)) rfl hc lost exhausted rfl
  | lapsed _ c hc =>
    unfold markExpired
    split
    · exact .kept hb rfl rfl
    · exact .touched hb hc rfl rfl rfl rfl
  | renewed a c _ _ _ hc | progressed a c _ _ hc
  | prioritized a c _ _ hc | joined a c hc | released c hc => exact .touched hb hc rfl rfl rfl rfl
  | revoked a c hc active => exact .touched hb hc rfl rfl active.symm rfl
  | completed a c f hc held | failedTerminal a c f hc held =>
    obtain rfl := isFor_eq hf rfl
    exact .finish hb hc (by simp [held.active]) rfl rfl rfl rfl rfl
  | cancelled a c hc unfinished =>
    obtain rfl := isFor_eq hf rfl
    refine .finish hb hc unfinished rfl rfl rfl rfl ?_
    simp [cancelCommit,cascades,ExecCore.cancelled]
  | expired a c hc unfinished =>
    obtain rfl := isFor_eq hf rfl
    refine .finish hb hc unfinished rfl rfl rfl rfl ?_
    simp [expireCommit,cascades,ExecCore.expired]
  | timedOut a c p hc suspended =>
    obtain rfl := isFor_eq hf rfl
    exact .finish hb hc (by simp [suspended]) rfl rfl rfl rfl rfl
  | signalResumed a c p cond w taken => exact announced_resumed hb taken.core rfl rfl
  | compositeResumed a c p cond w taken => exact announced_resumed hb taken.core rfl rfl
  | applied a c hc =>
    unfold blockChild
    split
    · exact .touched hb hc rfl rfl rfl rfl
    · exact .kept hb rfl rfl
  | resolved a d t settles settled =>
    cases settled with
    | kept => exact .kept hb rfl rfl
    | released c hc => exact .touched hb hc rfl rfl rfl rfl
    | skipped c hc ho =>
      -- the only message whose id is read from the hash
      obtain rfl := hb c hc
      refine .finish hb hc ?_ rfl rfl rfl rfl ?_
      · exact fun ht => (hl c hc).mpr ht ho
      · simp [skipChild,cascades,ExecCore.skipped,hid]
  | _ => exact .kept hb rfl rfl

variable {a : ReclaimArgs}

private theorem reclaimsExhausted_iff :
    reclaimsExhausted a s c ↔ ∃ default limit, a.defaultMaxReclaimCount.toNumber = some default ∧
      maxReclaimCount s.policy default = some limit ∧ limit.le (.ofInt c.leaseReclaimCount) = true := by
  unfold reclaimsExhausted
  cases hd : a.defaultMaxReclaimCount.toNumber with
  | none => simp
  | some default => cases hm : maxReclaimCount s.policy default <;> simp [hm]

private theorem next_exhausted (hc : s.core = some c) (lost : Reclaimable c) (exhausted : reclaimsExhausted a s c) :
    next ⟨now,.reclaim a⟩ s = if a.leaseTtlMs.toNumber.isSome then reclaimCap a c now s else s := by
  obtain ⟨default,limit,hd,hm,hle⟩ := reclaimsExhausted_iff.mp exhausted
  unfold next step outcome
  cases ha : a.leaseTtlMs with
  | text =>
    have refused : ∃ reply, reclaimExecution a now s = .error reply := by
      simp [reclaimExecution,ha,requireNumber,bind,Except.bind]
    obtain ⟨reply,hr⟩ := refused
    simp [hr,Argument.toNumber]
  | number ttl =>
    have capped : reclaimExecution a now s = .ok (.err .maxRetriesExhausted [limit.text],reclaimCap a c now s) := by
      simp only [reclaimExecution,bind_ok,demand_ok,ensure_ok,requireNumber_ok]
      refine ⟨ttl,ha,c,hc,(),lost.active,(),lost.lost,default,hd,limit,hm,?_⟩
      rw [if_pos hle]
      rfl
    simp [capped,Argument.toNumber]

theorem exceedsReclaims_iff : op.exceedsReclaims s ↔ ∃ a c, op = .reclaim a ∧ s.core = some c ∧ c.flowId ≠ "" ∧
      Reclaimable c ∧ reclaimsExhausted a s c ∧ a.leaseTtlMs.toNumber.isSome := by
  constructor
  · intro h
    unfold exceedsReclaims at h
    split at h
    · rename_i a
      obtain ⟨ttl,hs⟩ := Bool.and_eq_true_iff.mp h
      cases hc : s.core with
      | none => simp [hc] at hs
      | some c =>
        rw [hc] at hs
        obtain ⟨hlost,exhausted⟩ := Bool.and_eq_true_iff.mp hs
        obtain ⟨member,active,lost⟩ := of_decide_eq_true hlost
        exact ⟨a,c,rfl,rfl,member,⟨active,lost⟩,exhausted,ttl⟩
    · cases h
  · rintro ⟨a,c,rfl,hc,member,lost,exhausted,ttl⟩
    simp [exceedsReclaims,hc,member,lost.active,lost.lost,exhausted,ttl]

variable {i : Call}

theorem not_announces_of_exceeds (h : i.op.exceedsReclaims s) : ¬ Announces id i s := by
  obtain ⟨a,c,hop,hc,member,lost,exhausted,ttl⟩ := exceedsReclaims_iff.mp h
  have hn : next i s = reclaimCap a c i.now s := by
    rw [show i = ⟨i.now,.reclaim a⟩ by rw [← hop],next_exhausted hc lost exhausted,if_pos ttl]
  intro hann
  have ends : i.finishes s := by
    simp [Call.finishes,hn,isFinished_eq hc,lost.active,
      isFinished_eq (show (reclaimCap a c i.now s).core = some (c.reclaimExhausted i.now) from rfl),
      ExecCore.reclaimExhausted]
  have hp := hann.1 ends (c.reclaimExhausted i.now) (by rw [hn]; rfl) member
  have silent : (reclaimCap a c i.now s).published = s.published := rfl
  simp [hn,silent,hop,cascades] at hp

private theorem announces_iff (h : Announced id s i.now i.op (next i s)) :
    Announces id i s ↔ i.op.exceedsReclaims s = false := by
  constructor
  · intro hann
    by_contra hex
    exact not_announces_of_exceeds (by simpa using hex) hann
  · intro hex
    cases h with
    | silent belongs published unmoved =>
      refine ⟨fun ends => ?_,fun _ => published⟩
      simp [Call.finishes] at ends
      simp [unmoved ends.2] at ends
    | finished c c' hc' belongs unfinished ended member published =>
      refine ⟨fun _ c'' hc'' hm => ?_,fun goes => ?_⟩
      · rw [hc'] at hc''
        cases hc''
        rw [published]
        cases hcas : i.op.cascades <;> simp [← member,hm]
      · simp [Call.finishes,unfinished,ended] at goes
    | capped a c belongs hop hc lost exhausted ht =>
      have hc' : (next i s).core = some (c.reclaimExhausted i.now) := by rw [ht]; rfl
      by_cases member : c.flowId = ""
      · refine ⟨fun _ c'' hc'' hm => ?_,fun _ => by rw [ht]; rfl⟩
        rw [hc'] at hc''
        cases hc''
        exact absurd member hm
      · -- the call was refused, so nothing was written
        have refused : a.leaseTtlMs.toNumber.isSome = false := by
          by_contra ttl
          have : i.op.exceedsReclaims s :=
            exceedsReclaims_iff.mpr ⟨a,c,hop,hc,member,lost,exhausted,eq_true_of_ne_false ttl⟩
          simp [hex] at this
        have hn : next i s = s := by
          rw [show i = ⟨i.now,.reclaim a⟩ by rw [← hop],next_exhausted hc lost exhausted,refused]
          rfl
        rw [hn,hc] at hc'
        have ended : c.lifecyclePhase = .terminal := congrArg ExecCore.lifecyclePhase (Option.some.inj hc')
        simp [lost.active] at ended

/-- What is known of the store in a run of calls for one execution. -/
def Store.ownedBy (id : String) (s : Store) : Prop := s.belongsTo id ∧ s.lives Life.Sound

theorem announced_next (hid : id ≠ "") (hs : s.ownedBy id) (hf : i.op.isFor id) :
    Announced id s i.now i.op (next i s) :=
  (next_effect i s).announced hs.2 hs.1 hf hid

private theorem ownedBy_next (hid : id ≠ "") (hs : s.ownedBy id) (hf : i.op.isFor id) : (next i s).ownedBy id := by
  refine ⟨?_,sound_next s i hs.2⟩
  cases announced_next hid hs hf <;> assumption

/-- In a run of calls for one execution, the end of a flow member is announced once, with its id,
its flow and its outcome, and nothing else is announced, exactly if no reclaim finds the
reclaims of a flow member used up. -/
theorem ends_are_announced (id : String) (calls : List Call) (hid : id ≠ "") (hf : ∀ i ∈ calls, i.op.isFor id) :
    Along next (fun s i => Announces id i s) (run []) calls ↔
      Along next (fun s i => i.op.exceedsReclaims s = false) (run []) calls := by
  have start : (run []).ownedBy id := ⟨by simp [belongsTo,run,runFrom],run_sound []⟩
  have same : ∀ s i, s.ownedBy id → i.op.isFor id → (Announces id i s ↔ i.op.exceedsReclaims s = false) :=
    fun s i hs hi => announces_iff (announced_next hid hs hi)
  exact Along.iff_of same (fun s i hs hi _ => ownedBy_next hid hs hi) start (Along.of_forall hf _)

/-- A flow member that runs to its end. -/
theorem completed_member_is_announced :
    let calls := [create 10,⟨10,.addToFlow { executionId := "e", flowId := "f" }⟩,grant 11,
      claim 12 "L1" "a1",complete 13 ⟨"L1","1","a1"⟩]
    Along next (fun s i => Announces "e" i s) (run []) calls ∧ (run calls).published = [⟨"e","f",.success⟩] :=
  ⟨(ends_are_announced "e" _ (by decide) (by decide)).mpr (by decide +kernel),by decide +kernel⟩

/-- A flow member that may be reclaimed once loses its lease twice. It fails, and nothing is
announced. -/
theorem exhausted_reclaim_is_silent :
    let policy : JsonText := .doc (.obj [("max_reclaim_count",.num 1)])
    let calls := [⟨10,.create { executionId := "e", priority := .number 5, schedulingZset := .eligible
                                policyJson := policy }⟩,
      ⟨10,.addToFlow { executionId := "e", flowId := "f" }⟩,grant 11,claim 12 "L1" "a1",
      ⟨2000,.markLeaseExpiredIfDue⟩,reclaimGrant 2001,reclaim 2002 "L2" "a2",⟨4000,.markLeaseExpiredIfDue⟩]
    let reclaim := reclaim 4001 "L3" "a3"
    (run calls).core.map (fun c => (c.flowId,c.lifecyclePhase)) = some ("f",.active) ∧
      (run (calls ++ [reclaim])).core.map (fun c => (c.lifecyclePhase,c.terminalOutcome)) = some (.terminal,.failed) ∧
      (run (calls ++ [reclaim])).published = [] ∧ ¬ Announces "e" reclaim (run calls) := by
  intro policy calls reclaim
  have member : (run calls).core.map (fun c => (c.flowId,c.lifecyclePhase)) = some ("f",.active) := by decide +kernel
  exact ⟨member,by decide +kernel,by decide +kernel,not_announces_of_exceeds (by decide +kernel)⟩

end FlowFabric
