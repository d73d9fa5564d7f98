import FlowFabric.Effect

/-! What an execution keeps while it moves: its creation time, its priority and the capabilities
it requires, and the score under which it is in the eligible index. -/
namespace FlowFabric
open Store

structure Stands (c c' : ExecCore) : Prop where
  priority : c'.priority = c.priority
  createdAt : c'.createdAt = c.createdAt
  requiredCapabilities : c'.requiredCapabilities = c.requiredCapabilities
  unowned : c'.lifecyclePhase = .runnable → c'.ownershipState = .unowned ∨
    c.lifecyclePhase = .runnable ∧ c'.ownershipState = c.ownershipState

/-- The keys of a caller: a new execution goes to the index of its delay, and none is blocked in the
eligible index. -/
def Op.keyed : Op → Prop
  | .create a => a.Keyed
  | .block a => a.blockedZset ≠ .eligible
  | _ => True

/-- What one operation does to the hash and to its entry in the eligible index. -/
inductive Advances (op : Op) (s t : Store) : Prop
  | kept (core : t.core = s.core) (entry : t.zset .eligible = s.zset .eligible)
  | aside {c c' : ExecCore} (hc : s.core = some c) (ht : t.core = some c') (stands : Stands c c')
      (entry : t.zset .eligible = s.zset .eligible)
  | off {c c' : ExecCore} (hc : s.core = some c) (ht : t.core = some c') (stands : Stands c c')
      (entry : op.keyed → t.zset .eligible = none)
  | scored {c c' : ExecCore} (hc : s.core = some c) (ht : t.core = some c') (stands : Stands c c')
      (entry : t.zset .eligible = some c'.eligibleScore)
  | prioritized (a) (hop : op = .changePriority a) {c : ExecCore} {priority : Int}
      (hc : s.core = some c) (ht : t.core = some { c with priority })
  | created (a) (hop : op = .create a) {priority now : Int} {caps : String} (hc : s.core = none)
      (ht : t.core = some (newCore a priority now caps))

variable {s t : Store} {c c' : ExecCore} {now : Int} {op : Op}

theorem Stands.busy (hp : c'.priority = c.priority) (ha : c'.createdAt = c.createdAt)
    (hr : c'.requiredCapabilities = c.requiredCapabilities) (hn : c'.lifecyclePhase ≠ .runnable) : Stands c c' :=
  ⟨hp,ha,hr,fun h => (hn h).elim⟩

section
variable (hc : s.core = some c)
include hc

theorem resumed_advances {delayMs : Int} (ht : t.core = some (c.resumed delayMs))
    (hz : t.zset .eligible = (s.indexResumed c delayMs now).zset .eligible) : Advances op s t := by
  have stands : Stands c (c.resumed delayMs) := ⟨rfl,rfl,rfl,fun _ => .inl rfl⟩
  by_cases hd : 0 < delayMs
  · exact .aside hc ht stands (by rw [hz]; simp [indexResumed,hd])
  · exact .scored hc ht stands (by rw [hz]; simp [indexResumed,hd]; rfl)

end

theorem Effect.advances (h : Effect s now op t) : Advances op s t := by
  cases h with
  | created a priority caps absent => exact .created a rfl absent rfl
  | prioritized a c _ _ hc => exact .prioritized a rfl hc rfl
  | claimed _ a c r _ hr hc | claimResumed a c r _ hr hc | grantClaimResumed a c r hr hc =>
    exact .off hc rfl (.busy rfl rfl rfl fun h => by cases h) fun _ => rfl
  | cancelled a c hc => exact .off hc rfl (.busy rfl rfl rfl fun h => by cases h) fun _ => rfl
  | reclaimCapped a c hc | reclaimed a c r hr hc | revoked a c hc | timedOut a c p hc | escalated a c p hc =>
    exact .aside hc rfl (.busy rfl rfl rfl fun h => by cases h) rfl
  | completed a c f hc | failedTerminal a c f hc | suspended a c b w hc =>
    exact .aside hc rfl (.busy rfl rfl rfl fun h => by cases h) rfl
  | lapsed _ c hc due =>
    unfold markExpired
    split
    · exact .kept rfl rfl
    · exact .aside hc rfl (.busy rfl rfl rfl (by simp [due.active])) rfl
  | renewed a c _ _ _ hc | progressed a c _ _ hc | joined a c hc =>
    exact .aside hc rfl ⟨rfl,rfl,rfl,fun h => .inr ⟨h,rfl⟩⟩ rfl
  | failRetried a c f _ hc | delayed a c f hc | moved a c f hc | replayedSkipped a c hc =>
    exact .aside hc rfl ⟨rfl,rfl,rfl,fun _ => .inl rfl⟩ rfl
  | expired a c hc =>
    have stands : Stands c (c.expired a.expireReason now) := .busy rfl rfl rfl fun h => by cases h
    cases hp : c.lifecyclePhase with
    | runnable =>
      by_cases hm : Index.eligible ∈ c.eligibilityState.expiryIndexes
      · exact .off hc rfl stands fun _ => by simp [expireCommit,expirePhase,hp,hm]
      · exact .aside hc rfl stands (by simp [expireCommit,expirePhase,hp,hm])
    | _ => exact .aside hc rfl stands (by simp [expireCommit,expirePhase,hp,endAttempt])
  | promoted a c hc | unblocked a c hc | replayedNormal a c hc =>
    exact .scored hc rfl ⟨rfl,rfl,rfl,fun _ => .inl rfl⟩ rfl
  | blocked a c e hc =>
    refine .off hc rfl ⟨rfl,rfl,rfl,fun _ => .inl rfl⟩ fun keyed => ?_
    simp [Ne.symm keyed]
  | resumed a c p hc | autoResumed a c p hc => exact resumed_advances hc rfl rfl
  | signalResumed a c p cond w taken | compositeResumed a c p cond w taken =>
    simp only [plainResume,compositeResume,resumeSuspended]
    split
    · exact resumed_advances taken.core rfl rfl
    · exact .kept rfl rfl
  | applied a c hc =>
    unfold blockChild
    split
    · exact .off hc rfl ⟨rfl,rfl,rfl,fun h => .inr ⟨h,rfl⟩⟩ fun _ => rfl
    · exact .kept rfl rfl
  | resolved a d t settles settled =>
    cases settled with
    | kept => exact .kept rfl rfl
    | released c hc => exact .scored hc rfl ⟨rfl,rfl,rfl,fun h => .inr ⟨h,rfl⟩⟩ rfl
    | skipped c hc => exact .aside hc rfl (.busy rfl rfl rfl fun h => by cases h) rfl
  | released c hc => exact .scored hc rfl ⟨rfl,rfl,rfl,fun h => .inr ⟨h,rfl⟩⟩ rfl
  | _ => exact .kept rfl rfl

end FlowFabric
