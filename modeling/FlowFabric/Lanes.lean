import FlowFabric.Effect

/-! The indexes of a lane: which of them an execution is in, and when it is in exactly the
one that its phase and eligibility ask for. -/
namespace FlowFabric
open Foundation ExecCore Option Store Op

structure Lanes where
  (eligible delayed active suspended terminal blockedDependencies blockedBudget blockedQuota : Option Int)
  (blockedRoute blockedOperator : Option Int)

open Lanes

def Store.lanes (s : Store) : Lanes where
  eligible := s.zset .eligible
  delayed := s.zset .delayed
  active := s.zset .active
  suspended := s.zset .suspended
  terminal := s.zset .terminal
  blockedDependencies := s.zset .blockedDependencies
  blockedBudget := s.zset .blockedBudget
  blockedQuota := s.zset .blockedQuota
  blockedRoute := s.zset .blockedRoute
  blockedOperator := s.zset .blockedOperator

def Index.isLane : Index → Bool
  | .leaseExpiry | .suspensionTimeout | .attemptTimeout | .executionDeadline => false
  | _ => true

def Index.isBlocked : Index → Bool
  | .blockedDependencies | .blockedBudget | .blockedQuota | .blockedRoute | .blockedOperator => true
  | _ => false

namespace Lanes

/-- The entry in an index. The indexes of no lane have none. -/
def get (l : Lanes) : Index → Option Int
  | .eligible => l.eligible
  | .delayed => l.delayed
  | .active => l.active
  | .suspended => l.suspended
  | .terminal => l.terminal
  | .blockedDependencies => l.blockedDependencies
  | .blockedBudget => l.blockedBudget
  | .blockedQuota => l.blockedQuota
  | .blockedRoute => l.blockedRoute
  | .blockedOperator => l.blockedOperator
  | .leaseExpiry | .suspensionTimeout | .attemptTimeout | .executionDeadline => none

def set (l : Lanes) (x : Option Int) : Index → Lanes
  | .eligible => { l with eligible := x }
  | .delayed => { l with delayed := x }
  | .active => { l with active := x }
  | .suspended => { l with suspended := x }
  | .terminal => { l with terminal := x }
  | .blockedDependencies => { l with blockedDependencies := x }
  | .blockedBudget => { l with blockedBudget := x }
  | .blockedQuota => { l with blockedQuota := x }
  | .blockedRoute => { l with blockedRoute := x }
  | .blockedOperator => { l with blockedOperator := x }
  | .leaseExpiry | .suspensionTimeout | .attemptTimeout | .executionDeadline => l

theorem get_set {i : Index} (hi : i.isLane) (l : Lanes) (x : Option Int) (j : Index) :
    (l.set x i).get j = if j = i then x else l.get j := by
  cases i <;> first | (cases j <;> rfl) | cases hi

/-- The execution is in this index and in no other. -/
def At (l : Lanes) (home : Index) : Prop := ∀ i, (l.get i).isSome ↔ i = home

variable {l : Lanes} {h j : Index}

theorem At.isLane (hl : l.At h) : h.isLane := by
  have := (hl h).mpr rfl
  cases h <;> first | rfl | simp [get] at this

variable {x : Int}

theorem at_of_only (hj : l.get j = some x) (hrest : ∀ i, i ≠ j → l.get i = none) : l.At j := by
  intro i
  by_cases hi : i = j
  · simp [hi,hj]
  · simp [hi,hrest i hi]

theorem At.move (hl : l.At h) (hj : j.isLane) : ((l.set none h).set (some x) j).At j := by
  intro i
  rw [get_set hj,get_set hl.isLane]
  by_cases hi : i = j
  · simp [hi]
  · by_cases hh : i = h
    · simp_all
    · simp [hi,hh,hl i]

theorem At.again (hl : l.At h) : (l.set (some x) h).At h := by
  intro i
  rw [get_set hl.isLane]
  by_cases hi : i = h
  · simp [hi]
  · simp [hi,hl i]

theorem At.absent (hl : l.At h) (hj : j.isLane) (hne : j ≠ h) : (l.set none j).At h := by
  intro i
  rw [get_set hj]
  by_cases hi : i = j
  · simp [hi,hne]
  · simp [hi,hl i]

end Lanes

theorem lanes_zadd (s : Store) (i : Index) (x : Int) : (s.zadd i x).lanes = s.lanes.set (some x) i := by
  cases i <;> rfl

theorem lanes_zrem (s : Store) (i : Index) : (s.zrem i).lanes = s.lanes.set none i := by
  cases i <;> rfl

variable {i : Index} {x delayMs : Int}

private theorem lanes_get (hi : i.isLane) (s : Store) : s.lanes.get i = s.zset i := by
  cases i <;> first | rfl | cases hi

/-- The index of a waiting execution. One whose lane is paused is in the blocked index it
was put into. -/
def EligibilityState.laneIndex (pausedIn : Index) : EligibilityState → Option Index
  | .eligibleNow => some .eligible
  | .notEligibleUntilTime => some .delayed
  | .blockedByDependencies => some .blockedDependencies
  | .blockedByBudget => some .blockedBudget
  | .blockedByQuota => some .blockedQuota
  | .blockedByRoute => some .blockedRoute
  | .blockedByOperator => some .blockedOperator
  | .blockedByLaneState => if pausedIn.isBlocked then some pausedIn else none
  | .notApplicable => none

def ExecCore.laneIndex (c : ExecCore) (pausedIn : Index) : Option Index :=
  match c.lifecyclePhase with
  | .submitted => none
  | .runnable => c.eligibilityState.laneIndex pausedIn
  | .active => some .active
  | .suspended => some .suspended
  | .terminal => some .terminal

/-- The execution is in the index it belongs to and in no other of its lane. -/
def Filed (s : Store) (pausedIn : Index) (c : ExecCore) : Prop :=
  ∃ home, c.laneIndex pausedIn = some home ∧ s.lanes.At home

/-- A new execution is in no index yet. -/
def Store.filed (s : Store) (pausedIn : Index) : Prop :=
  (s.core = none → ∀ i, s.lanes.get i = none) ∧ ∀ c, s.core = some c → Filed s pausedIn c

/-- The calls that keep an execution in one index. A new execution goes to the index of its
delay. An interrupted one is claimed, and a waiting one blocked, from the eligible index. A
block goes to the index of its reason, or to the one the execution is already in; an unblock
comes from there. The time of a retry is a number. An execution that gets a dependency was
eligible or had one, and one that is skipped waited for it. -/
def Op.keepsLane (op : Op) (now : Int) (s : Store) (pausedIn : Index) : Bool :=
  match op with
  | .create a =>
    decide (a.schedulingZset = if a.delayUntil.any fun due => decide (now < due) then .delayed else .eligible)
  | .claimResumed _ | .issueGrantAndClaim _ =>
    s.core.all fun c => decide (c.lifecyclePhase = .runnable → c.attemptState = .attemptInterrupted →
      c.eligibilityState = .eligibleNow)
  | .fail a => s.core.all fun c => decide (a.delayUntil c now ≠ some .nan)
  | .block a =>
    s.core.all fun c => decide (c.lifecyclePhase = .runnable → ∀ e ∈ a.blockingReason.toEligibility,
      e.laneIndex a.blockedZset = some a.blockedZset ∧
        (c.eligibilityState = .eligibleNow ∨ c.laneIndex pausedIn = some a.blockedZset))
  | .unblock a =>
    s.core.all fun c => decide (c.lifecyclePhase = .runnable → c.eligibilityState.unblockable →
      c.laneIndex pausedIn = some a.blockedZset)
  | .applyDependency a =>
    (s.deps.dependency a.edgeId).isSome || s.core.all fun c =>
      decide (c.lifecyclePhase = .runnable → c.terminalOutcome = .none →
        c.eligibilityState = .eligibleNow ∨ c.eligibilityState = .blockedByDependencies)
  | .resolveDependency a =>
    !a.precludes s.deps || s.core.all fun c => decide (c.terminalOutcome = .none →
      c.lifecyclePhase = .runnable ∧ c.eligibilityState = .blockedByDependencies)
  | _ => true

variable {op : Op} {s t : Store} {c c' : ExecCore} {now : Int} {k : Index}

theorem Store.filed.of (ht : t.core = some c') (h : Filed t k c') : t.filed k := of_core ht h

theorem Store.filed.same (h : s.filed k) (hc : t.core = s.core) (hl : t.lanes = s.lanes) : t.filed k := by
  unfold filed Filed
  rw [hc,hl]
  exact h

theorem Filed.frame (h : Filed s k c) (hl : t.lanes = s.lanes) (hi : c'.laneIndex k = c.laneIndex k) :
    Filed t k c' := by
  obtain ⟨home,hh,ha⟩ := h
  exact ⟨home,hi.trans hh,hl ▸ ha⟩

variable {j : Index}

theorem Filed.move (h : Filed s k c) (hi : c.laneIndex k = some i)
    (hj : c'.laneIndex k = some j) (hl : t.lanes = (s.lanes.set none i).set (some x) j)
    (hlane : j.isLane) : Filed t k c' := by
  obtain ⟨home,hh,ha⟩ := h
  rw [hi] at hh
  cases hh
  exact ⟨j,hj,hl ▸ ha.move hlane⟩

theorem Filed.again (h : Filed s k c) (hi : c.laneIndex k = some i)
    (hj : c'.laneIndex k = some i) (hl : t.lanes = s.lanes.set (some x) i) : Filed t k c' := by
  obtain ⟨home,hh,ha⟩ := h
  rw [hi] at hh
  cases hh
  exact ⟨i,hj,hl ▸ ha.again⟩

theorem Filed.absent (h : Filed s k c) (hl : t.lanes = s.lanes.set none j) (hj : j.isLane)
    (hne : c.laneIndex k ≠ some j) : Filed t k c := by
  obtain ⟨home,hh,ha⟩ := h
  exact ⟨home,hh,hl ▸ ha.absent hj fun he => hne (hh.trans (he ▸ rfl))⟩

theorem laneIndex_active (hp : c.lifecyclePhase = .active) : c.laneIndex k = some .active := by simp [laneIndex,hp]

theorem laneIndex_suspended (hp : c.lifecyclePhase = .suspended) : c.laneIndex k = some .suspended := by
  simp [laneIndex,hp]

variable {e : EligibilityState}

theorem laneIndex_runnable (hp : c.lifecyclePhase = .runnable)
    (he : c.eligibilityState = e) : c.laneIndex k = e.laneIndex k := by
  simp [laneIndex,hp,he]

theorem laneIndex_eq_delayed (h : c.laneIndex k = some .delayed) :
    c.lifecyclePhase = .runnable ∧ c.eligibilityState = .notEligibleUntilTime := by
  unfold laneIndex at h
  split at h <;> try cases h
  rename_i hp
  cases he : c.eligibilityState <;> simp_all [EligibilityState.laneIndex]
  cases k <;> simp_all [Index.isBlocked]

private theorem newCore_filed {a : CreateArgs} {priority : Int} {caps : String} (hs : ∀ i, s.lanes.get i = none)
    (hz : a.schedulingZset = if a.delayUntil.any fun due => decide (now < due) then .delayed else .eligible) :
    Filed (createdStore a (newCore a priority now caps) s) k (newCore a priority now caps) := by
  have home : (newCore a priority now caps).laneIndex k = some a.schedulingZset := by
    rw [hz]
    cases hd : a.delayUntil with
    | none => simp [laneIndex,newCore,EligibilityState.laneIndex,hd]
    | some due =>
      by_cases hlt : now < due <;>
        simp [laneIndex,newCore,EligibilityState.laneIndex,hd,hlt,Option.filter]
  have lane : a.schedulingZset.isLane := by
    rw [hz]
    split <;> rfl
  refine ⟨a.schedulingZset,home,?_⟩
  have hl : (createdStore a (newCore a priority now caps) s).lanes =
      s.lanes.set (some ((newCore a priority now caps).delayUntil.getD
        (newCore a priority now caps).eligibleScore)) a.schedulingZset :=
    lanes_zadd ((s.setCore _).setPolicy _) _ _
  rw [hl]
  refine at_of_only (by rw [get_set lane,if_pos rfl]) fun i hi => ?_
  rw [get_set lane,if_neg hi]
  exact hs i

theorem resumed_filed (h : Filed s k c) (hp : c.lifecyclePhase = .suspended)
    (hl : t.lanes = (((s.setCore (c.resumed delayMs)).indexResumed c delayMs now).lanes)) :
    Filed t k (c.resumed delayMs) := by
  by_cases hd : 0 < delayMs
  · refine h.move (j := .delayed) (x := now + delayMs) (laneIndex_suspended hp) ?_ ?_ rfl
    · simp [laneIndex,resumed,EligibilityState.laneIndex,hd]
    · rw [hl,indexResumed,if_pos hd,if_pos hd]
      rfl
  · refine h.move (j := .eligible) (x := c.eligibleScore) (laneIndex_suspended hp) ?_ ?_ rfl
    · simp [laneIndex,resumed,EligibilityState.laneIndex,hd]
    · rw [hl,indexResumed,if_neg hd,if_neg hd]
      rfl

private theorem blockChild_filed {d : DependencyKeys} (hs : s.filed k) (hc : s.core = some c)
    (hw : c.lifecyclePhase = .runnable → c.terminalOutcome = .none →
      c.eligibilityState = .eligibleNow ∨ c.eligibilityState = .blockedByDependencies) :
    ((s.setDeps d).blockChild c).filed k := by
  unfold blockChild
  split
  · rename_i hp
    have home : c.blockedByDependencies.laneIndex k = some .blockedDependencies :=
      laneIndex_runnable (c := c.blockedByDependencies) hp.1 rfl
    refine .of rfl ?_
    rcases hw hp.1 hp.2 with he | he
    · exact (hs.2 c hc).move (laneIndex_runnable hp.1 he) home rfl rfl
    · obtain ⟨home',hh,ha⟩ := hs.2 c hc
      rw [laneIndex_runnable hp.1 he] at hh
      cases hh
      exact ⟨_,home,(ha.absent (j := .eligible) rfl nofun).again⟩
  · exact hs.same rfl rfl

private theorem cancelCommit_filed {a : CancelArgs} : Filed (cancelCommit a c now s) k (c.cancelled a.reason now) := by
  refine ⟨.terminal,rfl,at_of_only (x := now) rfl fun i hi => ?_⟩
  cases i <;> first | rfl | exact (hi rfl).elim

private theorem lanes_zremAll (s : Store) (is : List Index) (i : Index) :
    (s.zremAll is).lanes.get i = if i ∈ is then none else s.lanes.get i := by
  cases i <;> simp [lanes,Lanes.get]

variable {home : Index}

theorem expiryIndexes_laneIndex (h : e.laneIndex k = some home) : home ∈ e.expiryIndexes := by
  cases e with
  | blockedByLaneState =>
    simp only [EligibilityState.laneIndex,ite_none_right_eq_some] at h
    obtain ⟨hk,hh⟩ := h
    cases hh
    cases k <;> first | decide | cases hk
  | notApplicable => cases h
  | _ =>
    cases h
    decide

private theorem expireCommit_filed {a : ExpireArgs} (h : Filed s k c) (hp : c.lifecyclePhase ≠ .terminal) :
    Filed (expireCommit a c now s) k (c.expired a.expireReason now) := by
  unfold expireCommit expirePhase
  split
  · rename_i hp
    exact h.move (laneIndex_active hp) rfl rfl rfl
  · rename_i hp
    exact h.move (laneIndex_suspended hp) rfl rfl rfl
  · rename_i hp
    obtain ⟨home,hh,ha⟩ := h
    rw [laneIndex_runnable hp rfl] at hh
    refine ⟨.terminal,rfl,?_⟩
    have hl (x : Store) : (((x.setCore (c.expired a.expireReason now)).zrem .attemptTimeout).zrem
        .executionDeadline |>.zadd .terminal now |>.announce a.executionId c .expired).lanes =
          x.lanes.set (some now) .terminal := rfl
    rw [hl]
    refine at_of_only (x := now) rfl fun i hi => ?_
    rw [get_set rfl,if_neg hi,lanes_zremAll]
    split
    · rfl
    · rename_i hmem
      have hne : i ≠ home := by
        rintro rfl
        exact hmem (expiryIndexes_laneIndex hh)
      simpa using mt (ha i).mp hne
  · rename_i h1 h2 h3
    obtain ⟨home,hh,-⟩ := h
    cases hph : c.lifecyclePhase <;> simp_all [laneIndex]

theorem dependenciesMet_filed (h : Filed s k c) (hp : c.lifecyclePhase = .runnable)
    (he : c.eligibilityState = .blockedByDependencies)
    (hl : t.lanes = (s.lanes.set none .blockedDependencies).set (some x) .eligible) : Filed t k c.dependenciesMet :=
  h.move (laneIndex_runnable hp he) (laneIndex_runnable (c := c.dependenciesMet) hp rfl) hl rfl

theorem Effect.filed (h : Effect s now op t) (hs : s.filed k) (hop : ∀ a, op ≠ .block a)
    (hk : op.keepsLane now s k) : t.filed k := by
  cases h with
  | created a priority caps absent => exact .of rfl (newCore_filed (hs.1 absent) (of_decide_eq_true hk))
  | claimed _ a c r _ hr hc ready =>
    exact .of rfl ((hs.2 c hc).move (laneIndex_runnable ready.runnable ready.eligible) rfl rfl rfl)
  | claimResumed a c r timeout hr hc runnable interrupted | grantClaimResumed a c r hr hc runnable interrupted =>
    have he : c.eligibilityState = .eligibleNow := by simpa [keepsLane,hc,runnable,interrupted] using hk
    exact .of rfl ((hs.2 c hc).move (laneIndex_runnable runnable he) rfl rfl rfl)
  | reclaimCapped a c hc lost => exact .of rfl ((hs.2 c hc).move (laneIndex_active lost.active) rfl rfl rfl)
  | reclaimed a c r hr hc lost => exact .of rfl ((hs.2 c hc).again (laneIndex_active lost.active) rfl rfl)
  | lapsed _ c hc =>
    unfold markExpired
    split
    · exact hs
    · exact .of rfl ((hs.2 c hc).frame rfl rfl)
  | renewed a c _ _ _ hc | progressed a c _ _ hc | joined a c hc => exact .of rfl ((hs.2 c hc).frame rfl rfl)
  | revoked a c hc active => exact .of rfl ((hs.2 c hc).frame rfl (laneIndex_active active).symm)
  | completed a c f hc held | delayed a c f hc held | moved a c f hc held =>
    exact .of rfl ((hs.2 c hc).move (laneIndex_active held.active) rfl rfl rfl)
  | failRetried a c f delayUntil hc held due =>
    have number : delayUntil ≠ .nan := by
      rintro rfl
      simp [keepsLane,hc,due] at hk
    have lanes : (failRetry a c delayUntil (failEnd a now s)).lanes =
        (s.lanes.set none .active).set (some delayUntil.ceil) .delayed := by
      rw [failRetry,if_neg number]
      rfl
    exact .of rfl ((hs.2 c hc).move (laneIndex_active held.active) rfl lanes rfl)
  | failedTerminal a c f hc held | suspended a c b w hc held =>
    exact .of rfl ((hs.2 c hc).move (laneIndex_active held.active) rfl rfl rfl)
  | cancelled => exact .of rfl cancelCommit_filed
  | expired a c hc unfinished => exact .of rfl (expireCommit_filed (hs.2 c hc) unfinished)
  | prioritized a c _ score hc runnable eligible =>
    have hi := laneIndex_runnable (k := k) runnable eligible
    cases score with
    | none => exact .of rfl ((hs.2 c hc).frame rfl rfl)
    | some => exact .of rfl ((hs.2 c hc).again hi hi rfl)
  | delayCleaned a other =>
    refine ⟨fun hn i => ?_,fun c hc => (hs.2 c hc).absent (j := .delayed) rfl rfl fun hd => ?_⟩
    · rw [lanes_zrem,get_set rfl,hs.1 hn,ite_self]
    · exact other c hc (laneIndex_eq_delayed hd).1 (laneIndex_eq_delayed hd).2
  | promoted a c hc runnable waiting =>
    exact .of rfl ((hs.2 c hc).move (laneIndex_runnable runnable waiting) rfl rfl rfl)
  | blocked a => exact (hop a rfl).elim
  | unblocked a c hc runnable held =>
    have hi : c.laneIndex k = some a.blockedZset := by simpa [keepsLane,hc,runnable,held] using hk
    exact .of rfl ((hs.2 c hc).move hi rfl (by rw [lanes_zadd,lanes_zrem]; rfl) rfl)
  | resumed a c p hc suspended | autoResumed a c p hc suspended =>
    exact .of rfl (resumed_filed (hs.2 c hc) suspended rfl)
  | escalated a c p hc suspended => exact .of rfl ((hs.2 c hc).frame rfl (laneIndex_suspended suspended).symm)
  | timedOut a c p hc suspended => exact .of rfl ((hs.2 c hc).move (laneIndex_suspended suspended) rfl rfl rfl)
  | signalResumed a c p cond w taken | compositeResumed a c p cond w taken =>
    simp only [plainResume,compositeResume,resumeSuspended]
    split
    · exact .of rfl (resumed_filed (hs.2 c taken.core) ‹_› rfl)
    · exact hs.same rfl rfl
  | applied a c hc fresh => exact blockChild_filed hs hc (by simpa [keepsLane,fresh,hc,imp_iff_not_or] using hk)
  | resolved a d t settles settled =>
    cases settled with
    | kept => exact hs.same rfl rfl
    | released c hc hw => exact .of rfl (dependenciesMet_filed (hs.2 c hc) hw.1 hw.2.2.2 rfl)
    | skipped c hc ho hp =>
      have hu : c.lifecyclePhase = .runnable ∧ c.eligibilityState = .blockedByDependencies := by
        simpa [keepsLane,hp,hc,ho] using hk
      exact .of rfl ((hs.2 c hc).move (laneIndex_runnable hu.1 hu.2) rfl rfl rfl)
  | released c hc runnable waiting => exact .of rfl (dependenciesMet_filed (hs.2 c hc) runnable waiting rfl)
  | replayedSkipped a c hc finished | replayedNormal a c hc finished =>
    exact .of rfl ((hs.2 c hc).move (show c.laneIndex k = some .terminal by simp [laneIndex,finished]) rfl rfl rfl)
  | _ => exact hs.same rfl rfl

def Op.blockedIn (op : Op) (s : Store) (pausedIn : Index) : Index :=
  match op, s.core with
  | .block a, some c =>
    if c.lifecyclePhase = .runnable ∧ a.blockingReason.toEligibility.isSome then a.blockedZset else pausedIn
  | _, _ => pausedIn

private theorem isLane_of_laneIndex (h : e.laneIndex k = some home) : home.isLane := by
  have expiring : ∀ i ∈ e.expiryIndexes, i.isLane := by cases e <;> decide
  exact expiring home (expiryIndexes_laneIndex h)

private theorem block_filed {a : BlockArgs} (hs : s.filed k) (hk : (Op.block a).keepsLane now s k) :
    (next ⟨now,.block a⟩ s).filed ((Op.block a).blockedIn s k) := by
  rw [next_block]
  cases hc : s.core with
  | none => simpa [blockedIn,hc] using hs
  | some c =>
    cases he : a.blockingReason.toEligibility with
    | none => simpa [blockedIn,hc,he] using hs
    | some e =>
      by_cases hp : c.lifecyclePhase = .runnable
      · have hk : e.laneIndex a.blockedZset = some a.blockedZset ∧
            (c.eligibilityState = .eligibleNow ∨ c.laneIndex k = some a.blockedZset) := by
          simpa [keepsLane,hc,he,hp] using hk
        have hz : a.blockedZset.isLane := isLane_of_laneIndex hk.1
        simp only [blockedIn,hc,hp,he,isSome_some,and_self,if_true]
        obtain ⟨home,hh,ha⟩ := hs.2 c hc
        refine .of rfl ⟨a.blockedZset,hk.1,?_⟩
        rw [lanes_zadd,lanes_zrem]
        by_cases hel : home = .eligible
        · rw [← hel]
          exact ha.move hz
        · rcases hk.2 with h | h
          · rw [laneIndex_runnable hp h] at hh
            cases hh
            exact (hel rfl).elim
          · rw [h] at hh
            cases hh
            exact (ha.absent rfl (Ne.symm hel)).again
      · simpa [blockedIn,hc,hp] using hs

def nextTracked (i : Call) (x : Store × Index) : Store × Index := (next i x.1,i.op.blockedIn x.1 x.2)

/-- The store after a run and the blocked index of its last block. -/
def runTracked (calls : List Call) : Store × Index := runFrom nextTracked (run [],.eligible) calls

private theorem runFrom_nextTracked_fst (x : Store × Index) (calls : List Call) :
    (runFrom nextTracked x calls).1 = runFrom next x.1 calls := by
  induction calls generalizing x with
  | nil => rfl
  | cons i calls ih => exact ih (nextTracked i x)

theorem filed_next {x : Store × Index} {i : Call} (hs : x.1.filed x.2)
    (hk : i.op.keepsLane i.now x.1 x.2) : (nextTracked i x).1.filed (nextTracked i x).2 := by
  obtain ⟨now,op⟩ := i
  by_cases hb : ∃ a, op = .block a
  · obtain ⟨a,rfl⟩ := hb
    exact block_filed hs hk
  · have hop : ∀ a, op ≠ .block a := fun a ha => hb ⟨a,ha⟩
    have hi : op.blockedIn x.1 x.2 = x.2 := by
      unfold blockedIn
      split
      · exact (hop _ rfl).elim
      · rfl
    simp only [nextTracked,hi]
    exact (next_effect ⟨now,op⟩ x.1).filed hs hop hk

/-- In every run whose calls keep to one index, the execution is in the index of its phase and
eligibility and in no other index of the lane. -/
theorem executions_are_in_their_lane_index (calls : List Call)
    (h : Along nextTracked (fun x i => i.op.keepsLane i.now x.1 x.2) ({},.eligible) calls)
    (c : ExecCore) (hc : (run calls).core = some c) :
    ∃ home : Index, c.laneIndex (runTracked calls).2 = some home ∧ home.isLane ∧
      ∀ i : Index, i.isLane → (((run calls).zset i).isSome ↔ i = home) := by
  have start : filed {} .eligible := ⟨fun _ i => by cases i <;> rfl,by simp⟩
  have filed : (runTracked calls).1.filed (runTracked calls).2 :=
    h.invariant (I := fun x => x.1.filed x.2) (fun x i hs hi => filed_next hs hi) start
  have hrun : (runTracked calls).1 = run calls := runFrom_nextTracked_fst _ calls
  rw [hrun] at filed
  obtain ⟨home,hh,ha⟩ := filed.2 c hc
  refine ⟨home,hh,ha.isLane,fun i hi => ?_⟩
  rw [← lanes_get hi]
  exact ha i

/-- An execution that was delayed and promoted, and whose lane was paused then, is in the
blocked index it was put into. -/
theorem paused_execution_is_in_blocked_index : let calls : List Call :=
      [Client.create 10,Client.grant 11,Client.claim 12 "L1" "a1",Client.delay 13 ⟨"L1","1","a1"⟩,
        ⟨2000,.promoteDelayed { executionId := "e", nowMs := .number 2000 }⟩,
        ⟨2001,.block { executionId := "e", blockingReason := .pausedByPolicy, nowMs := 2001
                       blockedZset := .blockedOperator }⟩]
    (run calls).core.map (·.eligibilityState) = some .blockedByLaneState ∧
      ∃ home : Index, home.isLane ∧ ∀ i : Index, i.isLane → (((run calls).zset i).isSome ↔ i = home) := by
  intro calls
  have paused : (run calls).core.map (·.eligibilityState) = some .blockedByLaneState := by decide +kernel
  obtain ⟨c,hc,-⟩ := map_eq_some_iff.mp paused
  obtain ⟨home,-,hl,ha⟩ := executions_are_in_their_lane_index calls (by decide +kernel) c hc
  exact ⟨paused,home,hl,ha⟩

/-- An execution that waits for its budget and then gets a dependency is in two indexes. -/
theorem budget_blocked_child_in_two_indexes : let s := run [Client.create 10,
      ⟨11,.block { executionId := "e", blockingReason := .waitingForBudget, nowMs := 11
                   blockedZset := .blockedBudget }⟩,⟨12,.applyDependency { flowId := "f", edgeId := "u" }⟩]
    s.core.map (·.eligibilityState) = some .blockedByDependencies ∧
      (s.zset .blockedBudget).isSome ∧ (s.zset .blockedDependencies).isSome := by
  decide +kernel

end FlowFabric
