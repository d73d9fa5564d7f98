import FlowFabric.Visible

/-! What a finished execution leaves behind: its lease, the sets of the workers that held
it, and the indexes of running, suspended and timed work. -/
namespace FlowFabric
open Foundation Store Client

/-- The entries that leases, suspensions and deadlines put into other keys. -/
structure Entries where
  lease : Option LeaseRecord
  workerLeases : String → Bool
  (leaseExpiry active attemptTimeout suspended suspensionTimeout executionDeadline : Option Int)

def Store.entries (s : Store) : Entries where
  lease := s.lease
  workerLeases := s.workerLeases
  leaseExpiry := s.zset .leaseExpiry
  active := s.zset .active
  attemptTimeout := s.zset .attemptTimeout
  suspended := s.zset .suspended
  suspensionTimeout := s.zset .suspensionTimeout
  executionDeadline := s.zset .executionDeadline

def Index.temporary : Index → Bool
  | .leaseExpiry | .active | .attemptTimeout | .suspended | .suspensionTimeout | .executionDeadline => true
  | _ => false

namespace Entries

structure Vacant (e : Entries) : Prop where
  lease : e.lease = none
  workerLeases : ∀ w, e.workerLeases w = false
  leaseExpiry : e.leaseExpiry = none
  active : e.active = none
  attemptTimeout : e.attemptTimeout = none
  suspended : e.suspended = none
  suspensionTimeout : e.suspensionTimeout = none

/-- Only the holder of a lease has its entries, only a suspension has its own, and no
deadline is left at the end. -/
structure Tidy (e : Entries) (phase : LifecyclePhase) (holder : String) : Prop where
  vacant : phase ≠ .active → phase ≠ .suspended → e.Vacant
  held : phase = .active → e.suspended = none ∧ e.suspensionTimeout = none ∧ ∀ w, e.workerLeases w → w = holder ∧ w ≠ ""
  paused : phase = .suspended →
    e.lease = none ∧ (∀ w, e.workerLeases w = false) ∧ e.leaseExpiry = none ∧ e.active = none ∧ e.attemptTimeout = none
  deadline : phase = .terminal → e.executionDeadline = none

variable {e e' : Entries} {phase : LifecyclePhase} {holder : String}

def release (e : Entries) (key : String) : Entries :=
  { e with
    lease := none, workerLeases := fun w => !decide (w = key) && e.workerLeases w, leaseExpiry := none, active := none
    attemptTimeout := none }

def wake (e : Entries) : Entries := { e with suspended := none, suspensionTimeout := none }

theorem Tidy.vacant_release (h : Tidy e .active holder) : (e.release holder).Vacant := by
  obtain ⟨h1,h2,h3⟩ := h.held rfl
  refine ⟨rfl,fun w => ?_,rfl,rfl,rfl,h1,h2⟩
  by_cases hw : e.workerLeases w
  · simp [release,(h3 w hw).1]
  · simp [release,hw]

theorem Tidy.vacant_wake (h : Tidy e .suspended holder) : e.wake.Vacant := by
  obtain ⟨h1,h2,h3,h4,h5⟩ := h.paused rfl
  exact ⟨h1,h2,h3,h4,h5,rfl,rfl⟩

theorem Tidy.vacant_of_idle (h : Tidy e phase holder) (hp : phase = .runnable ∨ phase = .terminal) : e.Vacant := by
  rcases hp with rfl | rfl <;> exact h.vacant nofun nofun

theorem Vacant.tidy_runnable (h : e.Vacant) : Tidy e .runnable holder := ⟨fun _ _ => h,nofun,nofun,nofun⟩

theorem Vacant.tidy_terminal (h : e.Vacant) (hd : e.executionDeadline = none) : Tidy e .terminal holder :=
  ⟨fun _ _ => h,nofun,nofun,fun _ => hd⟩

theorem Vacant.tidy_suspended (h : e.Vacant) (x y : Option Int) :
    Tidy { e with suspended := x, suspensionTimeout := y } .suspended holder :=
  ⟨fun _ hn => (hn rfl).elim,nofun,fun _ => ⟨h.lease,h.workerLeases,h.leaseExpiry,h.active,h.attemptTimeout⟩,nofun⟩

theorem tidy_active (h1 : e.suspended = none) (h2 : e.suspensionTimeout = none)
    (h3 : ∀ w, e.workerLeases w → w = holder ∧ w ≠ "") : Tidy e .active holder :=
  ⟨fun hn => (hn rfl).elim,fun _ => ⟨h1,h2,h3⟩,nofun,nofun⟩

theorem Vacant.deadline (h : e.Vacant) (x : Option Int) : Vacant { e with executionDeadline := x } :=
  ⟨h.lease,h.workerLeases,h.leaseExpiry,h.active,h.attemptTimeout,h.suspended,h.suspensionTimeout⟩

structure Below (e' e : Entries) : Prop where
  lease : e'.lease = e.lease ∨ e'.lease = none
  workerLeases : ∀ w, e'.workerLeases w → e.workerLeases w
  leaseExpiry : e'.leaseExpiry = e.leaseExpiry ∨ e'.leaseExpiry = none
  active : e'.active = e.active ∨ e'.active = none
  attemptTimeout : e'.attemptTimeout = e.attemptTimeout ∨ e'.attemptTimeout = none
  suspended : e'.suspended = e.suspended ∨ e'.suspended = none
  suspensionTimeout : e'.suspensionTimeout = e.suspensionTimeout ∨ e'.suspensionTimeout = none
  executionDeadline : e'.executionDeadline = e.executionDeadline ∨ e'.executionDeadline = none

theorem gone {α : Type} {x x' : Option α} (h : x' = x ∨ x' = none) (hx : x = none) : x' = none := by
  rcases h with h | h
  · exact h.trans hx
  · exact h

theorem Below.unheld (hb : Below e' e) (h : ∀ w, e.workerLeases w = false) (w : String) :
    e'.workerLeases w = false := by
  by_contra hw
  simpa [h w] using hb.workerLeases w (by simpa using hw)

theorem Vacant.below (h : e.Vacant) (hb : Below e' e) : e'.Vacant :=
  ⟨gone hb.lease h.lease,hb.unheld h.workerLeases,gone hb.leaseExpiry h.leaseExpiry,gone hb.active h.active,
    gone hb.attemptTimeout h.attemptTimeout,gone hb.suspended h.suspended,
    gone hb.suspensionTimeout h.suspensionTimeout⟩

theorem Tidy.below (h : Tidy e phase holder) (hb : Below e' e) : Tidy e' phase holder := by
  refine ⟨fun h1 h2 => (h.vacant h1 h2).below hb,fun hp => ?_,fun hp => ?_,fun hp => ?_⟩
  · obtain ⟨h1,h2,h3⟩ := h.held hp
    exact ⟨gone hb.suspended h1,gone hb.suspensionTimeout h2,fun w hw => h3 w (hb.workerLeases w hw)⟩
  · obtain ⟨h1,h2,h3,h4,h5⟩ := h.paused hp
    exact ⟨gone hb.lease h1,hb.unheld h2,gone hb.leaseExpiry h3,gone hb.active h4,gone hb.attemptTimeout h5⟩
  · exact gone hb.executionDeadline (h.deadline hp)

end Entries

def Store.tidy (s : Store) : Prop :=
  (s.core = none → s.entries.Vacant) ∧ ∀ c, s.core = some c → s.entries.Tidy c.lifecyclePhase c.currentWorkerInstanceId

/-- The worker key is that of the holder, if the execution is held. -/
def Keys.ofHolder (keys : Keys) (s : Store) : Bool :=
  s.core.all fun c => decide (c.lifecyclePhase = .active → keys.workerInstanceId = c.currentWorkerInstanceId)

def Keys.ofWorker (keys : Keys) (instanceId : String) : Bool :=
  decide (keys.workerInstanceId = instanceId ∧ instanceId ≠ "")

/-- The keys are those of the lane and of the worker: a new execution goes to a scheduling
index, a blocked one to a blocked index, a claim to the worker it names, and a lease is
given up with the key of its holder. -/
def Op.keysWorker (op : Op) (s : Store) : Bool :=
  match op with
  | .create a => !a.schedulingZset.temporary
  | .block a => !a.blockedZset.temporary
  | .claim a => a.keys.ofWorker a.workerInstanceId
  | .claimResumed a => a.keys.ofWorker a.workerInstanceId
  | .issueGrantAndClaim a => a.keys.ofWorker a.workerInstanceId
  | .reclaim a => a.keys.ofWorker a.workerInstanceId
  | .complete a => a.keys.ofHolder s
  | .fail a => a.keys.ofHolder s
  | .delay a => a.keys.ofHolder s
  | .moveToWaitingChildren a => a.keys.ofHolder s
  | .suspend a => a.keys.ofHolder s
  | .cancel a => a.keys.ofHolder s
  | _ => true

/-- The calls that finish an execution without leaving entries behind: a dependency skips
only a runnable execution, and neither that nor the timeout of a suspension ends one with a
deadline. -/
def Op.cleansUp (op : Op) (s : Store) : Bool :=
  match op with
  | .resolveDependency a =>
    !a.precludes s.deps || s.core.all fun c =>
      decide (c.terminalOutcome = .none → c.lifecyclePhase = .runnable ∧ s.zset .executionDeadline = none)
  | .expireSuspension _ =>
    s.wait.activeSuspension.all fun p => decide (p.timeoutBehavior.isFinal → s.zset .executionDeadline = none)
  | _ => true

variable {op : Op} {s t : Store} {c c' : ExecCore} {now : Int}

theorem Store.tidy.of (ht : t.core = some c')
    (h : t.entries.Tidy c'.lifecyclePhase c'.currentWorkerInstanceId) : t.tidy :=
  of_core ht h

theorem Store.tidy.same (h : s.tidy) (hc : t.core = s.core) (he : t.entries = s.entries) : t.tidy := by
  unfold tidy
  rw [hc,he]
  exact h

theorem Store.tidy.below (h : s.tidy) (hc : t.core = s.core) (he : t.entries.Below s.entries) : t.tidy := by
  unfold tidy
  rw [hc]
  exact ⟨fun hn => (h.1 hn).below he,fun c hc => (h.2 c hc).below he⟩

theorem entries_zadd {i : Index} {x : Int} (hi : i.temporary = false) : (s.zadd i x).entries = s.entries := by
  cases i <;> first | rfl | cases hi

private theorem entries_zaddSome_deadline (s : Store) (x : Option Int) : (s.zaddSome .executionDeadline x).entries =
      { s.entries with executionDeadline := x.or (s.zset .executionDeadline) } := rfl

theorem zrem_below (s : Store) (i : Index) : (s.zrem i).entries.Below s.entries := by
  have hz (j : Index) : (s.zrem i).zset j = s.zset j ∨ (s.zrem i).zset j = none := by by_cases hj : j = i <;> simp [hj]
  exact ⟨.inl rfl,fun _ => id,hz _,hz _,hz _,hz _,hz _,hz _⟩

variable {r : LeaseRequest} {a : ReclaimArgs}

theorem takeLease_tidy {keys : Keys} {instanceId : String} (h : s.entries.Vacant)
    (hr : r.workerInstanceId = instanceId) (hk : keys.ofWorker instanceId)
    (he : t.entries.suspended = s.entries.suspended) (he' : t.entries.suspensionTimeout = s.entries.suspensionTimeout)
    (hw : t.workerLeases = (s.saddWorker keys.workerInstanceId).workerLeases) :
    t.entries.Tidy .active r.workerInstanceId := by
  obtain ⟨hk,hne⟩ := of_decide_eq_true hk
  refine Entries.tidy_active (he.trans h.suspended) (he'.trans h.suspensionTimeout) fun w hw' => ?_
  have hs := h.workerLeases w
  simp only [entries] at hw' hs
  simp only [hw,saddWorker_workerLeases,hs,Bool.or_false,decide_eq_true_eq] at hw'
  exact ⟨hw'.trans (hk.trans hr.symm),hw'.trans hk ▸ hne⟩

theorem resumed_entries (c : ExecCore) (delayMs : Int) :
    ((((s.setCore (c.resumed delayMs)).indexResumed c delayMs now).zrem .suspensionTimeout).entries) =
      s.entries.wake := by
  unfold indexResumed
  split <;> rfl

theorem resumed_tidy {delayMs : Int} (h : s.entries.Tidy c.lifecyclePhase c.currentWorkerInstanceId)
    (hp : c.lifecyclePhase = .suspended) (he : t.entries = s.entries.wake) :
    t.entries.Tidy (c.resumed delayMs).lifecyclePhase (c.resumed delayMs).currentWorkerInstanceId := by
  rw [hp] at h
  rw [he]
  exact h.vacant_wake.tidy_runnable

theorem vacant_release {keys : Keys} (hs : s.tidy) (hc : s.core = some c) (hp : c.lifecyclePhase = .active)
    (hk : keys.ofHolder s) : (s.entries.release keys.workerInstanceId).Vacant := by
  have h := hs.2 c hc
  rw [hp] at h
  have hk : keys.workerInstanceId = c.currentWorkerInstanceId := by simpa [Keys.ofHolder,hc,hp] using hk
  rw [hk]
  exact h.vacant_release

theorem vacant_runnable (h : s.entries.Tidy c.lifecyclePhase c.currentWorkerInstanceId)
    (hp : c.lifecyclePhase = .runnable) : s.entries.Vacant :=
  h.vacant_of_idle (.inl hp)

private theorem cancelCommit_vacant {a : CancelArgs} (hs : s.tidy) (hc : s.core = some c) (hk : a.keys.ofHolder s) :
    (cancelCommit a c now s).entries.Vacant := by
  have h := hs.2 c hc
  unfold cancelCommit cancelPhase
  split
  · rename_i hp
    exact (vacant_release hs hc hp hk).below
      ⟨.inl rfl,fun _ => id,.inl rfl,.inl rfl,.inl rfl,.inr rfl,.inr rfl,.inr rfl⟩
  · rename_i hp
    rw [hp] at h
    refine h.vacant_wake.below ⟨.inl rfl,fun w hw => ?_,.inr rfl,.inr rfl,.inr rfl,.inl rfl,.inl rfl,.inr rfl⟩
    exact (Bool.and_eq_true_iff.mp hw).2
  · rename_i hactive hsuspended
    refine (h.vacant hactive hsuspended).below
      ⟨.inl rfl,fun w hw => ?_,.inr rfl,.inr rfl,.inr rfl,.inr rfl,.inr rfl,.inr rfl⟩
    exact (Bool.and_eq_true_iff.mp hw).2

section
variable (h : s.entries.Tidy c.lifecyclePhase c.currentWorkerInstanceId)
include h

private theorem expireCommit_vacant {a : ExpireArgs} : (expireCommit a c now s).entries.Vacant := by
  unfold expireCommit expirePhase
  split
  · rename_i hp
    rw [hp] at h
    obtain ⟨h1,h2,h3⟩ := h.held rfl
    refine ⟨rfl,fun w => ?_,rfl,rfl,rfl,h1,h2⟩
    by_cases hw : s.workerLeases w
    · obtain ⟨hw',hne⟩ := h3 w hw
      simp [entries,hw'.symm,hne]
    · simp [entries,hw,endAttempt]
  · rename_i hp
    rw [hp] at h
    exact h.vacant_wake.below ⟨.inl rfl,fun _ => id,.inl rfl,.inl rfl,.inr rfl,.inl rfl,.inl rfl,.inr rfl⟩
  · rename_i hp
    have he : (s.zremAll c.eligibilityState.expiryIndexes).entries = s.entries := by cases c.eligibilityState <;> rfl
    have hv : (s.zremAll c.eligibilityState.expiryIndexes).entries.Vacant := by
      rw [he]
      exact vacant_runnable h hp
    exact hv.below ⟨.inl rfl,fun _ => id,.inl rfl,.inl rfl,.inr rfl,.inl rfl,.inl rfl,.inr rfl⟩
  · rename_i hactive hsuspended _
    exact (h.vacant hactive hsuspended).below
      ⟨.inl rfl,fun _ => id,.inl rfl,.inl rfl,.inr rfl,.inl rfl,.inl rfl,.inr rfl⟩

private theorem reclaimCap_vacant (hp : c.lifecyclePhase = .active) : (reclaimCap a c now s).entries.Vacant := by
  rw [hp] at h
  obtain ⟨h1,h2,h3⟩ := h.held rfl
  refine ⟨rfl,fun w => ?_,rfl,rfl,rfl,h1,h2⟩
  by_cases hw : s.workerLeases w
  · obtain ⟨hw',hne⟩ := h3 w hw
    simp [reclaimCap,entries,hw'.symm,hne]
  · simp [reclaimCap,entries,hw]

private theorem reclaimCommit_tidy (hp : c.lifecyclePhase = .active)
    (hr : r.workerInstanceId = a.workerInstanceId) (hk : a.keys.ofWorker a.workerInstanceId) :
    (reclaimCommit a c r now s).entries.Tidy .active r.workerInstanceId := by
  rw [hp] at h
  obtain ⟨hk,hne⟩ := of_decide_eq_true hk
  obtain ⟨h1,h2,h3⟩ := h.held rfl
  refine Entries.tidy_active h1 h2 fun w hw => ?_
  rw [hr]
  by_cases hwa : w = a.workerInstanceId
  · exact ⟨hwa,hwa ▸ hne⟩
  · -- only the old holder could still be there, and it has been removed
    simp [reclaimCommit,entries,takeLease,interruptAttempt,hk,hwa] at hw
    obtain ⟨hgone,hold⟩ := hw
    obtain ⟨rfl,hold⟩ := h3 w hold
    simp [hwa,hold] at hgone

end

theorem Effect.tidy (h : Effect s now op t) (hs : s.tidy) (hk : op.keysWorker s) (hu : op.cleansUp s) : t.tidy := by
  cases h with
  | created a priority caps absent =>
    refine .of rfl (Entries.Vacant.tidy_runnable ?_)
    have hz : a.schedulingZset.temporary = false := by simpa [Op.keysWorker] using hk
    rw [createdStore,entries_zaddSome_deadline,entries_zadd hz]
    exact (hs.1 absent).deadline _
  | claimed _ a c r hop hr hc ready =>
    have hv := vacant_runnable (hs.2 c hc) ready.runnable
    have hk : a.keys.ofWorker a.workerInstanceId := by rcases hop with rfl | rfl <;> exact hk
    exact .of rfl (takeLease_tidy hv hr hk rfl rfl rfl)
  | claimResumed a c r timeout hr hc runnable | grantClaimResumed a c r hr hc runnable =>
    exact .of rfl (takeLease_tidy (vacant_runnable (hs.2 c hc) runnable) hr hk rfl rfl rfl)
  | reclaimCapped a c hc lost => exact .of rfl ((reclaimCap_vacant (hs.2 c hc) lost.active).tidy_terminal rfl)
  | reclaimed a c r hr hc lost => exact .of rfl (reclaimCommit_tidy (hs.2 c hc) lost.active hr hk)
  | lapsed _ c hc =>
    unfold markExpired
    split
    · exact hs
    · exact .of rfl (hs.2 c hc)
  | renewed a c expiresAt deadline _ hc held =>
    refine .of rfl ?_
    have h := hs.2 c hc
    obtain ⟨h1,h2,h3⟩ := h.held held.active
    rw [show (c.renewed expiresAt deadline).lifecyclePhase = .active from held.active]
    exact Entries.tidy_active h1 h2 h3
  | leaseUnindexed => exact hs.below rfl (zrem_below s .leaseExpiry)
  | revoked a c hc active =>
    refine .of rfl ?_
    have h := hs.2 c hc
    rw [active] at h
    refine h.below ⟨.inr rfl,fun w hw => ?_,.inr rfl,.inl rfl,.inl rfl,.inl rfl,.inl rfl,.inl rfl⟩
    exact (Bool.and_eq_true_iff.mp hw).2
  | progressed a c _ _ hc | prioritized a c _ _ hc | joined a c hc | released c hc => exact .of rfl (hs.2 c hc)
  | completed a c f hc held | failedTerminal a c f hc held =>
    exact .of rfl (((vacant_release hs hc held.active hk).deadline none).tidy_terminal rfl)
  | failRetried a c f delayUntil hc held => exact .of rfl (vacant_release hs hc held.active hk).tidy_runnable
  | delayed a c f hc held | moved a c f hc held => exact .of rfl (vacant_release hs hc held.active hk).tidy_runnable
  | cancelled a c hc => exact .of rfl ((cancelCommit_vacant hs hc hk).tidy_terminal rfl)
  | expireCleaned =>
    refine hs.below rfl ⟨.inl rfl,fun _ => id,.inl rfl,.inl rfl,.inr rfl,.inl rfl,.inl rfl,.inr rfl⟩
  | expired a c hc => exact .of rfl ((expireCommit_vacant (hs.2 c hc)).tidy_terminal rfl)
  | promoted a c hc runnable => exact .of rfl (vacant_runnable (hs.2 c hc) runnable).tidy_runnable
  | blocked a c e hc runnable =>
    refine .of rfl (Entries.Vacant.tidy_runnable ?_)
    rw [entries_zadd (by simpa [Op.keysWorker] using hk)]
    exact vacant_runnable (hs.2 c hc) runnable
  | unblocked a c hc runnable =>
    refine .of rfl (Entries.Vacant.tidy_runnable ?_)
    exact (vacant_runnable (hs.2 c hc) runnable).below (zrem_below s a.blockedZset)
  | suspended a c b w hc held => exact .of rfl ((vacant_release hs hc held.active hk).tidy_suspended _ _)
  | resumed a c p hc suspended => exact .of rfl (resumed_tidy (hs.2 c hc) suspended (resumed_entries c a.resumeDelayMs))
  | timeoutCleaned => exact hs.below rfl (zrem_below s .suspensionTimeout)
  | autoResumed a c p hc suspended => exact .of rfl (resumed_tidy (hs.2 c hc) suspended rfl)
  | escalated a c p hc suspended =>
    refine .of rfl ?_
    have h := hs.2 c hc
    rw [suspended] at h
    exact h.below (zrem_below s .suspensionTimeout)
  | timedOut a c p hc suspended active final =>
    have h := hs.2 c hc
    rw [suspended] at h
    have hd : s.zset .executionDeadline = none := by simpa [Op.cleansUp,active,final] using hu
    exact .of rfl (h.vacant_wake.tidy_terminal hd)
  | signalResumed a c p cond w taken | compositeResumed a c p cond w taken =>
    simp only [plainResume,compositeResume,resumeSuspended]
    split
    · exact .of rfl (resumed_tidy (hs.2 c taken.core) ‹_› (resumed_entries c _))
    · exact hs.below rfl (zrem_below ((s.setWait w).setWait _) .suspensionTimeout)
  | applied a c hc =>
    unfold blockChild
    split
    · exact .of rfl (hs.2 c hc)
    · exact hs.same rfl rfl
  | resolved a d t settles settled =>
    cases settled with
    | kept => exact hs.same rfl rfl
    | released c hc => exact .of rfl (hs.2 c hc)
    | skipped c hc ho hp =>
      have hu : c.lifecyclePhase = .runnable ∧ s.zset .executionDeadline = none := by
        simpa [Op.cleansUp,hp,hc,ho] using hu
      exact .of rfl ((vacant_runnable (hs.2 c hc) hu.1).tidy_terminal hu.2)
  | replayedSkipped a c hc finished | replayedNormal a c hc finished =>
    exact .of rfl ((hs.2 c hc).vacant_of_idle (.inr finished)).tidy_runnable
  | _ => exact hs.same rfl rfl

def Store.cleanedUp (s : Store) : Prop :=
  s.lease = none ∧ (∀ w, s.workerLeases w = false) ∧
    ∀ i ∈ [Index.leaseExpiry,.active,.suspended,.attemptTimeout,.executionDeadline,.suspensionTimeout],s.zset i = none

/-- In every run whose calls use the keys of the lane and the worker, and that skips or times
out no execution with entries left, a finished execution has no lease, is in no worker's set
and in none of the temporary indexes. -/
theorem finished_executions_are_cleaned_up (calls : List Call)
    (h : Along next (fun s i => i.op.keysWorker s ∧ i.op.cleansUp s) {} calls) (c : ExecCore)
    (hc : (run calls).core = some c) (ht : c.lifecyclePhase = .terminal) : (run calls).cleanedUp := by
  have start : tidy {} := ⟨fun _ => ⟨rfl,fun _ => rfl,rfl,rfl,rfl,rfl,rfl⟩,by simp⟩
  have tidy := h.invariant (fun s i hs hi => (next_effect i s).tidy hs hi.1 hi.2) start
  have ht' := tidy.2 c hc
  obtain ⟨h1,h2,h3,h4,h5,h6,h7⟩ := ht'.vacant_of_idle (.inr ht)
  refine ⟨h1,h2,?_⟩
  simp only [List.forall_mem_cons]
  exact ⟨h3,h4,h6,h5,ht'.deadline ht,h7,by simp⟩

/-- An execution that was claimed with a deadline and then completed. -/
theorem completed_with_deadline_is_cleaned_up : let calls : List Call :=
      [⟨10,.create { executionId := "e", priority := .number 5, schedulingZset := .eligible
                     executionDeadlineAt := some 9000 }⟩,grant 11,claim 12 "L1" "a1",complete 13 ⟨"L1","1","a1"⟩]
    (run calls).core.map (·.lifecyclePhase) = some .terminal ∧ (run calls).cleanedUp := by
  intro calls
  have finished : (run calls).core.map (·.lifecyclePhase) = some .terminal := by decide +kernel
  obtain ⟨c,hc,hp⟩ := Option.map_eq_some_iff.mp finished
  exact ⟨finished,finished_executions_are_cleaned_up calls (by decide +kernel) c hc hp⟩

/-- A claimed child whose upstream fails is skipped with its lease, its place in the set of
its worker and its active entry. -/
theorem skipped_child_keeps_lease : let s := run [create 10,grant 11,claim 12 "L1" "a1",
      ⟨13,.applyDependency { flowId := "f", edgeId := "u" }⟩,
      ⟨14,.resolveDependency { edgeId := "u", upstreamOutcome := .failed, nowMs := 14 }⟩]
    s.core.map (·.lifecyclePhase) = some .terminal ∧ s.lease.isSome ∧ s.workerLeases "wi" ∧
      (s.zset .active).isSome ∧ (s.zset .leaseExpiry).isSome := by
  decide +kernel

end FlowFabric
