import FlowFabric.Postgres.Machine

/-! Ended executions. Most writes are keyed by the execution id alone, and some of their guards do not
keep them from an execution that has ended. -/
namespace FlowFabric.Postgres
open Foundation Option

/-- The three columns that show the end of an execution are the same. -/
def SameEnd (r r' : Rows) : Prop :=
  r'.core.lifecyclePhase = r.core.lifecyclePhase ∧ r'.core.publicState = r.core.publicState ∧
    r'.core.terminalAtMs = r.core.terminalAtMs

instance (r r' : Rows) : Decidable (SameEnd r r') := inferInstanceAs (Decidable (_ ∧ _ ∧ _))

variable {r r' : Rows} {now : Int}

theorem SameEnd.rfl : SameEnd r r := ⟨Eq.refl _,Eq.refl _,Eq.refl _⟩

open SameEnd

theorem SameEnd.isEnded (h : SameEnd r r') : r'.core.isEnded ↔ r.core.isEnded := by
  rw [CoreRow.isEnded,h.1]
  rfl

theorem SameEnd.trans_iff {r'' : Rows} (h : SameEnd r r') : SameEnd r r'' ↔ SameEnd r' r'' := by
  unfold SameEnd
  rw [h.1,h.2.1,h.2.2]

/-! ### Which calls overwrite an end -/

/-- An end at the time is not the one that is on the row. -/
def CoreRow.endsAnew (c : CoreRow) (now : Int) : Prop := ¬ (c.lifecyclePhase = .terminal ∧ c.terminalAtMs = some now)

instance (c : CoreRow) (now : Int) : Decidable (c.endsAnew now) := inferInstanceAs (Decidable (¬ _))

/-- The handle of the last claim still passes the fence after the end. -/
def WorkerOp.overwrites (h : Handle) (now : Int) (r : Rows) : WorkerOp → Prop
  | .complete _ => r.fences h ∧ r.core.endsAnew now
  | .fail classification =>
    r.fences h ∧ if classification.retryable = true then r.core.attemptIndex < i32Max else r.core.endsAnew now
  | .delay _ | .waitChildren => r.fences h
  | .suspend a cached kid => cached = false ∧ r.fences h ∧ a.signs kid = true
  | .renew | .progress .. | .appendFrame .. => False

/-- The calls that write on an ended execution: three claims that do not look at its phase, a signal or a
timeout of a suspension it had, a cancel that knows one spelling of an end only, and the filter of
cancel_flow, which knows the other. -/
def Op.overwrites (now : Int) (r : Rows) : Op → Prop
  | .worker h op => op.overwrites h now r
  | .claimFromResumeGrant _ => (r.newestFree now).isSome = true
  | .claimResumedExecution _ => r.core.publicState = .resumable ∧ r.current.isSome = true
  | .issueGrantAndClaim .. => r.core.attemptState = .attemptInterrupted ∧ r.current.isSome = true
  | .deliver key s => (r.recorded key s).any SuspensionRow.satisfied = true
  | .expireSuspension => ∃ row ∈ r.suspension, row.due now = true ∧
      row.timeoutBehavior ≠ .autoResumeWithTimeoutSignal ∧ r.core.endsAnew now
  | .cancel _ => r.core.lifecyclePhase ≠ .terminal
  | .cancelMember policy => policy.selects r.core.lifecyclePhase = true
  | _ => False

variable {c : CoreRow}

theorem sameEnd_of_not_anew (hp : r'.core.lifecyclePhase = .terminal)
    (hs : r'.core.publicState = r.core.publicState) (ht : r'.core.terminalAtMs = some now)
    (h : ¬ r.core.endsAnew now) : SameEnd r r' := by
  obtain ⟨hp',ht'⟩ : r.core.lifecyclePhase = .terminal ∧ r.core.terminalAtMs = some now := not_not.mp h
  exact ⟨hp.trans hp'.symm,hs,ht.trans ht'.symm⟩

theorem not_sameEnd_of_anew (hp : r'.core.lifecyclePhase = .terminal)
    (ht : r'.core.terminalAtMs = some now) (h : r.core.endsAnew now) : ¬ SameEnd r r' := by
  rintro ⟨hp',-,ht'⟩
  exact h ⟨hp'.symm.trans hp,ht'.symm.trans ht⟩

theorem not_sameEnd_of_phase (he : r.core.isEnded) (phase : Phase)
    (hp : r'.core.lifecyclePhase = phase) (hn : phase ≠ .terminal ∧ phase ≠ .cancelled) : ¬ SameEnd r r' := by
  intro h
  rw [← h.isEnded,CoreRow.isEnded,hp] at he
  exact he.elim hn.1 hn.2

theorem phase_ne_of_ended (he : c.isEnded) {phase : Phase}
    (hp : phase ≠ .terminal ∧ phase ≠ .cancelled) : c.lifecyclePhase ≠ phase := by
  rintro rfl
  exact he.elim hp.1 hp.2

/-! ### The writes of a call on an ended execution -/

theorem WorkerWrites.sameEnd {h : Handle} {op : WorkerOp}
    (hw : WorkerWrites h now r op r') (ho : ¬ op.overwrites h now r) : SameEnd r r' := by
  cases hw with
  | renew | progress | appendFrame => exact rfl
  | complete payload hf => exact sameEnd_of_not_anew rfl rfl rfl fun ha => ho ⟨hf,ha⟩
  | retry classification hf hc hi =>
    refine absurd ⟨hf,?_⟩ ho
    rw [if_pos hc]
    exact hi
  | fail classification hc hf =>
    refine sameEnd_of_not_anew rfl rfl rfl fun ha => ho ⟨hf,?_⟩
    rw [if_neg hc]
    exact ha
  | delay delayUntil hf | waitChildren hf => exact absurd hf ho
  | suspend a cached kid hf hc hk => exact absurd ⟨hc,hf,hk⟩ ho

theorem Writes.sameEnd {op : Op} (hw : Writes now r op r') (he : r.core.isEnded)
    (hn : op = .replayExecution → r.core.lifecyclePhase ≠ .terminal) (ho : ¬ op.overwrites now r) : SameEnd r r' := by
  cases hw with
  | worker hw => exact hw.sameEnd ho
  | claim p hp => exact absurd hp.2.1 (phase_ne_of_ended he (by decide))
  | claimExecution a h hp | claimByOperator leaseDurationMs attemptId h ha hp | changePriority newPriority hp
  | promoteDelayed hp | completeExecution a payload hp | failedRetry a maxRetries hp
  | failExecution a maxRetries hp | retryAttempt i hp | expireAttempt i hp | expireExecution hp =>
    exact absurd hp (phase_ne_of_ended he (by decide))
  | resumeByOperator leaseDurationMs attemptId ha hr => exact absurd ⟨ha,hr⟩ ho
  | claimFromResumeGrant t i hi => exact absurd (by rw [Op.overwrites,hi]; rfl) ho
  | claimResumedExecution t hp hr => exact absurd ⟨hp,hr⟩ ho
  | reclaimCap a g hn' | reclaim a g h hn' | cancelExecution a hn' | cancelHeader reason hn' | unblock hn'
  | skip flowId hn' | cancelSibling hn' => exact absurd he hn'
  | claimForWorker a lane capabilities budgetsAdmit g hc => exact absurd hc.2.1 (phase_ne_of_ended he (by decide))
  | renewLease | issueReclaimGrant | timeoutSignal | close | joinFlow => exact rfl
  | resumeExecution resumeDelayMs hp => exact absurd hp (phase_ne_of_ended he (by decide))
  | deliver key s recorded hr =>
    have hs : ¬ recorded.satisfied = true := by
      intro hs
      refine ho ?_
      rw [Op.overwrites,hr]
      exact hs
    rw [SameEnd,Rows.signalled,if_neg hs]
    exact rfl
  | expireSuspension row hs hd hb => exact sameEnd_of_not_anew rfl rfl rfl fun ha => ho ⟨row,hs,hd,hb,ha⟩
  | cancel reason hp | cancelMember policy hp => exact absurd hp ho
  | revokeLease =>
    have hcore : (r.revoked now).core = r.core := if_neg (phase_ne_of_ended he (by decide))
    rw [SameEnd,hcore]
    exact rfl
  | replayExecution hp => exact absurd hp (hn rfl)
  | releaseOne i =>
    have hcore : (r.releasedOne i).core = r.core := if_neg (phase_ne_of_ended he (by decide))
    rw [SameEnd,hcore]
    exact rfl

theorem WorkerOp.not_sameEnd {h : Handle} {op : WorkerOp} (he : r.core.isEnded)
    (ho : op.overwrites h now r) : ¬ SameEnd r ((op.run h now r).rows r) := by
  cases op with
  | renew | progress | appendFrame => exact absurd ho not_false
  | complete =>
    rw [run,Postgres.complete,fenced_of ho.1]
    exact not_sameEnd_of_anew rfl rfl ho.2
  | fail =>
    obtain ⟨hf,ho⟩ := ho
    rw [run,Postgres.fail]
    split
    · rename_i hc
      rw [if_pos hc] at ho
      rw [failRetry_rows,if_pos ⟨hf,ho⟩]
      exact not_sameEnd_of_phase he .runnable rfl (by decide)
    · rename_i hc
      rw [if_neg hc] at ho
      rw [failTerminal,fenced_of hf]
      exact not_sameEnd_of_anew rfl rfl ho
  | delay =>
    rw [run,Postgres.delay,fenced_of ho]
    exact not_sameEnd_of_phase he .runnable rfl (by decide)
  | waitChildren =>
    rw [run,Postgres.waitChildren,fenced_of ho]
    exact not_sameEnd_of_phase he .runnable rfl (by decide)
  | suspend =>
    obtain ⟨hc,hf,hk⟩ := ho
    rw [run,suspend_rows,if_pos ⟨hc,hf,hk⟩]
    exact not_sameEnd_of_phase he .suspended rfl (by decide)

private theorem selects_terminal {policy : CancelFlowPolicy} (he : c.isEnded)
    (h : policy.selects c.lifecyclePhase = true) : c.lifecyclePhase = .terminal := by
  refine he.resolve_right ?_
  intro hp
  rw [hp] at h
  cases policy <;> exact absurd h (by decide)

private theorem not_sameEnd_next {c : Call} (he : r.core.isEnded) (ho : c.op.overwrites c.now r) :
    ¬ SameEnd r (next c r) := by
  obtain ⟨op,now⟩ := c
  cases op with
  | worker h op => exact op.not_sameEnd he ho
  | claimFromResumeGrant =>
    obtain ⟨i,hi⟩ := isSome_iff_exists.mp ho
    rw [next,step,claimFromResumeGrant_rows,hi]
    exact not_sameEnd_of_phase he .active rfl (by decide)
  | claimResumedExecution =>
    obtain ⟨hp,hr⟩ := ho
    rw [next,step,claimResumedExecution_rows,if_pos ⟨hp,hr⟩]
    exact not_sameEnd_of_phase he .active rfl (by decide)
  | issueGrantAndClaim =>
    rw [next,step,issueGrantAndClaim_interrupted ho.1,if_pos ho.2]
    exact not_sameEnd_of_phase he .active rfl (by decide)
  | deliver =>
    obtain ⟨recorded,hr,hs⟩ := (any_eq_true _ _).mp ho
    rw [next,step,deliverUnder_rows,hr,map_some,getD_some,Rows.signalled,if_pos hs]
    exact not_sameEnd_of_phase he .runnable rfl (by decide)
  | expireSuspension =>
    obtain ⟨row,hs,hd,hb,ha⟩ := ho
    rw [next,step,expireSuspension_ends hs hd hb]
    exact not_sameEnd_of_anew rfl rfl ha
  | cancel =>
    rw [next,step,cancel_rows,if_neg ho]
    exact fun h => ho h.1.symm
  | cancelMember policy =>
    change policy.selects r.core.lifecyclePhase = true at ho
    rw [next,step,cancelMember_rows,if_pos ho]
    intro h
    have hp := h.1.trans (selects_terminal he ho)
    cases hp
  | _ => exact absurd ho not_false

private theorem sameEnd_next_iff {c : Call} (he : r.core.isEnded)
    (hn : c.op = .replayExecution → r.core.lifecyclePhase ≠ .terminal) :
    SameEnd r (next c r) ↔ ¬ c.op.overwrites c.now r := by
  constructor
  · exact fun h ho => not_sameEnd_next he ho h
  · exact fun ho => next_of_writes rfl fun _ h => h.sameEnd he hn ho

/-! ### Runs -/

/-- The call is no replay that goes through. -/
def NoReplay (r : Rows) (c : Call) : Prop := c.op = .replayExecution → r.core.lifecyclePhase ≠ .terminal

/-- From its end on an execution keeps its phase, its public state and the time of its end exactly as long
as no call overwrites them. -/
theorem end_kept_iff {r : Rows} (he : r.core.isEnded) (cs : List Call) (hn : Along next NoReplay r cs) :
    Throughout next (SameEnd r) r cs ↔ Along next (fun r c => ¬ c.op.overwrites c.now r) r cs := by
  refine throughout_iff_along_of (J := fun _ => True) (fun _ _ _ _ => trivial) ?_ trivial hn rfl
  intro r' c _ hc hs
  rw [hs.trans_iff,sameEnd_next_iff (hs.isEnded.mpr he) hc]

namespace Client

def completed : Rows := runFrom next fresh [claims alice 1,does 0 1 (.complete none) 2]

def late : List Call := [claims bob 3,does 1 1 (.complete none) 4,⟨.cancelHeader "late",5⟩,⟨.releaseOne 0,6⟩]

theorem late_kept : Throughout next (SameEnd completed) completed late := by
  refine (end_kept_iff (.inl rfl) late ?_).mpr ?_
  · exact ⟨Op.noConfusion,Op.noConfusion,Op.noConfusion,Op.noConfusion,trivial⟩
  · exact ⟨not_false,fun h => absurd h.1 (by decide),not_false,not_false,trivial⟩

/-- With the handle of its claim the worker of a completed execution delays it, and completes it once
more. The cancel of its flow makes it a cancelled one. -/
theorem end_overwritten : completed.core.isEnded ∧
      (next (does 0 1 (.delay 100) 3) completed).core.lifecyclePhase = .runnable ∧
      completed.core.terminalAtMs = some 2 ∧ (next (does 0 1 (.complete none) 5) completed).core.terminalAtMs = some 5 ∧
      (next ⟨.cancelMember .cancelAll,6⟩ completed).core.lifecyclePhase = .cancelled ∧
      (next ⟨.cancelMember .cancelAll,6⟩ completed).core.publicState = .cancelled := by
  exact ⟨.inl rfl,rfl,rfl,rfl,rfl,rfl⟩

end Client
end FlowFabric.Postgres
