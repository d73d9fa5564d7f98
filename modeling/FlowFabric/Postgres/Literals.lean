import FlowFabric.Postgres.Requests

/-! The literals of the columns. The filters of the backend know more of them than any statement writes. -/
namespace FlowFabric.Postgres
open Foundation Option CoreRow

/-! ### Phases -/

def Phase.isWritten : Phase → Bool
  | .submitted | .runnable | .active | .suspended | .terminal | .cancelled => true
  | .pending | .blocked | .eligible | .completed | .failed | .expired => false

def Rows.Written (r : Rows) : Prop := r.core.lifecyclePhase.isWritten = true

instance (r : Rows) : Decidable r.Written := inferInstanceAs (Decidable (_ = true))

variable {r r' : Rows} {now : Int}

theorem Rows.Written.of_phase {p : Phase} (h : r.Written)
    (hp : r'.core.lifecyclePhase = p ∨ r'.core.lifecyclePhase = r.core.lifecyclePhase) (hw : p.isWritten = true) :
    r'.Written := by
  rcases hp with hp | hp
  · rw [Written,hp]
    exact hw
  · rw [Written,hp]
    exact h

theorem WorkerWrites.written {h : Handle} {op : WorkerOp}
    (hw : WorkerWrites h now r op r') (hr : r.Written) : r'.Written := by
  cases hw with
  | renew | progress | appendFrame => exact hr
  | complete | retry | fail | delay | waitChildren | suspend => rfl

theorem CoreRow.freed_phase (c : CoreRow) :
    c.freed.lifecyclePhase = .runnable ∨ c.freed.lifecyclePhase = c.lifecyclePhase := by
  unfold freed
  split
  · exact .inl rfl
  · exact .inr rfl

theorem CoreRow.unblocked_phase (c : CoreRow) :
    c.unblocked.lifecyclePhase = .runnable ∨ c.unblocked.lifecyclePhase = c.lifecyclePhase := by
  unfold unblocked
  split
  · exact .inr rfl
  · dsimp only
    split
    · exact .inl rfl
    · exact .inr rfl

theorem Rows.revoked_phase (now : Int) (r : Rows) : (r.revoked now).core.lifecyclePhase = .runnable ∨
      (r.revoked now).core.lifecyclePhase = r.core.lifecyclePhase := by
  rw [Rows.revoked,Rows.updateCore_core]
  split
  · exact r.core.freed_phase
  · exact .inr rfl

theorem Writes.written {op : Op} (hw : Writes now r op r') (hr : r.Written) : r'.Written := by
  cases hw with
  | worker hw => exact hw.written hr
  | deliver =>
    refine hr.of_phase (p := .runnable) ?_ rfl
    rw [Rows.signalled]
    split
    · exact .inl rfl
    · exact .inr rfl
  | cancelExecution =>
    refine hr.of_phase (p := .cancelled) (.inl ?_) rfl
    rw [Rows.cancelledBy]
    split <;> rfl
  | revokeLease => exact hr.of_phase (r.revoked_phase now) rfl
  | releaseOne => exact hr.of_phase r.core.freed_phase rfl
  | unblock => exact hr.of_phase r.core.unblocked_phase rfl
  | cancelHeader reason hn =>
    refine hr.of_phase (p := .cancelled) (.inl ?_) rfl
    rw [Rows.updateCore_core,headerCancelled,if_neg hn]
    rfl
  | skip flowId hn =>
    refine hr.of_phase (p := .terminal) (.inl ?_) rfl
    rw [Rows.updateCore_core,skipped,if_neg hn]
  | cancelSibling hn =>
    refine hr.of_phase (p := .terminal) (.inl ?_) rfl
    rw [Rows.updateCore_core,siblingCancelled,if_neg hn]
  | claimForWorker | issueReclaimGrant | renewLease | timeoutSignal | close | changePriority | joinFlow
  | promoteDelayed => exact hr
  | resumeExecution =>
    refine hr.of_phase (p := .runnable) (.inl ?_) rfl
    rw [Rows.resumedAfter]
    split <;> rfl
  | _ => rfl

private theorem next_written (c : Call) (r : Rows) (hr : r.Written) : (next c r).Written :=
  next_of_writes hr fun _ h => h.written hr

theorem runFrom_written {db : Db} (h : ∀ e r, db.rowsOf e = some r → r.Written) (qs : List Arrival) :
    ∀ e r, (runFrom after db qs).rowsOf e = some r → r.Written :=
  rows_invariant (fun _ _ => rfl) next_written h qs

/-- Half of the phases that the filters name are never stored. -/
theorem phases_are_written (qs : List Arrival) (e : Uuid) :
    ((runFrom after {} qs).rowsOf e).all fun r => r.core.lifecyclePhase.isWritten := by
  rw [all_eq_true]
  exact runFrom_written (fun e r h => by cases h) qs e

/-! ### Outcomes of attempts -/

/-- No attempt has the outcome that replay_execution looks for in a skipped member. -/
def Rows.Unskipped (r : Rows) : Prop := ∀ i row, r.attempts.lookup i = some row → row.outcome ≠ some .skipped

namespace Rows.Unskipped
variable {r r' : Rows} {i : Nat} {f : AttemptRow → AttemptRow}

theorem congr (h : r.Unskipped) (hr : r'.attempts = r.attempts) : r'.Unskipped := by
  rw [Unskipped,hr]
  exact h

theorem updated (h : r.Unskipped) (hr : r'.attempts = r.attempts.update i f)
    (hf : ∀ row, row.outcome ≠ some .skipped → (f row).outcome ≠ some .skipped) : r'.Unskipped := by
  intro j row hl
  rw [hr,Table.lookup_update] at hl
  split at hl
  · obtain ⟨old,ho,rfl⟩ := map_eq_some_iff.mp hl
    exact hf old (h i old ho)
  · exact h j row hl

variable {new : AttemptRow}

theorem inserted (h : r.Unskipped) (hr : r'.attempts = r.attempts.insert i new)
    (hn : new.outcome = none) : r'.Unskipped := by
  intro j row hl
  rw [hr,Table.lookup_insert] at hl
  split at hl
  · cases hl
    rw [hn]
    exact (some_ne_none _).symm
  · exact h j row hl

theorem upserted (h : r.Unskipped) (hr : r'.attempts = r.attempts.upsert i new f)
    (hn : new.outcome = none) (hf : ∀ row, (f row).outcome = none) : r'.Unskipped := by
  apply h.inserted hr
  cases r.attempts.lookup i with
  | none => exact hn
  | some row => exact hf row

end Rows.Unskipped

theorem WorkerWrites.unskipped {h : Handle} {op : WorkerOp}
    (hw : WorkerWrites h now r op r') (hr : r.Unskipped) : r'.Unskipped := by
  cases hw with
  | progress | appendFrame => exact hr.congr rfl
  | renew => exact hr.updated rfl fun _ => id
  | complete | retry | fail | delay | waitChildren | suspend => exact hr.updated rfl fun _ _ h => by cases h

theorem Writes.unskipped {op : Op} (hw : Writes now r op r') (hr : r.Unskipped) : r'.Unskipped := by
  cases hw with
  | worker hw => exact hw.unskipped hr
  | claim | claimExecution | claimByOperator => exact hr.upserted rfl rfl fun _ => rfl
  | reclaim =>
    refine Rows.Unskipped.inserted (hr.updated rfl ?_) rfl rfl
    intro _ _ h
    cases h
  | resumeByOperator | claimFromResumeGrant | claimResumedExecution | completeExecution | failedRetry
  | failExecution | cancel | replayExecution | cancelMember | releaseOne | retryAttempt | expireAttempt
  | expireExecution => exact hr.updated rfl fun _ _ h => by cases h
  | renewLease | revokeLease => exact hr.updated rfl fun _ => id
  | cancelExecution =>
    rw [Rows.cancelledBy]
    split
    · exact hr.updated rfl fun _ _ h => by cases h
    · exact hr.congr rfl
  | reclaimCap | claimForWorker | issueReclaimGrant | resumeExecution | deliver | timeoutSignal | expireSuspension
  | close | changePriority | joinFlow | cancelHeader | unblock | skip | cancelSibling | promoteDelayed =>
    exact hr.congr rfl

theorem next_unskipped (c : Call) (r : Rows) (hr : r.Unskipped) : (next c r).Unskipped :=
  next_of_writes hr fun _ h => h.unskipped hr

theorem Rows.Unskipped.not_skippedMember (h : r.Unskipped) : ¬ r.skippedMember := by
  rintro ⟨hs,-⟩
  obtain ⟨row,hrow,ho⟩ := bind_eq_some_iff.mp hs
  exact h _ row hrow ho

end FlowFabric.Postgres
