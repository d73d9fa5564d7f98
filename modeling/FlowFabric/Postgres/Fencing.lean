import FlowFabric.Postgres.Machine

/-! Fencing. A handle is compared with the epoch of the attempt row of its own index. Epochs only
grow, but a claim of another index does not touch that row. -/
namespace FlowFabric.Postgres
open Foundation Rows Table WorkerOp Nat

/-! ### Epochs only grow -/

variable {r r' : Rows} {now : Int} {h : Handle} {f : AttemptRow → AttemptRow} {done : Committed}

theorem epochAt_congr (h : r'.attempts = r.attempts) (j : Nat) : r'.epochAt j = r.epochAt j := by
  unfold epochAt attempt
  rw [h]

section
variable {r r' : Rows} {i : Nat} {f : AttemptRow → AttemptRow}

private theorem epochAt_of_update (h : r'.attempts = r.attempts.update i f) (j : Nat) :
    r'.epochAt j = if j = i then ((r.attempt i).map fun row => (f row).leaseEpoch).getD 0 else r.epochAt j := by
  unfold epochAt attempt
  rw [h,lookup_update]
  split
  · rw [Option.map_map]
    rfl
  · rfl

variable {new : AttemptRow}

private theorem epochAt_of_upsert (h : r'.attempts = r.attempts.upsert i new f) (j : Nat) : r'.epochAt j =
      if j = i then (((r.attempt i).map f).getD new).leaseEpoch else r.epochAt j := by
  unfold epochAt attempt
  rw [h,lookup_upsert]
  split <;> rfl

private theorem epochAt_le_of_row {e : Nat} (h : ∀ j, r'.epochAt j = if j = i then e else r.epochAt j)
    (he : ∀ row, r.attempt i = some row → row.leaseEpoch ≤ e) (j : Nat) : r.epochAt j ≤ r'.epochAt j := by
  rw [h]
  split
  · rename_i hj
    subst hj
    unfold epochAt
    cases hr : r.attempt j with
    | none => exact zero_le _
    | some row => exact he row hr
  · exact le_rfl

theorem epochAt_le_of_update (h : r'.attempts = r.attempts.update i f)
    (hf : ∀ row, row.leaseEpoch ≤ (f row).leaseEpoch) (j : Nat) : r.epochAt j ≤ r'.epochAt j :=
  epochAt_le_of_row (epochAt_of_update h) (fun row hr => by rw [hr]; exact hf row) j

end

theorem WorkerWrites.epochAt_le {op : WorkerOp}
    (hw : WorkerWrites h now r op r') (j : Nat) : r.epochAt j ≤ r'.epochAt j := by
  cases hw with
  | renew | complete | retry | fail | delay | waitChildren =>
    refine epochAt_le_of_update rfl ?_ j
    intro row
    exact le_rfl
  | progress | appendFrame => exact (epochAt_congr rfl j).ge
  | suspend =>
    refine epochAt_le_of_update rfl ?_ j
    intro row
    exact le_succ _

theorem reclaimed_epochAt (r : Rows) (a : ReclaimArgs) (g : GrantRow) (now : Int) (j : Nat) :
    (r.reclaimed a g now).epochAt j =
      if j = r.core.attemptIndex + 1 then r.epochAt r.core.attemptIndex + 1 else r.epochAt j := by
  unfold reclaimed
  rw [epochAt,attempt,lookup_insert]
  split
  · rfl
  · refine congrArg (Option.getD · 0) (map_lookup_update ?_ r.core.attemptIndex j r.attempts)
    intro row
    rfl

theorem Writes.epochAt_le {op : Op} (hw : Writes now r op r') (j : Nat) : r.epochAt j ≤ r'.epochAt j := by
  cases hw with
  | worker hw => exact hw.epochAt_le j
  | claim | claimExecution | claimByOperator =>
    refine epochAt_le_of_row (epochAt_of_upsert rfl) (fun row hr => ?_) j
    rw [hr]
    exact le_succ _
  | resumeByOperator | claimFromResumeGrant | claimResumedExecution =>
    exact epochAt_le_of_update rfl (fun _ => le_succ _) j
  | reclaim a g h hn hg hi =>
    rw [reclaimed_epochAt]
    split
    · rename_i hj
      subst hj
      simp [epochAt,hi]
    · exact le_rfl
  | renewLease | completeExecution | failedRetry | failExecution | releaseOne | retryAttempt | expireAttempt
  | expireExecution | cancel | cancelMember =>
    refine epochAt_le_of_update rfl ?_ j
    intro row
    exact le_rfl
  | cancelExecution =>
    unfold cancelledBy
    split
    · refine epochAt_le_of_update rfl ?_ j
      intro row
      exact le_succ _
    · exact (epochAt_congr rfl j).ge
  | revokeLease | replayExecution =>
    refine epochAt_le_of_update rfl ?_ j
    intro row
    exact le_succ _
  | _ => exact (epochAt_congr rfl j).ge

theorem epochAt_le_next (c : Call) (r : Rows) (j : Nat) : r.epochAt j ≤ (next c r).epochAt j :=
  next_of_writes (P := fun r' => r.epochAt j ≤ r'.epochAt j) le_rfl fun _ h => h.epochAt_le j

private theorem epochAt_le_runFrom (r : Rows) (cs : List Call) (j : Nat) :
    r.epochAt j ≤ (runFrom next r cs).epochAt j :=
  runFrom_invariant (I := fun r' => r.epochAt j ≤ r'.epochAt j) (fun r' c h => h.trans (epochAt_le_next c r' j))
    le_rfl cs

/-! ### The handle of a claim -/

/-- A call gave the handle out: its epoch is that of the attempt row, and is a new one. -/
def Leases (r r' : Rows) (h : Handle) : Prop :=
  r'.epochAt h.attemptIndex = h.leaseEpoch ∧ r.epochAt h.attemptIndex < h.leaseEpoch

theorem leases_of_upsert {i ttl : Nat} {new : AttemptRow}
    (h : r'.attempts = r.attempts.upsert i new f) (hn : 0 < new.leaseEpoch)
    (hf : ∀ row, row.leaseEpoch < (f row).leaseEpoch) : Leases r r' ⟨i,r'.epochAt i,ttl⟩ := by
  refine ⟨rfl,?_⟩
  rw [epochAt_of_upsert h,if_pos rfl,epochAt]
  cases r.attempt i with
  | none => exact hn
  | some row => exact hf row

theorem leases_of_update {i ttl : Nat} {row : AttemptRow}
    (h : r'.attempts = r.attempts.update i f) (hr : r.attempt i = some row)
    (hf : (f row).leaseEpoch = row.leaseEpoch + 1) : Leases r r' ⟨i,row.leaseEpoch + 1,ttl⟩ := by
  constructor
  · rw [epochAt_of_update h,if_pos rfl,hr]
    exact hf
  · rw [epochAt,hr]
    exact lt_succ_self _

theorem reletting_leases {w : Worker} {leaseTtlMs : Nat} {expires : Int}
    (hs : reletting w leaseTtlMs expires now r = .ok done) (hh : done.reply = .handle h) : Leases r done.rows h := by
  obtain ⟨row,hr,hd⟩ := (bind_ok _ _ _).mp hs
  rw [demand_ok] at hr
  rw [pure_ok] at hd
  subst hd
  cases hh
  exact leases_of_update rfl hr rfl

theorem step_leases {c : Call} (hc : c.op.isClaim = true)
    (hs : step c r = .ok done) (hh : done.reply = .handle h) : Leases r done.rows h := by
  obtain ⟨op,now⟩ := c
  cases op with
  | claim =>
    simp only [step,claim] at hs
    split at hs
    · cases hs
      cases hh
      exact leases_of_upsert rfl one_pos fun row => lt_succ_self _
    · cases hs
      cases hh
  | claimExecution =>
    obtain ⟨-,-,rfl⟩ := claimExecution_ok hs
    cases hh
    exact leases_of_upsert rfl one_pos fun row => lt_succ_self _
  | issueGrantAndClaim =>
    by_cases ha : r.core.attemptState = .attemptInterrupted
    · simp only [step,issueGrantAndClaim,if_pos ha] at hs
      exact reletting_leases hs hh
    · obtain ⟨-,-,rfl⟩ := issueGrantAndClaim_fresh ha hs
      cases hh
      exact leases_of_upsert rfl one_pos fun row => lt_succ_self _
  | claimFromResumeGrant =>
    simp only [step,claimFromResumeGrant] at hs
    split at hs
    · cases hs
    · rename_i i row hn
      split at hs <;> cases hs <;> cases hh
      exact leases_of_update rfl (lookup_of_newest hn) rfl
  | claimResumedExecution =>
    obtain ⟨-,-,hr⟩ := (bind_ok _ _ _).mp hs
    exact reletting_leases hr hh
  | reclaimExecution =>
    rcases reclaimExecution_ok hs with ⟨-,hn⟩ | ⟨-,g,-,⟨-,hn⟩ | ⟨hi,rfl⟩⟩
    · exact absurd hh (hn h)
    · exact absurd hh (hn h)
    · cases hh
      exact ⟨by rw [reclaimed_epochAt,if_pos rfl],by simp [epochAt,hi]⟩
  | _ => cases hc

/-! ### Refusals -/

def WorkerOp.isFenced : WorkerOp → Bool
  | .appendFrame .. => false
  | .suspend _ cached _ => !cached
  | _ => true

/-- The operation is refused for a reason of its own. -/
def WorkerOp.unsuited (r : Rows) : WorkerOp → Prop
  | .fail classification => classification.retryable = true ∧ i32Max ≤ r.core.attemptIndex
  | .suspend a cached kid => cached = false ∧ a.signs kid = false
  | .appendFrame mode _ => mode.accepted = false
  | _ => False

/-- The call returns an error and changes nothing. -/
def Refused (c : Call) (r : Rows) : Prop := (∃ e, step c r = .error e) ∧ next c r = r

private theorem refused_iff (c : Call) (r : Rows) : Refused c r ↔ ∃ e, step c r = .error e := by
  refine and_iff_left_of_imp ?_
  rintro ⟨e,he⟩
  exact next_of_error he

theorem fenced_refused (h : Handle) (done : Rows → Committed) (r : Rows) :
    (∃ e, fenced h done r = .error e) ↔ ¬ r.fences h := by
  constructor
  · rintro ⟨e,he⟩ hf
    rw [fenced_of hf] at he
    cases he
  · exact fun hf => fenced_of_not hf done

private theorem failRetry_refused (h : Handle) (now : Int) (r : Rows) :
    (∃ e, failRetry h now r = .error e) ↔ ¬ r.fences h ∨ i32Max ≤ r.core.attemptIndex := by
  by_cases hf : r.fences h
  · rw [failRetry,fenceCheck_of hf]
    by_cases hi : r.core.attemptIndex < i32Max
    · simp [ensure,hi,hf,bind,Except.bind,pure,Except.pure]
    · simp [ensure,hi,bind,Except.bind,Nat.le_of_not_lt hi]
  · obtain ⟨e,he⟩ := fenceCheck_of_not hf
    simp [failRetry,he,hf,bind,Except.bind]

theorem worker_refused (h : Handle) (op : WorkerOp) (now : Int) (r : Rows) :
    Refused ⟨.worker h op,now⟩ r ↔ op.unsuited r ∨ op.isFenced = true ∧ ¬ r.fences h := by
  rw [refused_iff]
  cases op with
  | renew | progress | complete | delay | waitChildren =>
    simp only [unsuited,isFenced,false_or,true_and]
    apply fenced_refused
  | fail classification =>
    simp only [unsuited,isFenced,true_and]
    change (∃ e, fail h classification now r = .error e) ↔ _
    rw [fail]
    split
    · rename_i hc
      rw [failRetry_refused,and_iff_right hc,or_comm]
    · rename_i hc
      rw [or_iff_right (hc ·.1)]
      apply fenced_refused
  | suspend a cached kid =>
    change (∃ e, suspend h a cached kid r = .error e) ↔ _
    unfold suspend fences
    cases cached with
    | true => simp [unsuited,isFenced]
    | false =>
      cases r.attempt h.attemptIndex with
      | none => simp [demand,bind,Except.bind,isFenced]
      | some row =>
        by_cases he : row.leaseEpoch = h.leaseEpoch
        · cases kid <;> cases hw : a.waitpoints <;>
            simp [demand,ensure,he,bind,Except.bind,pure,Except.pure,unsuited,SuspendArgs.signs,hw]
        · simp [demand,ensure,he,bind,Except.bind,isFenced]
  | appendFrame mode fields =>
    change (∃ e, appendFrame h mode fields now r = .error e) ↔ _
    cases hm : mode.accepted <;> simp [appendFrame,ensure,hm,bind,Except.bind,pure,Except.pure,unsuited,isFenced]

/-! ### Superseded handles -/

def KeepsEpoch (i : Nat) (r : Rows) (c : Call) : Prop := (next c r).epochAt i = r.epochAt i

instance (i : Nat) (r : Rows) (c : Call) : Decidable (KeepsEpoch i r c) := inferInstanceAs (Decidable (_ = _))

private theorem epochAt_runFrom_eq_iff (i : Nat) (r : Rows) (cs : List Call) :
    (runFrom next r cs).epochAt i = r.epochAt i ↔ Along next (KeepsEpoch i) r cs := by
  induction cs generalizing r with
  | nil => simp [runFrom,Along]
  | cons c cs ih =>
    rw [runFrom,Along,← ih,KeepsEpoch]
    have here := epochAt_le_next c r i
    have later := epochAt_le_runFrom (next c r) cs i
    omega

private theorem fences_iff (hpos : 0 < h.leaseEpoch) (r : Rows) :
    r.fences h ↔ r.epochAt h.attemptIndex = h.leaseEpoch := by
  unfold fences epochAt
  cases r.attempt h.attemptIndex with
  | none => simp [hpos.ne]
  | some => simp

/-- The operations under a superseded handle are refused exactly when they look at the handle and some
call since its claim raised the epoch of its attempt, or when they are refused for a reason of their
own. A later claim of the same attempt raises its epoch. -/
theorem superseded_refused_iff (r : Rows) (c₁ : Call) (between : List Call) (c₂ : Call) (later : List Call)
    (op : WorkerOp) (now : Int) {done₁ done₂ : Committed} {h h' : Handle}
    (hc₁ : c₁.op.isClaim = true) (hs₁ : step c₁ r = .ok done₁) (hh₁ : done₁.reply = .handle h)
    (hc₂ : c₂.op.isClaim = true) (hs₂ : step c₂ (runFrom next done₁.rows between) = .ok done₂)
    (hh₂ : done₂.reply = .handle h') : (Refused ⟨.worker h op,now⟩ (runFrom next done₂.rows later) ↔
      op.unsuited (runFrom next done₂.rows later) ∨ op.isFenced = true ∧
          ¬ Along next (KeepsEpoch h.attemptIndex) done₁.rows (between ++ c₂ :: later)) ∧
    (h'.attemptIndex = h.attemptIndex → op.isFenced = true →
      Refused ⟨.worker h op,now⟩ (runFrom next done₂.rows later)) := by
  have lease := step_leases hc₁ hs₁ hh₁
  have taken := step_leases hc₂ hs₂ hh₂
  have run : runFrom next done₁.rows (between ++ c₂ :: later) = runFrom next done₂.rows later := by
    rw [runFrom_append,runFrom,next_of_ok hs₂]
  have fence : (runFrom next done₂.rows later).fences h ↔
      Along next (KeepsEpoch h.attemptIndex) done₁.rows (between ++ c₂ :: later) := by
    rw [fences_iff (zero_lt_of_lt lease.2),← epochAt_runFrom_eq_iff,lease.1,run]
  constructor
  · rw [worker_refused,fence]
  · intro same hop
    rw [worker_refused]
    refine .inr ⟨hop,?_⟩
    rw [fence,Along.append]
    rintro ⟨-,keeps,-⟩
    -- the second claim raised the epoch, and the first handle has that of before
    have raised := taken.2
    rw [same,← taken.1,same,← next_of_ok hs₂] at raised
    exact absurd keeps raised.ne'

namespace Client

/-- The lease of the first claim runs out, and the second worker is given the same attempt. -/
def releases (now : Int) : Call := ⟨.releaseOne 0,now⟩

theorem superseded_refused_witness :
    Refused (does 0 1 (.complete none) 50) (runFrom next fresh [claims alice 1,releases 20,claims bob 30]) :=
  (superseded_refused_iff fresh (claims alice 1) [releases 20] (claims bob 30) [] (.complete none) 50
    rfl rfl rfl rfl rfl rfl).2 rfl rfl

/-- The first attempt fails and is claimed again under the next index. -/
def retried : List Call := [claims alice 1,does 0 1 (.fail .transient) 2,claims bob 3]

/-- The worker of the first attempt then completes the execution under the second one, which holds a
lease. -/
theorem superseded_completes : fresh.Fresh ∧
      (step (claims bob 3) (runFrom next fresh (retried.take 2))).map (·.reply) = .ok (.handle ⟨1,1,10⟩) ∧
      ¬ Refused (does 0 1 (.complete none) 4) (runFrom next fresh retried) ∧
      (next (does 0 1 (.complete none) 4) (runFrom next fresh retried)).core.lifecyclePhase = .terminal := by
  refine ⟨fresh_fresh,rfl,?_,rfl⟩
  rw [does,worker_refused]
  rintro (bad | ⟨-,bad⟩)
  · exact bad
  · exact bad rfl

end Client
end FlowFabric.Postgres
