import FlowFabric.Postgres.Inbound

/-! The verdict of a policy on the counters of a group, and what it writes on the execution. -/
namespace FlowFabric.Postgres
open Function Nat CoreRow

/-! ### The verdict -/

namespace EdgeDependencyPolicy

def threshold (n : Nat) : EdgeDependencyPolicy → Nat
  | .allOf => n
  | .anyOf _ => 1
  | .quorum k _ => k

def cancels : EdgeDependencyPolicy → Bool
  | .allOf => false
  | .anyOf onSatisfied | .quorum _ onSatisfied => onSatisfied ≠ .letRun

def verdict (policy : EdgeDependencyPolicy) (n wins : Nat) : Decision :=
  if policy.threshold n ≤ wins then .satisfied policy.cancels else .impossible

private theorem evaluate_eq {policy : EdgeDependencyPolicy} {success fail skip n : Nat} (hk : 1 ≤ policy.threshold n)
    (hn : policy.threshold n ≤ n) (hsmall : n < 2 ^ 31) (hsum : success + fail + skip ≤ n) :
    policy.evaluate success fail skip n = if policy.threshold n ≤ success then .satisfied policy.cancels
      else if n < policy.threshold n + fail + skip then .impossible
      else .pending := by
  cases policy with
  | allOf =>
    refine if_congr ?_ rfl (if_congr ?_ rfl rfl)
    · change success = n ∧ 0 < n ↔ n ≤ success
      omega
    · change 0 < fail + skip ↔ n < n + fail + skip
      omega
  | anyOf =>
    refine if_congr Iff.rfl rfl (if_congr ?_ rfl rfl)
    change n ≤ fail + skip ∧ 0 < n ↔ n < 1 + fail + skip
    omega
  | quorum k =>
    have signed : asI32 k = k := if_pos (lt_of_le_of_lt hn hsmall)
    rw [evaluate,signed]
    refine if_congr ?_ rfl (if_congr ?_ rfl rfl)
    · exact Int.ofNat_le
    · change (n : Int) - ((fail + skip : Nat) : Int) < k ↔ n < k + fail + skip
      omega

end EdgeDependencyPolicy

namespace GroupRow
variable (outcome : OutcomeKind) (g : GroupRow) (n : Nat) (k : OutcomeKind)

def tally : OutcomeKind → Nat
  | .success => g.success
  | .fail => g.fail
  | .skip => g.skip

theorem settled_eq : g.settled = g.tally .success + g.tally .fail + g.tally .skip := rfl

theorem total_eq : g.total = g.settled + g.running := rfl

theorem tally_count : (g.count outcome).tally k = g.tally k + if k = outcome then 1 else 0 := by
  cases outcome <;> cases k <;> rfl

theorem policy_count : (g.count outcome).policy = g.policy := by
  cases outcome <;> rfl

theorem running_count : (g.count outcome).running = g.running - 1 := by
  cases outcome <;> rfl

theorem policy_iterate : ((count outcome)^[n] g).policy = g.policy := by
  induction n with
  | zero => rfl
  | succ n ih => rw [iterate_succ_apply',policy_count,ih]

theorem running_iterate : ((count outcome)^[n] g).running = g.running - n := by
  induction n with
  | zero => rfl
  | succ n ih =>
    rw [iterate_succ_apply',running_count,ih]
    omega

theorem tally_iterate : ((count outcome)^[n] g).tally k = g.tally k + if k = outcome then n else 0 := by
  induction n with
  | zero => simp
  | succ n ih =>
    rw [iterate_succ_apply',tally_count,ih]
    split <;> omega

theorem total_iterate : g.total ≤ ((count outcome)^[n] g).total := by
  rw [total_eq,total_eq,settled_iterate,running_iterate]
  omega

theorem drained_iterate : ((count outcome)^[n] g).drained = (count outcome)^[n] g.drained := by
  induction n with
  | zero => rfl
  | succ n ih => rw [iterate_succ_apply',iterate_succ_apply',drained_count,ih]

theorem eq_of_drained {α : Type} (column : GroupRow → α) (hc : ∀ g, column g.drained = column g) {g g' : GroupRow}
    (h : g'.drained = g.drained) : column g' = column g := by
  rw [← hc,h,hc]

/-- The group of so many edges under a policy that they can meet. -/
structure Sized (policy : EdgeDependencyPolicy) (n : Nat) (g : GroupRow) : Prop where
  ruled : g.policy = policy
  total : g.total = n
  pos : 1 ≤ policy.threshold n
  le : policy.threshold n ≤ n
  /-- The counters are signed integers of 32 bits. -/
  small : n < 2 ^ 31

namespace Sized
variable {policy : EdgeDependencyPolicy} {n : Nat} {g : GroupRow}

variable (h : Sized policy n g) {w : Nat}
include h

theorem of_drained {g' : GroupRow} (hd : g'.drained = g.drained) : Sized policy n g' where
  ruled := (eq_of_drained GroupRow.policy (fun _ => rfl) hd).trans h.ruled
  total := (eq_of_drained GroupRow.total (fun _ => rfl) hd).trans h.total
  pos := h.pos
  le := h.le
  small := h.small

theorem decision : g.decision = if policy.threshold n ≤ g.success then .satisfied policy.cancels
      else if n < policy.threshold n + g.fail + g.skip then .impossible
      else .pending := by
  have counted : g.settled ≤ n := by
    rw [← h.total,total_eq]
    exact le_add_right _ _
  rw [GroupRow.decision,h.ruled,h.total]
  exact EdgeDependencyPolicy.evaluate_eq h.pos h.le h.small counted

variable (outcome : OutcomeKind)

theorem count (hr : 0 < g.running) : Sized policy n (g.count outcome) where
  ruled := by rw [policy_count,h.ruled]
  total := by
    rw [total_eq,settled_count,running_count,← h.total,total_eq]
    omega
  pos := h.pos
  le := h.le
  small := h.small

theorem iterate (hw : w ≤ g.running) : Sized policy n ((GroupRow.count outcome)^[w] g) := by
  induction w with
  | zero => exact h
  | succ w ih =>
    rw [iterate_succ_apply']
    apply (ih (le_of_succ_le hw)).count outcome
    rw [running_iterate]
    omega

private theorem decision_count (hr : 0 < g.running) :
    g.decision = .pending ∨ (g.count outcome).decision = g.decision := by
  have counted := h.count outcome hr
  have sum' : (g.count outcome).success + (g.count outcome).fail + (g.count outcome).skip +
      (g.count outcome).running = n := counted.total
  have grow (k : OutcomeKind) : g.tally k ≤ (g.count outcome).tally k := by
    rw [tally_count]
    exact le_add_right _ _
  have hs : g.success ≤ (g.count outcome).success := grow .success
  have hf : g.fail ≤ (g.count outcome).fail := grow .fail
  have hk : g.skip ≤ (g.count outcome).skip := grow .skip
  rw [h.decision,counted.decision]
  by_cases hsat : policy.threshold n ≤ g.success
  · rw [if_pos hsat,if_pos (hsat.trans hs)]
    exact .inr rfl
  · by_cases himp : n < policy.threshold n + g.fail + g.skip
    · rw [if_neg hsat,if_pos himp,if_neg (by omega),if_pos (by omega)]
      exact .inr rfl
    · rw [if_neg hsat,if_neg himp]
      exact .inl rfl

theorem decision_iterate (hw : w ≤ g.running) :
    g.decision = .pending ∨ ((GroupRow.count outcome)^[w] g).decision = g.decision := by
  induction w with
  | zero => exact .inr rfl
  | succ w ih =>
    have running : 0 < ((GroupRow.count outcome)^[w] g).running := by
      rw [running_iterate]
      omega
    rcases ih (le_of_succ_le hw) with hp | heq
    · exact .inl hp
    · rw [iterate_succ_apply']
      rcases (h.iterate outcome (le_of_succ_le hw)).decision_count outcome running with hp | heq'
      · exact .inl (heq.symm.trans hp)
      · exact .inr (heq'.trans heq)

end Sized
end GroupRow

/-! ### What a verdict writes -/

def CoreRow.waitsForEdges (c : CoreRow) : Prop :=
  c.lifecyclePhase = .runnable ∧ c.eligibilityState = .blockedByDependencies

theorem CoreRow.unblocked_unblocked (c : CoreRow) : c.unblocked.unblocked = c.unblocked := by
  unfold unblocked
  split_ifs <;> simp_all [isEnded]

theorem CoreRow.isEnded_skipped (now : Int) (c : CoreRow) : (c.skipped now).isEnded := by
  unfold skipped
  split
  · assumption
  · exact .inl rfl

theorem CoreRow.skipped_of_ended {now : Int} {c : CoreRow} (h : c.isEnded) : c.skipped now = c := if_pos h

namespace Decision
variable (f : Uuid) (now : Int)

theorem write_write (D : Decision) (r : Rows) : D.write f now (D.write f now r) = D.write f now r := by
  cases D with
  | pending => rfl
  | satisfied =>
    change (r.updateCore _).updateCore _ = r.updateCore _
    rw [Rows.updateCore,Rows.updateCore,unblocked_unblocked]
  | impossible =>
    change (r.updateCore _).updateCore _ = r.updateCore _
    rw [Rows.updateCore,Rows.updateCore,skipped_of_ended (isEnded_skipped now r.core)]

theorem write_of_leads {D D' : Decision} (h : D = .pending ∨ D' = D) (r : Rows) :
    D'.write f now (D.write f now r) = D'.write f now r := by
  rcases h with rfl | rfl
  · rfl
  · exact D'.write_write f now r

end Decision

theorem GroupRow.Sized.writes {policy : EdgeDependencyPolicy} {n : Nat} {g : GroupRow} (h : g.Sized policy n)
    (f : Uuid) (outcome : OutcomeKind) (now : Int) {w : Nat} (hw : w < g.running) (r : Rows) :
    g.writes f outcome now (w + 1) r = ((GroupRow.count outcome)^[w + 1] g).decision.write f now r := by
  induction w generalizing g r with
  | zero => rfl
  | succ w ih =>
    have running : w < (g.count outcome).running := by
      rw [running_count]
      omega
    have counted := h.count outcome (zero_lt_of_lt hw)
    rw [GroupRow.writes,ih counted running,iterate_succ_apply]
    exact Decision.write_of_leads f now (counted.decision_iterate outcome running) r

namespace Client

def blocked : Rows := fresh.updateCore fun c => { c with eligibilityState := .blockedByDependencies }

end Client
end FlowFabric.Postgres
