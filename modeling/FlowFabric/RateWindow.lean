import FlowFabric.Quota

/-! The sliding window of a quota policy: how many executions were admitted in any stretch of time as long
as the window. -/
namespace FlowFabric
open Foundation Finset Quota QuotaCall

/-- The keys of a policy with the last time at which each execution was told that it is admitted. -/
structure Metered where
  quota : Quota := newQuota
  admitted : Finset (String × Int) := ∅

open Metered

def Metered.answered (m : Metered) (a : CheckAdmissionArgs) (r : QuotaReply × Quota) : Metered where
  quota := r.2
  admitted := if r.1 = .admitted then
      insert (a.executionId,a.nowMs) (m.admitted.filter fun e => e.1 ≠ a.executionId)
    else m.admitted

def Metered.next (server : Server) (i : QuotaCall) (m : Metered) : Metered :=
  match i.op with
  | .checkAdmissionAndRecord a => m.answered a (checkAdmissionAndRecord server a i.now m.quota)
  | .releaseAdmission executionId => { m with quota := (releaseAdmission executionId m.quota).2 }

def QuotaCall.asks (i : QuotaCall) : Option Int :=
  match i.op with
  | .checkAdmissionAndRecord a => some a.nowMs
  | .releaseAdmission _ => none

def QuotaOp.limits (windowSeconds rateLimit : Nat) : QuotaOp → Bool
  | .checkAdmissionAndRecord a => decide (a.windowSeconds = windowSeconds ∧ a.rateLimit = rateLimit)
  | .releaseAdmission _ => true

namespace Metered

/-- The executions whose last admission lies in the window that ends at the given time. -/
def within (m : Metered) (windowMs : Nat) (t : Int) : Finset String :=
  (m.admitted.filter fun e => t - windowMs < e.2 ∧ e.2 ≤ t).image Prod.fst

/-- At the time of a check, the window still holds what was admitted within it. -/
def Tracks (m : Metered) (windowMs : Nat) (now : Int) : Prop :=
  ∀ e ∈ m.admitted, e.2 ≤ now ∧ (now - windowMs < e.2 → ∃ score, e.2 ≤ score ∧ (e.1,score) ∈ m.quota.window)

def Bounded (m : Metered) (windowMs limit : Nat) : Prop := ∀ t, (m.within windowMs t).card ≤ limit

end Metered

inductive Windows (a : CheckAdmissionArgs) (q : Quota) : QuotaReply × Quota → Prop
  | guarded (r) (hr : r ≠ .admitted) : Windows a q (r,q)
  | pruned (r) (hr : r ≠ .admitted) : Windows a q (r,q.prune a)
  | entered (r) (q' : Quota) (free : (q.prune a).rateExceeded a = false)
      (window : q'.window = ((q.prune a).enter a.executionId a.nowMs).window) : Windows a q (r,q')

private theorem check_windows (server : Server) (a : CheckAdmissionArgs) (now : Int) (q : Quota) :
    Windows a q (checkAdmissionAndRecord server a now q) := by
  unfold checkAdmissionAndRecord
  dsimp only
  split
  · exact .guarded _ (by simp)
  split
  · exact .pruned _ (by simp)
  rename_i free
  have free := eq_false_of_ne_true free
  split
  · exact .pruned _ (by simp)
  split
  · exact .entered _ _ free rfl
  · rename_i hs
    exact .entered _ _ free (setGuard_eq hs).1

section
variable {m : Metered} {server : Server} {a : CheckAdmissionArgs} {now later : Int} {w limit : Nat} {q : Quota}

theorem Metered.Tracks.mono (h : m.Tracks w now) (hle : now ≤ later) : m.Tracks w later := by
  intro e he
  obtain ⟨past,held⟩ := h e he
  exact ⟨past.trans hle,fun recent => held (by omega)⟩

theorem enter_card_le (free : (q.prune a).rateExceeded a = false) (positive : 0 < a.rateLimit) :
    ((q.prune a).enter a.executionId a.nowMs).window.card ≤ a.rateLimit := by
  have room : (q.prune a).window.card < a.rateLimit := by
    by_contra full
    have exceeded : double a.rateLimit ≤ double (q.prune a).window.card := double_mono (Nat.le_of_not_lt full)
    simp [rateExceeded,double_pos positive,exceeded] at free
  calc ((q.prune a).enter a.executionId a.nowMs).window.card
      ≤ ((q.prune a).window.filter fun e => e.1 ≠ a.executionId).card + 1 := card_insert_le _ _
    _ ≤ (q.prune a).window.card + 1 := Nat.add_le_add_right (card_filter_le _ _) 1
    _ ≤ a.rateLimit := room

theorem Windows.tracks {r : QuotaReply × Quota} (h : Windows a m.quota r) (tracks : m.Tracks a.windowMs a.nowMs) :
    (m.answered a r).Tracks a.windowMs a.nowMs := by
  intro e he
  unfold answered at he ⊢
  cases h with
  | guarded r hr =>
    rw [if_neg hr] at he
    exact tracks e he
  | pruned r hr =>
    rw [if_neg hr] at he
    obtain ⟨past,held⟩ := tracks e he
    refine ⟨past,fun recent => ?_⟩
    obtain ⟨score,above,member⟩ := held recent
    exact ⟨score,above,mem_filter.mpr ⟨member,recent.trans_le above⟩⟩
  | entered r q' free window =>
    -- an earlier admission of the same execution is under the new score, one of another survives
    have old (e : String × Int) (he : e ∈ m.admitted) : e.2 ≤ a.nowMs ∧
        (a.nowMs - a.windowMs < e.2 → ∃ score, e.2 ≤ score ∧ (e.1,score) ∈ q'.window) := by
      obtain ⟨past,held⟩ := tracks e he
      refine ⟨past,fun recent => ?_⟩
      rw [window]
      by_cases same : e.1 = a.executionId
      · exact ⟨a.nowMs,past,by simp [enter,same]⟩
      · obtain ⟨score,above,member⟩ := held recent
        refine ⟨score,above,?_⟩
        simp only [enter,prune,mem_insert,mem_filter]
        exact .inr ⟨⟨member,recent.trans_le above⟩,same⟩
    split at he
    · rcases mem_insert.mp he with rfl | he
      · exact ⟨le_rfl,fun _ => ⟨a.nowMs,le_rfl,by simp [window,enter]⟩⟩
      · exact old e (mem_filter.mp he).1
    · exact old e he

/-- A window that ends before the check holds no more than it did; one that ends later holds what the
sorted set holds at most. -/
theorem Windows.bounded {r : QuotaReply × Quota} (h : Windows a m.quota r) (tracks : m.Tracks a.windowMs a.nowMs)
    (positive : 0 < a.rateLimit) (bounded : m.Bounded a.windowMs a.rateLimit) :
    (m.answered a r).Bounded a.windowMs a.rateLimit := by
  have tracks' := h.tracks tracks
  intro t
  by_cases ended : t < a.nowMs
  · refine le_trans (card_le_card (image_subset_image fun e he => ?_)) (bounded t)
    simp only [mem_filter,answered] at he ⊢
    refine ⟨?_,he.2⟩
    have member := he.1
    split at member
    · rcases mem_insert.mp member with rfl | old
      · exact absurd he.2.2 (not_le.mpr ended)
      · exact (mem_filter.mp old).1
    · exact member
  · cases h with
    | guarded r hr | pruned r hr =>
      simp only [within,answered,if_neg hr]
      exact bounded t
    | entered r q' free window =>
      have held : (m.answered a (r,q')).within a.windowMs t ⊆ q'.window.image Prod.fst := by
        intro x hx
        obtain ⟨e,he,rfl⟩ := mem_image.mp hx
        obtain ⟨member,recent,-⟩ := mem_filter.mp he
        obtain ⟨score,-,stored⟩ := (tracks' e member).2 (by omega)
        exact mem_image.mpr ⟨_,stored,rfl⟩
      calc ((m.answered a (r,q')).within a.windowMs t).card
          ≤ (q'.window.image Prod.fst).card := card_le_card held
        _ ≤ q'.window.card := card_image_le
        _ ≤ a.rateLimit := window ▸ enter_card_le free positive

theorem runFrom_bounded (calls : List QuotaCall) {windowSeconds : Nat} (positive : 0 < limit)
    (limits : ∀ i ∈ calls, i.op.limits windowSeconds limit) (ordered : (calls.filterMap asks).Pairwise (· ≤ ·))
    (tracks : ∀ n ∈ calls.filterMap asks, m.Tracks (windowSeconds * 1000) n)
    (bounded : m.Bounded (windowSeconds * 1000) limit) :
    (runFrom (next server) m calls).Bounded (windowSeconds * 1000) limit := by
  induction calls generalizing m with
  | nil => exact bounded
  | cons i calls ih =>
    rw [List.forall_mem_cons] at limits
    obtain ⟨now,op⟩ := i
    cases op with
    | releaseAdmission x => exact ih limits.2 ordered tracks bounded
    | checkAdmissionAndRecord a =>
      obtain ⟨rfl,rfl⟩ := of_decide_eq_true limits.1
      have asks : (⟨now,.checkAdmissionAndRecord a⟩ :: calls).filterMap asks = a.nowMs :: calls.filterMap asks := rfl
      rw [asks,List.pairwise_cons] at ordered
      have here := tracks a.nowMs (asks ▸ .head _)
      have windows := check_windows server a now m.quota
      exact ih limits.2 ordered.2 (fun n hn => (windows.tracks here).mono (ordered.1 n hn))
        (windows.bounded here positive bounded)

end

namespace Client

def limited (now : Int) (executionId : String) : QuotaCall :=
  ⟨now,.checkAdmissionAndRecord
    { executionId, nowMs := now, windowSeconds := 1, rateLimit := 2, concurrencyCap := 0 }⟩

end Client
end FlowFabric
