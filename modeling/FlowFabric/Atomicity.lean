import FlowFabric.ClaimPaths
import FlowFabric.Waitpoints

/-! ff_suspend_execution writes before its last checks. When it still leaves nothing behind if it fails. -/
namespace FlowFabric
open Foundation Option

/-- A call fails on its waitpoints and has not written before: there was no record of an earlier suspension to
delete, a pending waitpoint is not one that the call may activate, and no token can be minted for a new one, or
its record is there as the call writes it and the condition does not decode. -/
structure SuspendArgs.Spares (a : SuspendArgs) (h : HmacSecrets) (now : Int) (w : WaitKeys) : Prop where
  unrecorded : w.suspension = none
  unfit : a.usePendingWaitpoint → ∀ p, w.waitpoint a.waitpointId = some p → ¬ PendingFor a now p
  unminted : a.usePendingWaitpoint = false → ∀ token,
    mintWaitpointToken h a.waitpointId a.waitpointKey now = .ok token →
      w.waitpoint a.waitpointId = some (a.opened now a.waitpointKey token) ∧ initializeCondition a.resumeCondition = none

section
variable {a : SuspendArgs} {h : HmacSecrets} {now : Int} {w w' : WaitKeys} {token key id : String}

/-- Whether a token can be minted does not depend on what it is for. -/
private theorem mintWaitpointToken_uniform (hm : mintWaitpointToken h id key now = .ok token)
    (id' key' : String) : ∃ token', mintWaitpointToken h id' key' now = .ok token' := by
  simp only [mintWaitpointToken,bind_ok,demand_ok,pure_ok] at hm ⊢
  obtain ⟨kid,hk,secret,hs,digest,hd,-⟩ := hm
  obtain ⟨bytes,hb,-⟩ := map_eq_some_iff.mp hd
  exact ⟨_,kid,hk,secret,hs,_,by rw [hmacSha1Hex,hb]; rfl,rfl⟩

private theorem setWaitpoint_eq_self (w : WaitKeys) (p : Waitpoint) :
    w.setWaitpoint id p = w ↔ w.waitpoint id = some p := by
  constructor
  · intro hw
    rw [← hw]
    simp
  · intro hp
    have keys : (fun j => if j = id then some p else w.waitpoint j) = w.waitpoint := by
      funext j
      by_cases hj : j = id <;> simp [hj,hp]
    rw [WaitKeys.setWaitpoint,keys]

private theorem openWaitpoint_spares (id key : String) (w : WaitKeys) :
    Refuses (fun e => e.2 = w ↔ ∀ token, mintWaitpointToken h id key now = .ok token → w.waitpoint id =
      some (a.opened now key token) ∧ initializeCondition a.resumeCondition = none) (openWaitpoint a h now id key w) := by
  unfold openWaitpoint
  split
  · rename_i hm
    simp [hm]
  · rename_i token hm
    split
    · rename_i hcond
      simp [hm,hcond,setWaitpoint_eq_self]
    · simp

private theorem openWaitpoint_opened (ho : openWaitpoint a h now id key w = .ok (token,w')) :
    mintWaitpointToken h id key now = .ok token ∧ (initializeCondition a.resumeCondition).isSome := by
  unfold openWaitpoint at ho
  split at ho
  · cases ho
  · rename_i minted hm
    split at ho
    · cases ho
    · rename_i cond hcond
      cases ho
      exact ⟨hm,by simp [hcond]⟩

/-- After the first token none of the others can fail. -/
private theorem openExtras_clean (decodes : (initializeCondition a.resumeCondition).isSome)
    (hm : mintWaitpointToken h id key now = .ok token) (extras : List (String × String)) (w : WaitKeys) :
    Refuses (fun _ => False) (openExtras a h now extras w) := by
  obtain ⟨cond,hcond⟩ := isSome_iff_exists.mp decodes
  induction extras generalizing w with
  | nil => simp [openExtras]
  | cons e rest ih =>
    obtain ⟨token',hm'⟩ := mintWaitpointToken_uniform hm e.1 e.2
    simp only [openExtras,openWaitpoint,hm',hcond,refuses_bind,refuses_ok,true_and]
    intro r hr
    exact ⟨ih _,by simp⟩

private theorem activatePending_fit {r : Binding × WaitKeys} (ha : activatePending a now w = .ok r) :
    ∃ p, w.waitpoint a.waitpointId = some p ∧ PendingFor a now p := by
  simp only [activatePending,bind_ok,demand_ok,ensure_ok] at ha
  obtain ⟨p,hp,_,h1,_,h2,_,h3,_,h4,_,h5,-⟩ := ha
  exact ⟨p,hp,h1,h2,h3,h4,h5⟩

private theorem bindWaitpoints_unfit (pending : a.usePendingWaitpoint)
    (unfit : ∀ p, w.waitpoint a.waitpointId = some p → ¬ PendingFor a now p) :
    Refuses (fun e => e.2 = w) (bindWaitpoints a h now w) := by
  have kept : Refuses (fun e => e.2 = w) (activatePending a now w) := by
    simp only [activatePending,refuses_bind,refuses_demand,refuses_ensure,demand_ok,ensure_ok,implies_true,true_and]
    intro p hp _ h1 _ h2 _ h3 _ h4 _ h5
    exact (unfit p hp ⟨h1,h2,h3,h4,h5⟩).elim
  simp only [bindWaitpoints,pending,if_true,refuses_bind]
  refine ⟨kept,fun r hr => ?_⟩
  obtain ⟨p,hp,fit⟩ := activatePending_fit hr
  exact (unfit p hp fit).elim

/-- A waitpoint that the call may activate is not pending any more, whether the call goes on or not. -/
private theorem bindWaitpoints_activated (pending : a.usePendingWaitpoint) {p : Waitpoint}
    (hp : w.waitpoint a.waitpointId = some p) (fit : PendingFor a now p) :
    Refuses (fun e => e.2.waitpoint ≠ w.waitpoint) (bindWaitpoints a h now w) ∧
      ∀ r, bindWaitpoints a h now w = .ok r → r.2.waitpoint ≠ w.waitpoint := by
  have changed {w' : WaitKeys} {q : Waitpoint} (hq : w'.waitpoint a.waitpointId = some q)
      (hs : q.state ≠ .pending) : w'.waitpoint ≠ w.waitpoint := by
    intro h
    rw [h,hp] at hq
    cases hq
    exact hs fit.state
  have activated (q : Waitpoint) (hs : q.state ≠ .pending) :
      (w.setWaitpoint a.waitpointId q).waitpoint ≠ w.waitpoint := changed (if_pos rfl) hs
  have bound (r) (hr : activatePending a now w = .ok r) : r.2.waitpoint ≠ w.waitpoint := by
    simp only [activatePending,bind_ok,demand_ok,ensure_ok] at hr
    obtain ⟨q,-,_,-,_,-,_,-,_,-,_,-,cond,-,hr⟩ := hr
    split at hr
    · cases hr
      exact changed (if_pos rfl) (by simp)
    · simp only [bind_ok,demand_ok,pure_ok] at hr
      obtain ⟨satisfied,-,rfl⟩ := hr
      cases satisfied with
      | false => exact changed (if_pos rfl) (by simp)
      | true => exact changed (if_pos rfl) (by simp)
  simp only [bindWaitpoints,pending,if_true,refuses_bind,refuses_ensure,refuses_pure,bind_ok,pure_ok]
  refine ⟨⟨?_,fun r hr => ⟨fun _ => bound r hr,by simp⟩⟩,?_⟩
  · simp [activatePending,hp,fit.state,fit.execution,fit.attempt,fit.lasting,fit.token,activated]
  · rintro r ⟨r',hr,-,-,rfl⟩
    exact bound r' hr

private theorem bindWaitpoints_spares (unrecorded : w.suspension = none) :
    Refuses (fun e => e.2 = w ↔ a.Spares h now w) (bindWaitpoints a h now w) := by
  cases pending : a.usePendingWaitpoint with
  | true =>
    by_cases unfit : ∀ p, w.waitpoint a.waitpointId = some p → ¬ PendingFor a now p
    · have spares : a.Spares h now w := ⟨unrecorded,fun _ => unfit,by simp [pending]⟩
      exact (bindWaitpoints_unfit pending unfit).mono fun e he => iff_of_true he spares
    · push Not at unfit
      obtain ⟨p,hp,fit⟩ := unfit
      exact (bindWaitpoints_activated pending hp fit).1.mono fun e he =>
        iff_of_false (fun h => he (congrArg _ h)) fun spares => spares.unfit pending p hp fit
  | false =>
    have spares : a.Spares h now w ↔ ∀ token, mintWaitpointToken h a.waitpointId a.waitpointKey now = .ok token →
        w.waitpoint a.waitpointId = some (a.opened now a.waitpointKey token) ∧
          initializeCondition a.resumeCondition = none :=
      ⟨fun s => s.unminted pending,fun s => ⟨unrecorded,by simp [pending],fun _ => s⟩⟩
    simp only [bindWaitpoints,pending,Bool.false_eq_true,if_false,refuses_bind,spares]
    refine ⟨openWaitpoint_spares _ _ _,fun r hr => ⟨?_,by simp⟩⟩
    obtain ⟨minted,decodes⟩ := openWaitpoint_opened hr
    exact (openExtras_clean decodes minted _ _).mono fun _ h => h.elim

private theorem bindWaitpoints_writes {r : Binding × WaitKeys} (hb : bindWaitpoints a h now w = .ok r) :
    ¬ a.Spares h now w ∧ (r.1.satisfied → r.2.waitpoint ≠ w.waitpoint) := by
  cases pending : a.usePendingWaitpoint with
  | true =>
    have hr := hb
    simp only [bindWaitpoints,pending,if_true,bind_ok] at hr
    obtain ⟨r',hr,-⟩ := hr
    obtain ⟨p,hp,fit⟩ := activatePending_fit hr
    exact ⟨fun spares => spares.unfit pending p hp fit,fun _ => (bindWaitpoints_activated pending hp fit).2 r hb⟩
  | false =>
    simp only [bindWaitpoints,pending,Bool.false_eq_true,if_false,bind_ok,pure_ok] at hb
    obtain ⟨r',hr,-,-,rfl⟩ := hb
    obtain ⟨minted,decodes⟩ := openWaitpoint_opened hr
    refine ⟨fun spares => ?_,by simp⟩
    simp [(spares.unminted pending _ minted).2] at decodes

/-- With its waitpoints a call has written something, also if it stops at a text. -/
private theorem suspendUnderLease_writes {s : Store} {c : ExecCore} {r : Binding × WaitKeys} (texts : SuspendTexts)
    (hc : s.core = some c) (active : c.lifecyclePhase = .active)
    (hb : bindWaitpoints a s.secrets now s.wait.delSuspension = .ok r) : (suspendUnderLease a c now s texts).2 ≠ s := by
  have suspended {t : Store} {a : SuspendArgs} (ht : t.core = some (c.suspendedOn a)) : t ≠ s := by
    rintro rfl
    have phase := congrArg ExecCore.lifecyclePhase (some.inj (ht.symm.trans hc))
    cases phase.trans active
  simp only [suspendUnderLease,hb]
  split
  · rename_i satisfied
    intro h
    refine (bindWaitpoints_writes hb).2 satisfied ?_
    rw [← (recordOutcome_keys r.2 _ now _).2.1]
    exact congrArg (fun s => s.wait.waitpoint) h
  · split
    · exact suspended rfl
    · split <;> exact suspended rfl

end

/-- A call leaves every key as it was, but for the mark of a lapsed lease, if and only if it ends before its
waitpoints or fails on them and has not written anything. -/
theorem suspend_atomic_iff (s : Store) (a : SuspendArgs) (texts : SuspendTexts) (now : Int) :
    let t := (commit s (suspendExecution a now s texts)).2
    (t = s ∨ ∃ c, s.core = some c ∧ LeaseLapsed c now ∧ t = markExpired c now s) ↔
      ∀ c, a.Reaches c now s → a.Spares s.secrets now s.wait := by
  intro t
  by_cases reaches : ∃ c, a.Reaches c now s
  · obtain ⟨c,reached⟩ := reaches
    have unlapsed : ¬ ∃ c, s.core = some c ∧ LeaseLapsed c now ∧ t = markExpired c now s := by
      rintro ⟨c',hc,lapsed,-⟩
      cases reached.core.symm.trans hc
      obtain ⟨expiresAt,he,live⟩ := reached.held.unexpired
      obtain ⟨expiresAt',he',due⟩ := lapsed.expired
      cases he.symm.trans he'
      omega
    have result : t = (suspendUnderLease a c now s texts).2 := by simp only [t,reached.outcome,commit_ok]
    have unset (unrecorded : s.wait.suspension = none) : s.wait.delSuspension = s.wait := by
      rw [WaitKeys.delSuspension,← unrecorded]
    suffices spares : t = s ↔ a.Spares s.secrets now s.wait by
      rw [or_iff_left unlapsed,spares]
      exact ⟨fun h _ _ => h,fun h => h c reached⟩
    rw [result]
    cases hb : bindWaitpoints a s.secrets now s.wait.delSuspension with
    | error e =>
      have store : (suspendUnderLease a c now s texts).2 = s ↔ e.2 = s.wait := by
        rw [suspendUnderLease,hb]
        exact ⟨congrArg Store.wait,fun h => congrArg s.setWait h⟩
      rw [store]
      by_cases unrecorded : s.wait.suspension = none
      · rw [unset unrecorded] at hb
        exact bindWaitpoints_spares unrecorded e hb
      · refine iff_of_false (fun h => unrecorded ?_) fun h => unrecorded h.unrecorded
        rw [← h]
        exact (bindWaitpoints_error hb).suspension
    | ok r =>
      refine iff_of_false (suspendUnderLease_writes texts reached.core reached.held.active hb) fun spares => ?_
      rw [unset spares.unrecorded] at hb
      exact (bindWaitpoints_writes hb).1 spares
  · refine iff_of_true ?_ fun c reached => (reaches ⟨c,reached⟩).elim
    cases ho : suspendExecution a now s texts with
    | error => exact .inl (by simp [t,ho])
    | ok r =>
      have stored : t = r.2 := by simp [t,ho]
      rcases suspendExecution_ok ho with ⟨-,hn⟩ | ⟨c,hc,-,⟨lapsed,-,hn⟩ | ⟨reached,-⟩⟩
      · exact .inl (stored.trans hn)
      · exact .inr ⟨c,hc,lapsed,stored.trans hn⟩
      · exact (reaches ⟨c,reached⟩).elim

namespace Client

def again : SuspendArgs :=
  { executionId := "e", attemptIndex := "0", fence := ⟨"L2","2","a1"⟩, suspensionId := "s2", waitpointId := "w2"
    waitpointKey := "key", resumeCondition := .signalSet [] .any 1, keys := { workerInstanceId := "wi" } }

def resumedOnce : Store := run (resumable ++ [grant 15,claimResumed 16 "L2"])

/-- A pending waitpoint that is not there: the record of the earlier suspension is gone. A condition that
does not decode: the waitpoint stays behind. A timeout that is a text: the execution is suspended. -/
theorem suspend_leaves_traces :
    let missing : Call := ⟨17,.suspend { again with usePendingWaitpoint := true }⟩
    let undecodable : Call := ⟨17,.suspend { again with resumeCondition := .malformed }⟩
    ((step missing resumedOnce).1 = .fail .waitpointNotFound ∧ resumedOnce.wait.suspension.isSome ∧
      (next missing resumedOnce).wait.suspension = none) ∧
    (step undecodable resumedOnce).1 = .raised ∧ resumedOnce.wait.waitpoint "w2" = none ∧
      ((next undecodable resumedOnce).wait.waitpoint "w2").isSome ∧
    let untimed := commit resumedOnce (suspendExecution { again with timeoutAt := some 30 } 17 resumedOnce { timeoutAt := true })
    untimed.1 = .raised ∧ untimed.2.core.map (·.lifecyclePhase) = some .suspended := by
  decide

end Client

end FlowFabric
