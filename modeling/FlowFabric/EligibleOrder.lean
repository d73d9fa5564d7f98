import FlowFabric.Standing

/-! The order of the eligible index: the score says the priority first and the creation time
second, and every script that writes it uses the priority the hash holds. -/
namespace FlowFabric
open Foundation

/-- A hash with its entry in the eligible index. -/
structure Ranked (c : ExecCore) (entry : Option Int) : Prop where
  priority : 0 ≤ c.priority ∧ c.priority ≤ 9000
  createdAt : 0 ≤ c.createdAt ∧ c.createdAt < clockEnd
  score : ∀ x, entry = some x → x = c.eligibleScore

def Store.ranked (s : Store) : Prop :=
  (s.core = none → s.zset .eligible = none) ∧ ∀ c, s.core = some c → Ranked c (s.zset .eligible)

/-- A priority is changed in the lane of the execution. -/
def Op.inOwnLane : Op → Prop
  | .changePriority a => a.ownLane = true
  | _ => True

def Call.timely (i : Call) : Prop := i.op.keyed ∧ i.op.inOwnLane ∧ 0 ≤ i.now ∧ i.now < clockEnd

section
variable {s t : Store} {c c' : ExecCore} {i : Call} {now : Int} {entry : Option Int} {reply : Reply}

theorem Stands.eligibleScore (h : Stands c c') : c'.eligibleScore = c.eligibleScore := by
  rw [ExecCore.eligibleScore,h.priority,h.createdAt,ExecCore.eligibleScore]

theorem clampPriority_range (n : Int) : 0 ≤ clampPriority n ∧ clampPriority n ≤ 9000 := by
  unfold clampPriority
  omega

theorem ranked_of_core (ht : t.core = some c) (h : Ranked c (t.zset .eligible)) : t.ranked := by
  refine ⟨fun hn => ?_,fun d hd => ?_⟩
  · rw [ht] at hn
    cases hn
  · rw [ht] at hd
    cases hd
    exact h

theorem Ranked.stands {old : Option Int} (h : Ranked c old) (stands : Stands c c')
    (hz : entry = old ∨ entry = none ∨ entry = some c'.eligibleScore) : Ranked c' entry := by
  refine ⟨stands.priority ▸ h.priority,stands.createdAt ▸ h.createdAt,fun x hx => ?_⟩
  rcases hz with rfl | rfl | rfl
  · rw [stands.eligibleScore]
    exact h.score x hx
  · cases hx
  · exact (Option.some.inj hx).symm

private theorem createExecution_ranked {a : CreateArgs} (h : createExecution a now s = .ok (reply,t))
    (keyed : a.Keyed) (clock : 0 ≤ now ∧ now < clockEnd) (hs : s.ranked) : t.ranked := by
  simp only [createExecution,bind_ok,requireNumber_ok] at h
  obtain ⟨priority,-,h⟩ := h
  split at h
  · cases h; exact hs
  · split at h
    · cases h; exact hs
    · rename_i hc
      simp only [bind_ok] at h
      obtain ⟨caps,-,h⟩ := h
      cases h
      refine ranked_of_core rfl ⟨clampPriority_range priority,clock,fun x hx => ?_⟩
      have absent : s.zset .eligible = none := hs.1 hc
      cases hd : a.delayUntil with
      | none =>
        simp only [CreateArgs.Keyed,hd] at keyed
        have score : (newCore a (clampPriority priority) now caps).eligibleScore = x := by
          simpa [createdStore,keyed,newCore,hd] using hx
        exact score.symm
      | some due =>
        simp only [CreateArgs.Keyed,hd] at keyed
        simp [createdStore,keyed,absent] at hx

private theorem changePriority_ranked {a : PriorityArgs} (h : changePriority a s = .ok (reply,t))
    (own : a.ownLane = true) (hs : s.ranked) : t.ranked := by
  simp only [changePriority,bind_ok,requireNumber_ok,demand_ok,ensure_ok] at h
  obtain ⟨priority,-,c,hc,-,-,-,-,h⟩ := h
  cases h
  rw [if_pos own]
  exact ranked_of_core rfl ⟨clampPriority_range priority,(hs.2 c hc).createdAt,fun x hx => (Option.some.inj hx).symm⟩

theorem Advances.ranked {op : Op} (h : Advances op s t) (keyed : op.keyed) (hcreate : ∀ a, op ≠ .create a)
    (hprio : ∀ a, op ≠ .changePriority a) (hs : s.ranked) : t.ranked := by
  cases h with
  | kept core entry =>
    unfold Store.ranked
    rwa [core,entry]
  | aside hc ht stands entry => exact ranked_of_core ht ((hs.2 _ hc).stands stands (.inl entry))
  | off hc ht stands entry => exact ranked_of_core ht ((hs.2 _ hc).stands stands (.inr (.inl (entry keyed))))
  | scored hc ht stands entry => exact ranked_of_core ht ((hs.2 _ hc).stands stands (.inr (.inr entry)))
  | prioritized a hop => exact (hprio a hop).elim
  | created a hop => exact (hcreate a hop).elim

theorem next_ranked (s : Store) (i : Call) (hs : s.ranked) (timely : i.timely) : (next i s).ranked := by
  obtain ⟨now,op⟩ := i
  cases op with
  | create a => exact commit_induction hs fun _ _ h => createExecution_ranked h timely.1 timely.2.2 hs
  | changePriority a => exact commit_induction hs fun _ _ h => changePriority_ranked h timely.2.1 hs
  | _ => exact (next_effect _ s).advances.ranked timely.1 (fun _ h => by cases h) (fun _ h => by cases h) hs

theorem run_ranked {calls : List Call} (timely : ∀ i ∈ calls, i.timely) : (run calls).ranked :=
  Along.invariant next_ranked ⟨fun _ => rfl,fun _ h => by cases h⟩ (.of_forall timely _)

/-- Ahead in the order of the index: a higher priority, or the same one and created earlier. -/
def ExecCore.Precedes (c c' : ExecCore) : Prop :=
  c'.priority < c.priority ∨ c.priority = c'.priority ∧ c.createdAt < c'.createdAt

theorem Ranked.exact (h : Ranked c entry) : |c.eligibleScore| < 2 ^ 53 := by
  have priority := h.priority
  have createdAt := h.createdAt
  rw [clockEnd] at createdAt
  rw [abs_lt,ExecCore.eligibleScore]
  omega

end

/-- Two executions of a lane, each in the eligible index after its own calls, which change its priority in
this lane only. -/
theorem eligible_order (calls calls' : List Call) (timely : ∀ i ∈ calls ++ calls', i.timely) (x x' : Int)
    (hx : (run calls).zset .eligible = some x) (hx' : (run calls').zset .eligible = some x') :
    ∃ c c', (run calls).core = some c ∧ (run calls').core = some c' ∧
      (x = c.createdAt - c.priority * 10 ^ 12 ∧ 0 ≤ c.priority ∧ c.priority ≤ 9000 ∧ |x| < 2 ^ 53) ∧
      (|c.createdAt - c'.createdAt| < 10 ^ 12 → c.Precedes c' → x < x') := by
  have ranked := run_ranked fun i hi => timely i (List.mem_append_left _ hi)
  have ranked' := run_ranked fun i hi => timely i (List.mem_append_right _ hi)
  cases hc : (run calls).core with
  | none => simp [ranked.1 hc] at hx
  | some c =>
    cases hc' : (run calls').core with
    | none => simp [ranked'.1 hc'] at hx'
    | some c' =>
      have h := ranked.2 c hc
      have score := h.score x hx
      have score' := (ranked'.2 c' hc').score x' hx'
      refine ⟨c,c',rfl,rfl,⟨?_,h.priority.1,h.priority.2,score ▸ h.exact⟩,fun close ahead => ?_⟩
      · rw [score,ExecCore.eligibleScore]
        omega
      · rw [score,score']
        rw [abs_lt] at close
        unfold ExecCore.eligibleScore
        rcases ahead with ahead | ⟨ahead,earlier⟩
        · omega
        · rw [ahead]
          omega

namespace Client

def urgent (now : Int) : Call := ⟨now,.changePriority ⟨"e",.number 12000,true⟩⟩

/-- The younger execution is ahead after its priority was raised, to the cap. -/
theorem eligible_order_urgent : ((run [create 7,urgent 8]).zset .eligible = some (7 - 9000 * 10 ^ 12) ∧
    (run [create 5]).zset .eligible = some (5 - 5 * 10 ^ 12)) ∧ (7 - 9000 * 10 ^ 12 : Int) < 5 - 5 * 10 ^ 12 := by
  have timely : ∀ i ∈ [create 7,urgent 8] ++ [create 5], i.timely := by
    simp [Call.timely,Op.keyed,Op.inOwnLane,create,urgent,CreateArgs.Keyed,clockEnd]
  have hx : (run [create 7,urgent 8]).zset .eligible = some (7 - 9000 * 10 ^ 12) := by decide
  have hx' : (run [create 5]).zset .eligible = some (5 - 5 * 10 ^ 12) := by decide
  obtain ⟨c,c',hc,hc',-,h⟩ := eligible_order [create 7,urgent 8] [create 5] timely _ _ hx hx'
  cases hc
  cases hc'
  exact ⟨⟨hx,hx'⟩,h (by decide) (.inl (by decide))⟩

/-- Raised through another lane, the younger one stays behind in its own. -/
theorem urgent_elsewhere_keeps_its_place :
    let calls := [create 7,⟨8,.changePriority { executionId := "e", newPriority := .number 12000, ownLane := false }⟩]
    (run calls).zset .eligible = some (7 - 5 * 10 ^ 12) ∧ (run calls).core.map ExecCore.priority = some 9000 ∧
      (run [create 5]).zset .eligible = some (5 - 5 * 10 ^ 12) ∧
      (run [create 5]).core.map ExecCore.priority = some 5 := by
  decide +kernel

end Client
end FlowFabric
