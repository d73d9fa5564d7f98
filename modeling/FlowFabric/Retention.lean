import FlowFabric.Executions
import FlowFabric.Foundation.Sweep
import FlowFabric.LaneIndex

/-! The retention trimmer: trim_retention_impl, which selects by the default retention and purges by
the retention of each execution. A purge is one step here. -/
namespace FlowFabric
open Foundation List

/-- A pass over the terminal index of a lane, with what the scanner filter leaves alone. -/
structure RetentionPass where
  retentionMs : Nat
  now : Int
  batchSize : Nat
  skips : String → Bool := fun _ => false

namespace RetentionPass
variable (a : RetentionPass)

def nowMs : Nat := a.now.toNat

def cutoff : Nat := a.nowMs - a.retentionMs

end RetentionPass

/-- A missing time, and one that does not parse, is zero. -/
def Store.completedAtMs (s : Store) : Nat :=
  match s.core.bind ExecCore.completedAt with
  | some t => if 0 ≤ t ∧ t < 2 ^ 64 then t.toNat else 0
  | none => 0

def readRetentionOverrideMs (policy : JsonText) (defaultRetentionMs : Nat) : Nat :=
  match policy with
  | .doc document =>
    match (document.field "stream_policy").bind (Json.field · "retention_ttl_ms") with
    | some (.num n) => if 0 ≤ n ∧ n < 2 ^ 64 then n.toNat else defaultRetentionMs
    | _ => defaultRetentionMs
  | _ => defaultRetentionMs

def Store.retentionMs (s : Store) (defaultRetentionMs : Nat) : Nat :=
  readRetentionOverrideMs s.policy defaultRetentionMs

/-- When the retention of the execution is over, in the arithmetic of u64. -/
def Store.retainedUntil (s : Store) (defaultRetentionMs : Nat) : Nat :=
  (s.completedAtMs + s.retentionMs defaultRetentionMs) % 2 ^ 64

/-- Whether the entry has left the index, and what is stored. One without a time only leaves it. -/
def purgeRetentionExecution (a : RetentionPass) (s : Store) : Bool × Store :=
  if s.completedAtMs = 0 then (true,s.zrem .terminal)
  else if a.nowMs < s.retainedUntil a.retentionMs then (false,s)
  else (true,s.purged)

namespace LanePartition

/-- The default retention decides what is looked at. -/
def selects (a : RetentionPass) (p : LanePartition) (e : String) : Bool :=
  ((p.store e).zset .terminal).any fun score => decide (score ≤ (a.cutoff : Int))

def expired (a : RetentionPass) (p : LanePartition) : List String := (p.index .terminal).filter (p.selects a)

def trimEntry (a : RetentionPass) (processed : Nat × LanePartition) (e : String) : Nat × LanePartition :=
  if a.skips e then processed
  else
    match purgeRetentionExecution a (processed.2.store e) with
    | (true,s) => (processed.1 + 1,processed.2.put e s)
    | (false,_) => processed

def trimRetention (a : RetentionPass) (p : LanePartition) : Nat × LanePartition :=
  ((p.expired a).take a.batchSize).foldl (trimEntry a) (0,p)

/-- The pass takes the entry out of the index when it gets to it. -/
def leaves (a : RetentionPass) (p : LanePartition) (e : String) : Bool :=
  !a.skips e && (purgeRetentionExecution a (p.store e)).1

variable {a : RetentionPass} {p : LanePartition} {e : String}

variable {s : Store} (n : Nat) (x : String)

private theorem purged_unlisted (h : (purgeRetentionExecution a s).1 = true) :
    (purgeRetentionExecution a s).2.zset .terminal = none := by
  unfold purgeRetentionExecution at h ⊢
  split
  · rfl
  · split
    · rename_i early
      simp_all
    · rfl

private theorem trimEntry_snd : (trimEntry a (n,p) e).2 =
    if p.leaves a e then p.put e (purgeRetentionExecution a (p.store e)).2 else p := by
  unfold trimEntry leaves
  cases a.skips e with
  | true => rfl
  | false =>
    cases hr : purgeRetentionExecution a (p.store e) with
    | mk left => cases left <;> simp

theorem trimEntry_store : (trimEntry a (n,p) e).2.store x =
    if x = e ∧ p.leaves a e then (purgeRetentionExecution a (p.store x)).2 else p.store x := by
  rw [trimEntry_snd]
  by_cases hl : p.leaves a e
  · rw [if_pos hl,store_put]
    by_cases hx : x = e
    · simp [hx,hl]
    · simp [hx]
  · simp [hl]

private theorem trimEntry_index : (trimEntry a (n,p) e).2.index .terminal =
    (p.index .terminal).filter fun x => !(decide (x = e) && p.leaves a e) := by
  rw [trimEntry_snd]
  by_cases hl : p.leaves a e
  · rw [if_pos hl,index_put (purged_unlisted (Bool.and_eq_true_iff.mp hl).2)]
    simp [hl]
  · simp [hl]

theorem trimAll {es : List String} (nodup : es.Nodup) (n : Nat) (p : LanePartition) :
    (∀ x, (es.foldl (trimEntry a) (n,p)).2.store x =
        if x ∈ es ∧ p.leaves a x then (purgeRetentionExecution a (p.store x)).2 else p.store x) ∧
      (es.foldl (trimEntry a) (n,p)).2.index .terminal =
        (p.index .terminal).filter fun x => !(decide (x ∈ es) && p.leaves a x) := by
  induction es generalizing n p with
  | nil => simp
  | cons e es ih =>
    obtain ⟨he,nodup⟩ := nodup_cons.mp nodup
    obtain ⟨stores,indexed⟩ := ih nodup (trimEntry a (n,p) e).1 (trimEntry a (n,p) e).2
    -- The entries still to come are as they were.
    have other : ∀ x, x ≠ e → (trimEntry a (n,p) e).2.store x = p.store x := by
      intro x hx
      rw [trimEntry_store,if_neg fun h => hx h.1]
    have others : ∀ x, x ≠ e → (trimEntry a (n,p) e).2.leaves a x = p.leaves a x := by
      intro x hx
      rw [leaves,leaves,other x hx]
    rw [foldl_cons]
    constructor
    · intro x
      rw [stores]
      by_cases hx : x = e
      · subst hx
        simp [he,trimEntry_store]
      · simp [hx,others x hx,other x hx]
    · rw [indexed,trimEntry_index,filter_filter]
      refine filter_congr fun x _ => ?_
      by_cases hx : x = e
      · subst hx
        simp [he]
      · simp [hx,others x hx]

theorem nodup_expired : (p.expired a).Nodup := nodup_index.filter _

theorem trimRetention_store : (p.trimRetention a).2.store x =
    if x ∈ (p.expired a).take a.batchSize ∧ p.leaves a x then (purgeRetentionExecution a (p.store x)).2
    else p.store x :=
  (trimAll (nodup_expired.sublist (take_sublist _ _)) 0 p).1 x

private theorem trimRetention_index : (p.trimRetention a).2.index .terminal =
    (p.index .terminal).filter fun x => !(decide (x ∈ (p.expired a).take a.batchSize) && p.leaves a x) :=
  (trimAll (nodup_expired.sublist (take_sublist _ _)) 0 p).2

theorem trimRetention_expired : (p.trimRetention a).2.expired a = sweep (p.leaves a) a.batchSize (p.expired a) := by
  rw [sweep_eq_filter nodup_expired]
  change ((p.trimRetention a).2.index .terminal).filter _ = ((p.index .terminal).filter _).filter _
  rw [trimRetention_index,filter_filter,filter_filter]
  refine filter_congr fun x _ => ?_
  by_cases hx : x ∈ (p.expired a).take a.batchSize ∧ p.leaves a x
  · simp [hx]
  · rw [selects,trimRetention_store,if_neg hx,Bool.and_comm]
    rfl

theorem mem_trimRetention_expired {x : String} : x ∈ (p.trimRetention a).2.expired a ↔
    x ∈ p.expired a ∧ ¬ (x ∈ (p.expired a).take a.batchSize ∧ p.leaves a x) := by
  rw [trimRetention_expired,sweep_eq_filter nodup_expired,mem_filter]
  simp [imp_iff_not_or]

def trimmed (a : RetentionPass) (p : LanePartition) (k : Nat) : LanePartition := (fun p => (trimRetention a p).2)^[k] p

private theorem trimmed_succ (k : Nat) : p.trimmed a (k + 1) = ((p.trimmed a k).trimRetention a).2 :=
  Function.iterate_succ_apply' _ k p

theorem trimmed_spec (a : RetentionPass) (p : LanePartition) (k : Nat) :
    (p.trimmed a k).expired a = (sweep (p.leaves a) a.batchSize)^[k] (p.expired a) ∧
      ((p.trimmed a k).expired a).Sublist (p.expired a) ∧ ∀ x, (p.trimmed a k).store x =
        if x ∈ p.expired a ∧ x ∉ (p.trimmed a k).expired a then (purgeRetentionExecution a (p.store x)).2
        else p.store x := by
  induction k with
  | zero => exact ⟨rfl,.refl _,fun x => (if_neg fun h => h.2 h.1).symm⟩
  | succ k ih =>
    obtain ⟨swept,sub,stores⟩ := ih
    have same : ∀ x ∈ (p.trimmed a k).expired a, (p.trimmed a k).store x = p.store x := by
      intro x hx
      rw [stores,if_neg fun h => h.2 hx]
    have alike : ∀ x ∈ (p.trimmed a k).expired a, (p.trimmed a k).leaves a x = p.leaves a x := by
      intro x hx
      rw [leaves,leaves,same x hx]
    rw [trimmed_succ]
    refine ⟨?_,?_,fun x => ?_⟩
    · rw [trimRetention_expired,sweep_congr alike,swept,Function.iterate_succ_apply']
    · rw [trimRetention_expired,sweep_eq_filter nodup_expired]
      exact filter_sublist.trans sub
    · rw [trimRetention_store]
      by_cases left : x ∈ ((p.trimmed a k).expired a).take a.batchSize ∧ (p.trimmed a k).leaves a x
      · have hx := mem_of_mem_take left.1
        have gone : x ∉ ((p.trimmed a k).trimRetention a).2.expired a :=
          fun h => (mem_trimRetention_expired.mp h).2 left
        rw [if_pos left,same x hx,if_pos ⟨sub.subset hx,gone⟩]
      · have kept : x ∈ ((p.trimmed a k).trimRetention a).2.expired a ↔ x ∈ (p.trimmed a k).expired a :=
          mem_trimRetention_expired.trans (and_iff_left left)
        rw [if_neg left,stores]
        simp only [kept]

/-- The entry is selected and the batch gets to it past those that stay. -/
def Reached (a : RetentionPass) (p : LanePartition) (e : String) : Prop :=
  e ∈ p.expired a ∧ ((p.expired a).takeWhile (· ≠ e)).countP (fun x => !p.leaves a x) < a.batchSize

def Purged (p q : LanePartition) (e : String) : Prop := (p.store e).core.isSome ∧ (q.store e).core = none

def trimmedOut (a : RetentionPass) (p : LanePartition) : LanePartition := p.trimmed a (p.index .terminal).length

theorem trimmedOut_store (e : String) : (p.trimmedOut a).store e =
    if e ∈ p.expired a ∧ e ∉ (p.trimmedOut a).expired a then (purgeRetentionExecution a (p.store e)).2
    else p.store e :=
  (trimmed_spec a p _).2.2 e

theorem left_iff : e ∈ p.expired a ∧ e ∉ (p.trimmedOut a).expired a ↔ p.Reached a e ∧ p.leaves a e := by
  have short : (p.expired a).length ≤ (p.index .terminal).length := length_filter_le _ _
  rw [trimmedOut,(trimmed_spec a p _).1,iterate_sweep a.batchSize short,Reached,and_assoc]
  refine and_congr_right fun he => ?_
  rw [mem_unswept nodup_expired he]
  push Not
  exact and_comm

private theorem core_of_completedAt (h : s.completedAtMs ≠ 0) : s.core.isSome := by
  cases hc : s.core with
  | none =>
    rw [Store.completedAtMs,hc] at h
    exact absurd rfl h
  | some => rfl

theorem purge_deletes (hs : s.core.isSome) : (purgeRetentionExecution a s).2.core = none ↔
    s.completedAtMs ≠ 0 ∧ s.retainedUntil a.retentionMs ≤ a.nowMs := by
  have there : s.core ≠ none := Option.isSome_iff_ne_none.mp hs
  unfold purgeRetentionExecution
  by_cases hz : s.completedAtMs = 0
  · rw [if_pos hz]
    exact iff_of_false there fun h => h.1 hz
  · rw [if_neg hz]
    by_cases early : a.nowMs < s.retainedUntil a.retentionMs
    · rw [if_pos early]
      exact iff_of_false there fun h => by omega
    · rw [if_neg early]
      exact iff_of_true rfl ⟨hz,by omega⟩

private theorem purged_iff : p.Purged (p.trimmedOut a) e ↔ p.Reached a e ∧ a.skips e = false ∧
    (p.store e).completedAtMs ≠ 0 ∧ (p.store e).retainedUntil a.retentionMs ≤ a.nowMs := by
  constructor
  · rintro ⟨there,gone⟩
    by_cases left : e ∈ p.expired a ∧ e ∉ (p.trimmedOut a).expired a
    · obtain ⟨reached,leaving⟩ := left_iff.mp left
      rw [trimmedOut_store,if_pos left] at gone
      exact ⟨reached,by simpa using (Bool.and_eq_true_iff.mp leaving).1,(purge_deletes there).mp gone⟩
    · rw [trimmedOut_store,if_neg left] at gone
      rw [gone] at there
      cases there
  · rintro ⟨reached,unskipped,past⟩
    have there := core_of_completedAt past.1
    have leaving : p.leaves a e := by simp [leaves,unskipped,purgeRetentionExecution,past.1,not_lt.mpr past.2]
    refine ⟨there,?_⟩
    rw [trimmedOut_store,if_pos (left_iff.mpr ⟨reached,leaving⟩)]
    exact (purge_deletes there).mpr past

end LanePartition

def Store.Due (a : RetentionPass) (s : Store) : Prop :=
  ∃ c t, s.core = some c ∧ c.completedAt = some t ∧ t + s.retentionMs a.retentionMs ≤ a.now

theorem Store.Due.past {a : RetentionPass} {s : Store} (due : s.Due a) (read : s.completedAtMs ≠ 0) :
    s.retainedUntil a.retentionMs ≤ a.nowMs := by
  obtain ⟨c,t,hc,ht,le⟩ := due
  have time : s.completedAtMs = if 0 ≤ t ∧ t < 2 ^ 64 then t.toNat else 0 := by simp [Store.completedAtMs,hc,ht]
  by_cases range : 0 ≤ t ∧ t < 2 ^ 64
  · rw [if_pos range] at time
    have wrapped : s.retainedUntil a.retentionMs ≤ s.completedAtMs + s.retentionMs a.retentionMs := Nat.mod_le _ _
    unfold RetentionPass.nowMs
    omega
  · rw [if_neg range] at time
    exact absurd time read

namespace LanePartition

/-- A due execution is reached, and one that is not due is not taken for due by an overflow. -/
structure RetainedExactly (a : RetentionPass) (p : LanePartition) (e : String) : Prop where
  due : (p.store e).Due a → p.Reached a e ∧ a.skips e = false ∧ (p.store e).completedAtMs ≠ 0
  early : ¬ (p.store e).Due a → p.Reached a e → a.skips e = false → (p.store e).completedAtMs ≠ 0 →
    a.nowMs < (p.store e).retainedUntil a.retentionMs

theorem purges_exactly_iff (a : RetentionPass) (p : LanePartition) :
    (∀ e, p.Purged (p.trimmedOut a) e ↔ e ∈ p.index .terminal ∧ (p.store e).Due a) ↔
      ∀ e ∈ p.index .terminal, p.RetainedExactly a e := by
  have listed : ∀ e, p.Reached a e → e ∈ p.index .terminal := fun e h => mem_of_mem_filter h.1
  simp only [purged_iff]
  constructor
  · intro h e he
    refine ⟨fun due => ?_,fun early reached unskipped read => ?_⟩
    · obtain ⟨reached,unskipped,read,-⟩ := (h e).mpr ⟨he,due⟩
      exact ⟨reached,unskipped,read⟩
    · by_contra past
      exact early ((h e).mp ⟨reached,unskipped,read,not_lt.mp past⟩).2
  · intro h e
    constructor
    · rintro ⟨reached,unskipped,read,past⟩
      refine ⟨listed e reached,?_⟩
      by_contra early
      have := (h e (listed e reached)).early early reached unskipped read
      omega
    · rintro ⟨he,due⟩
      obtain ⟨reached,unskipped,read⟩ := (h e he).due due
      exact ⟨reached,unskipped,read,due.past read⟩

end LanePartition

end FlowFabric
