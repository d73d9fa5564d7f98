import FlowFabric.EdgeGroups
import FlowFabric.LeaseFields

/-! The executions of a partition side by side. A call goes to one of them, and a retention
purge takes one of them away. -/
namespace FlowFabric

/-- The keys that the retention trimmer leaves. The edge group belongs to the flow. -/
def Store.purged (s : Store) : Store :=
  { s with
    core := none, policy := .empty, grant := none, lease := none
    zset := fun j => if j = .terminal then none else s.zset j, attempt := fun _ => none, stream := fun _ => none
    wait := { s.wait with
      suspension := none, waitpoint := fun _ => none, condition := fun _ => none, signals := fun _ => []
      execSignals := ∅ }
    deps := { (run []).deps with edgeGroup := s.deps.edgeGroup } }

structure Execution where
  store : Store
  sound : store.lives Life.Sound

def Op.revives : Op → Bool
  | .create _ | .replay _ => true
  | _ => false

namespace Execution

def of (calls : List Call) : Execution := ⟨run calls,run_sound calls⟩

def next (i : Call) (x : Execution) : Execution := ⟨FlowFabric.next i x.store,sound_next x.store i x.sound⟩

def purge (x : Execution) : Execution := ⟨x.store.purged,fun c hc => by cases hc⟩

/-- The execution is terminal, or there is none. -/
def ended (x : Execution) : Bool := x.store.core.all fun c => decide (c.lifecyclePhase = .terminal)

variable {x : Execution} {i : Call} {c : ExecCore}

theorem ended_of_absent (h : x.store.core = none) : x.ended = true := by
  rw [ended,h]
  rfl

theorem ended_of_terminal (hc : x.store.core = some c) (ht : c.lifecyclePhase = .terminal) : x.ended = true := by
  rw [ended,hc]
  exact decide_eq_true ht

theorem ended_purge (x : Execution) : x.purge.ended = true := ended_of_absent rfl

theorem ended_next (h : x.ended = true) (final : i.op.revives = false) : (x.next i).ended = true := by
  cases hc : x.store.core with
  | none =>
    cases ht : (FlowFabric.next i x.store).core with
    | none => exact ended_of_absent ht
    | some =>
      obtain ⟨-,a,priority,caps,op,-⟩ | ⟨c,hc',-⟩ := next_core ht
      · rw [op] at final
        cases final
      · cases hc.symm.trans hc'
  | some c =>
    obtain ⟨ev,c',hc',cause,lived⟩ := next_lives i hc
    have terminal : c.lifecyclePhase = .terminal := by
      rw [ended,hc] at h
      exact of_decide_eq_true h
    have once : ∀ e, ev ≠ .replay e := by
      rintro e rfl
      obtain ⟨a,op⟩ := cause
      rw [op] at final
      cases final
    have same := lived.absorbing (x.sound c hc) terminal once
    exact ended_of_terminal hc' (same.1.trans terminal)

theorem deps_next (quiet : i.op.writesEdges = false) : (x.next i).store.deps = x.store.deps :=
  (next_effect i x.store).deps_eq quiet

theorem ended_update {exec : String → Execution} {eid y : String}
    (h : (exec eid).ended = true → x.ended = true) (hy : (exec y).ended = true) :
    (Function.update exec eid x y).ended = true := by
  by_cases he : y = eid
  · subst he
    rw [Function.update_self]
    exact h hy
  · rw [Function.update_of_ne he]
    exact hy

end Execution

end FlowFabric
