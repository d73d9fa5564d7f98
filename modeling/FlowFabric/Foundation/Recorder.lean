import FlowFabric.Foundation.Run

/-! Calls that are answered from a record. A call carries a label or none. One that is carried out
may leave a record under its label, and a call that meets a record of its label is a replay. -/
namespace FlowFabric.Foundation

structure Recorder (σ ι κ : Type) where
  next : ι → σ → σ
  label : ι → Option κ
  /-- There is a record of the label that the call would meet. -/
  live : σ → κ → ι → Prop
  replays : ι → σ → Prop
  records : ι → σ → Prop
  /-- The record the first call leaves lasts up to the second. -/
  covers : ι → ι → Prop
  replays_iff : ∀ i s, replays i s ↔ ∃ k, label i = some k ∧ live s k i
  live_after : ∀ i s k j, records i s → label i = some k → (live (next i s) k j ↔ covers i j)
  live_next : ∀ i s k j, ¬ (records i s ∧ label i = some k) → (live (next i s) k j ↔ live s k j)

namespace Recorder
variable {σ ι κ : Type} (R : Recorder σ ι κ) {s : σ} {k : κ} {i j : ι} {is : List ι}

theorem live_run (h : ∀ i ∈ is, R.label i ≠ some k) : R.live (runFrom R.next s is) k j ↔ R.live s k j := by
  induction is generalizing s with
  | nil => rfl
  | cons i is ih =>
    have other : ¬ (R.records i s ∧ R.label i = some k) := fun hi => h i List.mem_cons_self hi.2
    have rest := ih (s := R.next i s) fun i hi => h i (List.mem_cons_of_mem _ hi)
    exact rest.trans (R.live_next i s k j other)

/-- The label is made of a key and a part. Both calls have the key, and none in between has. -/
theorem replays_later {ν : Type} {key : ι → Prop} {part : ι → ν}
    (label : ∀ i, R.label i = some k ↔ key i ∧ part i = part j) (hi : key i) (hj : key j)
    (others : ∀ i ∈ is, ¬ key i) (unmet : ¬ R.live s k j) (covers : R.covers i j) :
    R.replays j (runFrom R.next (R.next i s) is) ↔ R.records i s ∧ part i = part j := by
  have met : R.replays j (runFrom R.next (R.next i s) is) ↔ R.live (R.next i s) k j := by
    rw [R.replays_iff,(label j).mpr ⟨hj,rfl⟩]
    simp only [Option.some.injEq,exists_eq_left']
    exact R.live_run fun i hi h => others i hi ((label i).mp h).1
  rw [met]
  by_cases h : R.records i s ∧ R.label i = some k
  · rw [R.live_after i s k j h.1 h.2]
    exact iff_of_true covers ⟨h.1,((label i).mp h.2).2⟩
  · rw [R.live_next i s k j h]
    exact iff_of_false unmet fun both => h ⟨both.1,(label i).mpr ⟨hi,both.2⟩⟩

end Recorder
end FlowFabric.Foundation
