import Mathlib.Data.Option.Basic

/-! Numbered records that are added one after the other and of which at most the current
one is open. -/
namespace FlowFabric.Foundation

structure Ledger (α : Type) where
  record : Nat → Option α
  count : Nat
  current : Option Nat

namespace Ledger
variable {α : Type}

def rewrite (l : Ledger α) (a : Nat → α) : Ledger α :=
  { l with record := fun j => if l.current = some j then some (a j) else l.record j }

/-- Add a record and make it the current one. -/
def append (l : Ledger α) (a : Nat → α) : Ledger α where
  record := fun j => if some l.count = some j then some (a j) else l.record j
  count := l.count + 1
  current := some l.count

/-- The records are the first ones, the current one is among them, and no other is open. -/
structure Valid (isOpen : α → Prop) (l : Ledger α) : Prop where
  recorded : ∀ i, (l.record i).isSome ↔ i < l.count
  current_lt : ∀ i, l.current = some i → i < l.count
  open_current : ∀ i a, l.record i = some a → isOpen a → l.current = some i

def Closed (isOpen : α → Prop) (l : Ledger α) : Prop := ∀ i a, l.record i = some a → ¬ isOpen a

variable {isOpen : α → Prop} {l : Ledger α} {f : Nat → α}

variable (h : Valid isOpen l)
include h

theorem Valid.rewrite (f : Nat → α) : Valid isOpen (l.rewrite f) := by
  refine ⟨fun i => ?_,h.current_lt,fun i a ha ho => ?_⟩
  · by_cases hi : l.current = some i
    · simp [Ledger.rewrite,hi,h.current_lt i hi]
    · simpa [Ledger.rewrite,hi] using h.recorded i
  · by_cases hi : l.current = some i
    · exact hi
    · exact h.open_current i a (by simpa [Ledger.rewrite,hi] using ha) ho

theorem Valid.closed_rewrite (hf : ∀ j, ¬ isOpen (f j)) : Closed isOpen (l.rewrite f) := by
  intro i a ha ho
  by_cases hi : l.current = some i
  · simp only [Ledger.rewrite,hi,if_true,Option.some.injEq] at ha
    exact hf _ (ha ▸ ho)
  · exact hi (h.open_current i a (by simpa [Ledger.rewrite,hi] using ha) ho)

theorem Valid.append (hc : Closed isOpen l) (f : Nat → α) : Valid isOpen (l.append f) := by
  refine ⟨fun i => ?_,fun i hi => ?_,fun i a ha ho => ?_⟩
  · by_cases hi : l.count = i
    · simp [Ledger.append,hi]
    · simp only [Ledger.append,Option.some.injEq,hi,if_false,h.recorded]
      omega
  · simp only [Ledger.append,Option.some.injEq] at hi ⊢
    omega
  · by_cases hi : l.count = i
    · simp [Ledger.append,hi]
    · exact (hc i a (by simpa [Ledger.append,hi] using ha) ho).elim

theorem Valid.record_count : l.record l.count = none := by
  have := h.recorded l.count
  simpa using this

end Ledger
end FlowFabric.Foundation
