import Mathlib.Logic.Basic

/-! Scripts that check everything they need before they write. An early return
carries a reply only, so the store it leaves behind is the one it started from. -/
namespace FlowFabric.Foundation
variable {ρ σ α : Type}

/-- Go on when the condition holds, return the reply otherwise. -/
def ensure (p : Prop) [Decidable p] (reply : ρ) : Except ρ Unit :=
  if p then .ok () else .error reply

theorem ensure_of {p : Prop} [Decidable p] (h : p) (reply : ρ) : ensure p reply = .ok () := if_pos h

theorem ensure_of_not {p : Prop} [Decidable p] (h : ¬ p) (reply : ρ) : ensure p reply = .error reply := if_neg h

/-- Go on with the value read, return the reply when there is none. -/
def demand (o : Option α) (reply : ρ) : Except ρ α :=
  match o with
  | some a => .ok a
  | none => .error reply

@[simp] theorem ensure_ok (p : Prop) [Decidable p] (reply : ρ) (u : Unit) : ensure p reply = .ok u ↔ p := by
  by_cases h : p <;> simp [ensure,h]

@[simp] theorem demand_ok (o : Option α) (reply : ρ) (a : α) : demand o reply = .ok a ↔ o = some a := by
  cases o <;> simp [demand]

@[simp] theorem pure_ok (a b : α) : (pure a : Except ρ α) = .ok b ↔ a = b := by simp [pure,Except.pure]

@[simp] theorem bind_ok {β : Type} (x : Except ρ α) (k : α → Except ρ β) (b : β) :
    x >>= k = .ok b ↔ ∃ a, x = .ok a ∧ k a = .ok b := by
  cases x <;> simp [bind,Except.bind]

/-- The reply and the store after the script, whichever way it returned. -/
def commit (s : σ) : Except ρ (ρ × σ) → ρ × σ
  | .error reply => (reply,s)
  | .ok result => result

@[simp] theorem commit_error (s : σ) (reply : ρ) : commit s (.error reply) = (reply,s) := rfl

@[simp] theorem commit_ok (s : σ) (result : ρ × σ) : commit s (.ok result) = result := rfl

theorem commit_induction {P : σ → Prop} {s : σ} {x : Except ρ (ρ × σ)} (hs : P s)
    (hx : ∀ reply t, x = .ok (reply,t) → P t) : P (commit s x).2 := by
  cases x with
  | error => exact hs
  | ok result => exact hx result.1 result.2 rfl

/-- Every early return of the script carries a reply of this kind. -/
def Refuses (P : ρ → Prop) (x : Except ρ α) : Prop := ∀ reply, x = .error reply → P reply

section
variable {β : Type} {P : ρ → Prop}

theorem Refuses.mono {Q : ρ → Prop} {x : Except ρ α} (h : Refuses P x) (hpq : ∀ reply, P reply → Q reply) :
    Refuses Q x :=
  fun reply he => hpq reply (h reply he)

@[simp] theorem refuses_ok (a : α) : Refuses P (.ok a : Except ρ α) := by simp [Refuses]

@[simp] theorem refuses_error (reply : ρ) : Refuses P (.error reply : Except ρ α) ↔ P reply := by simp [Refuses]

@[simp] theorem refuses_pure (a : α) : Refuses P (pure a : Except ρ α) := refuses_ok a

@[simp] theorem refuses_ensure (p : Prop) [Decidable p] (reply : ρ) : Refuses P (ensure p reply) ↔ (¬ p → P reply) := by
  by_cases h : p <;> simp [ensure,h]

@[simp] theorem refuses_demand (o : Option α) (reply : ρ) : Refuses P (demand o reply) ↔ (o = none → P reply) := by
  cases o <;> simp [demand]

@[simp] theorem refuses_bind (x : Except ρ α) (k : α → Except ρ β) :
    Refuses P (x >>= k) ↔ Refuses P x ∧ ∀ a, x = .ok a → Refuses P (k a) := by
  cases x <;> simp [bind,Except.bind,Refuses]

@[simp] theorem refuses_map (f : α → β) (x : Except ρ α) : Refuses P (f <$> x) ↔ Refuses P x := by
  cases x <;> simp [Functor.map,Except.map,Refuses]

@[simp] theorem refuses_ite (p : Prop) [Decidable p] (x y : Except ρ α) :
    Refuses P (if p then x else y) ↔ (p → Refuses P x) ∧ (¬ p → Refuses P y) := by
  by_cases h : p <;> simp [h]

theorem refuses_mapM {f : α → Except ρ β} (hf : ∀ a, Refuses P (f a)) (as : List α) : Refuses P (as.mapM f) := by
  induction as with
  | nil => simp
  | cons a as ih => simp [List.mapM_cons,hf,ih]

end

end FlowFabric.Foundation
