import Mathlib.Data.List.Basic

/-! Finite runs of a machine whose step is a function of the state and an input. -/
namespace FlowFabric.Foundation
variable {σ ι : Type}

def runFrom (next : ι → σ → σ) : σ → List ι → σ
  | s, [] => s
  | s, i :: is => runFrom next (next i s) is

/-- Every input of the run meets the condition in the state it is applied to. -/
def Along (next : ι → σ → σ) (P : σ → ι → Prop) : σ → List ι → Prop
  | _, [] => True
  | s, i :: is => P s i ∧ Along next P (next i s) is

instance decidableAlong (next : ι → σ → σ) (P : σ → ι → Prop) [∀ s i, Decidable (P s i)] :
    ∀ s is, Decidable (Along next P s is)
  | _, [] => isTrue trivial
  | s, i :: is =>
    match ‹∀ s i, Decidable (P s i)› s i, decidableAlong next P (next i s) is with
    | isTrue h, isTrue t => isTrue ⟨h,t⟩
    | isFalse h, _ => isFalse fun a => h a.1
    | _, isFalse t => isFalse fun a => t a.2

variable {next : ι → σ → σ} {P Q : σ → ι → Prop} {is : List ι} {s : σ}

theorem runFrom_append (s : σ) (is js : List ι) : runFrom next s (is ++ js) = runFrom next (runFrom next s is) js := by
  induction is generalizing s with
  | nil => rfl
  | cons i is ih => exact ih (next i s)

theorem Along.append {js : List ι} :
    Along next P s (is ++ js) ↔ Along next P s is ∧ Along next P (runFrom next s is) js := by
  induction is generalizing s with
  | nil => simp [Along,runFrom]
  | cons i is ih => simp [Along,runFrom,ih,and_assoc]

theorem Along.and (h : Along next P s is) (h' : Along next Q s is) : Along next (fun s i => P s i ∧ Q s i) s is := by
  induction is generalizing s with
  | nil => trivial
  | cons i is ih => exact ⟨⟨h.1,h'.1⟩,ih h.2 h'.2⟩

theorem Along.of_forall {p : ι → Prop} (h : ∀ i ∈ is, p i) (s : σ) : Along next (fun _ i => p i) s is := by
  induction is generalizing s with
  | nil => trivial
  | cons i is ih => exact ⟨h i (by simp),ih (fun j hj => h j (by simp [hj])) _⟩

theorem Along.forall_mem {p : ι → Prop} (implies : ∀ s i, P s i → p i) (h : Along next P s is) : ∀ i ∈ is, p i := by
  induction is generalizing s with
  | nil => simp
  | cons i is ih =>
    rw [List.forall_mem_cons]
    exact ⟨implies s i h.1,ih h.2⟩

theorem Along.invariant {I : σ → Prop} (step : ∀ s i, I s → P s i → I (next i s)) (hs : I s)
    (h : Along next P s is) : I (runFrom next s is) := by
  induction is generalizing s with
  | nil => exact hs
  | cons i is ih => exact ih (step s i hs h.1) h.2

theorem runFrom_invariant {I : σ → Prop} (step : ∀ s i, I s → I (next i s)) (hs : I s)
    (is : List ι) : I (runFrom next s is) := by
  induction is generalizing s with
  | nil => exact hs
  | cons i is ih => exact ih (step s i hs)

/-- The property holds in every state of the run, the first one included. -/
def Throughout (next : ι → σ → σ) (I : σ → Prop) : σ → List ι → Prop
  | s, [] => I s
  | s, i :: is => I s ∧ Throughout next I (next i s) is

theorem Throughout.start {I : σ → Prop} (h : Throughout next I s is) : I s := by
  cases is with
  | nil => exact h
  | cons => exact h.1

theorem Throughout.of_forall {I : σ → Prop} (h : ∀ s, I s) (s : σ) (is : List ι) : Throughout next I s is := by
  induction is generalizing s with
  | nil => exact h s
  | cons i is ih => exact ⟨h s,ih _⟩

theorem Along.throughout {I J : σ → Prop} (step : ∀ s i, I s → P s i → I (next i s)) (implies : ∀ s, I s → J s)
    (hs : I s) (h : Along next P s is) : Throughout next J s is := by
  induction is generalizing s with
  | nil => exact implies s hs
  | cons i is ih => exact ⟨implies s hs,ih (step s i hs h.1) h.2⟩

section
variable {J : σ → Prop} {R : σ → ι → Prop}

theorem Along.iff_of (step : ∀ s i, J s → Q s i → (P s i ↔ R s i))
    (inv : ∀ s i, J s → Q s i → P s i → J (next i s)) (hs : J s)
    (h : Along next Q s is) : Along next P s is ↔ Along next R s is := by
  induction is generalizing s with
  | nil => exact Iff.rfl
  | cons i is ih =>
    have here := step s i hs h.1
    constructor
    · rintro ⟨hp,rest⟩
      exact ⟨here.mp hp,(ih (inv s i hs h.1 hp) h.2).mp rest⟩
    · rintro ⟨hr,rest⟩
      exact ⟨here.mpr hr,(ih (inv s i hs h.1 (here.mpr hr)) h.2).mpr rest⟩

theorem Along.weaken (step : ∀ s i, J s → Q s i → R s i) (inv : ∀ s i, J s → Q s i → J (next i s))
    (hs : J s) (h : Along next Q s is) : Along next R s is := by
  induction is generalizing s with
  | nil => trivial
  | cons i is ih => exact ⟨step s i hs h.1,ih (inv s i hs h.1) h.2⟩

theorem throughout_iff_along_of {I : σ → Prop} (inv : ∀ s i, J s → Q s i → J (next i s))
    (step : ∀ s i, J s → Q s i → I s → (P s i ↔ I (next i s))) (hJ : J s)
    (h : Along next Q s is) (hs : I s) : Throughout next I s is ↔ Along next P s is := by
  induction is generalizing s with
  | nil => simp [Throughout,Along,hs]
  | cons i is ih =>
    have here := step s i hJ h.1 hs
    have later := inv s i hJ h.1
    constructor
    · rintro ⟨-,rest⟩
      exact ⟨here.mpr rest.start,(ih later h.2 rest.start).mp rest⟩
    · rintro ⟨hp,rest⟩
      exact ⟨hs,(ih later h.2 (here.mp hp)).mpr rest⟩

end

theorem throughout_iff_along {I : σ → Prop} (step : ∀ s i, I s → (P s i ↔ I (next i s))) (hs : I s) :
    Throughout next I s is ↔ Along next P s is :=
  throughout_iff_along_of (J := fun _ => True) (Q := fun _ _ => True) (fun _ _ _ _ => trivial)
    (fun s i _ _ => step s i) trivial (Along.of_forall (fun _ _ => trivial) s) hs

theorem raised_iff_not_along {I F : σ → Prop} (inv : ∀ s i, I s → Q s i → I (next i s))
    (step : ∀ s i, I s → Q s i → (F (next i s) ↔ F s ∨ ¬ P s i))
    (hs : I s) (h : Along next Q s is) : F (runFrom next s is) ↔ F s ∨ ¬ Along next P s is := by
  induction is generalizing s with
  | nil => simp [runFrom,Along]
  | cons i is ih =>
    rw [runFrom,ih (inv s i hs h.1) h.2,step s i hs h.1,Along]
    tauto

theorem runFrom_iff_along {I C : σ → Prop} (inv : ∀ s i, I s → I (next i s))
    (step : ∀ s i, I s → (C (next i s) ↔ C s ∧ P s i)) (hs : I s) (is : List ι) :
    C (runFrom next s is) ↔ C s ∧ Along next P s is := by
  induction is generalizing s with
  | nil => exact (and_iff_left trivial).symm
  | cons i is ih =>
    rw [runFrom,ih (inv s i hs),step s i hs,Along]
    exact and_assoc

theorem runFrom_related {R : σ → σ → Prop} (refl : ∀ s, R s s)
    (trans : ∀ a b c, R a b → R b c → R a c) (step : ∀ s i, R s (next i s))
    (s : σ) (is : List ι) : R s (runFrom next s is) := by
  induction is generalizing s with
  | nil => exact refl s
  | cons i is ih => exact trans _ _ _ (step s i) (ih (next i s))

end FlowFabric.Foundation
