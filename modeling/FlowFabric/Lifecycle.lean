import Mathlib.Tactic.Simps.Basic
import FlowFabric.State

/-! The life of an execution as its users see it: who may run it, whether it is over
and what it is called, without keys, leases or indexes. -/
namespace FlowFabric

def PublicState.isTerminal : PublicState → Bool
  | .completed | .failed | .cancelled | .expired | .skipped => true
  | .waiting | .delayed | .rateLimited | .waitingChildren | .active | .suspended | .resumable => false

structure Life where
  phase : LifecyclePhase
  eligibility : EligibilityState
  outcome : TerminalOutcome
  label : PublicState
  epoch : Nat
  finishedAt : Option Int

namespace Life

/-- What happens to a life. Bookkeeping that nobody sees is a touch. -/
inductive Event where
  | touch
  | lease
  | lapse
  | park (e : EligibilityState)
  | suspend
  | escalate
  | resume (e : EligibilityState)
  | reschedule (e : EligibilityState)
  | admission (e : EligibilityState)
  | finish (o : TerminalOutcome)
  | replay (e : EligibilityState)
  deriving DecidableEq

/-- Waiting in the runnable phase under the label of its eligibility. -/
def wait (l : Life) (e : EligibilityState) : Life :=
  { l with
    phase := .runnable, eligibility := e, outcome := .none, label := derivePublicState .runnable e .none }

/-- Waiting for admission. The label does not look at the reason. -/
def refuse (l : Life) (e : EligibilityState) : Life := { l.wait e with label := .rateLimited }

def work (l : Life) : Life :=
  { l with phase := .active, eligibility := .notApplicable, outcome := .none, label := .active }

def pause (l : Life) : Life :=
  { l with phase := .suspended, eligibility := .notApplicable, outcome := .none, label := .suspended }

def finished (l : Life) (o : TerminalOutcome) (at_ : Int) : Life :=
  { l with
    phase := .terminal, eligibility := .notApplicable, outcome := o
    label := derivePublicState .terminal .notApplicable o, finishedAt := some at_ }

def born (e : EligibilityState) : Life := ⟨.runnable,e,.none,derivePublicState .runnable e .none,0,none⟩

/-- The allowed moves. Only a lease opens a new epoch and only a replay leaves the end. -/
inductive Step : Event → Life → Life → Prop
  | touch (l) : Step .touch l l
  | lease (l : Life) (h : l.phase = .runnable ∨ l.phase = .active) : Step .lease l { l.work with epoch := l.epoch + 1 }
  | lapse (l : Life) (outcome) (h : l.phase = .active) (ho : outcome = .none ∨ outcome = l.outcome) :
      Step .lapse l { l with outcome, label := .active }
  | park (l : Life) (e) (h : l.phase = .active) : Step (.park e) l (l.wait e)
  | suspend (l : Life) (h : l.phase = .active) : Step .suspend l l.pause
  | escalate (l : Life) (h : l.phase = .suspended) : Step .escalate l l.pause
  | resume (l : Life) (e) (h : l.phase = .suspended) : Step (.resume e) l (l.wait e)
  | reschedule (l : Life) (e) (h : l.phase = .runnable) : Step (.reschedule e) l (l.wait e)
  | admission (l : Life) (e) (h : l.phase = .runnable) : Step (.admission e) l (l.refuse e)
  | finish (l : Life) (o at_) (h : l.phase ≠ .terminal ∨ l.outcome = .none)
      (ho : o ≠ .none) : Step (.finish o) l (l.finished o at_)
  | replay (l : Life) (e) (h : l.phase = .terminal) : Step (.replay e) l { l.wait e with finishedAt := none }

variable {ev : Event} {l l' : Life}

def Sound (l : Life) : Prop := l.outcome ≠ .none ↔ l.phase = .terminal

/-- The label is the derived one. -/
def Consistent (l : Life) : Prop := l.label = derivePublicState l.phase l.eligibility l.outcome

/-- A label of the end is given to an execution that has ended. -/
def Honest (l : Life) : Prop := l.label.isTerminal = true → l.phase = .terminal

theorem Step.sound (h : Step ev l l') (hs : Sound l) : Sound l' := by
  cases h with
  | touch => exact hs
  | lapse _ o h ho =>
    rcases ho with rfl | rfl
    · simp [Sound,h]
    · exact hs
  | finish _ o at_ h ho => simp [Sound,finished,ho]
  | _ => simp [Sound,work,wait,refuse,pause]

theorem Step.consistent (h : Step ev l l') (hc : Consistent l)
    (ha : ∀ e, ev = .admission e → e = .blockedByBudget ∨ e = .blockedByQuota) : Consistent l' := by
  cases h with
  | touch => exact hc
  | lapse _ o h => simp [Consistent,derivePublicState,h]
  | admission _ e =>
    rcases ha e rfl with rfl | rfl <;> simp [Consistent,refuse,wait,derivePublicState]
  | _ => simp [Consistent,work,wait,pause,finished,derivePublicState]

theorem Step.honest (h : Step ev l l') (hh : Honest l) : Honest l' := by
  cases h with
  | touch => exact hh
  | park _ e | resume _ e | reschedule _ e | replay _ e =>
    intro h
    cases e <;> cases h
  | finish => exact fun _ => rfl
  | _ =>
    intro h
    cases h

theorem Step.epoch (h : Step ev l l') : l'.epoch = if ev = .lease then l.epoch + 1 else l.epoch := by
  cases h <;> simp [wait,refuse,pause,finished]

theorem Step.epoch_le (h : Step ev l l') : l.epoch ≤ l'.epoch := by
  rw [h.epoch]
  split <;> omega

def SameEnd (l l' : Life) : Prop :=
  l'.phase = l.phase ∧ l'.outcome = l.outcome ∧ l'.label = l.label ∧ l'.finishedAt = l.finishedAt

theorem SameEnd.refl (l : Life) : SameEnd l l := ⟨rfl,rfl,rfl,rfl⟩

theorem SameEnd.trans {l₁ l₂ l₃ : Life} (h : SameEnd l₁ l₂) (h' : SameEnd l₂ l₃) : SameEnd l₁ l₃ :=
  ⟨h'.1.trans h.1,h'.2.1.trans h.2.1,h'.2.2.1.trans h.2.2.1,h'.2.2.2.trans h.2.2.2⟩

theorem Step.absorbing (h : Step ev l l') (hs : Sound l) (ht : l.phase = .terminal)
    (hr : ∀ e, ev ≠ .replay e) : SameEnd l l' := by
  cases h with
  | touch => exact .refl _
  | finish _ o at_ h =>
    rcases h with h | h
    · exact (h ht).elim
    · exact (hs.mpr ht h).elim
  | replay _ e => exact (hr e rfl).elim
  | lease _ h => rcases h with h | h <;> simp [ht] at h
  | _ => simp_all

end Life
end FlowFabric
