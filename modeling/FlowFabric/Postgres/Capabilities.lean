import FlowFabric.Postgres.Requests

/-! The capabilities that a policy asks for, from the creation of the execution to its claims. -/
namespace FlowFabric.Postgres
open Foundation

/-- The claims of a worker with these capabilities. The last two have none to present. -/
def Op.claimsWith (capabilities : List String) : Op → Prop
  | .claim p => p.capabilities = capabilities
  | .claimForWorker _ _ presented _ => presented = capabilities
  | .claimExecution _ | .issueGrantAndClaim .. => True
  | _ => False

/-- A call of such a worker that is given the execution has what the policy asks for. -/
def Rows.Enforces (required : List String) (r : Rows) : Prop :=
  ∀ (c : Call) (capabilities : List String) (done : Committed), c.op.claimsWith capabilities →
    step c r = .ok done → done.reply ≠ .nothing → required ⊆ capabilities

variable {r : Rows} {now : Int}

theorem runFrom_requiredCapabilities (qs : List Arrival) :
    ∀ e r, (runFrom after {} qs).rowsOf e = some r → r.core.requiredCapabilities = [] := by
  refine rows_invariant (fun _ _ => rfl) ?_ (by intro e r h; cases h) qs
  intro c r h
  exact next_of_writes h fun _ written => written.kept.2.1.trans h

namespace Client

/-- A submitted execution is claimed once it was cancelled and replayed. -/
def replaying : List Arrival := [⟨.call 1 (.cancel ""),2⟩,⟨.replayExecution 1,3⟩]

end Client

/-- The column stays empty, so that only an execution that asks for nothing is safe. -/
theorem capabilities_enforced_iff (required : List String) : (∀ qs e r, (runFrom after {} qs).rowsOf e = some r →
      ∀ capabilities, capsMatch r.core.requiredCapabilities capabilities = true) ∧
    ((∀ before e a now later r, (runFrom after {} before).rowsOf e = none → a.requiredCapabilities = required →
        (runFrom after {} (before ++ ⟨.createExecution e a,now⟩ :: later)).rowsOf e = some r → r.Enforces required) ↔
      required = []) := by
  refine ⟨?_,?_,?_⟩
  · intro qs e r h capabilities
    rw [runFrom_requiredCapabilities qs e r h]
    rfl
  · intro h
    have enforces := h [] 1 { requiredCapabilities := required } 1 Client.replaying _ rfl rfl rfl
    exact List.subset_nil.mp (enforces (Client.claims Client.alice 4) [] _ rfl rfl (by intro h; cases h))
  · rintro rfl
    intro _ _ _ _ _ _ _ _ _ c capabilities done _ _ _
    exact List.nil_subset capabilities

theorem Client.capabilities_dropped :
    ∃ r, (runFrom after {} (⟨.createExecution 1 { requiredCapabilities := ["gpu"] },1⟩ :: replaying)).rowsOf 1 =
      some r ∧ ¬ r.Enforces ["gpu"] := by
  refine ⟨_,rfl,fun h => ?_⟩
  have gpu := h (claims alice 4) [] _ rfl rfl (by intro h; cases h)
  simp at gpu

end FlowFabric.Postgres
