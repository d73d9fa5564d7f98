import FlowFabric.Flow
import FlowFabric.Foundation.Run
import FlowFabric.Scheduling
import FlowFabric.Signal
import FlowFabric.Terminate

/-! The execution as a machine: every script is an operation, a run is a list of calls,
and one step of it has one of finitely many effects. -/
namespace FlowFabric
open Foundation

inductive Op where
  | create (a : CreateArgs)
  | issueClaimGrant (a : GrantArgs)
  | claim (a : ClaimArgs)
  | claimResumed (a : ClaimResumedArgs)
  | issueGrantAndClaim (a : ClaimArgs)
  | issueReclaimGrant (a : GrantArgs)
  | reclaim (a : ReclaimArgs)
  | renewLease (a : RenewArgs)
  | markLeaseExpiredIfDue
  | revokeLease (a : RevokeArgs)
  | updateProgress (a : ProgressArgs)
  | appendFrame (a : AppendArgs)
  | complete (a : CompleteArgs)
  | fail (a : FailArgs)
  | delay (a : DelayArgs)
  | moveToWaitingChildren (a : MoveArgs)
  | cancel (a : CancelArgs)
  | expire (a : ExpireArgs)
  | changePriority (a : PriorityArgs)
  | promoteDelayed (a : PromoteArgs)
  | block (a : BlockArgs)
  | unblock (a : UnblockArgs)
  | suspend (a : SuspendArgs)
  | resume (a : ResumeArgs)
  | createPendingWaitpoint (a : PendingArgs)
  | expireSuspension (a : ExpireSuspensionArgs)
  | closeWaitpoint (waitpointId : String)
  | rotateSecret (a : RotateArgs)
  | deliverSignal (a : SignalArgs)
  | bufferSignal (a : SignalArgs)
  | addToFlow (a : JoinArgs)
  | setEdgeGroupPolicy (a : PolicyArgs)
  | applyDependency (a : ApplyArgs)
  | resolveDependency (a : ResolveArgs)
  | promoteBlocked
  | replay (a : ReplayArgs)

def Op.outcome (now : Int) (s : Store) : Op → Outcome
  | .create a => createExecution a now s
  | .issueClaimGrant a => FlowFabric.issueClaimGrant a now s
  | .claim a => claimExecution a now s
  | .claimResumed a => claimResumedExecution a now s
  | .issueGrantAndClaim a => FlowFabric.issueGrantAndClaim a now s
  | .issueReclaimGrant a => FlowFabric.issueReclaimGrant a now s
  | .reclaim a => reclaimExecution a now s
  | .renewLease a => FlowFabric.renewLease a now s
  | .markLeaseExpiredIfDue => FlowFabric.markLeaseExpiredIfDue now s
  | .revokeLease a => FlowFabric.revokeLease a now s
  | .updateProgress a => FlowFabric.updateProgress a now s
  | .appendFrame a => FlowFabric.appendFrame a now s
  | .complete a => completeExecution a now s
  | .fail a => failExecution a now s
  | .delay a => delayExecution a now s
  | .moveToWaitingChildren a => FlowFabric.moveToWaitingChildren a now s
  | .cancel a => cancelExecution a now s
  | .expire a => expireExecution a now s
  | .changePriority a => FlowFabric.changePriority a s
  | .promoteDelayed a => FlowFabric.promoteDelayed a s
  | .block a => blockExecutionForAdmission a s
  | .unblock a => unblockExecution a s
  | .suspend a => suspendExecution a now s
  | .resume a => resumeExecution a now s
  | .createPendingWaitpoint a => FlowFabric.createPendingWaitpoint a now s
  | .expireSuspension a => FlowFabric.expireSuspension a now s
  | .closeWaitpoint waitpointId => closeWaitpointScript waitpointId s
  | .rotateSecret a => rotateWaitpointHmacSecret a now s
  | .deliverSignal a => FlowFabric.deliverSignal a now s
  | .bufferSignal a => bufferSignalForPendingWaitpoint a now s
  | .addToFlow a => addExecutionToFlow a s
  | .setEdgeGroupPolicy a => FlowFabric.setEdgeGroupPolicy a s
  | .applyDependency a => applyDependencyToChild a s
  | .resolveDependency a => FlowFabric.resolveDependency a s
  | .promoteBlocked => promoteBlockedToEligible s
  | .replay a => replayExecution a s

structure Call where
  now : Int
  op : Op

def step (i : Call) (s : Store) : Reply × Store := commit s (i.op.outcome i.now s)

/-- The store after one call. -/
def next (i : Call) (s : Store) : Store := (step i s).2

/-- The store after a list of calls on an execution that does not exist yet. -/
def run (calls : List Call) : Store := runFrom next {} calls

/-! The calls of one client with one worker, for concrete runs. -/
namespace Client

variable (now : Int)

def create : Call := ⟨now,.create { executionId := "e", priority := .number 5, schedulingZset := .eligible }⟩

def grant : Call :=
  ⟨now,.issueClaimGrant
    { executionId := "e", workerId := "w", workerInstanceId := "wi", grantTtlMs := .number 1000 }⟩

def claim (leaseId attemptId : String) : Call :=
  ⟨now,.claim
    { executionId := "e", workerId := "w", workerInstanceId := "wi", leaseId, attemptId
      leaseTtlMs := .number 1000, keys := { workerInstanceId := "wi" } }⟩

def reclaimGrant : Call :=
  ⟨now,.issueReclaimGrant
    { executionId := "e", workerId := "w", workerInstanceId := "wi", grantTtlMs := .number 1000 }⟩

def reclaim (leaseId attemptId : String) : Call :=
  ⟨now,.reclaim
    { executionId := "e", workerId := "w", workerInstanceId := "wi", leaseId, attemptId
      leaseTtlMs := .number 1000, keys := { workerInstanceId := "wi" } }⟩

def complete (fence : Fence) (attemptIndex : Nat := 0) : Call :=
  ⟨now,.complete { executionId := "e", fence, keys := { attemptIndex, workerInstanceId := "wi" } }⟩

def delay (fence : Fence) : Call :=
  ⟨now,.delay { executionId := "e", fence, delayUntil := now + 1000, keys := { workerInstanceId := "wi" } }⟩

def cancel : Call := ⟨now,.cancel { executionId := "e" }⟩

def secret : Call := ⟨now,.rotateSecret ⟨"k","00ff",.number 0⟩⟩

def suspend (fence : Fence) (suspensionId waitpointId waitpointKey : String) : Call :=
  ⟨now,.suspend
    { executionId := "e", attemptIndex := "0", fence, suspensionId, waitpointId, waitpointKey
      resumeCondition := .signalSet [] .any 1, keys := { workerInstanceId := "wi" } }⟩

def resume (waitpointId : String) : Call := ⟨now,.resume { executionId := "e", keys := { waitpointId } }⟩

def claimResumed (leaseId : String) : Call :=
  ⟨now,.claimResumed
    { executionId := "e", workerId := "w", workerInstanceId := "wi", leaseId, leaseTtlMs := .number 1000
      keys := { workerInstanceId := "wi" } }⟩

def signalOn (waitpointId waitpointToken signalId : String) : SignalArgs :=
  { executionId := "e", waitpointId, waitpointToken
    signal := { signalId, signalName := "go", sourceType := "user", sourceIdentity := "u" } }

end Client
end FlowFabric
