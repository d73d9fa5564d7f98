import Mathlib.Data.Finset.Card
import Mathlib.Data.String.Basic

/-! Resume conditions: the matcher list of a plain condition and the satisfier
tokens of a composite one. -/
namespace FlowFabric

inductive SignalMatcher where
  | byName (name : String)
  | wildcard

inductive CountKind where
  | distinctWaitpoints | distinctSignals | distinctSources
  deriving DecidableEq

/-- A node of the stored tree. Its path is the suffix of the tokens it leaves. -/
inductive Node where
  | single (path waitpointKey : String) (matcher : SignalMatcher)
  | count (path : String) (n : Nat) (countKind : CountKind) (matcher : Option SignalMatcher) (waitpoints : List String)
  | allOf (path : String) (members : List Node)
  | neverBySignal (path : String)

def Node.path : Node → String
  | .single path _ _ | .count path _ _ _ _ | .allOf path _ | .neverBySignal path => path

inductive MatchMode where
  | any | all | count | composite

structure MatcherSlot where
  name : String
  satisfied : Bool := false
  signalId : String := ""

/-- A condition, in memory or as the wp_condition hash. The matcher total is the
length of the list. A hash that was only ever closed has nothing else. -/
structure Condition where
  composite : Bool := false
  tree : Option Node := none
  matchMode : MatchMode := .any
  minimumSignalCount : Option Int := some 1
  satisfiedCount : Nat := 0
  matchers : List MatcherSlot := []
  closed : Bool := false

/-- The decoded resume condition document, as far as the scripts look into it. -/
inductive ResumeSpec where
  | malformed
  | composite (version : Option Int) (tree : Option Node)
  | signalSet (requiredSignalNames : List String) (matchMode : MatchMode) (minimumSignalCount : Int)

structure Signal where
  (signalId signalName sourceType sourceIdentity : String)
  deriving DecidableEq

inductive SignalEffect where
  | appendedToWaitpoint | appendedToWaitpointDuplicate | signalIgnoredNotInCondition
  | signalIgnoredMatcherFailed | resumeConditionSatisfied | noOp | bufferedForPendingWaitpoint
  deriving DecidableEq

def SignalEffect.text : SignalEffect → String
  | .appendedToWaitpoint => "appended_to_waitpoint"
  | .appendedToWaitpointDuplicate => "appended_to_waitpoint_duplicate"
  | .signalIgnoredNotInCondition => "signal_ignored_not_in_condition"
  | .signalIgnoredMatcherFailed => "signal_ignored_matcher_failed"
  | .resumeConditionSatisfied => "resume_condition_satisfied"
  | .noOp => "no_op"
  | .bufferedForPendingWaitpoint => "buffered_for_pending_waitpoint"

/-- A condition table from its document; nothing when decoding raises. An unknown
composite version has neither a tree nor a minimum. -/
def initializeCondition : ResumeSpec → Option Condition
  | .malformed => none
  | .composite version tree =>
    if version = none ∨ version = some 1 then
      some { composite := true, tree, matchMode := .composite }
    else some { composite := true, matchMode := .composite, minimumSignalCount := none }
  | .signalSet names mode minimum =>
    -- no required name stands for one wildcard matcher
    let matchers := if names.isEmpty then [{ name := "" }] else names.map fun name => { name }
    some { matchMode := mode, minimumSignalCount := some minimum, matchers }

/-- Writing a condition over whatever the hash holds. A plain condition does not
touch the composite marker and the tree. -/
def writeConditionHash (old : Option Condition) (cond : Condition) : Condition :=
  let hash := old.getD {}
  if cond.composite then
    { hash with composite := true, tree := cond.tree, matchMode := .composite,
                minimumSignalCount := some 1, satisfiedCount := 0, matchers := [],closed := cond.closed }
  else
    { hash with matchMode := cond.matchMode, minimumSignalCount := cond.minimumSignalCount,
                satisfiedCount := cond.satisfiedCount, matchers := cond.matchers,closed := cond.closed }

/-- The first unsatisfied matcher that takes the signal, marked; nothing when none does. -/
def fillMatcher (signalName signalId : String) : List MatcherSlot → Option (List MatcherSlot)
  | [] => none
  | m :: ms =>
    if m.satisfied = false ∧ (m.name = "" ∨ m.name = signalName) then
      some ({ m with satisfied := true, signalId } :: ms)
    else (fillMatcher signalName signalId ms).map (m :: ·)

def evaluateSignalAgainstCondition (cond : Condition) (signalName signalId : String) : Condition :=
  match fillMatcher signalName signalId cond.matchers with
  | some matchers => { cond with matchers, satisfiedCount := cond.satisfiedCount + 1 }
  | none => cond

/-- Whether the count reached suffices; nothing when the minimum is missing. -/
def isConditionSatisfied (cond : Condition) : Option Bool :=
  match cond.matchMode with
  | .all => some (decide (cond.matchers.length ≤ cond.satisfiedCount))
  | _ => cond.minimumSignalCount.map fun minimum => decide (minimum ≤ (cond.satisfiedCount : Int))

def matcherAccepts : Option SignalMatcher → String → Bool
  | none, _ => true
  | some .wildcard, _ => true
  | some (.byName name), signalName => name == signalName

def countSatisfierToken (kind : CountKind) (signal : Signal) (waitpointId : String) : String :=
  match kind with
  | .distinctSignals => "sig:" ++ signal.signalId
  | .distinctSources => "src:" ++ signal.sourceType ++ ":" ++ signal.sourceIdentity
  | .distinctWaitpoints => "wp:" ++ waitpointId

def CountKind.tokenPrefix : CountKind → String
  | .distinctWaitpoints => "wp:"
  | .distinctSignals => "sig:"
  | .distinctSources => "src:"

/-- All tokens of the kind count, whichever node they were left for. -/
def countNodeSatisfiers (kind : CountKind) (tokens : Finset String) : Nat :=
  (tokens.filter fun token => kind.tokenPrefix.toList.isPrefixOf token.toList).card

/-- The token that records a member of a conjunction as satisfied. -/
def Node.memberToken : Node → String
  | .single path _ _ => "leaf:" ++ path
  | node => "node:" ++ node.path

/-- One node against the tokens. A conjunction looks at the tokens of its members
and not at the members themselves. -/
def compositeEvaluateNode (tokens : Finset String) : Node → Bool
  | .single path _ _ => decide ("leaf:" ++ path ∈ tokens)
  | .allOf _ members => members.all fun child => decide (child.memberToken ∈ tokens)
  | .count _ n kind _ _ => decide ("timeout:*" ∈ tokens) || decide (n ≤ countNodeSatisfiers kind tokens)
  | .neverBySignal _ => false

mutual
/-- The leaves a signal on the waitpoint may contribute to, depth first. -/
def compositeCollectCandidateNodes (waitpointKey : String) : Node → List Node
  | .single path key matcher => if key = waitpointKey then [.single path key matcher] else []
  | .count path n kind matcher waitpoints =>
    if waitpointKey ∈ waitpoints then [.count path n kind matcher waitpoints] else []
  | .allOf _ members => collectMembers waitpointKey members
  | .neverBySignal _ => []

def collectMembers (waitpointKey : String) : List Node → List Node
  | [] => []
  | child :: rest => compositeCollectCandidateNodes waitpointKey child ++ collectMembers waitpointKey rest
end

/-- The fields of the member map: for each waitpoint the leaves it may contribute to. A field
that is there already is written again. -/
def seedCompositeMemberMap (tree : Node) (waitpointKeys : List String)
    (memberMap : List (String × String)) : List (String × String) :=
  let fields := waitpointKeys.flatMap fun key =>
    (compositeCollectCandidateNodes key tree).map fun node => ("wp:" ++ key ++ ":" ++ node.path,node.path)
  fields.foldl (fun hash field => hash.filter (fun old => decide (old.1 ≠ field.1)) ++ [field]) memberMap

/-- The token an accepting candidate leaves; nothing when its matcher rejects the signal. -/
def candidateToken (signal : Signal) (waitpointId : String) : Node → Option String
  | .single path _ matcher =>
    if matcherAccepts (some matcher) signal.signalName then some ("leaf:" ++ path) else none
  | .count _ _ kind matcher _ =>
    if matcherAccepts matcher signal.signalName then some (countSatisfierToken kind signal waitpointId)
    else none
  | _ => none

mutual
/-- Record the satisfied members of a conjunction. The walk goes down only into a
member that already evaluates to true. -/
def propagate (tokens : Finset String) : Node → Finset String
  | .allOf _ members => propagateMembers tokens members
  | _ => tokens

def propagateMembers (tokens : Finset String) : List Node → Finset String
  | [] => tokens
  | .single _ _ _ :: rest => propagateMembers tokens rest
  | child :: rest =>
    if compositeEvaluateNode tokens child then
      propagateMembers (propagate (insert ("node:" ++ child.path) tokens) child) rest
    else propagateMembers tokens rest
end

/-- Deliver a signal to a composite condition: the effect and the tokens left. Only
the effect that says so resumes the execution. -/
def compositeDeliverSignal (tree : Option Node) (tokens : Finset String)
    (waitpointId waitpointKey : String) (signal : Signal) : SignalEffect × Finset String :=
  match tree with
  | none => (.signalIgnoredNotInCondition, tokens)
  | some tree =>
    let candidates := compositeCollectCandidateNodes waitpointKey tree
    let left := candidates.filterMap (candidateToken signal waitpointId)
    if candidates.isEmpty then (.signalIgnoredNotInCondition, tokens)
    else if left.isEmpty then (.signalIgnoredMatcherFailed, tokens)
    else if left.all fun token => decide (token ∈ tokens) then (.appendedToWaitpointDuplicate, tokens)
    else
      let tokens := propagate (left.toFinset ∪ tokens) tree
      if compositeEvaluateNode tokens tree then (.resumeConditionSatisfied, tokens)
      else (.appendedToWaitpoint, tokens)

/-- The signals behind the tokens. A signal that leaves a new token is one of them. -/
def SignalEffect.satisfiers (effect : SignalEffect) (signalId : String) (signalIds : Finset String) : Finset String :=
  match effect with
  | .appendedToWaitpoint | .resumeConditionSatisfied => insert signalId signalIds
  | _ => signalIds

end FlowFabric
