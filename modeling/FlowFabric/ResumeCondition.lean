import FlowFabric.Suspension

/-! Resume conditions on the client's side: what a request may ask for, how it is handed to the
scripts, and what it means when it is evaluated from scratch over the signals so far. -/
namespace FlowFabric
open Foundation

/-- The bodies of a composite condition are constructors of their own. -/
inductive ResumeCondition where
  | single (waitpointKey : String) (matcher : SignalMatcher)
  | operatorOnly
  | timeoutOnly
  | allOf (members : List ResumeCondition)
  | count (n : Nat) (countKind : CountKind) (matcher : Option SignalMatcher) (waitpoints : List String)

def ResumeCondition.isComposite : ResumeCondition → Bool
  | .allOf _ | .count .. => true
  | _ => false

def childPath (path : String) (i : Nat) : String :=
  if path.isEmpty then "members[" ++ toString i ++ "]" else path ++ ".members[" ++ toString i ++ "]"

def maxCompositeDepth : Nat := 4

def displayPath (path : String) : String := if path.isEmpty then "<root>" else path

mutual
/-- The structure of a composite body. Leaves are not looked at. -/
def validateBody (depth : Nat) (path : String) : ResumeCondition → Except String Unit
  | .allOf members => do
    ensure (depth ≤ maxCompositeDepth) ("depth " ++ toString depth ++ " exceeds cap " ++
      toString maxCompositeDepth ++ " at path " ++ displayPath path)
    ensure (members.isEmpty = false) ("allof_empty_members at path " ++ displayPath path)
    validateMembers depth path 0 members
  | .count n countKind _ waitpoints => do
    ensure (depth ≤ maxCompositeDepth) ("depth " ++ toString depth ++ " exceeds cap " ++
      toString maxCompositeDepth ++ " at path " ++ displayPath path)
    ensure (n ≠ 0) ("count_n_zero at path " ++ displayPath path)
    ensure (waitpoints.isEmpty = false) ("count_waitpoints_empty at path " ++ displayPath path)
    ensure (countKind = .distinctWaitpoints → n ≤ waitpoints.length)
      ("count_exceeds_waitpoint_set: n=" ++ toString n ++ " > waitpoints.len()=" ++
        toString waitpoints.length ++ " at path " ++ displayPath path)
  | .single _ _ | .operatorOnly | .timeoutOnly => .ok ()

def validateMembers (depth : Nat) (path : String) (i : Nat) : List ResumeCondition → Except String Unit
  | [] => .ok ()
  | m :: rest => do
    validateBody (depth + 1) (childPath path i) m
    validateMembers depth path (i + 1) rest
end

def ResumeCondition.validateComposite (condition : ResumeCondition) : Except String Unit := validateBody 1 "" condition

mutual
def ResumeCondition.waitpointKeys : ResumeCondition → List String
  | .single waitpointKey _ => [waitpointKey]
  | .operatorOnly | .timeoutOnly => []
  | .allOf members => memberKeys members
  | .count _ _ _ waitpoints => waitpoints

def memberKeys : List ResumeCondition → List String
  | [] => []
  | m :: rest => m.waitpointKeys ++ memberKeys rest
end

/-- Each key once, where it occurs first. -/
def ResumeCondition.referencedWaitpointKeys (condition : ResumeCondition) : List String :=
  condition.waitpointKeys.reverse.dedup.reverse

mutual
/-- The tree the scripts walk. What no signal can satisfy stays in it as a leaf of its own. -/
def compositeNodeToJson (path : String) : ResumeCondition → Node
  | .single waitpointKey matcher => .single path waitpointKey matcher
  | .operatorOnly | .timeoutOnly => .neverBySignal path
  | .allOf members => .allOf path (compositeMembersToJson path 0 members)
  | .count n countKind matcher waitpoints => .count path n countKind matcher waitpoints

def compositeMembersToJson (path : String) (i : Nat) : List ResumeCondition → List Node
  | [] => []
  | m :: rest => compositeNodeToJson (childPath path i) m :: compositeMembersToJson path (i + 1) rest
end

def operatorSentinel : String := "__operator_only__"

def timeoutSentinel : String := "__timeout_only__"

/-- The document of a condition. The waitpoint key of a single one is not in it. -/
def resumeConditionToJson : ResumeCondition → ResumeSpec
  | .single _ (.byName name) => .signalSet [name] .any 1
  | .single _ .wildcard => .signalSet [] .any 1
  | .operatorOnly => .signalSet [operatorSentinel] .all 1
  | .timeoutOnly => .signalSet [timeoutSentinel] .all 1
  | condition => .composite (some 1) (some (compositeNodeToJson "" condition))

abbrev SignalsByWaitpoint := String → List Signal

def matcherMatches : SignalMatcher → Signal → Bool
  | .byName name, signal => signal.signalName == name
  | .wildcard, _ => true

/-- The signals a count looks at, with the key each came in on. -/
def countCandidates (byWp : SignalsByWaitpoint) (matcher : Option SignalMatcher) (waitpoints : List String) :
    List (String × Signal) :=
  waitpoints.flatMap fun key => ((byWp key).filter fun signal => matcher.all (matcherMatches · signal)).map (key,·)

def distinctCount (countKind : CountKind) (candidates : List (String × Signal)) : Nat :=
  match countKind with
  | .distinctWaitpoints => (candidates.map (·.1)).toFinset.card
  | .distinctSignals => (candidates.map (·.2.signalId)).toFinset.card
  | .distinctSources => (candidates.map fun c => (c.2.sourceType,c.2.sourceIdentity)).toFinset.card

mutual
def evaluate (byWp : SignalsByWaitpoint) : ResumeCondition → Bool
  | .single waitpointKey matcher => (byWp waitpointKey).any (matcherMatches matcher)
  | .operatorOnly | .timeoutOnly => false
  | .allOf members => !members.isEmpty && evaluateMembers byWp members
  | .count n countKind matcher waitpoints =>
    decide (n ≤ distinctCount countKind (countCandidates byWp matcher waitpoints))

def evaluateMembers (byWp : SignalsByWaitpoint) : List ResumeCondition → Bool
  | [] => true
  | m :: rest => evaluate byWp m && evaluateMembers byWp rest
end

/-- The waitpoints of a request. The first one is the primary one. -/
inductive WaitpointBinding where
  | fresh (waitpointId waitpointKey : String)
  | usePending (waitpointId : String)

def WaitpointBinding.key? : WaitpointBinding → Option String
  | .fresh _ key => some key
  | .usePending _ => none

/-- A suspend request as a client makes it, as far as its validation and its condition go. -/
structure SuspendRequest where
  suspensionId : String
  waitpoints : List WaitpointBinding
  resumeCondition : ResumeCondition
  timeoutAt : Option Int := none
  now : Int

def suspendClockSkewToleranceMs : Int := 600000

def validateExtras (i : Nat) : List WaitpointBinding → Except String Unit
  | [] => .ok ()
  | .fresh _ key :: rest => do
    ensure (key.isEmpty = false) ("additional_waitpoint_binding_empty_key at waitpoints[" ++ toString i ++ "]")
    validateExtras (i + 1) rest
  | .usePending _ :: _ => .error ("additional_waitpoint_binding_must_be_fresh at waitpoints[" ++ toString i ++ "]")

/-- The first element that is missing from the list makes it fail. -/
def requireAll (known : List String) (detail : String) : List String → Except String Unit
  | [] => .ok ()
  | key :: rest => do
    ensure (key ∈ known) (detail ++ key)
    requireAll known detail rest

variable (a : SuspendRequest)

/-- With several waitpoints their keys are exactly those of the condition. -/
def validateBindings : Except String Unit :=
  if a.waitpoints.length ≤ 1 then .ok ()
  else do
    validateExtras 1 a.waitpoints.tail
    let bindingKeys := a.waitpoints.filterMap (·.key?)
    let referenced := a.resumeCondition.referencedWaitpointKeys
    requireAll bindingKeys "referenced_waitpoint_key_missing_binding: " referenced
    requireAll referenced "extra_binding_not_referenced_by_condition: " bindingKeys

/-- The key of a single condition is that of the new primary waitpoint. -/
def primaryKeyMatches : Bool :=
  match a.waitpoints, a.resumeCondition with
  | .fresh _ key :: _, .single waitpointKey _ => decide (key = waitpointKey)
  | _, _ => true

def validateSuspendArgs : Except String Unit := do
  ensure (a.waitpoints.isEmpty = false) "waitpoints_empty"
  ensure (primaryKeyMatches a = true) "waitpoint_key_mismatch"
  validateBindings a
  ensure (a.resumeCondition matches .timeoutOnly → a.timeoutAt.isSome = true) "timeout_only_without_deadline"
  ensure (¬ a.resumeCondition matches .single _ (.byName ""))
    "resume_condition: empty signal name (use Wildcard instead)"
  ensure (a.timeoutAt.all fun due => decide (a.now ≤ due + suspendClockSkewToleranceMs)) "timeout_at_in_past"
  a.resumeCondition.validateComposite

def WaitpointBinding.fresh? : WaitpointBinding → Option (String × String)
  | .fresh id key => some (id,key)
  | .usePending _ => none

/-- The script arguments of a request. What the request leaves open is in the others. -/
def SuspendRequest.toArgs (r : SuspendRequest) (others : SuspendArgs) : SuspendArgs :=
  let a := { others with
    suspensionId := r.suspensionId, timeoutAt := r.timeoutAt, resumeCondition := resumeConditionToJson r.resumeCondition
    extras := r.waitpoints.tail.filterMap (·.fresh?) }
  match r.waitpoints with
  | .fresh id key :: _ => { a with waitpointId := id, waitpointKey := key, usePendingWaitpoint := false }
  | .usePending id :: _ => { a with waitpointId := id, waitpointKey := "", usePendingWaitpoint := true }
  | [] => a

def suspendImpl (r : SuspendRequest) (others : SuspendArgs) : Except String SuspendArgs := do
  validateSuspendArgs r
  return r.toArgs others

end FlowFabric
