import FlowFabric.Postgres.Database

/-! Suspending, delivering signals and closing waitpoints, with the table of waitpoints. -/
namespace FlowFabric.Postgres
open Foundation

/-- The key of a binding. A pending waitpoint keeps its own, and one that is missing has the empty key. -/
def bindingKey (waitpoints : Table String WaitpointRow) : WaitpointBinding → String
  | .fresh _ key => key
  | .usePending id => ((waitpoints.lookup id).map WaitpointRow.waitpointKey).getD ""

def bindingId : WaitpointBinding → String
  | .fresh id _ | .usePending id => id

/-- A row that is there already keeps its execution and its expiry. -/
def bindWaitpoint (e : Uuid) (key : String × String) (expiresAt : Option Int)
    (waitpoints : Table String WaitpointRow) (b : WaitpointBinding) : Table String WaitpointRow :=
  let token := hmacSign key.2 key.1 e (bindingId b)
  let waitpointKey := bindingKey waitpoints b
  waitpoints.upsert (bindingId b) ⟨e,key.1,token,waitpointKey,expiresAt⟩ fun row =>
    { row with tokenKid := key.1, token := token, waitpointKey := waitpointKey }

def bindWaitpoints (e : Uuid) (a : SuspendArgs) (db : Db) : Table String WaitpointRow :=
  match db.keystore.currentActiveKid with
  | some key => a.waitpoints.foldl (bindWaitpoint e key a.timeoutAt) db.waitpoints
  | none => db.waitpoints

def SuspendArgs.isCached (a : SuspendArgs) (db : Db) : Bool := a.idempotencyKey.any (· ∈ db.suspendDedup)

def suspendOn (e : Uuid) (h : Handle) (a : SuspendArgs) (now : Int) (db : Db) : Method :=
  if a.isCached db = true then .ok (.reply .cached,db)
  else do
    let rows ← demand (db.rowsOf e) (.notFound "attempt")
    let done ← suspend h a false (db.keystore.currentActiveKid.map Prod.fst) rows
    let stored := db.commitOn e now done
    return (.reply done.reply,
      { stored with
        waitpoints := bindWaitpoints e a db, suspendDedup := db.suspendDedup ++ a.idempotencyKey.toList })

/-- Neither the lease nor the state of the execution is looked at. The id is a new one. -/
def createWaitpoint (e : Uuid) (id waitpointKey : String) (expiresInMs : Nat) (now : Int) (db : Db) : Method := do
  let key ← demand db.keystore.currentActiveKid (.invalidInput "ff_waitpoint_hmac empty — seed a kid before create_waitpoint")
  ensure (db.waitpoints.lookup id = none) .transport
  let token := hmacSign key.2 key.1 e id
  return (.waitpoint id token,
    { db with waitpoints := db.waitpoints.insert id ⟨e,key.1,token,waitpointKey,some (saturatingAdd now expiresInMs)⟩ })

structure DeliverArgs where
  executionId : Uuid
  (waitpointId token : String)
  signal : Signal

/-- The waitpoint of a signal, once the token has been checked. -/
def authenticate (a : DeliverArgs) (db : Db) : Except EngineError WaitpointRow := do
  let row ← demand (db.waitpoints.lookup a.waitpointId) (.notFound "waitpoint")
  ensure (row.executionId = a.executionId) (.invalidInput "waitpoint belongs to a different execution")
  let secret ← demand (db.keystore.fetchKid row.tokenKid)
    (.invalidInput ("kid " ++ row.tokenKid ++ " missing from keystore"))
  hmacVerify secret row.tokenKid a.executionId a.waitpointId a.token
  ensure (a.token = row.token) (.invalidInput "waitpoint_token does not match minted token")
  return row

theorem authenticate_ok {a : DeliverArgs} {db : Db} {row : WaitpointRow} :
    authenticate a db = .ok row ↔ db.waitpoints.lookup a.waitpointId = some row ∧ row.executionId = a.executionId ∧
      ∃ secret, db.keystore.fetchKid row.tokenKid = some secret ∧
        hmacVerify secret row.tokenKid a.executionId a.waitpointId a.token = .ok () ∧ a.token = row.token := by
  simp only [authenticate,bind_ok,demand_ok,ensure_ok,pure_ok]
  constructor
  · rintro ⟨_,hl,_,he,secret,hs,_,hv,_,ht,rfl⟩
    exact ⟨hl,he,secret,hs,hv,ht⟩
  · rintro ⟨hl,he,secret,hs,hv,ht⟩
    exact ⟨row,hl,(),he,secret,hs,(),hv,(),ht,rfl⟩

theorem hmacVerify_hmacSign {secret kid id : String} {e : Uuid} :
    hmacVerify secret kid e id (hmacSign secret kid e id) = .ok () ↔ ':' ∉ kid.toList := by
  rw [← Digest.sha256.hmacVerify_hmacSign ,hmacVerify,hmacSign]
  cases Digest.sha256.hmacVerify secret kid (tokenMessage e id) _ <;> simp [Except.mapError]

theorem kid_of_hmacSign {secret secret' kid kid' id : String} {e e' : Uuid}
    (h : hmacSign secret kid e id = hmacSign secret' kid' e' id) : kid = kid' := by
  rw [hmacSign,hmacSign] at h
  exact Digest.sha256.kid_of_hmacSign h

theorem authenticate_of_signed {a : DeliverArgs} {db : Db} {row : WaitpointRow} {secret : String}
    (hl : db.waitpoints.lookup a.waitpointId = some row) (he : row.executionId = a.executionId)
    (hs : db.keystore.fetchKid row.tokenKid = some secret) (hk : ':' ∉ row.tokenKid.toList)
    (ht : a.token = hmacSign secret row.tokenKid a.executionId a.waitpointId) (hr : a.token = row.token) :
    authenticate a db = .ok row := by
  refine authenticate_ok.mpr ⟨hl,he,secret,hs,?_,hr⟩
  rw [ht]
  exact hmacVerify_hmacSign.mpr hk

variable (row : WaitpointRow)

/-- A satisfied condition deletes every waitpoint of the execution. -/
def deliverTo (a : DeliverArgs) (now : Int) (db : Db) : Method := do
  let rows ← demand (db.rowsOf a.executionId) (.notFound "suspension")
  let done ← deliverUnder row.waitpointKey a.signal now rows
  let stored := db.commitOn a.executionId now done
  if done.reply = .accepted .resumeConditionSatisfied then
    return (.reply done.reply,
      { stored with waitpoints := db.waitpoints.keep fun _ row => row.executionId ≠ a.executionId })
  else return (.reply done.reply,stored)

def deliverSignal (a : DeliverArgs) (now : Int) (db : Db) : Method := do
  deliverTo (← authenticate a db) a now db

theorem deliverSignal_of_ok {a : DeliverArgs} {db : Db} {row : WaitpointRow} (ha : authenticate a db = .ok row)
    (now : Int) : deliverSignal a now db = deliverTo row a now db := by
  rw [deliverSignal,ha]
  rfl

def WaitpointRow.closeKey (id : String) : String :=
  if row.waitpointKey = "" then id else row.waitpointKey

def WaitpointRow.expired (now : Int) : Bool := row.expiresAtMs.any (· < now)

/-- The waitpoint is deleted, and marked in the suspension that its execution has now. -/
def Db.closed (db : Db) (id : String) (row : WaitpointRow) (now : Int) : Db :=
  ({ db with waitpoints := db.waitpoints.erase id } : Db).write row.executionId ⟨.close (row.closeKey id),now⟩

/-- pending_wp_expiry on one waitpoint. -/
def closeWaitpoint (id : String) (now : Int) (db : Db) : Db :=
  match db.waitpoints.lookup id with
  | some row => if row.expired now = true then db.closed id row now else db
  | none => db

def keystoreOn (method : Keystore → Except EngineError (KeyReply × Keystore)) (db : Db) : Method := do
  let done ← method db.keystore
  return (.keystore done.1,{ db with keystore := done.2 })

end FlowFabric.Postgres
