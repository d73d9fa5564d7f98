import FlowFabric.Foundation.Label
import FlowFabric.Postgres.Rows

/-! The keystore that waitpoint tokens and grants are signed with: one row for each kid, of which the
active one signs. A signature is a text: its kid, a colon and a digest in hex. -/
namespace FlowFabric.Postgres
open Foundation List String

/-- An ff_waitpoint_hmac row, kept under its kid. The secret stands for its bytes in lower case hex. -/
structure KeyRow where
  secret : String
  rotatedAtMs : Int
  active : Bool

abbrev Keystore := Table String KeyRow

def newestKey : List (String × KeyRow) → Option (String × KeyRow)
  | [] => none
  | e :: es =>
    match newestKey es with
    | some e' => if e.2.rotatedAtMs < e'.2.rotatedAtMs then some e' else some e
    | none => some e

private theorem newestKey_mem {es : List (String × KeyRow)} {e : String × KeyRow} (h : newestKey es = some e) :
    e ∈ es := by
  induction es with
  | nil => cases h
  | cons e' es ih =>
    rw [newestKey] at h
    split at h
    · rename_i newer hn
      split at h
      · cases h
        exact mem_cons_of_mem e' (ih hn)
      · cases h
        exact mem_cons_self
    · cases h
      exact mem_cons_self

namespace Keystore
variable (k : Keystore)

def currentActiveKid : Option (String × String) :=
  (newestKey (k.rows.filter (·.2.active))).map fun e => (e.1,e.2.secret)

def fetchKid (kid : String) : Option String := (k.lookup kid).map KeyRow.secret

/-- The new kid is inserted as the only active one. -/
def rotated (kid secret : String) (now : Int) : Keystore :=
  (k.updateAll fun row => { row with active := false }).insert kid ⟨secret,now,true⟩

theorem fetchKid_of_current {k : Keystore} {kid secret : String} (h : k.currentActiveKid = some (kid,secret)) :
    k.fetchKid kid = some secret := by
  obtain ⟨e,he,hk⟩ := Option.map_eq_some_iff.mp h
  cases hk
  have hrow := Table.mem_rows.mp (mem_of_mem_filter (newestKey_mem he))
  rw [fetchKid,hrow]
  rfl

end Keystore

def isHexDigit (c : Char) : Bool := c.isDigit || 'a' ≤ c && c ≤ 'f' || 'A' ≤ c && c ≤ 'F'

/-- What is not an even number of hex digits is refused. -/
def hexDecode (text : String) : Option String :=
  if text.toList.length % 2 = 0 ∧ text.toList.all isHexDigit = true then
    some (ofList (text.toList.map Char.toLower))
  else none

inductive KeyReply where
  | rotated (previousKid : Option String) (newKid : String)
  | noop (kid : String)
  | seeded (kid : String)
  | alreadySeeded (kid : String) (sameSecret : Bool)

structure RotateArgs where
  (newKid newSecretHex : String)
  graceMs : Nat

/-- The one entry of the result. The grace is not stored, and a kid that is there already is not made
active. -/
def rotateWaitpointHmacSecretAll (a : RotateArgs) (now : Int) (k : Keystore) :
    Except EngineError (KeyReply × Keystore) := do
  let secret ← demand (hexDecode a.newSecretHex) (.invalidInput "new_secret_hex is not valid hex")
  match k.fetchKid a.newKid with
  | some prior =>
    ensure (prior = secret) (.rotationConflict ("kid " ++ a.newKid ++ " already installed with a different secret"))
    return (.noop a.newKid,k)
  | none => return (.rotated (k.currentActiveKid.map Prod.fst) a.newKid,k.rotated a.newKid secret now)

structure SeedArgs where
  (kid secretHex : String)

/-- A kid that is there already is reported as seeded, active or not and with whatever secret. -/
def seedWaitpointHmacSecret (a : SeedArgs) (now : Int) (k : Keystore) : Except EngineError (KeyReply × Keystore) := do
  ensure (a.secretHex.toList.length = 64 ∧ a.secretHex.toList.all isHexDigit = true)
    (.invalidInput "secret_hex must be 64 hex characters (256-bit secret)")
  ensure (a.kid ≠ "") (.invalidInput "kid must be non-empty")
  let secret ← demand (hexDecode a.secretHex) (.invalidInput "secret_hex is not valid hex")
  match k.fetchKid a.kid with
  | some prior => return (.alreadySeeded a.kid (prior = secret),k)
  | none =>
    match k.currentActiveKid with
    | some (activeKid,_) =>
      .error (.invalidInput ("seed_waitpoint_hmac_secret: a different kid " ++ activeKid.quote ++
        " is already active; use rotate_waitpoint_hmac_secret_all to change kid"))
    | none => return (.seeded a.kid,k.insert a.kid ⟨secret,now,true⟩)

/-! ### Signatures -/

/-- HMAC-SHA256 of a secret and a message, in lower case hex. -/
structure Digest where
  mac : String → String → String
  hex : ∀ secret message, hexDecode (mac secret message) = some (mac secret message)

def Digest.hmacSign (D : Digest) (secret kid message : String) : String :=
  kid ++ ":" ++ D.mac secret (kid ++ ":" ++ message)

inductive HmacVerifyError where
  | malformed
  | wrongKid (expected actual : String)
  | signatureMismatch

def Digest.hmacVerify (D : Digest) (secret kid message token : String) : Except HmacVerifyError Unit := do
  let parts ← demand (splitOnce ':' token.toList) .malformed
  ensure (ofList parts.1 = kid) (.wrongKid kid (ofList parts.1))
  let expected ← demand (hexDecode (ofList parts.2)) .malformed
  ensure (expected = D.mac secret (kid ++ ":" ++ message)) .signatureMismatch

def hexBytes : List Char → List Byte
  | a :: b :: rest => BitVec.ofNat 8 (16 * (hexValue a).getD 0 + (hexValue b).getD 0) :: hexBytes rest
  | _ => []

theorem hexDecode_toHex (bytes : List Byte) : hexDecode (toHex bytes) = some (toHex bytes) := by
  have digit : ∀ i : Fin 16, isHexDigit (hexDigit i) = true ∧ (hexDigit i).toLower = hexDigit i := by decide
  have digits : ∀ c ∈ (toHex bytes).toList, isHexDigit c = true ∧ c.toLower = c := by
    intro c hc
    rw [toHex,toList_ofList,mem_flatMap] at hc
    obtain ⟨b,-,hb⟩ := hc
    have := b.isLt
    rcases mem_pair.mp hb with rfl | rfl
    · exact digit ⟨b.toNat / 16,by omega⟩
    · exact digit ⟨b.toNat % 16,by omega⟩
  have even : (toHex bytes).toList.length % 2 = 0 := by simp [toHex]
  rw [hexDecode,if_pos ⟨even,all_eq_true.mpr fun c hc => (digits c hc).1⟩,
    map_congr_left fun c hc => (digits c hc).2,map_id',ofList_toList]

/-- The digest that is signed with. -/
def Digest.sha256 : Digest where
  mac secret message := toHex (hmacSha256 (hexBytes secret.toList) (utf8Bytes message))
  hex _ _ := hexDecode_toHex _

theorem colon_notMem_hex {text bytes : String} (h : hexDecode text = some bytes) : ':' ∉ text.toList := by
  rw [hexDecode] at h
  split at h
  · rename_i hex
    intro hc
    exact absurd (all_eq_true.mp hex.2 ':' hc) (by decide)
  · cases h

namespace Digest
variable (D : Digest) {secret kid message : String}

theorem hmacSign_toList (secret kid message : String) : (D.hmacSign secret kid message).toList =
    kid.toList ++ ':' :: (D.mac secret (kid ++ ":" ++ message)).toList := by
  simp [hmacSign]

/-- The kid is read back from the last colon. -/
theorem kid_of_hmacSign {secret' kid' message' : String}
    (h : D.hmacSign secret kid message = D.hmacSign secret' kid' message') : kid = kid' := by
  have texts := congrArg (rsplitOnce ':' ·.toList) h
  simp only [hmacSign_toList,rsplitOnce_append (colon_notMem_hex (D.hex _ _)),Option.some.injEq,Prod.mk.injEq] at texts
  exact toList_inj.mp texts.1

/-- A signature is accepted again unless its kid has a colon. -/
theorem hmacVerify_hmacSign :
    D.hmacVerify secret kid message (D.hmacSign secret kid message) = .ok () ↔ ':' ∉ kid.toList := by
  constructor
  · intro h
    simp only [hmacVerify,bind_ok,demand_ok,ensure_ok] at h
    obtain ⟨parts,hp,_,rfl,-⟩ := h
    rw [toList_ofList]
    exact notMem_of_splitOnce hp
  · intro hk
    rw [hmacVerify,hmacSign_toList,splitOnce_append hk]
    simp [demand,ensure,D.hex,bind,Except.bind]

end Digest

/-! ### Ids -/

def hashTag (partition : Nat) : String := "\x7bfp:" ++ toString partition ++ "\x7d"

def hexDigits (width n : Nat) : List Char := (range width).map fun i => Nat.digitChar (n / 16 ^ (width - 1 - i) % 16)

/-- The id in its usual form, in groups of 8, 4, 4, 4 and 12 digits. -/
def uuidText (u : Uuid) : String :=
  let digits := hexDigits 32 u
  ofList ("-".toList.intercalate
    [digits.take 8,(digits.drop 8).take 4,(digits.drop 12).take 4,(digits.drop 16).take 4,digits.drop 20])

end FlowFabric.Postgres
