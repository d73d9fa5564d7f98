import FlowFabric.Foundation.Sha
import FlowFabric.Reply

/-! Waitpoint tokens: minting, validation, and ff_rotate_waitpoint_hmac_secret. -/
namespace FlowFabric
open Foundation List

/-- Two characters as a number of base sixteen. The reader also takes one digit next to a blank, before NUL
or after a sign. Below zero it counts down from 2 ^ 64, which a double rounds back up, and the byte of that
number is zero on x86-64. -/
def hexPair (a b : Char) : Option Byte :=
  match hexValue a, hexValue b with
  | some x, some y => some (BitVec.ofNat 8 (16 * x + y))
  | some x, none => if isBlank b ∨ b = '\x00' then some (BitVec.ofNat 8 x) else none
  | none, some y => if isBlank a ∨ a = '+' then some (BitVec.ofNat 8 y) else if a = '-' then some 0 else none
  | none, none => none

def hexPairs : List Char → Option (List Byte)
  | [] => some []
  | [_] => none
  | a :: b :: rest =>
    match hexPair a b, hexPairs rest with
    | some x, some xs => some (x :: xs)
    | _, _ => none

def hexToBytes (hex : String) : Option (List Byte) := hexPairs hex.toList

/-- The keyed digest in lower-case digits; nothing when the key is malformed. -/
def hmacSha1Hex (keyHex message : String) : Option String :=
  (hexToBytes keyHex).map fun key => toHex (hmacSha1 key (utf8Bytes message))

def waitpointHmacInput (waitpointId waitpointKey : String) (createdAt : Int) : String :=
  waitpointId ++ "|" ++ waitpointKey ++ "|" ++ toString createdAt

variable (h : HmacSecrets)

/-- A token is the kid it was signed under and the digest of what it is bound to. -/
def mintWaitpointToken (waitpointId waitpointKey : String) (createdAt : Int) : Except Reply String := do
  let kid ← demand h.currentKid (.fail .hmacSecretNotInitialized)
  let secret ← demand (h.secret kid) (.fail .hmacSecretNotInitialized)
  let digest ← demand (hmacSha1Hex secret (waitpointHmacInput waitpointId waitpointKey createdAt))
    (.fail .invalidSecret)
  return kid ++ ":" ++ digest

/-- Split at the first colon into two nonempty parts. -/
def splitToken (token : String) : Option (String × String) :=
  match token.toList.span (· ≠ ':') with
  | (kid,':' :: presented) =>
    if kid = [] ∨ presented = [] then none else some (String.ofList kid,String.ofList presented)
  | _ => none

/-- An expiry that does not keep a retired secret usable any more. -/
def lapsed (expiresAt : Option Int) (now : Int) : Bool :=
  match expiresAt with
  | none => true
  | some t => decide (t ≤ 0 ∨ t < now)

/-- The secret of a kid. The current one does not expire; a retired one is accepted
while its grace lasts. -/
def secretFor (currentKid kid : String) (now : Int) : Except Reply String :=
  match h.secret kid with
  | none => .error (.fail .invalidToken)
  | some secret =>
    if kid = currentKid ∨ lapsed (h.expiresAt kid) now = false then .ok secret
    else .error (.fail .tokenExpired)

def validateWaitpointToken (token waitpointId waitpointKey : String) (createdAt now : Int) : Except Reply Unit := do
  ensure (token ≠ "") (.fail .missingToken)
  let (kid,presented) ← demand (splitToken token) (.fail .invalidToken)
  ensure ((utf8Bytes presented).length = 40) (.fail .invalidToken)
  let currentKid ← demand h.currentKid (.fail .hmacSecretNotInitialized)
  let secret ← secretFor h currentKid kid now
  let expected ← demand (hmacSha1Hex secret (waitpointHmacInput waitpointId waitpointKey createdAt))
    (.fail .invalidSecret)
  ensure (expected = presented) (.fail .invalidToken)

namespace HmacSecrets
variable (h : HmacSecrets)

def collectExpired (now : Int) : HmacSecrets where
  currentKid := h.currentKid
  secret := fun kid => if kid ∈ h.expiring ∧ lapsed (h.expiresAt kid) now then none else h.secret kid
  expiresAt := fun kid => if lapsed (h.expiresAt kid) now then none else h.expiresAt kid
  expiring := h.expiring.filter fun kid => lapsed (h.expiresAt kid) now = false
  mem_expiring := by
    intro kid
    cases hk : lapsed (h.expiresAt kid) now <;> simp [hk,h.mem_expiring]

def retire (kid : String) (expiresAt : Int) : HmacSecrets where
  currentKid := h.currentKid
  secret := h.secret
  expiresAt := fun k => if k = kid then some expiresAt else h.expiresAt k
  expiring := insert kid h.expiring
  mem_expiring := by
    intro k
    by_cases hk : k = kid <;> simp [hk,h.mem_expiring]

/-- Store the secret of a kid. An expiry the kid may have is not removed. -/
def store (kid secretHex : String) : HmacSecrets :=
  { h with secret := fun k => if k = kid then some secretHex else h.secret k }

def install (kid secretHex : String) : HmacSecrets := { h.store kid secretHex with currentKid := some kid }

end HmacSecrets

structure RotateArgs where
  (newKid newSecretHex : String)
  graceMs : Argument

def rotateWaitpointHmacSecret (a : RotateArgs) (now : Int) (s : Store) : Outcome := do
  ensure (a.newKid ≠ "" ∧ ':' ∉ a.newKid.toList) (.fail .invalidKid)
  ensure (a.newSecretHex ≠ "" ∧ (utf8Bytes a.newSecretHex).length % 2 = 0 ∧
    a.newSecretHex.toList.all fun c => (hexValue c).isSome) (.fail .invalidSecretHex)
  let graceMs ← demand a.graceMs.toNumber (.fail .invalidGraceMs)
  ensure (0 ≤ graceMs ∧ graceMs ≤ 9007199254740991) (.fail .invalidGraceMs)
  let h := s.secrets
  if h.currentKid = some a.newKid then
    match h.secret a.newKid with
    | some stored =>
      ensure (stored = a.newSecretHex) (.err .rotationConflict [a.newKid])
      return (.ok ["noop",a.newKid],s)
    | none => return (.ok ["noop",a.newKid],s.setSecrets (h.store a.newKid a.newSecretHex))
  else
    let expired := h.expiring.filter fun kid => lapsed (h.expiresAt kid) now
    let kept := h.collectExpired now
    let retired := match h.currentKid with
      | some old => kept.retire old (now + graceMs)
      | none => kept
    return (.ok ["rotated",h.currentKid.getD "",a.newKid,toString expired.card],
      s.setSecrets (retired.install a.newKid a.newSecretHex))

def HmacSecrets.rotate (h : HmacSecrets) (newKid newSecretHex : String) (now graceMs : Int) : HmacSecrets :=
  (match h.currentKid with
    | some old => (h.collectExpired now).retire old (now + graceMs)
    | none => h.collectExpired now).install newKid newSecretHex

def properKid (kid : String) : Prop := kid ≠ "" ∧ ':' ∉ kid.toList

variable {a : RotateArgs} {reply : Reply} {now : Int} {s t : Store}

theorem rotateWaitpointHmacSecret_ok
    (h : rotateWaitpointHmacSecret a now s = .ok (reply,t)) :
    properKid a.newKid ∧ ∃ graceMs, a.graceMs = .number graceMs ∧ 0 ≤ graceMs ∧
      if s.secrets.currentKid = some a.newKid then
        t = s ∨ (s.secrets.secret a.newKid = none ∧ t = s.setSecrets (s.secrets.store a.newKid a.newSecretHex))
      else t = s.setSecrets (s.secrets.rotate a.newKid a.newSecretHex now graceMs) := by
  simp only [rotateWaitpointHmacSecret,bind_ok,demand_ok,ensure_ok] at h
  obtain ⟨_,hk,_,-,graceMs,hg,_,hrange,h⟩ := h
  have hnumber : a.graceMs = .number graceMs := by
    cases hgrace : a.graceMs <;> simp_all [Argument.toNumber]
  refine ⟨hk,graceMs,hnumber,hrange.1,?_⟩
  split at h
  · rename_i hc
    rw [if_pos hc]
    split at h
    · simp only [bind_ok,ensure_ok] at h
      obtain ⟨_,-,h⟩ := h
      cases h; exact .inl rfl
    · rename_i hs
      cases h; exact .inr ⟨hs,rfl⟩
  · rename_i hc
    rw [if_neg hc]
    cases h; rfl

theorem rotateWaitpointHmacSecret_reply
    (h : rotateWaitpointHmacSecret a now s = .ok (reply,t)) : reply.isError = false := by
  simp only [rotateWaitpointHmacSecret,bind_ok,demand_ok,ensure_ok] at h
  obtain ⟨_,-,_,-,_,-,_,-,h⟩ := h
  split at h
  · split at h
    · simp only [bind_ok,ensure_ok] at h
      obtain ⟨_,-,h⟩ := h
      cases h; rfl
    · cases h; rfl
  · cases h; rfl

private theorem splitToken_append {kid digest : String} (hk : properKid kid) (hd : digest ≠ "") :
    splitToken (kid ++ ":" ++ digest) = some (kid,digest) := by
  have hkid : ∀ c ∈ kid.toList, decide (c ≠ ':') = true := by
    intro c hc
    simp only [decide_eq_true_eq]
    rintro rfl
    exact hk.2 hc
  have hspan : (kid ++ ":" ++ digest).toList.span (· ≠ ':') = (kid.toList,':' :: digest.toList) := by
    rw [span_eq_takeWhile_dropWhile]
    simp only [String.toList_append,append_assoc]
    rw [takeWhile_append_of_pos hkid,dropWhile_append_of_pos hkid]
    simp
  rw [splitToken,hspan]
  simp [hk.1,hd]

section minted
variable {h h' : HmacSecrets} {kid secret current token waitpointId waitpointKey : String} {createdAt now : Int}

variable (hk : properKid kid) (hc : h.currentKid = some kid) (hs : h.secret kid = some secret)
  (hm : mintWaitpointToken h waitpointId waitpointKey createdAt = .ok token)
  (hc' : h'.currentKid = some current)
include hk hc hs hm hc'

theorem validate_minted_eq :
    ∃ digest, hmacSha1Hex secret (waitpointHmacInput waitpointId waitpointKey createdAt) = some digest ∧
      validateWaitpointToken h' token waitpointId waitpointKey createdAt now = (do
        let stored ← secretFor h' current kid now
        let expected ← demand (hmacSha1Hex stored (waitpointHmacInput waitpointId waitpointKey createdAt))
          (.fail .invalidSecret)
        ensure (expected = digest) (.fail .invalidToken)) := by
  simp only [mintWaitpointToken,bind_ok,demand_ok,pure_ok] at hm
  obtain ⟨k,hk',x,hs',digest,hdigest,rfl⟩ := hm
  cases hc.symm.trans hk'
  cases hs.symm.trans hs'
  refine ⟨digest,hdigest,?_⟩
  have hlength : (utf8Bytes digest).length = 40 := by
    simp only [hmacSha1Hex,Option.map_eq_some_iff] at hdigest
    obtain ⟨key,-,rfl⟩ := hdigest
    rw [utf8Bytes_toHex_length,hmacSha1,hmac,sha1_length]
  have hne : digest ≠ "" := by
    rintro rfl
    simp [utf8Bytes] at hlength
  have htoken : kid ++ ":" ++ digest ≠ "" := by
    intro he
    have := congrArg String.toList he
    simp [String.toList_append] at this
  simp only [validateWaitpointToken,splitToken_append hk hne,hlength,hc',demand,ensure,htoken,bind,
    Except.bind,ne_eq,not_false_eq_true,if_true]

theorem validate_minted (hu : secretFor h' current kid now = .ok secret) :
    validateWaitpointToken h' token waitpointId waitpointKey createdAt now = .ok () := by
  obtain ⟨digest,hdigest,h⟩ := validate_minted_eq hk hc hs hm hc'
  rw [h,hu]
  simp [hdigest]

theorem validate_minted_error {reply : Reply} (hu : secretFor h' current kid now = .error reply) :
    validateWaitpointToken h' token waitpointId waitpointKey createdAt now = .error reply := by
  obtain ⟨digest,-,h⟩ := validate_minted_eq hk hc hs hm hc'
  rw [h,hu]
  rfl

end minted

end FlowFabric
