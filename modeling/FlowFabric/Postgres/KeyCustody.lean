import FlowFabric.Postgres.MemberMap

/-! Rotations of the waitpoint secret: which kid is active after a call, and how long the tokens of a kid are
accepted. -/
namespace FlowFabric.Postgres
open Foundation List Table Option

namespace Keystore
variable (k : Keystore)

def active (kid : String) : Bool := (k.lookup kid).any KeyRow.active

def Installed (kid : String) (secret : Option String) : Prop :=
  k.fetchKid kid = secret ∧ ∀ kid', k.active kid' = true ↔ kid' = kid

def Single : Prop := ∀ kid kid', k.active kid = true → k.active kid' = true → kid' = kid

variable {k}

variable {kid : String} {secret : Option String}

theorem active_iff : k.active kid = true ↔ ∃ row, (kid,row) ∈ k.rows.filter (·.2.active) := by
  simp [active,Option.any_eq_true,mem_rows]

private theorem newestKey_eq_none {es : List (String × KeyRow)} : newestKey es = none ↔ es = [] := by
  cases es with
  | nil => exact iff_of_true rfl rfl
  | cons e es =>
    refine iff_of_false ?_ (cons_ne_nil e es)
    rw [newestKey]
    split
    · split <;> exact some_ne_none _
    · exact some_ne_none e

private theorem currentActiveKid_eq_none : k.currentActiveKid = none ↔ ∀ kid, k.active kid = false := by
  rw [currentActiveKid,map_eq_none_iff,newestKey_eq_none,eq_nil_iff_forall_not_mem]
  constructor
  · intro h kid
    rw [← Bool.not_eq_true,active_iff]
    rintro ⟨row,hrow⟩
    exact h _ hrow
  · intro h e he
    exact absurd (active_iff.mpr ⟨e.2,he⟩) (Bool.eq_false_iff.mp (h e.1))

private theorem active_rotated (kid secret : String) (now : Int) (kid' : String) :
    (k.rotated kid secret now).active kid' = true ↔ kid' = kid := by
  rw [active,rotated,lookup_insert]
  split
  · rename_i h
    exact iff_of_true rfl h
  · rename_i h
    refine iff_of_false ?_ h
    rw [lookup_updateAll]
    cases k.lookup kid' <;> simp

theorem fetchKid_rotated (kid secret : String) (now : Int) (kid' : String) :
    (k.rotated kid secret now).fetchKid kid' = if kid' = kid then some secret else k.fetchKid kid' := by
  rw [fetchKid,rotated,lookup_insert]
  split
  · rfl
  · rw [lookup_updateAll,Option.map_map]
    rfl

theorem installed_rotated (kid secret : String) (now : Int) : (k.rotated kid secret now).Installed kid (some secret) :=
  ⟨by rw [fetchKid_rotated,if_pos rfl],active_rotated kid secret now⟩

theorem Installed.single (h : k.Installed kid secret) : k.Single := by
  intro kid₁ kid₂ h₁ h₂
  rw [(h.2 kid₁).mp h₁,(h.2 kid₂).mp h₂]

theorem Single.installed_iff (h : k.Single) :
    k.Installed kid secret ↔ k.fetchKid kid = secret ∧ k.active kid = true := by
  refine and_congr_right fun _ => ⟨fun ha => (ha kid).mpr rfl,fun ha kid' => ⟨fun ha' => h kid kid' ha ha',?_⟩⟩
  rintro rfl
  exact ha

private theorem rotated_of_inactive (h : k.currentActiveKid = none) (kid secret : String) (now : Int) :
    k.rotated kid secret now = k.insert kid ⟨secret,now,true⟩ := by
  have same : k.updateAll (fun row => { row with active := false }) = k := by
    refine updateAll_eq_self fun kid' row hrow => ?_
    have inactive := currentActiveKid_eq_none.mp h kid'
    rw [active,hrow,any_some] at inactive
    rw [← inactive]
  rw [rotated,same]

end Keystore

open Keystore

/-! ### Calls on the keystore -/

variable {done : KeyReply × Keystore} {k : Keystore} {now : Int} {kid secret id : String} {e : Uuid}
    {row : WaitpointRow}

theorem rotate_ok {a : RotateArgs} :
    rotateWaitpointHmacSecretAll a now k = .ok done ↔ ∃ secret, hexDecode a.newSecretHex = some secret ∧
      (k.fetchKid a.newKid = some secret ∧ (.noop a.newKid,k) = done ∨ k.fetchKid a.newKid = none ∧
          (.rotated (k.currentActiveKid.map Prod.fst) a.newKid,k.rotated a.newKid secret now) = done) := by
  simp only [rotateWaitpointHmacSecretAll,bind_ok,demand_ok]
  refine exists_congr fun secret => and_congr_right fun _ => ?_
  cases k.fetchKid a.newKid with
  | none => simp
  | some =>
    rw [bind_ok]
    simp

/-- The arguments of a seed that are looked at before the keystore. -/
def SeedArgs.Valid (a : SeedArgs) : Prop :=
  (a.secretHex.toList.length = 64 ∧ a.secretHex.toList.all isHexDigit = true) ∧ a.kid ≠ ""

variable {a : SeedArgs}

theorem seed_ok : seedWaitpointHmacSecret a now k = .ok done ↔ a.Valid ∧ ∃ secret, hexDecode a.secretHex = some secret ∧
      ((∃ prior, k.fetchKid a.kid = some prior ∧ (.alreadySeeded a.kid (prior = secret),k) = done) ∨
        k.fetchKid a.kid = none ∧ k.currentActiveKid = none ∧ (.seeded a.kid,k.rotated a.kid secret now) = done) := by
  simp only [seedWaitpointHmacSecret,bind_ok,demand_ok,ensure_ok,exists_const,SeedArgs.Valid,and_assoc]
  refine and_congr_right fun _ => and_congr_right fun _ => and_congr_right fun _ => exists_congr fun secret =>
    and_congr_right fun _ => ?_
  cases k.fetchKid a.kid with
  | some => simp
  | none =>
    cases hc : k.currentActiveKid with
    | some => simp
    | none => simp [rotated_of_inactive hc]

/-- What a call leaves of the keystore: the same, or one more kid that is the active one. -/
def Keystore.Grows (k k' : Keystore) : Prop :=
  k' = k ∨ ∃ kid secret now, k.fetchKid kid = none ∧ k' = k.rotated kid secret now

private theorem seed_grows (h : seedWaitpointHmacSecret a now k = .ok done) : k.Grows done.2 := by
  obtain ⟨-,secret,-,⟨prior,-,rfl⟩ | ⟨hn,-,rfl⟩⟩ := seed_ok.mp h
  · exact .inl rfl
  · exact .inr ⟨_,_,_,hn,rfl⟩

variable {k' : Keystore}

theorem Keystore.Grows.single (h : k.Grows k') (hk : k.Single) : k'.Single := by
  obtain rfl | ⟨kid,secret,now,-,rfl⟩ := h
  · exact hk
  · exact (installed_rotated kid secret now).single

theorem Keystore.Grows.fetchKid (h : k.Grows k')
    (hk : k.fetchKid kid = some secret) : k'.fetchKid kid = some secret := by
  obtain rfl | ⟨kid',secret',now,hn,rfl⟩ := h
  · exact hk
  · rw [fetchKid_rotated,if_neg,hk]
    rintro rfl
    cases hn.symm.trans hk

theorem keystoreOn_grows {method : Keystore → Except EngineError (KeyReply × Keystore)} {db : Db}
    (h : ∀ done, method db.keystore = .ok done → db.keystore.Grows done.2) :
    db.keystore.Grows ((keystoreOn method db).db db).keystore ∧
      ((keystoreOn method db).db db).waitpoints = db.waitpoints := by
  unfold keystoreOn
  cases hm : method db.keystore with
  | error => exact ⟨.inl rfl,rfl⟩
  | ok done => exact ⟨h done hm,rfl⟩

/-! ### Tokens -/

/-- The token is a signature for the execution and the waitpoint, under a kid of the keystore. -/
def SignedUnder (k : Keystore) (kid : String) (e : Uuid) (id token : String) : Prop :=
  ∃ secret, k.fetchKid kid = some secret ∧ token = hmacSign secret kid e id

private theorem bindWaitpoints_lookup {a : SuspendArgs} {db : Db} (h : (bindWaitpoints e a db).lookup id = some row) :
    db.waitpoints.lookup id = some row ∨ ∃ e, SignedUnder db.keystore row.tokenKid e id row.token := by
  unfold bindWaitpoints at h
  split at h
  · rename_i key hkey
    have hk := fetchKid_of_current hkey
    generalize db.waitpoints = waitpoints,a.waitpoints = bindings at h
    induction bindings generalizing waitpoints with
    | nil => exact .inl h
    | cons b bs ih =>
      rcases ih _ h with hb | signed
      · rw [bindWaitpoint,lookup_upsert] at hb
        split at hb
        · rename_i hid
          subst hid
          right
          cases hl : waitpoints.lookup (bindingId b) with
          | none | some =>
            rw [hl] at hb
            cases hb
            exact ⟨e,key.2,hk,rfl⟩
        · exact .inl hb
      · exact .inr signed
  · exact .inl h

private theorem suspendOn_tokens (e : Uuid) (h : Handle) (a : SuspendArgs) (now : Int) (db : Db) :
    ((suspendOn e h a now db).db db).keystore = db.keystore ∧
      (((suspendOn e h a now db).db db).waitpoints = db.waitpoints ∨
        ((suspendOn e h a now db).db db).waitpoints = bindWaitpoints e a db) := by
  unfold suspendOn
  split
  · exact ⟨rfl,.inl rfl⟩
  · rw [Method.db_demand]
    cases db.rowsOf e with
    | none => exact ⟨rfl,.inl rfl⟩
    | some r =>
      rw [map_some,getD_some]
      cases suspend h a false (db.keystore.currentActiveKid.map Prod.fst) r with
      | error => exact ⟨rfl,.inl rfl⟩
      | ok => exact ⟨rfl,.inr rfl⟩

private theorem createWaitpoint_lookup (e : Uuid) (id key : String) (expiresInMs : Nat) (now : Int) (db : Db) :
    ((createWaitpoint e id key expiresInMs now db).db db).keystore = db.keystore ∧
      ∀ id' row, ((createWaitpoint e id key expiresInMs now db).db db).waitpoints.lookup id' = some row →
        db.waitpoints.lookup id' = some row ∨ ∃ e, SignedUnder db.keystore row.tokenKid e id' row.token := by
  rw [createWaitpoint,Method.db_demand]
  cases hk : db.keystore.currentActiveKid with
  | none => exact ⟨rfl,fun _ _ => .inl⟩
  | some key =>
    rw [map_some,getD_some,Method.db_ensure]
    split
    · refine ⟨rfl,fun id' row h => ?_⟩
      change (AList.insert id _ db.waitpoints).lookup id' = some row at h
      rw [lookup_insert] at h
      split at h
      · rename_i hid
        cases h
        exact .inr ⟨e,key.2,fetchKid_of_current hk,by rw [hid]⟩
      · exact .inl h
    · exact ⟨rfl,fun _ _ => .inl⟩

theorem closeWaitpoint_lookup (id : String) (now : Int) (db : Db) : (closeWaitpoint id now db).keystore = db.keystore ∧
      ∀ id' row, (closeWaitpoint id now db).waitpoints.lookup id' = some row → db.waitpoints.lookup id' = some row := by
  unfold closeWaitpoint
  split
  · rename_i wp hwp
    split
    · have waitpoints : (db.closed id wp now).waitpoints = db.waitpoints.erase id :=
        Db.write_frame (by intros; rfl) _ _ _
      refine ⟨Db.write_frame (by intros; rfl) _ _ _,fun id' row h => ?_⟩
      rw [waitpoints] at h
      by_cases hid : id' = id
      · rw [hid,AList.lookup_erase] at h
        cases h
      · rwa [AList.lookup_erase_ne hid] at h
    · exact ⟨rfl,fun _ _ h => h⟩
  · exact ⟨rfl,fun _ _ h => h⟩

theorem after_custody (q : Arrival) (db : Db) :
    db.keystore.Grows (after q db).keystore ∧ ∀ id row, (after q db).waitpoints.lookup id = some row →
      db.waitpoints.lookup id = some row ∨ ∃ e, SignedUnder db.keystore row.tokenKid e id row.token := by
  cases hq : q.request.tokens with
  | false =>
    obtain ⟨hw,hk⟩ := after_tokens hq db
    rw [hw,hk]
    exact ⟨.inl rfl,fun _ _ => .inl⟩
  | true =>
    obtain ⟨request,now⟩ := q
    cases request with
    | rotateWaitpointHmacSecretAll a =>
      have grows (done) : rotateWaitpointHmacSecretAll a now db.keystore = .ok done → db.keystore.Grows done.2 := by
        intro h
        obtain ⟨secret,-,⟨-,rfl⟩ | ⟨hn,rfl⟩⟩ := rotate_ok.mp h
        · exact .inl rfl
        · exact .inr ⟨_,_,_,hn,rfl⟩
      obtain ⟨hk,hw⟩ := keystoreOn_grows grows
      exact ⟨hk,fun id row h => .inl (hw ▸ h)⟩
    | seedWaitpointHmacSecret a =>
      have grows (done) : seedWaitpointHmacSecret a now db.keystore = .ok done → db.keystore.Grows done.2 := seed_grows
      obtain ⟨hk,hw⟩ := keystoreOn_grows grows
      exact ⟨hk,fun id row h => .inl (hw ▸ h)⟩
    | deliverSignal a =>
      have spares := deliverSignal_spares a now db
      exact ⟨.inl spares.keystore,fun id row h => .inl (spares.waitpoints id row h)⟩
    | suspend e h a =>
      obtain ⟨hk,hw | hw⟩ := suspendOn_tokens e h a now db
      · exact ⟨.inl hk,fun id row hl => .inl (hw ▸ hl)⟩
      · exact ⟨.inl hk,fun id row hl => bindWaitpoints_lookup (hw ▸ hl)⟩
    | createWaitpoint e id key expiresInMs =>
      obtain ⟨hk,hw⟩ := createWaitpoint_lookup e id key expiresInMs now db
      exact ⟨.inl hk,hw⟩
    | closeWaitpoint id =>
      obtain ⟨hk,hw⟩ := closeWaitpoint_lookup id now db
      exact ⟨.inl hk,fun id' row hl => .inl (hw id' row hl)⟩
    | _ => cases hq

/-! ### Histories -/

/-- The tables, the tokens that were written with their waitpoints and kids, and when each kid was rotated out
and with which grace. -/
structure Custody where
  db : Db
  minted : List (String × String × String)
  retired : String → Option (Int × Nat)

namespace Custody

def after (q : Arrival) (s : Custody) : Custody :=
  let db := Postgres.after q s.db
  { db
    minted := s.minted ++ db.waitpoints.rows.map fun wp => (wp.1,wp.2.tokenKid,wp.2.token)
    retired := fun kid =>
      match q.request with
      | .rotateWaitpointHmacSecretAll a =>
        if s.db.keystore.active kid = true ∧ db.keystore.active kid = false then some (q.now,a.graceMs)
        else s.retired kid
      | _ => s.retired kid }

/-- The kid is active, or was rotated out and its grace is not over. -/
def live (s : Custody) (kid : String) (now : Int) : Bool :=
  s.db.keystore.active kid || (s.retired kid).any fun r => now ≤ r.1 + r.2

/-- The signal comes with a token that was minted under the kid for its waitpoint and its execution, and the
waitpoint is still there. -/
def presented (s : Custody) (a : DeliverArgs) (kid : String) : Prop :=
  (a.waitpointId,kid,a.token) ∈ s.minted ∧ SignedUnder s.db.keystore kid a.executionId a.waitpointId a.token ∧
    (s.db.waitpoints.lookup a.waitpointId).isSome = true

/-- A call that succeeds leaves the kid it named as the only active one, with the secret it gave, and a token is
accepted while its kid is live. -/
def Honours (s : Custody) (q : Arrival) : Prop :=
  match q.request with
  | .rotateWaitpointHmacSecretAll a =>
    (serve q s.db).1.isOk = true → (Postgres.after q s.db).keystore.Installed a.newKid (hexDecode a.newSecretHex)
  | .seedWaitpointHmacSecret a =>
    (serve q s.db).1.isOk = true → (Postgres.after q s.db).keystore.Installed a.kid (hexDecode a.secretHex)
  | .deliverSignal a => ∀ kid, s.presented a kid → ((authenticate a s.db).isOk = true ↔ s.live kid q.now = true)
  | _ => True

/-- A kid that is stored is named only while it is active and, in a seed, with its own secret. A token is
presented while its kid is live exactly if the waitpoint still has that token under that execution and the
kid has no colon. -/
def Meets (s : Custody) (q : Arrival) : Prop :=
  match q.request with
  | .rotateWaitpointHmacSecretAll a =>
    ∀ row, s.db.keystore.lookup a.newKid = some row → hexDecode a.newSecretHex = some row.secret → row.active = true
  | .seedWaitpointHmacSecret a =>
    ∀ row, s.db.keystore.lookup a.kid = some row → a.Valid → row.active = true ∧ hexDecode a.secretHex = some row.secret
  | .deliverSignal a =>
    ∀ kid, s.presented a kid → ((':' ∉ kid.toList ∧ ∃ wp, s.db.waitpoints.lookup a.waitpointId = some wp ∧
        wp.executionId = a.executionId ∧ wp.token = a.token) ↔ s.live kid q.now = true)
  | _ => True

/-- At most one kid is active, the minted tokens are signatures under stored kids, and those of the waitpoints
are among them. -/
structure Sound (s : Custody) : Prop where
  single : s.db.keystore.Single
  signed : ∀ id kid token, (id,kid,token) ∈ s.minted → ∃ e, SignedUnder s.db.keystore kid e id token
  recorded : ∀ id row, s.db.waitpoints.lookup id = some row → (id,row.tokenKid,row.token) ∈ s.minted

variable {s : Custody}

theorem Sound.after (h : s.Sound) (q : Arrival) : (s.after q).Sound := by
  obtain ⟨hk,hw⟩ := after_custody q s.db
  have kept {kid id token : String} (signed : ∃ e, SignedUnder s.db.keystore kid e id token) :
      ∃ e, SignedUnder (Postgres.after q s.db).keystore kid e id token := by
    obtain ⟨e,secret,hs,ht⟩ := signed
    exact ⟨e,secret,hk.fetchKid hs,ht⟩
  refine ⟨hk.single h.single,?_,?_⟩
  · intro id kid token hm
    rcases mem_append.mp hm with hm | hm
    · exact kept (h.signed id kid token hm)
    · obtain ⟨⟨id',row⟩,hr,he⟩ := mem_map.mp hm
      cases he
      rcases hw id' row (mem_rows.mp hr) with old | signed
      · exact kept (h.signed id' _ _ (h.recorded id' row old))
      · exact kept signed
  · intro id row hl
    exact mem_append_right _ (mem_map.mpr ⟨(id,row),mem_rows.mpr hl,rfl⟩)

theorem isOk_iff {ε α : Type} {x : Except ε α} : x.isOk = true ↔ ∃ a, x = .ok a := by
  cases x with
  | error => exact iff_of_false Bool.false_ne_true fun ⟨_,h⟩ => by cases h
  | ok a => exact iff_of_true rfl ⟨a,rfl⟩

theorem Sound.accepted_iff (h : s.Sound) {a : DeliverArgs} {kid : String} (hp : s.presented a kid) :
    (authenticate a s.db).isOk = true ↔ ':' ∉ kid.toList ∧ ∃ wp, s.db.waitpoints.lookup a.waitpointId = some wp ∧
        wp.executionId = a.executionId ∧ wp.token = a.token := by
  obtain ⟨-,⟨secret,hs,ht⟩,-⟩ := hp
  -- a token shows the kid it was signed under
  have shown {wp : WaitpointRow} (hl : s.db.waitpoints.lookup a.waitpointId = some wp) (hw : wp.token = a.token) :
      wp.tokenKid = kid := by
    obtain ⟨e,secret',-,ht'⟩ := h.signed _ _ _ (h.recorded _ _ hl)
    exact kid_of_hmacSign (ht'.symm.trans (hw.trans ht))
  have verified : hmacVerify secret kid a.executionId a.waitpointId a.token = .ok () ↔ ':' ∉ kid.toList := by
    rw [ht,hmacVerify_hmacSign]
  simp only [isOk_iff,authenticate_ok]
  constructor
  · rintro ⟨wp,hl,hx,secret',hs',hv,hw⟩
    rw [shown hl hw.symm] at hs' hv
    cases hs.symm.trans hs'
    exact ⟨verified.mp hv,wp,hl,hx,hw.symm⟩
  · rintro ⟨hc,wp,hl,hx,hw⟩
    refine ⟨wp,hl,hx,secret,?_⟩
    rw [shown hl hw]
    exact ⟨hs,verified.mpr hc,hw.symm⟩

theorem keystoreOn_installed {method : Keystore → Except EngineError (KeyReply × Keystore)} {db : Db} {kid : String}
    {secret : Option String} : (((keystoreOn method db).result db).1.isOk = true →
      Keystore.Installed ((keystoreOn method db).result db).2.keystore kid secret) ↔
      ∀ done, method db.keystore = .ok done → done.2.Installed kid secret := by
  unfold keystoreOn
  cases method db.keystore with
  | error => exact iff_of_true (fun hf => by cases hf) (fun _ hd => by cases hd)
  | ok done =>
    constructor
    · rintro hi _ ⟨⟩
      exact hi rfl
    · exact fun hi _ => hi done rfl

theorem Sound.honours_iff (h : s.Sound) (q : Arrival) : s.Honours q ↔ s.Meets q := by
  obtain ⟨request,now⟩ := q
  cases request with
  | rotateWaitpointHmacSecretAll a =>
    refine keystoreOn_installed.trans ?_
    constructor
    · intro installed row hrow hsecret
      have stored : s.db.keystore.fetchKid a.newKid = some row.secret := by rw [Keystore.fetchKid,hrow]; rfl
      have active := ((installed _ (rotate_ok.mpr ⟨_,hsecret,.inl ⟨stored,rfl⟩⟩)).2 a.newKid).mpr rfl
      rwa [Keystore.active,hrow,any_some] at active
    · intro named done hd
      obtain ⟨secret,hs,⟨hf,rfl⟩ | ⟨-,rfl⟩⟩ := rotate_ok.mp hd
      · -- the kid is stored with this secret
        obtain ⟨row,hrow,rfl⟩ := map_eq_some_iff.mp hf
        rw [h.single.installed_iff,hs,active,hrow,any_some]
        exact ⟨hf,named row hrow hs⟩
      · rw [hs]
        exact installed_rotated a.newKid secret now
  | seedWaitpointHmacSecret a =>
    refine keystoreOn_installed.trans ?_
    constructor
    · intro installed row hrow valid
      obtain ⟨secret,hsecret⟩ : ∃ secret, hexDecode a.secretHex = some secret :=
        ⟨_,if_pos ⟨by rw [valid.1.1],valid.1.2⟩⟩
      have stored : s.db.keystore.fetchKid a.kid = some row.secret := by rw [fetchKid,hrow]; rfl
      have kept := installed _ (seed_ok.mpr ⟨valid,secret,hsecret,.inl ⟨row.secret,stored,rfl⟩⟩)
      rw [h.single.installed_iff,stored,active,hrow,any_some] at kept
      exact ⟨kept.2,kept.1.symm⟩
    · intro named done hd
      obtain ⟨valid,secret,hs,⟨prior,hf,rfl⟩ | ⟨-,-,rfl⟩⟩ := seed_ok.mp hd
      · obtain ⟨row,hrow,rfl⟩ := map_eq_some_iff.mp hf
        rw [h.single.installed_iff,active,hrow,any_some,(named row hrow valid).2]
        exact ⟨hf,(named row hrow valid).1⟩
      · rw [hs]
        exact installed_rotated a.kid secret now
  | deliverSignal => exact forall₂_congr fun _ hp => iff_congr (h.accepted_iff hp) Iff.rfl
  | _ => exact Iff.rfl

/-- The calls of a history are honoured exactly if they meet the condition. -/
theorem rotations_honoured_iff {s : Custody} (h : s.Sound) (qs : List Arrival) :
    Along after Honours s qs ↔ Along after Meets s qs :=
  Along.iff_of (Q := fun _ _ => True) (fun _ q hs _ => hs.honours_iff q) (fun _ q hs _ _ => hs.after q) h
    (.of_forall (fun _ _ => trivial) s)

end Custody

namespace Client

def emptyCustody : Custody := ⟨{ execs := (∅ : Table Uuid Rows).insert 1 fresh },[],fun _ => none⟩

theorem emptyCustody_sound : emptyCustody.Sound := by
  refine ⟨?_,?_,?_⟩
  · intro _ _ hk
    cases hk
  · intro _ _ _ hm
    cases hm
  · intro _ _ hl
    cases hl

/-- A kid of one byte, as rotations take it. -/
def rotates (kid : String) (graceMs : Nat) : Request := .rotateWaitpointHmacSecretAll ⟨kid,"51",graceMs⟩

/-- A token that is presented when the grace of its kid is over. -/
def lateSignal : List Arrival :=
  [⟨rotates "k1" 0,1⟩,⟨.createWaitpoint 1 "w1" "approval" 1000,2⟩,⟨rotates "k2" 10,3⟩,⟨.deliverSignal (approves "w1"),100⟩]

def graceSignal : List Arrival :=
  [⟨rotates "k1" 0,1⟩,⟨.createWaitpoint 1 "w1" "approval" 1000,2⟩,⟨rotates "k2" 10,3⟩,⟨.deliverSignal (approves "w1"),13⟩]

theorem grace_honoured : emptyCustody.Sound ∧ Along Custody.after Custody.Honours emptyCustody graceSignal := by
  refine ⟨emptyCustody_sound,(Custody.rotations_honoured_iff emptyCustody_sound graceSignal).mpr ?_⟩
  refine ⟨?_,trivial,?_,?_,trivial⟩
  · intro row hrow
    cases hrow
  · intro row hrow
    cases hrow
  · rintro kid ⟨-,⟨secret,-,ht⟩,-⟩
    obtain rfl := kid_of_hmacSign ht
    exact iff_of_true ⟨by decide,_,rfl,rfl,rfl⟩ (by decide)

/-- The signal is accepted long after the grace. -/
theorem grace_ignored : emptyCustody.Sound ∧ ¬ Along Custody.after Custody.Honours emptyCustody lateSignal := by
  refine ⟨emptyCustody_sound,?_⟩
  rintro ⟨-,-,-,late,-⟩
  have live := (late "k1" ⟨mem_of_getElem? (i := 0) rfl,⟨"51",rfl,rfl⟩,rfl⟩).mp
    (Custody.isOk_iff.mpr ⟨_,(serve_approves rfl rfl rfl 100).1⟩)
  exact absurd live (by decide)

end Client
end FlowFabric.Postgres
