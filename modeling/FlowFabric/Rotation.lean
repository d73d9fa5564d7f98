import FlowFabric.Effect
import FlowFabric.Refusal

/-! The grace of retired secrets: the current kid never expires, and a token stays valid
while its kid is current and for the grace that its retirement granted. -/
namespace FlowFabric
open Foundation HmacSecrets Along Client Option

def Call.installs (i : Call) (s : Store) (a : RotateArgs) : Prop :=
  i.op = .rotateSecret a ∧ i.succeeds s ∧ s.secrets.currentKid ≠ some a.newKid

/-- A kid that becomes the current one has no grace left from an earlier use. -/
def Call.kidFree (i : Call) (s : Store) : Bool :=
  match i.op with
  | .rotateSecret a => decide (i.succeeds s → s.secrets.currentKid ≠ some a.newKid →
      lapsed (s.secrets.expiresAt a.newKid) i.now)
  | _ => true

private theorem kidFree_iff (i : Call) (s : Store) :
    i.kidFree s ↔ ∀ a, i.installs s a → lapsed (s.secrets.expiresAt a.newKid) i.now := by
  unfold Call.kidFree Call.installs
  cases i.op with
  | rotateSecret => simp only [decide_eq_true_eq,Op.rotateSecret.injEq,and_imp,forall_eq']
  | _ => simp

def HmacSecrets.currentLasts (h : HmacSecrets) : Prop := ∀ kid, h.currentKid = some kid → h.expiresAt kid = none

inductive Rotates (i : Call) (s : Store) : HmacSecrets → Prop
  | kept (still : ∀ a, ¬ i.installs s a) : Rotates i s s.secrets
  | repaired (a : RotateArgs) (hop : i.op = .rotateSecret a) (still : ∀ a, ¬ i.installs s a)
      (current : s.secrets.currentKid = some a.newKid) (missing : s.secrets.secret a.newKid = none) :
      Rotates i s (s.secrets.store a.newKid a.newSecretHex)
  | rotated (a : RotateArgs) (graceMs) (installs : i.installs s a) (proper : properKid a.newKid)
      (grace : a.graceMs = .number graceMs) (nonneg : 0 ≤ graceMs) :
      Rotates i s (s.secrets.rotate a.newKid a.newSecretHex i.now graceMs)

variable {i : Call} {s : Store} {h h' : HmacSecrets} {kid secret : String} {now : Int} {a : RotateArgs} {e : Int}

theorem Effect.secrets {op : Op} {t : Store} (h : Effect s now op t) (hop : ∀ a, op ≠ .rotateSecret a) :
    t.secrets = s.secrets := by
  cases h with
  | rotated a => exact (hop a rfl).elim
  | lapsed =>
    unfold markExpired
    split <;> rfl
  | cancelled a c => exact (cancelPhase_frame ..).2.1
  | expired a c => exact (expirePhase_frame ..).2.1
  | signalResumed | compositeResumed => exact resumeSuspended_secrets _ _ _ _
  | applied => exact blockChild_secrets _ _
  | resolved a d t settles settled => cases settled <;> rfl
  | _ => rfl

theorem next_rotates (i : Call) (s : Store) : Rotates i s (next i s).secrets := by
  by_cases hop : ∃ a, i.op = .rotateSecret a
  · obtain ⟨a,ha⟩ := hop
    by_cases hi : i.succeeds s
    · have ho := outcome_of_succeeds hi
      rw [ha] at ho
      obtain ⟨proper,graceMs,grace,nonneg,h⟩ := rotateWaitpointHmacSecret_ok ho
      split at h
      · rename_i hc
        have still : ∀ b, ¬ i.installs s b := by
          rintro b ⟨hb,-,hne⟩
          cases ha.symm.trans hb
          exact hne hc
        rcases h with h | ⟨missing,h⟩
        · rw [h]
          exact .kept still
        · rw [h]
          exact .repaired a ha still hc missing
      · rename_i hc
        rw [h]
        exact .rotated a graceMs ⟨ha,hi,hc⟩ proper grace nonneg
    · have hs : next i s = s := by
        rcases step_cases i s with ⟨-,hs⟩ | ho
        · exact hs
        · rw [ha] at ho
          exact (hi (by simpa [Call.succeeds] using rotateWaitpointHmacSecret_reply ho)).elim
      rw [hs]
      exact .kept fun b hb => hi hb.2.1
  · have hs := (next_effect i s).secrets fun a ha => hop ⟨a,ha⟩
    rw [hs]
    exact .kept fun a ha => hop ⟨a,ha.1⟩

section rotate
variable {newKid newSecretHex : String} {graceMs : Int}

theorem rotate_secret_new : (h.rotate newKid newSecretHex now graceMs).secret newKid = some newSecretHex := by
  unfold rotate
  split <;> simp [install,store]

theorem rotate_secret_of_ne (hk : kid ≠ newKid) : (h.rotate newKid newSecretHex now graceMs).secret kid =
    if kid ∈ h.expiring ∧ lapsed (h.expiresAt kid) now then none else h.secret kid := by
  unfold rotate
  split <;> simp [install,store,retire,collectExpired,hk]

theorem rotate_expiresAt : (h.rotate newKid newSecretHex now graceMs).expiresAt kid =
    if h.currentKid = some kid then some (now + graceMs)
    else if lapsed (h.expiresAt kid) now then none else h.expiresAt kid := by
  unfold rotate
  split
  · rename_i old hc
    by_cases hk : kid = old
    · simp [install,store,retire,collectExpired,hc,hk]
    · simp [install,store,retire,collectExpired,hc,hk,Ne.symm hk]
  · rename_i hc
    simp [install,store,collectExpired,hc]

end rotate

theorem Rotates.currentLasts_iff (hr : Rotates i s h') (hs : s.secrets.currentLasts) :
    i.kidFree s ↔ h'.currentLasts := by
  rw [kidFree_iff]
  cases hr with
  | kept still | repaired a hop still => exact iff_of_true (fun a ha => (still a ha).elim) hs
  | rotated a graceMs installs =>
    have honly (b : RotateArgs) (hb : i.installs s b) : b = a := by
      cases installs.1.symm.trans hb.1
      rfl
    have hexpires : (s.secrets.rotate a.newKid a.newSecretHex i.now graceMs).expiresAt a.newKid =
        if lapsed (s.secrets.expiresAt a.newKid) i.now then none else s.secrets.expiresAt a.newKid := by
      rw [rotate_expiresAt,if_neg installs.2.2]
    constructor
    · intro hfree kid hkid
      cases hkid
      rw [hexpires,if_pos (hfree a installs)]
    · intro hlasts b hb
      cases honly b hb
      have hnone := hlasts a.newKid rfl
      rw [hexpires] at hnone
      split at hnone
      · assumption
      · simp [hnone,lapsed]

/-- The kid is only ever used with the secret, and has it while it is current. -/
structure HmacSecrets.SignsWith (h : HmacSecrets) (kid secret : String) : Prop where
  only : ∀ x, h.secret kid = some x → x = secret
  current : h.currentKid = some kid → h.secret kid = some secret

structure HmacSecrets.Graced (h : HmacSecrets) (kid secret : String) (expiresAt : Int) : Prop where
  current : h.currentKid.isSome
  retired : h.currentKid ≠ some kid
  secret : h.secret kid = some secret
  expiresAt : h.expiresAt kid = some expiresAt

def Op.installsAs (op : Op) (kid secret : String) : Prop :=
  ∀ a, op = .rotateSecret a → a.newKid = kid → a.newSecretHex = secret

theorem Rotates.signsWith (hr : Rotates i s h') (hs : s.secrets.SignsWith kid secret)
    (ho : i.op.installsAs kid secret) : h'.SignsWith kid secret := by
  cases hr with
  | kept => exact hs
  | repaired a hop still current missing =>
    have hne : kid ≠ a.newKid := by
      rintro rfl
      simp [hs.current current] at missing
    have hsecret : (s.secrets.store a.newKid a.newSecretHex).secret kid = s.secrets.secret kid := by simp [store,hne]
    exact ⟨hsecret ▸ hs.only,hsecret ▸ hs.current⟩
  | rotated a graceMs installs =>
    by_cases hk : kid = a.newKid
    · have hsecret := ho a installs.1 hk.symm
      subst hk hsecret
      exact ⟨fun x hx => by rw [rotate_secret_new] at hx; exact (some.inj hx).symm,fun _ => rotate_secret_new⟩
    · refine ⟨fun x hx => ?_,fun hc => ?_⟩
      · rw [rotate_secret_of_ne hk] at hx
        split at hx
        · cases hx
        · exact hs.only x hx
      · exact (hk (some.inj hc).symm).elim

theorem Rotates.grants {graceMs : Int} (hr : Rotates i s h') (hl : s.secrets.currentLasts)
    (hs : s.secrets.SignsWith kid secret) (hc : s.secrets.currentKid = some kid) (hi : i.installs s a)
    (hg : a.graceMs = .number graceMs) : h'.Graced kid secret (i.now + graceMs) ∧ 0 ≤ graceMs := by
  cases hr with
  | kept still | repaired b hop still => exact (still a hi).elim
  | rotated b g installs proper grace nonneg =>
    cases hi.1.symm.trans installs.1
    cases hg.symm.trans grace
    have hne : kid ≠ a.newKid := by
      rintro rfl
      exact hi.2.2 hc
    have hkept : kid ∉ s.secrets.expiring := by simp [s.secrets.mem_expiring,hl kid hc]
    refine ⟨⟨rfl,fun h => hne (some.inj h).symm,?_,?_⟩,nonneg⟩
    · rw [rotate_secret_of_ne hne,if_neg fun h => hkept h.1,hs.current hc]
    · rw [rotate_expiresAt,if_pos hc]

theorem Rotates.graced (hr : Rotates i s h') (hf : i.kidFree s) (he : 0 < e) (hn : i.now ≤ e)
    (hg : s.secrets.Graced kid secret e) : h'.Graced kid secret e := by
  have hlasts : lapsed (s.secrets.expiresAt kid) i.now = false := by
    rw [hg.expiresAt]
    simp only [lapsed,decide_eq_false_iff_not]
    omega
  cases hr with
  | kept => exact hg
  | repaired a hop still current =>
    have hne : kid ≠ a.newKid := by
      rintro rfl
      exact hg.retired current
    exact ⟨hg.current,hg.retired,by simpa [store,hne] using hg.secret,hg.expiresAt⟩
  | rotated a graceMs installs =>
    have hne : kid ≠ a.newKid := by
      rintro rfl
      simp [(kidFree_iff i s).mp hf a installs] at hlasts
    refine ⟨rfl,fun h => hne (some.inj h).symm,?_,?_⟩
    · rw [rotate_secret_of_ne hne,if_neg (by simp [hlasts]),hg.secret]
    · rw [rotate_expiresAt,if_neg hg.retired,if_neg (by simp [hlasts]),hg.expiresAt]

def Op.rotation? : Op → Option RotateArgs
  | .rotateSecret a => some a
  | _ => none

def rotations (calls : List Call) : List RotateArgs := calls.filterMap fun i => i.op.rotation?

def sameSecrets (calls : List Call) : Prop :=
  ∀ a ∈ rotations calls, ∀ b ∈ rotations calls, a.newKid = b.newKid → a.newSecretHex = b.newSecretHex

instance (calls : List Call) : Decidable (sameSecrets calls) :=
  inferInstanceAs (Decidable (∀ a ∈ rotations calls, ∀ b ∈ rotations calls, _ → _))

variable {calls : List Call} {asked : List RotateArgs}

private theorem mem_rotations (hi : i ∈ calls) (hop : i.op = .rotateSecret a) : a ∈ rotations calls :=
  List.mem_filterMap.mpr ⟨i,hi,by rw [hop]; rfl⟩

structure HmacSecrets.From (h : HmacSecrets) (asked : List RotateArgs) : Prop where
  proper : ∀ kid, h.currentKid = some kid → properKid kid
  secret : ∀ kid x, h.secret kid = some x → ∃ a ∈ asked, a.newKid = kid ∧ a.newSecretHex = x

theorem Rotates.from (hr : Rotates i s h') (hs : s.secrets.From asked)
    (ha : ∀ a, i.op = .rotateSecret a → a ∈ asked) : h'.From asked := by
  cases hr with
  | kept => exact hs
  | repaired a hop =>
    refine ⟨hs.proper,fun kid x hx => ?_⟩
    by_cases hk : kid = a.newKid
    · simp only [store,hk,if_true,some.injEq] at hx
      exact ⟨a,ha a hop,hk.symm,hx⟩
    · simp only [store,hk,if_false] at hx
      exact hs.secret kid x hx
  | rotated a graceMs installs proper =>
    refine ⟨fun kid hk => ?_,fun kid x hx => ?_⟩
    · cases hk
      exact proper
    · by_cases hk : kid = a.newKid
      · subst hk
        rw [rotate_secret_new] at hx
        exact ⟨a,ha a installs.1,rfl,some.inj hx⟩
      · rw [rotate_secret_of_ne hk] at hx
        split at hx
        · cases hx
        · exact hs.secret kid x hx

private theorem run_from (h : rotations calls ⊆ asked) : (run calls).secrets.From asked :=
  (of_forall (p := fun i => ∀ a, i.op = .rotateSecret a → a ∈ asked)
    (fun i hi a ha => h (mem_rotations hi ha)) _).invariant (I := fun s => s.secrets.From asked)
    (fun s i hs hi => (next_rotates i s).from hs hi) ⟨by simp,by simp⟩

theorem runFrom_currentLasts (h : Along next (fun s i => i.kidFree s) s calls)
    (hs : s.secrets.currentLasts) : (runFrom next s calls).secrets.currentLasts :=
  h.invariant (I := fun s => s.secrets.currentLasts)
    (fun s i hs hi => ((next_rotates i s).currentLasts_iff hs).mp hi) hs

theorem runFrom_signsWith (ho : ∀ i ∈ calls, i.op.installsAs kid secret)
    (hs : s.secrets.SignsWith kid secret) : (runFrom next s calls).secrets.SignsWith kid secret :=
  (of_forall ho s).invariant (I := fun s => s.secrets.SignsWith kid secret)
    (fun s i hs hi => (next_rotates i s).signsWith hs hi) hs

private theorem runFrom_graced (hf : Along next (fun s i => i.kidFree s) s calls)
    (he : 0 < e) (hn : ∀ i ∈ calls, i.now ≤ e) (hs : s.secrets.Graced kid secret e) :
    (runFrom next s calls).secrets.Graced kid secret e :=
  (hf.and (of_forall hn s)).invariant (I := fun s => s.secrets.Graced kid secret e)
    (fun s i hs hi => (next_rotates i s).graced hi.1 he hi.2 hs) hs

section token
variable {token waitpointId waitpointKey : String} {createdAt : Int} {between later : List Call}

structure HmacSecrets.Minted (h : HmacSecrets) (kid secret token waitpointId waitpointKey : String)
    (createdAt : Int) : Prop where
  proper : properKid kid
  current : h.currentKid = some kid
  secret : h.secret kid = some secret
  token : mintWaitpointToken h waitpointId waitpointKey createdAt = .ok token

theorem HmacSecrets.Minted.signsWith (m : h.Minted kid secret token waitpointId waitpointKey createdAt) :
    h.SignsWith kid secret :=
  ⟨fun _ hx => some.inj (hx.symm.trans m.secret),fun _ => m.secret⟩

theorem HmacSecrets.Minted.validates_graced {a : RotateArgs} {graceMs : Int}
    (m : s.secrets.Minted kid secret token waitpointId waitpointKey createdAt)
    (ho : ∀ i ∈ between, i.op.installsAs kid secret) (hl : s.secrets.currentLasts)
    (free : Along next (fun s i => i.kidFree s) s (between ++ i :: later)) (clock : 0 < i.now)
    (hc : (runFrom next s between).secrets.currentKid = some kid)
    (hi : i.installs (runFrom next s between) a) (hg : a.graceMs = .number graceMs)
    (hlater : ∀ j ∈ later, j.now ≤ now) (hnow : now ≤ i.now + graceMs) :
    validateWaitpointToken (runFrom next s (between ++ i :: later)).secrets token waitpointId waitpointKey
      createdAt now = .ok () := by
  obtain ⟨free₁,-,free₂⟩ := append.mp free
  obtain ⟨graced,hnonneg⟩ := (next_rotates i _).grants (runFrom_currentLasts free₁ hl)
    (runFrom_signsWith ho m.signsWith) hc hi hg
  have hend := runFrom_graced free₂ (by omega) (fun j hj => (hlater j hj).trans hnow) graced
  obtain ⟨current,hcurrent⟩ := isSome_iff_exists.mp hend.current
  have hlasts : lapsed (some (i.now + graceMs)) now = false := by
    simp only [lapsed,decide_eq_false_iff_not]
    omega
  rw [runFrom_append,runFrom]
  exact validate_minted m.proper m.current m.secret m.token hcurrent
    (by simp [secretFor,hend.secret,hend.expiresAt,hlasts])

end token

/-- In every run the current kid stays without an expiry if and only if every kid that is
installed is free. If so, and if a kid always comes with the same secret, a token validates
while its kid is current, and after the kid was retired up to the end of its grace, whatever
else is rotated in between. An expiry from `clockEnd` on is rounded and stays after the clock. -/
theorem rotations_keep_their_grace (calls : List Call) (clock : ∀ i ∈ calls, 0 < i.now ∧ i.now < clockEnd)
    (same : sameSecrets calls) : (Throughout next (fun s => s.secrets.currentLasts) {} calls ↔
      Along next (fun s i => i.kidFree s) {} calls) ∧ (Along next (fun s i => i.kidFree s) {} calls →
      ∀ (before after : List Call) (kid waitpointId waitpointKey token : String) (createdAt : Int),
        calls = before ++ after → (run before).secrets.currentKid = some kid →
        mintWaitpointToken (run before).secrets waitpointId waitpointKey createdAt = .ok token →
        (∀ now, (run calls).secrets.currentKid = some kid →
          validateWaitpointToken (run calls).secrets token waitpointId waitpointKey createdAt now = .ok ()) ∧
        ∀ (between later : List Call) (i : Call) (a : RotateArgs) (graceMs now : Int),
          after = between ++ i :: later → (run (before ++ between)).secrets.currentKid = some kid →
          i.installs (run (before ++ between)) a → a.graceMs = .number graceMs →
          (∀ j ∈ later, j.now ≤ now) → now ≤ i.now + graceMs → now < clockEnd →
          validateWaitpointToken (run calls).secrets token waitpointId waitpointKey createdAt now = .ok ()) := by
  have start : ({} : Store).secrets.currentLasts := nofun
  refine ⟨throughout_iff_along (fun s i hs => (next_rotates i s).currentLasts_iff hs) start,?_⟩
  intro free before after kid waitpointId waitpointKey token createdAt hcalls hkid hmint
  subst hcalls
  obtain ⟨free₁,free₂⟩ := append.mp free
  have asked : rotations before ⊆ rotations (before ++ after) := by simp [rotations,List.filterMap_append]
  have made := run_from asked
  obtain ⟨secret,minted⟩ : ∃ secret,
      (run before).secrets.Minted kid secret token waitpointId waitpointKey createdAt := by
    have h := hmint
    simp only [mintWaitpointToken,bind_ok,demand_ok] at h
    obtain ⟨k,hk,x,hx,-⟩ := h
    cases hkid.symm.trans hk
    exact ⟨x,made.proper kid hkid,hkid,hx,hmint⟩
  -- the rotation that has stored the secret fixes it for the later ones
  obtain ⟨b,hb,hbkid,hbsecret⟩ := made.secret kid secret minted.secret
  have installs : ∀ i ∈ after, i.op.installsAs kid secret := by
    intro i hi a ha hk
    rw [← hbsecret]
    exact same a (mem_rotations (by simp [hi]) ha) b hb (hk.trans hbkid.symm)
  have hrun (later : List Call) : run (before ++ later) = runFrom next (run before) later := runFrom_append _ _ _
  refine ⟨fun now hc => ?_,?_⟩
  · rw [hrun] at hc ⊢
    have hs := (runFrom_signsWith installs minted.signsWith).current hc
    exact validate_minted minted.proper minted.current minted.secret minted.token hc (by simp [secretFor,hs])
  · intro between later i a graceMs now hafter hretired hinstalls hgrace hlater hnow _
    subst hafter
    rw [hrun] at hretired hinstalls ⊢
    exact minted.validates_graced (fun j hj => installs j (by simp [hj])) (runFrom_currentLasts free₁ start) free₂
      (clock i (by simp)).1 hretired hinstalls hgrace hlater hnow

namespace Client

def rotate (now : Int) (kid secretHex : String) (graceMs : Int) : Call :=
  ⟨now,.rotateSecret ⟨kid,secretHex,.number graceMs⟩⟩

end Client

/-- A token of the first of three kids is still good within its grace. -/
theorem token_survives_two_rotations :
    let before := [rotate 10 "a" "0a" 0]
    let calls := before ++ [rotate 20 "b" "0b" 100,rotate 30 "c" "0c" 100]
    ∃ token, mintWaitpointToken (run before).secrets "w" "k" 15 = .ok token ∧
      validateWaitpointToken (run calls).secrets token "w" "k" 15 120 = .ok () := by
  intro before calls
  have grace := (rotations_keep_their_grace calls (by decide) (by decide +kernel)).2 (by decide +kernel)
  obtain ⟨token,hmint⟩ : ∃ token, mintWaitpointToken (run before).secrets "w" "k" 15 = .ok token := ⟨_,rfl⟩
  refine ⟨token,hmint,?_⟩
  exact (grace before _ "a" "w" "k" token 15 rfl (by decide +kernel) hmint).2 []
    [rotate 30 "c" "0c" 100] (rotate 20 "b" "0b" 100) ⟨"b","0b",.number 100⟩ 100 120 rfl
    (by decide +kernel) ⟨rfl,by decide +kernel,by decide +kernel⟩ rfl (by decide) (by decide) (by decide)

/-- A kid that is installed again within its grace keeps the expiry. The next rotation after
that drops its secret, and its tokens are refused before their grace is over. -/
theorem reinstalled_kid_loses_its_grace :
    let before := [rotate 10 "a" "0a" 0,rotate 20 "b" "0b" 100,
      rotate 30 "a" "0a" 0]
    let retire := rotate 130 "c" "0c" 1000
    (run before).secrets.currentKid = some "a" ∧ (run before).secrets.expiresAt "a" = some 120 ∧
      retire.installs (run before) ⟨"c","0c",.number 1000⟩ ∧
      ∃ token, mintWaitpointToken (run before).secrets "w" "k" 35 = .ok token ∧
        validateWaitpointToken (run (before ++ [retire])).secrets token "w" "k" 35 200 =
          .error (.fail .invalidToken) := by
  intro before retire
  have current : (run before).secrets.currentKid = some "a" := by decide +kernel
  have stored : (run before).secrets.secret "a" = some "0a" := by decide +kernel
  obtain ⟨token,hmint⟩ : ∃ token, mintWaitpointToken (run before).secrets "w" "k" 35 = .ok token := ⟨_,rfl⟩
  refine ⟨current,by decide +kernel,⟨rfl,by decide +kernel,by decide +kernel⟩,token,hmint,?_⟩
  exact validate_minted_error ⟨by decide,by decide⟩ current stored hmint
    (show _ = some "c" by decide +kernel) (by decide +kernel)

end FlowFabric
