import FlowFabric.Foundation.Account
import FlowFabric.Foundation.Run
import FlowFabric.Budget

/-! What a budget shows against what has been spent. Within the range in which numbers survive
being printed, the scripts keep an account; the account is off after a reset, because the
ledgers outlive it. -/
namespace FlowFabric
open Foundation List Account Numeral

def Budget.account (b : Budget) : Account String String where
  usage := b.usage.value
  ledger x := (b.byExec x).value

open Budget

structure Budget.Plain (bound : Nat) (b : Budget) : Prop where
  usage : b.usage.Plain bound
  ledger : ∀ x, (b.byExec x).Plain bound

def ownerOf (executionId : String) : Option String := if executionId = "" then none else some executionId

def Fits (bound : Nat) (owner : Option String) (es : List (String × Nat)) (a : Account String String) : Prop :=
  ∀ e ∈ es, e.2 < 2 ^ 53 ∧ a.usage e.1 + sumFor e.1 es < bound ∧ ∀ x ∈ owner, a.ledger x e.1 + sumFor e.1 es < bound

instance (bound : Nat) (owner : Option String) (es : List (String × Nat)) (a : Account String String) :
    Decidable (Fits bound owner es a) :=
  inferInstanceAs (Decidable (∀ e ∈ es, _ ∧ _ ∧ ∀ x ∈ owner, _))

variable {bound : Nat} {b b' : Budget} {executionId : String} {e : String × Nat}
  {es : List (String × Nat)} {owner : Option String} {a : Account String String} (server : Server)

theorem Fits.head (h : Fits bound owner (e :: es) a) : Fits bound owner [e] a := by
  obtain ⟨hd,hu,hl⟩ := h e mem_cons_self
  rintro f hf
  rw [mem_singleton.mp hf]
  simp only [sumFor] at hu hl ⊢
  exact ⟨hd,by omega,fun x hx => by have := hl x hx; omega⟩

theorem Fits.tail (h : Fits bound owner (e :: es) a) : Fits bound owner es (a.spend owner [e]) := by
  intro f hf
  obtain ⟨hd,hu,hl⟩ := h f (mem_cons_of_mem e hf)
  simp only [sumFor] at hu hl
  refine ⟨hd,?_,fun x hx => ?_⟩
  · simp only [spend,sumFor]
    omega
  · have hx' := hl x hx
    rw [Option.mem_def] at hx
    simp only [spend,sumFor,if_pos hx]
    omega

private theorem increment_plain (hp : b.Plain bound) (hb : bound ≤ 2 ^ 63)
    (hf : Fits bound (ownerOf executionId) [e] b.account) :
    ∃ b', b.increment server executionId e = .ok b' ∧ b'.Plain bound ∧
      b'.account = b.account.spend (ownerOf executionId) [e] ∧ b'.hard = b.hard := by
  obtain ⟨hd,hk,hl⟩ := hf e mem_cons_self
  simp only [sumFor,account,if_true,Nat.add_zero] at hk hl
  obtain ⟨u,hu,plain,value⟩ : ∃ u, b.usage.hincrby server e.1 (double e.2) = some u ∧ _ :=
    Hash.hincrby_plain hp.usage hd hk hb
  have usage : ∀ d, u.value d = (b.account.spend (ownerOf executionId) [e]).usage d := by
    intro d
    simp [value,spend,sumFor,account]
  unfold increment
  rw [hu]
  by_cases hx : executionId = ""
  · refine ⟨{ b with usage := u },?_,⟨plain,hp.ledger⟩,?_,rfl⟩
    · simp [demand,hx,bind,Except.bind,pure,Except.pure]
    · refine Account.ext (funext usage) ?_
      funext x d
      simp [Account.spend,ownerOf,hx,account]
  · have hl' := hl executionId (if_neg hx)
    obtain ⟨l,hl,plain',value'⟩ : ∃ l, (b.byExec executionId).hincrby server e.1 (double e.2) = some l ∧ _ :=
      Hash.hincrby_plain (hp.ledger executionId) hd hl' hb
    refine ⟨{ b with
      usage := u, byExec := fun x => if x = executionId then l else b.byExec x },?_,⟨plain,fun x => ?_⟩,?_,rfl⟩
    · simp [demand,hx,hl,bind,Except.bind,pure,Except.pure]
    · dsimp only
      split
      · exact plain'
      · exact hp.ledger x
    · refine Account.ext (funext usage) ?_
      funext x d
      by_cases hxe : x = executionId
      · subst hxe
        simp [spend,ownerOf,hx,account,sumFor,value']
      · simp [spend,ownerOf,hx,account,hxe,Ne.symm hxe]

private theorem incrementAll_plain (soft : Option String) (hp : b.Plain bound)
    (hb : bound ≤ 2 ^ 63) (hf : Fits bound (ownerOf executionId) es b.account) :
    ∃ soft' b', b.incrementAll server executionId es soft = .ok (soft',b') ∧ b'.Plain bound ∧
      b'.account = b.account.spend (ownerOf executionId) es ∧ b'.hard = b.hard := by
  induction es generalizing b soft with
  | nil => exact ⟨soft,b,rfl,hp,by simp [spend,sumFor],rfl⟩
  | cons e es ih =>
    obtain ⟨b',hi,hp',ha,hh⟩ := increment_plain server hp hb hf.head
    obtain ⟨soft',b'',hall,hp'',ha',hh'⟩ := ih _ hp' (ha ▸ hf.tail)
    refine ⟨soft',b'',?_,hp'',?_,hh'.trans hh⟩
    · rw [incrementAll,hi]
      exact hall
    · rw [ha',ha,← spend_cons]

structure Budget.Same (b b' : Budget) : Prop where
  usage : b'.usage = b.usage
  byExec : b'.byExec = b.byExec
  hard : b'.hard = b.hard

theorem Budget.Same.account (h : b.Same b') : b'.account = b.account := by simp [Budget.account,h.usage,h.byExec]

theorem Budget.Same.plain (h : b.Same b') (hp : b.Plain bound) : b'.Plain bound :=
  ⟨h.usage ▸ hp.usage,h.byExec ▸ hp.ledger⟩

variable {u : UsageArgs} {now : Int}

theorem passes_iff : b.passes u now ↔ b.applied u.dedupKey now = false ∧ b.hardBreach u.deltas = none := by
  simp [passes]

variable {reply : BudgetReply}

private theorem rejects_not_accepts (h : reply.rejects) : reply.accepts = false := by
  cases reply <;> first | rfl | cases h

theorem accepts_not_rejects (h : reply.accepts) : reply.rejects = false := by
  cases reply <;> first | rfl | cases h

theorem check_rejects (executionId : String) (h : b.passes u now = false) :
    (checkAndIncrement server executionId u now b).1.rejects ∧
      b.Same (checkAndIncrement server executionId u now b).2 := by
  unfold checkAndIncrement
  by_cases ha : b.applied u.dedupKey now
  · rw [if_pos ha]
    exact ⟨rfl,rfl,rfl,rfl⟩
  · rw [if_neg ha]
    cases hb : b.hardBreach u.deltas with
    | none => simp [passes,ha,hb] at h
    | some => exact ⟨rfl,rfl,rfl,rfl⟩

theorem check_passes (h : b.passes u now) (hp : b.Plain bound) (hb : bound ≤ 2 ^ 63)
    (hf : Fits bound (ownerOf executionId) u.deltas b.account) :
    (checkAndIncrement server executionId u now b).1.accepts ∧
      (checkAndIncrement server executionId u now b).2.Plain bound ∧
      (checkAndIncrement server executionId u now b).2.account = b.account.spend (ownerOf executionId) u.deltas ∧
      (checkAndIncrement server executionId u now b).2.hard = b.hard := by
  obtain ⟨ha,hn⟩ := passes_iff.mp h
  obtain ⟨soft,b₁,hall,hp₁,ha₁,hh₁⟩ := incrementAll_plain server none hp hb hf
  unfold checkAndIncrement
  rw [if_neg (by simp [ha]),hn]
  rw [hall]
  have hs : b₁.Same ((b₁.noteUpdate executionId u.nowMs).stamp u.dedupKey now) := by
    unfold stamp
    split <;> exact ⟨rfl,rfl,rfl⟩
  cases soft with
  | none => exact ⟨rfl,hs.plain hp₁,hs.account.trans ha₁,hs.hard.trans hh₁⟩
  | some =>
    have hs' : b₁.Same ((b₁.noteUpdate executionId u.nowMs).stamp u.dedupKey now).noteSoftBreach :=
      ⟨hs.usage,hs.byExec,hs.hard⟩
    exact ⟨rfl,hs'.plain hp₁,hs'.account.trans ha₁,hs'.hard.trans hh₁⟩

theorem read_release {usage ledger : Hash Numeral} (hu : usage.Plain (10 ^ 14))
    (hl : ledger.Plain (10 ^ 14)) (d : String) :
    (Hash.merge releaseField ledger usage).read d = .digits (usage.value d - ledger.value d) := by
  have hud := (hu d).1
  have hlt := (hl d).2
  have hult := (hu d).2
  unfold Hash.read at hud ⊢
  rw [Hash.lookup_merge]
  cases ht : ledger.lookup d with
  | none =>
    have hzero : ledger.value d = 0 := by simp [Hash.value,Hash.read,ht,value]
    rw [hzero]
    exact hud
  | some t =>
    have htext : t = .digits (ledger.value d) := by simpa [Hash.read,ht] using (hl d).1
    have hn : t.toNumber = ledger.value d := by rw [htext,toNumber_of_lt (by omega)]
    rw [Option.bind_some,releaseField,hn,hud,toNumber_of_lt (by omega)]
    by_cases hpos : 0 < ledger.value d
    · rw [if_pos hpos,double_of_lt (by omega),print_of_lt (by omega)]
      rfl
    · rw [if_neg hpos,show ledger.value d = 0 by omega]
      exact hud

theorem release_plain (executionId : String) (hp : b.Plain (10 ^ 14)) :
    (releaseBudget executionId b).2.Plain (10 ^ 14) ∧
      (releaseBudget executionId b).2.account = b.account.release executionId := by
  have hread := read_release hp.usage (hp.ledger executionId)
  obtain ⟨plain,value⟩ := Hash.Plain.of_read hread (fun d => Nat.lt_of_le_of_lt (Nat.sub_le _ _) (hp.usage d).2)
  unfold releaseBudget
  dsimp only
  split
  · rename_i hempty
    have hnone : b.byExec executionId = ∅ := AList.ext (isEmpty_iff.mp hempty)
    refine ⟨hp,Account.ext ?_ ?_⟩
    · funext d
      simp [Account.release,account,hnone,Hash.value,Numeral.value]
    · funext x d
      by_cases hx : x = executionId
      · simp [Account.release,account,hx,hnone,Hash.value,Numeral.value]
      · simp [Account.release,account,hx]
  · refine ⟨⟨plain,fun x => ?_⟩,Account.ext (funext value) ?_⟩
    · dsimp only
      split
      · exact Hash.plain_empty (by decide)
      · exact hp.ledger x
    · funext x d
      by_cases hx : x = executionId
      · simp [release,account,hx,Hash.value,Numeral.value]
      · simp [release,account,hx]

theorem reset_plain (nowMs : Nat) (hb : 0 < bound) (hp : b.Plain bound) :
    (resetBudget server nowMs b = (.raised,b)) ∨ ∃ next, (resetBudget server nowMs b).1 = .reset next ∧
        (resetBudget server nowMs b).2.Plain bound ∧ (resetBudget server nowMs b).2.account = b.account.reset := by
  have hread : ∀ d, (Hash.merge (fun _ _ => some (.digits 0)) b.usage b.usage).read d = .digits 0 := by
    intro d
    rw [Hash.read,Hash.lookup_merge]
    cases b.usage.lookup d <;> rfl
  obtain ⟨plain,value⟩ := Hash.Plain.of_read hread (fun _ => hb)
  unfold resetBudget
  split
  · exact .inl rfl
  · exact .inr ⟨_,rfl,⟨plain,hp.ledger⟩,Account.ext (funext value) rfl⟩

/-- A budget with the books: who has spent what since the last reset and not been released. -/
structure Audit where
  budget : Budget
  books : Books String String

def BudgetOp.book (op : BudgetOp) (reply : BudgetReply) (books : Books String String) : Books String String :=
  match op with
  | .recordSpend executionId a => if reply.accepts then books.record executionId a.deltas else books
  | .releaseBudget executionId => books.without executionId
  | .resetBudget _ => if reply = .raised then books else []
  | .reportUsageAndCheck _ => books

def auditNext (server : Server) (i : BudgetCall) (s : Audit) : Audit where
  budget := budgetNext server i s.budget
  books := i.op.book (budgetStep server i s.budget).1 s.books

/-- The usage is the sum of what is outstanding, in every dimension. -/
def Audit.conserved (s : Audit) : Prop := ∀ d, (s.budget.usage.read d).value = s.books.total d

def BudgetOp.attributed : BudgetOp → Bool
  | reportUsageAndCheck _ => false
  | recordSpend executionId _ => decide (executionId ≠ "")
  | releaseBudget _ | resetBudget _ => true

def BudgetCall.printable (i : BudgetCall) (b : Budget) : Bool :=
  match i.op with
  | .recordSpend executionId a => !b.passes a i.now || decide (Fits (10 ^ 14) (some executionId) a.deltas b.account)
  | _ => true

/-- An execution is released when its ledger has nothing from before the last reset, or no
other execution has anything outstanding. -/
def BudgetCall.releasesOwn (i : BudgetCall) (s : Audit) : Bool :=
  match i.op with
  | .releaseBudget x => (s.budget.byExec x).keys.all fun d =>
    decide (((s.budget.byExec x).read d).value = s.books.share x d ∨ (s.books.without x).total d = 0)
  | _ => true

/-- The counters are printable and the ledgers cover the books. -/
structure Audit.Sound (s : Audit) : Prop where
  plain : s.budget.Plain (10 ^ 14)
  covered : Covered s.budget.account s.books

variable {s : Audit} {i : BudgetCall}

inductive Booked (op : BudgetOp) (a : Account String String) (books : Books String String) :
    Account String String → Books String String → Prop
  | same (other : ∀ x, op ≠ .releaseBudget x) : Booked op a books a books
  | spent (x : String) (es : List (String × Nat)) (other : ∀ x, op ≠ .releaseBudget x) :
      Booked op a books (a.spend (some x) es) (books.record x es)
  | released (x : String) (hop : op = .releaseBudget x) : Booked op a books (a.release x) (books.without x)
  | reset (other : ∀ x, op ≠ .releaseBudget x) : Booked op a books a.reset []

theorem booked_next (hs : s.Sound) (ha : i.op.attributed) (hp : i.printable s.budget) :
    (auditNext server i s).budget.Plain (10 ^ 14) ∧
      Booked i.op s.budget.account s.books (auditNext server i s).budget.account
        (auditNext server i s).books := by
  obtain ⟨now,op⟩ := i
  cases op with
  | reportUsageAndCheck => cases ha
  | recordSpend x a =>
    have howner : ownerOf x = some x := if_neg (of_decide_eq_true ha)
    by_cases hpass : s.budget.passes a now
    · have hf : Fits (10 ^ 14) (some x) a.deltas s.budget.account := by
        simpa [BudgetCall.printable,hpass] using hp
      obtain ⟨accepts,plain,account,-⟩ := check_passes server hpass hs.plain (by decide) (howner ▸ hf)
      have books : (auditNext server ⟨now,.recordSpend x a⟩ s).books = s.books.record x a.deltas := if_pos accepts
      refine ⟨plain,?_⟩
      rw [books]
      exact account ▸ howner ▸ .spent x a.deltas (by simp)
    · obtain ⟨rejects,same⟩ := check_rejects server x (eq_false_of_ne_true hpass)
      have books : (auditNext server ⟨now,.recordSpend x a⟩ s).books = s.books :=
        if_neg (ne_true_of_eq_false (rejects_not_accepts rejects))
      refine ⟨same.plain hs.plain,?_⟩
      rw [books]
      exact same.account ▸ .same (by simp)
  | releaseBudget x =>
    obtain ⟨plain,account⟩ := release_plain x hs.plain
    exact ⟨plain,account ▸ .released x rfl⟩
  | resetBudget nowMs =>
    rcases reset_plain server nowMs (by decide) hs.plain with hr | ⟨next,hr,plain,account⟩
    · have hn : auditNext server ⟨now,.resetBudget nowMs⟩ s = s := by
        simp [auditNext,budgetNext,budgetStep,hr,BudgetOp.book]
      rw [hn]
      exact ⟨hs.plain,.same (by simp)⟩
    · have books : (auditNext server ⟨now,.resetBudget nowMs⟩ s).books = [] := by
        simp [auditNext,budgetStep,hr,BudgetOp.book]
      refine ⟨plain,?_⟩
      rw [books]
      exact account ▸ .reset (by simp)

variable {a' : Account String String} {books books' : Books String String} {op : BudgetOp}

theorem Booked.covered (h : Booked op a books a' books') (hc : Covered a books) : Covered a' books' := by
  cases h with
  | same => exact hc
  | spent => exact hc.spend
  | released => exact hc.release
  | reset => exact covered_nil _

theorem Booked.conserved_iff (h : Booked op a books a' books') (hc : Covered a books) (hs : Conserved a books) :
    Conserved a' books' ↔ ∀ x, op = .releaseBudget x → ∀ d,
      a.ledger x d = books.share x d ∨ (books.without x).total d = 0 := by
  have kept : (∀ x, op ≠ .releaseBudget x) → Conserved a' books' → (Conserved a' books' ↔ ∀ x,
      op = .releaseBudget x → ∀ d, a.ledger x d = books.share x d ∨ (books.without x).total d = 0) :=
    fun other conserved => iff_of_true conserved fun x hx => absurd hx (other x)
  cases h with
  | same other => exact kept other hs
  | spent x es other => exact kept other hs.spend
  | reset other => exact kept other (conserved_reset _)
  | released x hop =>
    rw [conserved_release_iff hs hc]
    constructor
    · intro own y hy
      obtain rfl : x = y := by simpa [hop] using hy
      exact own
    · exact fun own => own x hop

theorem releasesOwn_iff (hc : Covered s.budget.account s.books) : i.releasesOwn s ↔ ∀ x, i.op = .releaseBudget x → ∀ d,
      s.budget.account.ledger x d = s.books.share x d ∨ (s.books.without x).total d = 0 := by
  unfold BudgetCall.releasesOwn
  split
  · rename_i x hop
    rw [all_eq_true]
    constructor
    · intro h y hy d
      obtain rfl : x = y := by simpa [hop] using hy
      by_cases hd : d ∈ (s.budget.byExec x).keys
      · exact of_decide_eq_true (h d hd)
      · have hnone : (s.budget.byExec x).lookup d = none := AList.lookup_eq_none.mpr hd
        have hzero : s.budget.account.ledger x d = 0 := by simp [account,Hash.value,Hash.read,hnone,value]
        have hle := hc x d
        exact .inl (by omega)
    · exact fun h d _ => decide_eq_true (h x hop d)
  · rename_i other
    exact iff_of_true rfl fun x hx => absurd hx (other x)

theorem plain_new (a : CreateBudgetArgs) (h : 0 < bound) : (newBudget a).Plain bound :=
  ⟨Hash.plain_empty h,fun _ => Hash.plain_empty h⟩

/-- The usage of a budget is the sum over the executions of what they have spent since the last
reset and what has not been released, throughout a run whose counters stay printable, exactly
if no execution is released with spends from before a reset while others have outstanding
ones. -/
theorem usage_is_outstanding (server : Server) (a : CreateBudgetArgs) (calls : List BudgetCall)
    (ha : ∀ i ∈ calls, i.op.attributed)
    (hp : Along (auditNext server) (fun s i => i.printable s.budget) ⟨newBudget a,[]⟩ calls) :
    Throughout (auditNext server) Audit.conserved ⟨newBudget a,[]⟩ calls ↔
      Along (auditNext server) (fun s i => i.releasesOwn s) ⟨newBudget a,[]⟩ calls := by
  have start : (⟨newBudget a,[]⟩ : Audit).Sound := ⟨plain_new a (by decide),covered_nil _⟩
  have sound : ∀ s i, s.Sound → (i.op.attributed = true ∧ i.printable s.budget) → (auditNext server i s).Sound := by
    intro s i hs hi
    obtain ⟨plain,booked⟩ := booked_next server hs hi.1 hi.2
    exact ⟨plain,booked.covered hs.covered⟩
  refine throughout_iff_along_of sound ?_ start ((Along.of_forall ha _).and hp) fun _ => rfl
  intro s i hs hi conserved
  rw [releasesOwn_iff hs.covered]
  exact ((booked_next server hs hi.1 hi.2).2.conserved_iff hs.covered conserved).symm

/-! Two executions of one budget, for concrete runs. -/
namespace Client

def spend (now : Nat) (executionId : String) (tokens : Nat) : BudgetCall :=
  ⟨now,.recordSpend executionId { deltas := [("tokens",tokens)], nowMs := now }⟩

def tokenBudget (limit : Nat) : Budget := newBudget { nowMs := 0, dimensions := [("tokens",limit,0)] }

theorem release_keeps_other_spend : let calls := [spend 1 "A" 5,spend 2 "B" 7,⟨3,.releaseBudget "A"⟩]
    Throughout (auditNext .strict) Audit.conserved ⟨tokenBudget 100,[]⟩ calls ∧
      ((runFrom (auditNext .strict) ⟨tokenBudget 100,[]⟩ calls).budget.usage.read "tokens") = .digits 7 :=
  ⟨(usage_is_outstanding .strict _ _ (by decide) (by decide +kernel)).mpr (by decide +kernel),
    by decide +kernel⟩

/-- What B has spent after the reset goes with the release of A. -/
theorem release_removes_other_spend :
    let calls := [spend 1 "A" 5,⟨2,.resetBudget 2⟩,spend 3 "B" 7,⟨4,.releaseBudget "A"⟩]
    let s := runFrom (auditNext .strict) ⟨tokenBudget 100,[]⟩ calls
    s.budget.usage.read "tokens" = .digits 2 ∧ s.books = [("B","tokens",7)] ∧ s.books.total "tokens" = 7 := by
  decide +kernel

end Client
end FlowFabric
