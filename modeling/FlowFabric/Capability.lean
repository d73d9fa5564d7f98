import FlowFabric.Foundation.Label
import FlowFabric.Refusal
import FlowFabric.Standing

/-! Required capabilities from the policy of a new execution to the check of a grant. -/
namespace FlowFabric
open Foundation List

/-- routing_requirements.required_capabilities of a policy. -/
def requiredCapabilitiesField : JsonText → Option Json
  | .doc policy => (policy.field "routing_requirements").bind (·.field "required_capabilities")
  | _ => none

/-- The tokens are the texts of the field, and none without a list there. -/
def Lists (policy : JsonText) (tokens : List String) : Prop :=
  match requiredCapabilitiesField policy with
  | none => tokens = []
  | some (.arr items) => ∀ cap, cap ∈ tokens ↔ .str cap ∈ items
  | some _ => False

structure ProperToken (cap : String) : Prop where
  nonempty : cap ≠ ""
  unseparated : ',' ∉ cap.toList

/-- The text stored for a policy stands for these tokens. -/
structure StoredAs (policy : JsonText) (csv : String) (tokens : List String) : Prop where
  parsed : ∀ kind, parseCapabilityCsv csv kind = .ok tokens
  proper : ∀ cap ∈ tokens, ProperToken cap
  lists : Lists policy tokens ↔ ∀ fields, requiredCapabilitiesField policy ≠ some (.obj fields)

section
variable {policy : JsonText} {csv : String} {list : List String}

private theorem checkCapability_ok {j : Json} {cap : String} (h : checkCapability j = .ok cap) :
    j = .str cap ∧ ProperToken cap := by
  cases j with
  | str t =>
    simp only [checkCapability,bind_ok,ensure_ok,pure_ok] at h
    obtain ⟨_,ne,_,unseparated,_,-,rfl⟩ := h
    exact ⟨rfl,ne,unseparated⟩
  | _ => cases h

private theorem mapM_checkCapability_ok {items : List Json} (h : items.mapM checkCapability = .ok list) :
    items = list.map .str ∧ ∀ cap ∈ list, ProperToken cap := by
  induction items generalizing list with
  | nil =>
    cases h
    simp
  | cons j items ih =>
    rw [mapM_cons] at h
    simp only [bind_ok,pure_ok] at h
    obtain ⟨cap,hcap,rest,hrest,rfl⟩ := h
    obtain ⟨rfl,proper⟩ := checkCapability_ok hcap
    obtain ⟨rfl,others⟩ := ih hrest
    exact ⟨rfl,forall_mem_cons.mpr ⟨proper,others⟩⟩

theorem tokens_intercalate (h : ∀ cap ∈ list, ProperToken cap) :
    (((",".intercalate list).toList.splitOn ',').filter fun t => !t.isEmpty).map String.ofList = list := by
  cases list with
  | nil => rfl
  | cons cap rest =>
    have back := @splitOn_intercalate_texts ',' "," rfl _ (fun t ht => (h t ht).unseparated) (cons_ne_nil cap rest)
    have full : ∀ t ∈ (",".intercalate (cap :: rest)).toList.splitOn ',', (!t.isEmpty) = true := by
      intro t ht
      have hm : String.ofList t ∈ cap :: rest := by
        rw [← back]
        exact mem_map_of_mem ht
      have ne := (h _ hm).nonempty
      cases t with
      | nil => exact (ne rfl).elim
      | cons => rfl
    rw [filter_eq_self.mpr full]
    exact back

private theorem parseCapabilityCsv_intercalate (h : ∀ cap ∈ list, ProperToken cap) (few : list.length ≤ capsMaxTokens)
    (short : (",".intercalate list).utf8ByteSize ≤ capsMaxBytes) (kind : String) :
    parseCapabilityCsv (",".intercalate list) kind = .ok list := by
  simp only [parseCapabilityCsv,tokens_intercalate h,bind_ok,ensure_ok,pure_ok]
  exact ⟨(),short,(),few,trivial⟩

theorem storedAs_nil (hn : requiredCapabilitiesField policy = none) : StoredAs policy "" [] :=
  ⟨fun _ => rfl,by simp,by simp [Lists,hn]⟩

private theorem requiredCapabilitiesCsv_ok (h : requiredCapabilitiesCsv policy = .ok csv) :
    ∃ tokens, StoredAs policy csv tokens := by
  cases policy with
  | empty =>
    cases h
    exact ⟨[],storedAs_nil rfl⟩
  | malformed => cases h
  | doc policy =>
    cases hr : policy.field "routing_requirements" with
    | none =>
      simp only [requiredCapabilitiesCsv,hr] at h
      cases h
      exact ⟨[],storedAs_nil (by simp [requiredCapabilitiesField,hr])⟩
    | some routing =>
      simp only [requiredCapabilitiesCsv,hr,bind_ok,ensure_ok] at h
      obtain ⟨_,-,h⟩ := h
      cases hf : routing.field "required_capabilities" with
      | none =>
        simp only [hf] at h
        cases h
        exact ⟨[],storedAs_nil (by simp [requiredCapabilitiesField,hr,hf])⟩
      | some caps =>
        have field : requiredCapabilitiesField (.doc policy) = some caps := by simp [requiredCapabilitiesField,hr,hf]
        simp only [hf,bind_ok,ensure_ok,pure_ok] at h
        obtain ⟨_,table,list,checked,_,few,_,short,rfl⟩ := h
        obtain ⟨items,proper⟩ := mapM_checkCapability_ok checked
        have proper' : ∀ cap ∈ list.insertionSort (· ≤ ·), ProperToken cap := by simpa using proper
        refine ⟨_,parseCapabilityCsv_intercalate proper' (by simpa using few) short,proper',?_⟩
        cases caps with
        | arr values =>
          have values_eq : values = list.map .str := items
          simp [Lists,field,values_eq]
        | obj fields => simp [Lists,field]
        | _ => cases table

theorem intercalate_eq_empty (h : ∀ cap ∈ list, ProperToken cap) : ",".intercalate list = "" ↔ list = [] := by
  constructor
  · intro he
    have back := tokens_intercalate h
    rw [he] at back
    exact back.symm
  · rintro rfl
    rfl

theorem missingCapabilities_eq_empty {required : List String} (proper : ∀ cap ∈ required, ProperToken cap)
    (worker : List String) : missingCapabilities required worker = "" ↔ ∀ cap ∈ required, cap ∈ worker := by
  have some_proper : ∀ cap ∈ (required.dedup.filter fun cap => decide (cap ∉ worker)).insertionSort (· ≤ ·),
      ProperToken cap := by
    intro cap hc
    simp only [mem_insertionSort,mem_filter,mem_dedup] at hc
    exact proper cap hc.1
  rw [missingCapabilities,intercalate_eq_empty some_proper,← length_eq_zero_iff,length_insertionSort,
    length_eq_zero_iff]
  simp

theorem matchCapabilities_ok_iff {c : ExecCore} {tokens worker : List String}
    (required : parseCapabilityCsv c.requiredCapabilities "required" = .ok tokens)
    (proper : ∀ cap ∈ tokens, ProperToken cap) (offered : parseCapabilityCsv csv "worker" = .ok worker) :
    matchCapabilities c csv = .ok () ↔ ∀ cap ∈ tokens, cap ∈ worker := by
  rw [← missingCapabilities_eq_empty proper]
  simp [matchCapabilities,required,offered]

def Store.requires (caps : String) (s : Store) : Prop := ∃ c, s.core = some c ∧ c.requiredCapabilities = caps

theorem next_requires {caps : String} (s : Store) (i : Call) (h : s.requires caps) : (next i s).requires caps := by
  obtain ⟨c,hc,hr⟩ := h
  cases (next_effect i s).advances with
  | kept core => exact ⟨c,core.trans hc,hr⟩
  | aside hc' ht stands | off hc' ht stands | scored hc' ht stands =>
    cases hc.symm.trans hc'
    exact ⟨_,ht,stands.requiredCapabilities.trans hr⟩
  | prioritized a hop hc' ht =>
    cases hc.symm.trans hc'
    exact ⟨_,ht,hr⟩
  | created a hop absent => simp [absent] at hc

end

/-- From the creation of an execution on, whatever happens to it later. -/
theorem capabilities_exact_iff (calls later : List Call) (now : Int) (a : CreateArgs)
    (absent : (run calls).core = none) (fresh : a.idempotencyHit = none) :
    let i : Call := ⟨now,.create a⟩
    ((step i (run calls)).1.isError ∧ next i (run calls) = run calls) ∨
      ∃ c tokens, (run (calls ++ i :: later)).core = some c ∧
        parseCapabilityCsv c.requiredCapabilities "required" = .ok tokens ∧
        (Lists a.policyJson tokens ↔ ∀ fields, requiredCapabilitiesField a.policyJson ≠ some (.obj fields)) ∧
        ∀ csv worker, parseCapabilityCsv csv "worker" = .ok worker →
          (matchCapabilities c csv = .ok () ↔ ∀ cap ∈ tokens, cap ∈ worker) := by
  intro i
  rcases step_cases i (run calls) with refused | ho
  · exact .inl refused
  · right
    simp only [i,Op.outcome,createExecution,fresh,absent,bind_ok,pure_ok,Prod.mk.injEq] at ho
    obtain ⟨priority,-,caps,hcaps,-,hnext⟩ := ho
    have start : (next i (run calls)).requires caps := ⟨_,congrArg Store.core hnext.symm,rfl⟩
    obtain ⟨c,hc,hr⟩ := runFrom_invariant next_requires start later
    obtain ⟨tokens,stored⟩ := requiredCapabilitiesCsv_ok hcaps
    refine ⟨c,tokens,?_,hr ▸ stored.parsed _,stored.lists,fun csv worker offered => ?_⟩
    · rw [run,runFrom_append]
      exact hc
    · exact matchCapabilities_ok_iff (hr ▸ stored.parsed _) stored.proper offered

namespace Client

def demanding (caps : Json) : CreateArgs :=
  { executionId := "e", priority := .number 5, schedulingZset := .eligible
    policyJson := .doc (.obj [("routing_requirements",.obj [("required_capabilities",caps)])]) }

theorem capabilities_exact_gpu : ((run []).core = none ∧ (demanding (.arr [.str "gpu"])).idempotencyHit = none) ∧
    ∃ c tokens, (run [⟨10,.create (demanding (.arr [.str "gpu"]))⟩]).core = some c ∧
      parseCapabilityCsv c.requiredCapabilities "required" = .ok tokens ∧
      Lists (demanding (.arr [.str "gpu"])).policyJson tokens := by
  refine ⟨⟨rfl,rfl⟩,?_⟩
  rcases capabilities_exact_iff [] [] 10 (demanding (.arr [.str "gpu"])) rfl rfl with ⟨h,-⟩ | ⟨c,tokens,hc,hp,hl,-⟩
  · exact absurd h (by decide)
  · exact ⟨c,tokens,hc,hp,hl.mpr fun fields hf => by cases hf⟩

/-- A requirement written as an object is no requirement. -/
theorem capabilities_object : (step ⟨10,.create (demanding (.obj [("gpu",.bool true)]))⟩ (run [])).1.isError = false ∧
      ∃ c, (run [⟨10,.create (demanding (.obj [("gpu",.bool true)]))⟩]).core = some c ∧
        parseCapabilityCsv c.requiredCapabilities "required" = .ok [] ∧ matchCapabilities c "" = .ok () :=
  ⟨by decide,_,rfl,rfl,rfl⟩

end Client
end FlowFabric
