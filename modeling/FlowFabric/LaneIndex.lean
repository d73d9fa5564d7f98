import Mathlib.Data.Prod.Lex
import FlowFabric.Foundation.Hash
import FlowFabric.System

/-! What a partition stores for the executions of a lane, and the indexes of the lane in the order
in which a range command lists them. -/
namespace FlowFabric
open Foundation List

structure LanePartition where
  executions : Hash Store

namespace LanePartition
variable (p : LanePartition) (i : Index)

/-- Nothing has been written for an execution that has no keys. -/
def store (e : String) : Store := (p.executions.lookup e).getD (run [])

def put (e : String) (s : Store) : LanePartition := ⟨p.executions.insert e s⟩

/-- The entries of an index, in no order. -/
def scores : List (Int × String) := p.executions.entries.filterMap fun x => (x.2.zset i).map fun score => (score,x.1)

def ranked : List (Int × String) := (p.scores i).insertionSort fun x y => toLex x ≤ toLex y

def index : List String := (p.ranked i).map Prod.snd

variable {p i} {e : String} {s : Store}

theorem store_put (x : String) : (p.put e s).store x = if x = e then s else p.store x := by
  unfold store put
  rw [Hash.lookup_insert]
  split <;> rfl

variable {x : Int × String}

private theorem mem_scores : x ∈ p.scores i ↔ (p.store x.2).zset i = some x.1 := by
  obtain ⟨score,e⟩ := x
  simp only [scores,mem_filterMap,Option.map_eq_some_iff,Prod.mk.injEq]
  constructor
  · rintro ⟨y,hy,z,hz,rfl,rfl⟩
    have hl : p.executions.lookup y.1 = some y.2 := AList.mem_lookup_iff.mpr hy
    rw [store,hl,Option.getD_some,hz]
  · intro h
    unfold store at h
    cases hl : p.executions.lookup e with
    | none =>
      rw [hl] at h
      cases h
    | some s =>
      rw [hl,Option.getD_some] at h
      exact ⟨⟨e,s⟩,AList.mem_lookup_iff.mp hl,score,h,rfl,rfl⟩

theorem mem_ranked : x ∈ p.ranked i ↔ (p.store x.2).zset i = some x.1 := by rw [ranked,mem_insertionSort,mem_scores]

theorem mem_index : e ∈ p.index i ↔ ((p.store e).zset i).isSome := by
  simp only [index,mem_map,mem_ranked]
  constructor
  · rintro ⟨x,hx,rfl⟩
    rw [hx,Option.isSome_some]
  · intro h
    obtain ⟨score,hs⟩ := Option.isSome_iff_exists.mp h
    exact ⟨(score,e),hs,rfl⟩

theorem nodup_members : ((p.scores i).map Prod.snd).Nodup := by
  have sublist : ∀ l : List ((_ : String) × Store),
      ((l.filterMap fun x => (x.2.zset i).map fun score => (score,x.1)).map Prod.snd).Sublist (l.map Sigma.fst) := by
    intro l
    induction l with
    | nil => exact .slnil
    | cons x l ih =>
      cases hx : x.2.zset i with
      | none => simpa [hx] using ih.cons x.1
      | some => simpa [hx] using ih.cons_cons x.1
  exact List.Nodup.sublist (sublist _) p.executions.nodupKeys

theorem nodup_ranked : (p.ranked i).Nodup := (perm_insertionSort _ _).nodup_iff.mpr nodup_members.of_map

theorem nodup_index : (p.index i).Nodup := ((perm_insertionSort _ _).map Prod.snd).nodup_iff.mpr nodup_members

theorem index_put (h : s.zset i = none) : (p.put e s).index i = (p.index i).filter (· ≠ e) := by
  have perm : ((p.put e s).ranked i).Perm ((p.ranked i).filter (·.2 ≠ e)) := by
    refine (perm_ext_iff_of_nodup nodup_ranked (nodup_ranked.filter _)).mpr fun x => ?_
    rw [mem_filter,mem_ranked,mem_ranked,store_put]
    by_cases hx : x.2 = e <;> simp [hx,h]
  have same : (p.put e s).ranked i = (p.ranked i).filter (·.2 ≠ e) := by
    refine perm.eq_of_pairwise (fun x y _ _ hxy hyx => toLex_inj.mp (le_antisymm hxy hyx)) ?_ ?_
    · exact pairwise_insertionSort _ _
    · exact (pairwise_insertionSort _ _).filter _
  rw [index,same,index,filter_map]
  rfl

end LanePartition
end FlowFabric
