import FlowFabric.Foundation.Paging
import FlowFabric.Foundation.SortedMap

/-! Readers that follow a growing table behind a cursor, which is the key of the last row they took. A page is
read at one time and its rows are taken one by one, so that what was read may reach beyond the cursor. -/
namespace FlowFabric.Foundation
open SortedMap List
variable {κ α : Type} [LinearOrder κ]

def beyond (c : κ) (rows : List (κ × α)) : List (κ × α) := rows.filter fun e => c < e.1

private theorem filter_beyond {c d : κ} {rows : List (κ × α)} (hcd : c ≤ d) :
    (beyond c rows).filter (fun e => d < e.1) = beyond d rows := by
  rw [beyond,filter_filter,beyond]
  apply filter_congr
  intro e _
  simpa using lt_of_le_of_lt hcd

/-! ### The reader -/

/-- The cursor, the rest of the page that was read, and the rows that were taken. -/
structure Reader (κ α : Type) where
  seen : κ
  (page got : List (κ × α) := [])

namespace Reader
section
variable {κ α : Type} (r : Reader κ α)

def edge : κ := (r.page.getLast?.map Prod.fst).getD r.seen

def takeAll : Reader κ α := { seen := r.edge, page := [], got := r.got ++ r.page }

end

def fetch (limit : Nat) (rows : List (κ × α)) (r : Reader κ α) : Reader κ α :=
  { r with page := (beyond r.seen rows).take limit }

variable {r : Reader κ α} {rows : List (κ × α)} {limit : Nat}

theorem seen_le_edge_fetch : r.seen ≤ (r.fetch limit rows).edge := by
  rw [edge]
  cases hl : (r.fetch limit rows).page.getLast? with
  | none => exact le_refl _
  | some => exact le_of_lt (of_decide_eq_true (mem_filter.mp (mem_of_mem_take (mem_of_getLast? hl))).2)

theorem beyond_edge_fetch (hs : Sorted rows) :
    beyond (r.fetch limit rows).edge rows = (beyond r.seen rows).drop limit := by
  have split : (r.fetch limit rows).page ++ (beyond r.seen rows).drop limit = beyond r.seen rows :=
    take_append_drop limit (beyond r.seen rows)
  have past : r.seen ≤ (r.fetch limit rows).edge := seen_le_edge_fetch
  rw [edge] at past ⊢
  cases hl : (r.fetch limit rows).page.getLast? with
  | none =>
    rw [List.getLast?_eq_none_iff.mp hl,nil_append] at split
    exact split.symm
  | some e =>
    obtain ⟨front,hfront⟩ := List.getLast?_eq_some_iff.mp hl
    rw [hl] at past
    rw [hfront,append_assoc] at split
    have sorted : (beyond r.seen rows).Pairwise (·.1 < ·.1) := pairwise_map.mp hs.filter
    rw [← split] at sorted
    have rest := filter_lt_of_split Prod.fst sorted
    change (front ++ ([e] ++ _)).filter _ = _ at rest
    rw [split] at rest
    exact (filter_beyond past).symm.trans rest

def read (rows : List (κ × α)) (limit : Nat) (r : Reader κ α) : Reader κ α := (r.fetch limit rows).takeAll

theorem seen_read : (r.read rows limit).seen = (r.fetch limit rows).edge := rfl

theorem got_read : (r.read rows limit).got = r.got ++ (beyond r.seen rows).take limit := rfl

theorem got_reads (hs : Sorted rows) {limits : List Nat} (hl : ∀ limit ∈ limits, 0 < limit)
    (hn : (beyond r.seen rows).length ≤ limits.length) :
    (runFrom (read rows) r limits).got = r.got ++ beyond r.seen rows := by
  induction limits generalizing r with
  | nil =>
    have empty : beyond r.seen rows = [] := length_eq_zero_iff.mp (Nat.le_zero.mp hn)
    rw [empty,append_nil]
    rfl
  | cons limit limits ih =>
    obtain ⟨pos,hl⟩ := forall_mem_cons.mp hl
    rw [runFrom,ih hl]
    · rw [seen_read,beyond_edge_fetch hs,got_read,append_assoc,take_append_drop]
    · rw [seen_read,beyond_edge_fetch hs,length_drop]
      rw [length_cons] at hn
      omega

end Reader
end FlowFabric.Foundation
