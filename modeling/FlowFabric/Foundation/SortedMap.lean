import Mathlib.Order.Lattice
import Mathlib.Data.List.Basic

/-! Ordered maps as lists of entries with increasing keys. -/
namespace FlowFabric.Foundation.SortedMap
open List Prod
variable {κ β : Type} [LinearOrder κ] {m : List (κ × β)} (es : List (κ × β)) {e : κ × β} {k : κ} {v : β}

def Sorted (m : List (κ × β)) : Prop := (m.map fst).Pairwise (· < ·)

def put (k : κ) (v : β) : List (κ × β) → List (κ × β)
  | [] => [(k,v)]
  | e :: es => if k < e.1 then (k,v) :: e :: es else if k = e.1 then (k,v) :: es else e :: put k v es

theorem mem_keys_put {k' : κ} : k' ∈ (put k v m).map fst ↔ k' = k ∨ k' ∈ m.map fst := by
  induction m with
  | nil => simp [put]
  | cons e es ih =>
    rw [put]
    split
    · simp
    · split
      · rename_i h
        simp [h]
      · rw [map_cons,mem_cons,ih,map_cons,mem_cons,or_left_comm]

theorem Sorted.put (h : Sorted m) (k : κ) (v : β) : Sorted (put k v m) := by
  induction m with
  | nil => exact pairwise_singleton _ k
  | cons e es ih =>
    have hc := pairwise_cons.mp h
    rw [SortedMap.put]
    split
    · rename_i hk
      refine pairwise_cons.mpr ⟨?_,h⟩
      intro k' hk'
      rcases mem_cons.mp hk' with rfl | hk'
      · exact hk
      · exact lt_trans hk (hc.1 k' hk')
    · split
      · rename_i he
        subst he
        exact pairwise_cons.mpr hc
      · rename_i hlt hne
        refine pairwise_cons.mpr ⟨?_,ih hc.2⟩
        intro k' hk'
        rcases mem_keys_put.mp hk' with rfl | hk'
        · exact lt_of_le_of_ne (not_lt.mp hlt) (Ne.symm hne)
        · exact hc.1 k' hk'

theorem mem_of_mem_put (h : e ∈ put k v m) : e = (k,v) ∨ e ∈ m := by
  induction m with
  | nil => exact .inl (mem_singleton.mp h)
  | cons e' es ih =>
    rw [put] at h
    split at h
    · exact mem_cons.mp h
    · split at h
      · exact (mem_cons.mp h).imp_right (mem_cons_of_mem e')
      · rcases mem_cons.mp h with rfl | h
        · exact .inr mem_cons_self
        · exact (ih h).imp_right (mem_cons_of_mem e')

/-- Write the entries in turn. A key that comes again gets the later value. -/
def ofList (es : List (κ × β)) : List (κ × β) := es.foldl (fun m e => put e.1 e.2 m) []

private theorem sorted_foldl_put (h : Sorted m) (es : List (κ × β)) :
    Sorted (es.foldl (fun m e => put e.1 e.2 m) m) := by
  induction es generalizing m with
  | nil => exact h
  | cons e es ih => exact ih (h.put e.1 e.2)

theorem sorted_ofList : Sorted (ofList es) := sorted_foldl_put (m := []) List.Pairwise.nil es

private theorem mem_keys_foldl_put (m : List (κ × β)) :
    k ∈ (es.foldl (fun m e => put e.1 e.2 m) m).map fst ↔ k ∈ es.map fst ∨ k ∈ m.map fst := by
  induction es generalizing m with
  | nil => simp
  | cons e es ih => rw [foldl_cons,ih,mem_keys_put,map_cons,mem_cons,or_left_comm,or_assoc]

theorem mem_keys_ofList {es : List (κ × β)} : k ∈ (ofList es).map fst ↔ k ∈ es.map fst := by
  rw [ofList,mem_keys_foldl_put]
  exact or_iff_left not_mem_nil

theorem mem_of_mem_foldl_put (m : List (κ × β)) (h : e ∈ es.foldl (fun m e => put e.1 e.2 m) m) : e ∈ es ∨ e ∈ m := by
  induction es generalizing m with
  | nil => exact .inr h
  | cons e' es ih =>
    rcases ih _ h with h | h
    · exact .inl (mem_cons_of_mem e' h)
    · rcases mem_of_mem_put h with rfl | h
      · exact .inl mem_cons_self
      · exact .inr h

theorem mem_of_mem_ofList {es : List (κ × β)} (h : e ∈ ofList es) : e ∈ es :=
  (mem_of_mem_foldl_put es [] h).resolve_right not_mem_nil

theorem Sorted.filter_key (h : Sorted m) (he : e ∈ m) : m.filter (fun e' => e'.1 = e.1) = [e] := by
  induction m with
  | nil => cases he
  | cons e' es ih =>
    have hc := pairwise_cons.mp h
    rcases mem_cons.mp he with rfl | he
    · have rest : es.filter (fun e' => e'.1 = e.1) = [] := by
        rw [filter_eq_nil_iff]
        intro e' he' hk
        have hlt := hc.1 e'.1 (mem_map_of_mem he')
        exact absurd (of_decide_eq_true hk) (ne_of_gt hlt)
      rw [filter_cons_of_pos (by simp),rest]
    · have hlt := hc.1 e.1 (mem_map_of_mem he)
      rw [filter_cons_of_neg (by simpa using ne_of_lt hlt)]
      exact ih hc.2 he

/-! ### Tables that grow -/

theorem filter_put {q : κ × β → Bool} (hk : k ∉ m.map fst) (hq : q (k,v) = false) :
    (put k v m).filter q = m.filter q := by
  induction m with
  | nil => simp [put,hq]
  | cons e es ih =>
    obtain ⟨hne,hk⟩ := not_or.mp (mem_cons.not.mp hk)
    rw [put,if_neg hne]
    split
    · rw [filter_cons_of_neg (by simp [hq])]
    · rw [filter_cons,filter_cons,ih hk]

theorem mem_put (hk : k ∉ m.map fst) : e ∈ put k v m ↔ e = (k,v) ∨ e ∈ m := by
  refine ⟨mem_of_mem_put,?_⟩
  induction m with
  | nil => simp [put]
  | cons e' es ih =>
    obtain ⟨hne,hk⟩ := not_or.mp (mem_cons.not.mp hk)
    rw [put,if_neg hne]
    split
    · exact mem_cons.mpr
    · rintro (rfl | he)
      · exact mem_cons_of_mem e' (ih hk (.inl rfl))
      · rcases mem_cons.mp he with rfl | he
        · exact mem_cons_self
        · exact mem_cons_of_mem e' (ih hk (.inr he))

theorem filter_le_append_filter_lt (hs : Sorted m) (d : κ) :
    m.filter (fun e => e.1 ≤ d) ++ m.filter (fun e => d < e.1) = m := by
  induction m with
  | nil => rfl
  | cons e es ih =>
    obtain ⟨hlt,hs⟩ := pairwise_cons.mp hs
    by_cases hd : e.1 ≤ d
    · rw [filter_cons_of_pos (by simpa using hd),cons_append,filter_cons_of_neg (by simpa using hd),ih hs]
    · have later : ∀ e' ∈ e :: es, d < e'.1 := by
        intro e' he'
        rcases mem_cons.mp he' with rfl | he'
        · exact not_le.mp hd
        · exact lt_trans (not_le.mp hd) (hlt e'.1 (mem_map_of_mem he'))
      have front : (e :: es).filter (fun e => e.1 ≤ d) = [] := by
        rw [filter_eq_nil_iff]
        intro e' he'
        simpa using later e' he'
      have back : (e :: es).filter (fun e => d < e.1) = e :: es := by
        rw [filter_eq_self]
        intro e' he'
        simpa using later e' he'
      rw [front,back,nil_append]

theorem Sorted.filter {p : κ × β → Bool} (hs : Sorted m) : Sorted (m.filter p) := hs.sublist (filter_sublist.map fst)

end FlowFabric.Foundation.SortedMap
