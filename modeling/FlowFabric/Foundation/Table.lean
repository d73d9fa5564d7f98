import Mathlib.Data.List.AList

/-! Tables with a primary key, and the statements that write one row of them. -/
namespace FlowFabric.Foundation
open List Option AList

abbrev Table (κ β : Type) := AList fun _ : κ => β

namespace Table
variable {κ β γ : Type} [DecidableEq κ] (p : κ × β → Bool) (k k' : κ) {t : Table κ β} (f : β → β)

theorem lookup_insert (row : β) (t : Table κ β) :
    (t.insert k row).lookup k' = if k' = k then some row else t.lookup k' := by
  by_cases h : k' = k
  · subst h
    simp
  · rw [lookup_insert_ne h,if_neg h]

/-- Write the row under the key. Without such a row nothing is written. -/
def update (k : κ) (f : β → β) (t : Table κ β) : Table κ β :=
  match t.lookup k with
  | some row => t.insert k (f row)
  | none => t

@[simp] theorem lookup_update (t : Table κ β) :
    (t.update k f).lookup k' = if k' = k then (t.lookup k).map f else t.lookup k' := by
  unfold update
  cases hk : t.lookup k with
  | some => rw [lookup_insert,map_some]
  | none =>
    by_cases h : k' = k
    · rw [h,hk,if_pos rfl,map_none]
    · rw [if_neg h]

/-- Insert the row, or write the one that is there already. -/
def upsert (k : κ) (new : β) (f : β → β) (t : Table κ β) : Table κ β := t.insert k (((t.lookup k).map f).getD new)

@[simp] theorem lookup_upsert (new : β) (f : β → β) (t : Table κ β) : (t.upsert k new f).lookup k' =
      if k' = k then some (((t.lookup k).map f).getD new) else t.lookup k' :=
  lookup_insert k k' _ t

theorem map_lookup_update {g : β → γ} {f : β → β} (h : ∀ row, g (f row) = g row) (k k' : κ)
    (t : Table κ β) : ((t.update k f).lookup k').map g = (t.lookup k').map g := by
  rw [lookup_update]
  by_cases hk : k' = k
  · subst hk
    cases t.lookup k' <;> simp [h]
  · rw [if_neg hk]

def rows (t : Table κ β) : List (κ × β) := t.entries.map fun e => (e.1,e.2)

theorem mem_rows {k : κ} {row : β} : (k,row) ∈ t.rows ↔ t.lookup k = some row := by
  rw [← Option.mem_def,mem_lookup_iff,rows,List.mem_map]
  constructor
  · rintro ⟨e,he,hk⟩
    cases hk
    exact he
  · exact fun h => ⟨⟨k,row⟩,h,rfl⟩

theorem countP_erase (t : Table κ β) :
    t.rows.countP p = (rows (t.erase k)).countP p + (t.lookup k).elim 0 fun row => (p (k,row)).toNat := by
  by_cases hk : k ∈ t.entries.keys
  · obtain ⟨row,before,after,-,he,hr⟩ := exists_of_kerase hk
    have hrow : t.lookup k = some row := by
      rw [← mem_def,mem_lookup_iff,he]
      exact mem_append_right before mem_cons_self
    have herase : (t.erase k).entries = before ++ after := hr
    rw [hrow,rows,rows,herase,he]
    simp only [map_append,map_cons,countP_append,countP_cons,elim_some]
    cases p (k,row) <;> simp; omega
  · have hnone : t.lookup k = none := lookup_eq_none.mpr hk
    have herase : (t.erase k).entries = t.entries := kerase_of_notMem_keys hk
    rw [hnone,rows,rows,herase]
    rfl

theorem countP_insert (row : β) (t : Table κ β) :
    (rows (t.insert k row)).countP p + ((t.lookup k).elim 0 fun row => (p (k,row)).toNat) =
      t.rows.countP p + (p (k,row)).toNat := by
  have hrows : rows (t.insert k row) = (k,row) :: rows (t.erase k) := by rfl
  rw [hrows,countP_erase p k t,countP_cons]
  cases p (k,row) <;> simp; omega

def keep (p : κ → β → Bool) (t : Table κ β) : Table κ β where
  entries := t.entries.filter fun e => p e.1 e.2
  nodupKeys := t.nodupKeys.sublist List.filter_sublist

@[simp] theorem lookup_keep (p : κ → β → Bool) (t : Table κ β) (k : κ) :
    (t.keep p).lookup k = (t.lookup k).filter (p k) := by
  ext row
  rw [← mem_def,mem_lookup_iff,filter_eq_some_iff,← mem_def,mem_lookup_iff]
  exact mem_filter

def updateAll (f : β → β) (t : Table κ β) : Table κ β where
  entries := t.entries.map fun e => ⟨e.1,f e.2⟩
  nodupKeys := by
    rw [List.NodupKeys,List.keys,List.map_map]
    exact t.nodupKeys

@[simp] theorem lookup_updateAll (t : Table κ β) (k : κ) : (t.updateAll f).lookup k = (t.lookup k).map f := by
  ext row
  rw [← mem_def,mem_lookup_iff,map_eq_some_iff]
  constructor
  · intro h
    obtain ⟨e,he,hk⟩ := mem_map.mp h
    cases hk
    exact ⟨e.2,mem_lookup_iff.mpr he,rfl⟩
  · rintro ⟨old,ho,rfl⟩
    exact mem_map.mpr ⟨⟨k,old⟩,mem_lookup_iff.mp ho,rfl⟩

theorem updateAll_eq_self {f : β → β} (h : ∀ k row, t.lookup k = some row → f row = row) : t.updateAll f = t := by
  have same : ∀ e ∈ t.entries, (⟨e.1,f e.2⟩ : (_ : κ) × β) = e := by
    intro e he
    rw [h e.1 e.2 (mem_lookup_iff.mpr he)]
  exact ext ((map_congr_left same).trans (map_id _))

def newest (t : Table Nat β) : Option (Nat × β) := t.keys.max?.bind fun k => (t.lookup k).map (k,·)

theorem lookup_of_newest {t : Table Nat β} {k : Nat} {row : β} (h : t.newest = some (k,row)) :
    t.lookup k = some row := by
  obtain ⟨j,-,hj⟩ := bind_eq_some_iff.mp h
  obtain ⟨row',hr,he⟩ := map_eq_some_iff.mp hj
  cases he
  exact hr

end Table
end FlowFabric.Foundation
