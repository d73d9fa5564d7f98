import Mathlib.Data.List.AList
import FlowFabric.Foundation.Significant

/-! Hashes: finite maps from field names, loops over the fields of one that write into
another, and counters kept in a hash. -/
namespace FlowFabric.Foundation
open List

abbrev Hash (β : Type) := AList fun _ : String => β

namespace Hash
variable {β γ : Type}

theorem lookup_insert (k k' : String) (v : β) (u : Hash β) :
    (u.insert k v).lookup k' = if k' = k then some v else u.lookup k' := by
  by_cases h : k' = k
  · subst h
    simp
  · rw [AList.lookup_insert_ne h,if_neg h]

def put (k : String) (v : Option γ) (u : Hash γ) : Hash γ :=
  match v with
  | some v => u.insert k v
  | none => u

theorem lookup_put (k k' : String) (v : Option γ) (u : Hash γ) :
    (put k v u).lookup k' = if k' = k then v.or (u.lookup k') else u.lookup k' := by
  cases v with
  | some => rw [put,lookup_insert,Option.some_or]
  | none => rw [put,Option.none_or,ite_self]

def hset (fields : List (String × β)) (u : Hash β) : Hash β := fields.foldl (fun u e => u.insert e.1 e.2) u

@[simp] theorem hset_nil (u : Hash β) : hset [] u = u := rfl

@[simp] theorem hset_cons (e : String × β) (fields : List (String × β)) (u : Hash β) :
    hset (e :: fields) u = hset fields (u.insert e.1 e.2) := rfl

def hdel (keys : List String) (u : Hash β) : Hash β := keys.foldl (fun u k => u.erase k) u

theorem lookup_hdel {k : String} {keys : List String} (h : k ∉ keys) (u : Hash β) :
    (hdel keys u).lookup k = u.lookup k := by
  induction keys generalizing u with
  | nil => rfl
  | cons j keys ih =>
    have hj : k ≠ j := fun hj => h (by simp [hj])
    have hk : k ∉ keys := fun hk => h (by simp [hk])
    exact (ih hk (u.erase j)).trans (AList.lookup_erase_ne hj)

/-- Go through the fields of a hash and write what each of them makes of the field of the
same name. -/
def merge (g : β → Option γ → Option γ) (h : Hash β) (u : Hash γ) : Hash γ :=
  h.entries.foldl (fun u e => put e.1 (g e.2 (u.lookup e.1)) u) u

private theorem lookup_foldl_put {g : β → Option γ → Option γ} {fields : List ((_ : String) × β)}
    (hd : fields.NodupKeys) (u : Hash γ) (k : String) :
    (fields.foldl (fun u e => put e.1 (g e.2 (u.lookup e.1)) u) u).lookup k =
      ((fields.dlookup k).bind fun b => g b (u.lookup k)).or (u.lookup k) := by
  induction fields generalizing u with
  | nil => rfl
  | cons e fields ih =>
    obtain ⟨j,b⟩ := e
    obtain ⟨hj,hd⟩ := nodupKeys_cons.mp hd
    rw [foldl_cons,ih hd,lookup_put]
    by_cases hk : k = j
    · subst hk
      have hn : fields.dlookup k = none := dlookup_eq_none.mpr hj
      simp [hn]
    · rw [if_neg hk,dlookup_cons_ne fields ⟨j,b⟩ hk]

theorem lookup_merge (g : β → Option γ → Option γ) (h : Hash β) (u : Hash γ) (k : String) :
    (merge g h u).lookup k = ((h.lookup k).bind fun b => g b (u.lookup k)).or (u.lookup k) :=
  lookup_foldl_put h.nodupKeys u k

section
variable {φ : Type} {name : φ → String} {value : φ → Option β} {u : Hash β}

/-- The hash holds a record: the values of its fields under their names, and nothing else. -/
structure Holds (name : φ → String) (value : φ → Option β) (u : Hash β) : Prop where
  named : ∀ c, u.lookup (name c) = value c
  other : ∀ k, (∀ c, k ≠ name c) → u.lookup k = none

theorem holds_empty : Holds name (fun _ : φ => none) (∅ : Hash β) := ⟨fun _ => rfl,fun _ _ => rfl⟩

def assign [DecidableEq φ] (fields : List (φ × β)) (value : φ → Option β) : φ → Option β :=
  fields.foldl (fun value e => Function.update value e.1 (some e.2)) value

variable (h : Holds name value u)
include h

theorem Holds.insert [DecidableEq φ] (injective : Function.Injective name)
    (c : φ) (v : β) : Holds name (Function.update value c (some v)) (u.insert (name c) v) := by
  refine ⟨fun d => ?_,fun k hk => ?_⟩
  · rw [lookup_insert]
    by_cases hd : d = c
    · rw [hd,if_pos rfl,Function.update_self]
    · rw [if_neg fun he => hd (injective he),h.named,Function.update_of_ne hd]
  · rw [lookup_insert,if_neg (hk c),h.other k hk]

theorem Holds.hset [DecidableEq φ] (injective : Function.Injective name) (fields : List (φ × β)) :
    Holds name (assign fields value) (Hash.hset (fields.map fun e => (name e.1,e.2)) u) := by
  induction fields generalizing value u with
  | nil => exact h
  | cons e fields ih => exact ih (h.insert injective e.1 e.2)

theorem Holds.of_mem {e : (_ : String) × β} (he : e ∈ u.entries) : ∃ c, e.1 = name c ∧ value c = some e.2 := by
  have hl : u.lookup e.1 = some e.2 := mem_dlookup_iff u.nodupKeys |>.mpr he
  by_contra hn
  have unnamed : ∀ c, e.1 ≠ name c := by
    intro c hc
    exact hn ⟨c,hc,by rw [← h.named,← hc,hl]⟩
  rw [h.other e.1 unnamed] at hl
  cases hl

theorem Holds.mem {c : φ} {v : β} (hv : value c = some v) : ⟨name c,v⟩ ∈ u.entries :=
  of_mem_dlookup ((h.named c).trans hv)

end

end Hash

/-- What a script leaves to the server that runs it: the integer that a command reads from a
number argument, which is exact for small numbers, and how many values may be unpacked. -/
structure Server where
  argument : Nat → Option Nat
  unpackLimit : Nat
  exact_argument : ∀ n, n ≤ 2 ^ 53 → argument n = some n

/-- A server on which a large number is no integer. -/
def Server.strict : Server where
  argument n := if n ≤ 2 ^ 53 then some n else none
  unpackLimit := 8000
  exact_argument _ h := if_pos h

namespace Hash

variable (u : Hash Numeral)

/-- The text of a counter. One that is missing counts as zero. -/
def read (k : String) : Numeral := (u.lookup k).getD (.digits 0)

/-- Increment a counter. The command fails on a text that is not an integer, on an increment
that is none and beyond 64 bits. -/
def hincrby (server : Server) (u : Hash Numeral) (k : String) (delta : Nat) : Option (Hash Numeral) :=
  match u.read k, server.argument delta with
  | .digits n, some m => if n + m < 2 ^ 63 then some (u.insert k (.digits (n + m))) else none
  | _, _ => none

@[simp] theorem read_empty (k : String) : read ∅ k = .digits 0 := rfl

theorem read_insert (k k' : String) (v : Numeral) : read (u.insert k v) k' = if k' = k then v else u.read k' := by
  unfold read
  rw [lookup_insert]
  split <;> rfl

def value (k : String) : Nat := (u.read k).value

def Plain (bound : Nat) (u : Hash Numeral) : Prop := ∀ k, u.read k = .digits (u.value k) ∧ u.value k < bound

section
variable {bound delta : Nat} {server : Server} {u : Hash Numeral} {k : String}

theorem Plain.of_read {f : String → Nat} (hr : ∀ k, u.read k = .digits (f k)) (hf : ∀ k, f k < bound) :
    Plain bound u ∧ ∀ k, u.value k = f k := by
  have hv : ∀ k, u.value k = f k := fun k => by rw [value,hr,Numeral.value]
  exact ⟨fun k => ⟨by rw [hv,hr],by rw [hv]; exact hf k⟩,hv⟩

theorem plain_empty (h : 0 < bound) : Plain bound ∅ := fun _ => ⟨rfl,h⟩

theorem hincrby_plain (hu : Plain bound u) (hd : delta < 2 ^ 53) (hk : u.value k + delta < bound)
    (hb : bound ≤ 2 ^ 63) : ∃ u', hincrby server u k (double delta) = some u' ∧ Plain bound u' ∧
      ∀ j, u'.value j = u.value j + if k = j then delta else 0 := by
  have hset : hincrby server u k (double delta) = some (u.insert k (.digits (u.value k + delta))) := by
    rw [double_of_lt hd,hincrby,(hu k).1,server.exact_argument delta (by omega)]
    exact if_pos (by omega)
  refine ⟨_,hset,Plain.of_read (fun j => ?_) (fun j => ?_)⟩
  · rw [read_insert]
    by_cases h : j = k
    · simp [h]
    · simp [h,Ne.symm h,(hu j).1]
  · by_cases h : k = j
    · simpa [← h] using hk
    · simpa [h] using (hu j).2

end

end Hash

end FlowFabric.Foundation
