import FlowFabric.FlowGraph
import FlowFabric.Foundation.Paging
import Mathlib.Data.Prod.Lex

/-! Paging through the suspended executions of a partition: list_suspended_impl, and the walk of a
client that follows next_cursor while executions are suspended and resumed between its pages. -/
namespace FlowFabric
open Foundation List ExecutionId

/-- The suspended indexes of the lanes of a partition when a page is read: their members with the
scores, the keys that SCAN finds and the reason codes of the suspensions. An execution is on one
lane. SCAN finds every key that is there, but may find it again. -/
structure SuspendedIndexes where
  zset : String → List (String × Int)
  scan : List String
  reasonCode : ExecutionId → Option String
  found : ∀ key, key ∈ scan ↔ zset key ≠ []
  nodup : ∀ key, ((zset key).map Prod.fst).Nodup
  single : ∀ key key' member, member ∈ (zset key).map Prod.fst → member ∈ (zset key').map Prod.fst → key = key'

open SuspendedIndexes

structure SuspendedExecutionEntry where
  executionId : ExecutionId
  suspendedAtMs : Int
  reason : String

open SuspendedExecutionEntry

structure ListSuspendedPage where
  entries : List SuspendedExecutionEntry
  nextCursor : Option ExecutionId

def maxLaneKeys : Nat := 10000

/-- The order of the list: by score, then by the text of the id. -/
def suspendedKey (e : ExecutionId × Int) : Int ×ₗ String := toLex (e.2,e.1.text)

namespace SuspendedIndexes

variable (p : SuspendedIndexes)

def members (key : String) : List (ExecutionId × Int) :=
  (p.zset key).filterMap fun e => (parse e.1).map fun eid => (eid,e.2)

def laneKeys : List String := p.scan.take maxLaneKeys

def merged : List (ExecutionId × Int) := (p.laneKeys.flatMap p.members).insertionSort (suspendedKey · ≤ suspendedKey ·)

end SuspendedIndexes

/-- Where the page starts: behind the cursor, or at the first greater id if the cursor is gone. -/
def startIdx (merged : List (ExecutionId × Int)) : Option ExecutionId → Nat
  | some c =>
    match merged.findIdx? (·.1 = c) with
    | some pos => pos + 1
    | none => merged.findIdx (c.text < ·.1.text)
  | none => 0

def listSuspendedImpl (p : SuspendedIndexes) (cursor : Option ExecutionId) (limit : Nat) : ListSuspendedPage :=
  if limit = 0 then ⟨[],none⟩
  else if p.laneKeys = [] then ⟨[],none⟩
  else
    let start := startIdx p.merged cursor
    let endIdx := min (start + limit) p.merged.length
    let page := (p.merged.drop start).take (endIdx - start)
    { entries := page.map fun e => ⟨e.1,e.2,(p.reasonCode e.1).getD ""⟩
      nextCursor := if endIdx < p.merged.length then page.getLast?.map (·.1) else none }

structure SuspendedWalk where
  cursor : Option ExecutionId := none
  returned : List SuspendedExecutionEntry := []
  ended : Bool := false

open SuspendedWalk

/-- Ask for the next page, unless there is none. -/
def SuspendedWalk.next (limit : Nat) (p : SuspendedIndexes) (w : SuspendedWalk) : SuspendedWalk :=
  if w.ended then w
  else
    let page := listSuspendedImpl p w.cursor limit
    ⟨page.nextCursor,w.returned ++ page.entries,page.nextCursor.isNone⟩

def SuspendedExecutionEntry.place (e : SuspendedExecutionEntry) : ExecutionId × Int := (e.executionId,e.suspendedAtMs)

def SuspendedIndexes.Lists (p : SuspendedIndexes) (e : ExecutionId × Int) : Prop := ∃ key, (e.1.text,e.2) ∈ p.zset key

/-- SCAN found every key once and within the cap, and the execution of the cursor is still suspended
with its score. Should it be gone, the ids of the others are ordered around it as the list is. -/
structure Steady (w : SuspendedWalk) (p : SuspendedIndexes) : Prop where
  once : p.scan.Nodup
  few : p.scan.length ≤ maxLaneKeys
  cursor : ∀ last ∈ w.returned.getLast?, p.Lists last.place ∨ (∀ score, ¬ p.Lists (last.executionId,score)) ∧
      ∀ e, p.Lists e → (last.executionId.text < e.1.text ↔ suspendedKey last.place < suspendedKey e)

private theorem suspendedKey_injective : Function.Injective suspendedKey := by
  rintro ⟨⟨text,_⟩,score⟩ ⟨⟨text',_⟩,score'⟩ h
  have h : (score,text) = (score',text') := h
  simp_all

theorem parse_eq_some {text : String} {eid : ExecutionId} : parse text = some eid ↔ text = eid.text := by
  unfold parse
  split
  · constructor
    · intro h
      cases h
      rfl
    · rintro rfl
      rfl
  · rename_i empty
    refine iff_of_false (by simp) ?_
    rintro rfl
    exact empty eid.nonempty

namespace SuspendedIndexes
variable {p : SuspendedIndexes} {e e' : ExecutionId × Int}

theorem mem_members {key : String} : e ∈ p.members key ↔ (e.1.text,e.2) ∈ p.zset key := by
  simp only [members,mem_filterMap,Option.map_eq_some_iff,parse_eq_some]
  constructor
  · rintro ⟨m,hm,eid,text,rfl⟩
    rwa [← text]
  · intro h
    exact ⟨_,h,e.1,rfl,rfl⟩

private theorem members_nodup (key : String) : (p.members key).Nodup := by
  refine (List.Nodup.of_map Prod.fst (p.nodup key)).filterMap ?_
  intro m m' e h h'
  simp only [Option.mem_def,Option.map_eq_some_iff,parse_eq_some] at h h'
  obtain ⟨eid,text,rfl⟩ := h
  obtain ⟨eid',text',h'⟩ := h'
  obtain ⟨rfl,score⟩ := Prod.mk.inj h'
  exact Prod.ext (text.trans text'.symm) score.symm

theorem Lists.unique (h : p.Lists e) (h' : p.Lists e') (same : e.1 = e'.1) : e = e' := by
  obtain ⟨key,hk⟩ := h
  obtain ⟨key',hk'⟩ := h'
  have first : e.1.text ∈ (p.zset key).map Prod.fst := mem_map.mpr ⟨_,hk,rfl⟩
  have second : e.1.text ∈ (p.zset key').map Prod.fst := mem_map.mpr ⟨_,hk',by rw [same]⟩
  obtain rfl := p.single key key' _ first second
  have score := inj_on_of_nodup_map (p.nodup key) hk hk' (congrArg text same)
  exact Prod.ext same (Prod.mk.inj score).2

section
variable (once : p.scan.Nodup) (few : p.scan.length ≤ maxLaneKeys)
include few

theorem mem_merged : e ∈ p.merged ↔ p.Lists e := by
  rw [merged,mem_insertionSort,laneKeys,take_of_length_le few,mem_flatMap]
  constructor
  · rintro ⟨key,-,h⟩
    exact ⟨key,mem_members.mp h⟩
  · rintro ⟨key,h⟩
    exact ⟨key,(p.found key).mpr (ne_nil_of_mem h),mem_members.mpr h⟩

include once

theorem merged_sorted : p.merged.Pairwise (suspendedKey · < suspendedKey ·) := by
  have nodup : (p.laneKeys.flatMap p.members).Nodup := by
    rw [laneKeys,take_of_length_le few,nodup_flatMap]
    constructor
    · exact fun key _ => members_nodup key
    · refine once.imp ?_
      intro key key' ne e h h'
      refine ne (p.single key key' e.1.text ?_ ?_)
      · exact mem_map.mpr ⟨_,mem_members.mp h,rfl⟩
      · exact mem_map.mpr ⟨_,mem_members.mp h',rfl⟩
  have ascending := pairwise_insertionSort (suspendedKey · ≤ suspendedKey ·) (p.laneKeys.flatMap p.members)
  have distinct : p.merged.Nodup := (perm_insertionSort _ _).nodup_iff.mpr nodup
  refine (ascending.and distinct).imp ?_
  rintro e e' ⟨le,ne⟩
  exact lt_of_le_of_ne le (suspendedKey_injective.ne ne)

end

end SuspendedIndexes

private theorem startIdx_of_listed {front back : List (ExecutionId × Int)} {e : ExecutionId × Int}
    (first : ∀ x ∈ front, x.1 ≠ e.1) : startIdx (front ++ e :: back) (some e.1) = front.length + 1 := by
  have found : (front ++ e :: back).findIdx? (·.1 = e.1) = some front.length := by
    have passed : front.findIdx? (·.1 = e.1) = none := by
      rw [findIdx?_eq_none_iff]
      exact fun x hx => decide_eq_false (first x hx)
    rw [findIdx?_append,passed,findIdx?_cons,decide_eq_true rfl]
    simp
  rw [startIdx,found]

private theorem startIdx_of_gone {xs : List (ExecutionId × Int)} {c : ExecutionId} (gone : ∀ x ∈ xs, x.1 ≠ c) :
    startIdx xs (some c) = xs.findIdx (c.text < ·.1.text) := by
  have missing : xs.findIdx? (·.1 = c) = none := by
    rw [findIdx?_eq_none_iff]
    exact fun x hx => decide_eq_false (gone x hx)
  rw [startIdx,missing]

section
variable {w : SuspendedWalk} {v : Walk (ExecutionId × Int)} {p : SuspendedIndexes} {limit : Nat}

structure Follows (w : SuspendedWalk) (v : Walk (ExecutionId × Int)) : Prop where
  items : w.returned.map place = v.items
  ended : w.ended = v.ended
  cursor : w.ended = false → w.cursor = v.items.getLast?.map Prod.fst

theorem Follows.last (h : Follows w v) : v.items.getLast? = w.returned.getLast?.map place := by
  rw [← h.items,getLast?_map]

private theorem drop_startIdx (h : Follows w v) (steady : Steady w p) (going : w.ended = false) :
    p.merged.drop (startIdx p.merged w.cursor) = behind suspendedKey v.items.getLast? p.merged := by
  have sorted := merged_sorted steady.once steady.few
  have mem {e : ExecutionId × Int} : e ∈ p.merged ↔ p.Lists e := mem_merged steady.few
  rw [h.cursor going,h.last]
  cases hl : w.returned.getLast? with
  | none => rfl
  | some last =>
    change p.merged.drop (startIdx p.merged (some last.place.1)) = p.merged.filter _
    rcases steady.cursor last hl with listed | ⟨gone,order⟩
    · -- The entry is still there and splits the list.
      obtain ⟨front,back,split⟩ := append_of_mem (mem.mpr listed)
      have first : ∀ e ∈ front, e.1 ≠ last.place.1 := by
        intro e he same
        have eq := (mem.mp (by simp [split,he])).unique listed same
        rw [split,pairwise_append] at sorted
        exact lt_irrefl _ (eq ▸ sorted.2.2 e he last.place (by simp))
      rw [split] at sorted ⊢
      rw [startIdx_of_listed first,filter_lt_of_split suspendedKey sorted]
      simp
    · have absent : ∀ e ∈ p.merged, e.1 ≠ last.place.1 := by
        rintro e he same
        exact gone e.2 (by rw [← show e = (last.executionId,e.2) from Prod.ext same rfl]; exact mem.mp he)
      rw [startIdx_of_gone absent]
      exact drop_findIdx_of_past suspendedKey sorted fun e he => decide_eq_true_iff.trans (order e (mem.mp he))

private theorem listSuspendedImpl_eq (pos : 0 < limit) (h : Follows w v) (steady : Steady w p)
    (going : w.ended = false) :
    (listSuspendedImpl p w.cursor limit).entries.map place =
        (behind suspendedKey v.items.getLast? p.merged).take limit ∧ (listSuspendedImpl p w.cursor limit).nextCursor =
        if limit < (behind suspendedKey v.items.getLast? p.merged).length then
          ((behind suspendedKey v.items.getLast? p.merged).take limit).getLast?.map Prod.fst
        else none := by
  rw [← drop_startIdx h steady going,listSuspendedImpl,if_neg (pos_iff_ne_zero.mp pos)]
  by_cases none_found : p.laneKeys = []
  · have empty : p.merged = [] := by simp [merged,none_found]
    simp [none_found,empty]
  · have cut : (p.merged.drop (startIdx p.merged w.cursor)).take
        (min (startIdx p.merged w.cursor + limit) p.merged.length - startIdx p.merged w.cursor) =
        (p.merged.drop (startIdx p.merged w.cursor)).take limit := by
      rw [take_eq_take_iff,length_drop]
      omega
    have more : min (startIdx p.merged w.cursor + limit) p.merged.length < p.merged.length ↔
        limit < (p.merged.drop (startIdx p.merged w.cursor)).length := by
      rw [length_drop]
      omega
    rw [if_neg none_found]
    dsimp only
    rw [cut]
    refine ⟨?_,if_congr more rfl rfl⟩
    rw [map_map]
    exact map_id _

theorem follows_next (pos : 0 < limit) (h : Follows w v) (steady : Steady w p) :
    Follows (w.next limit p) (visit suspendedKey limit p.merged v) := by
  by_cases ended : w.ended = true
  · rw [SuspendedWalk.next,if_pos ended,visit_of_ended (h.ended ▸ ended)]
    exact h
  · rw [Bool.not_eq_true] at ended
    have going : v.ended = false := h.ended ▸ ended
    obtain ⟨entries,cursor⟩ := listSuspendedImpl_eq pos h steady ended
    rw [SuspendedWalk.next,if_neg (by simp [ended])]
    by_cases more : limit < (behind suspendedKey v.items.getLast? p.merged).length
    · -- The page is full, and its last entry is the cursor.
      have full : (behind suspendedKey v.items.getLast? p.merged).take limit ≠ [] := by
        rw [ne_eq,take_eq_nil_iff,← length_eq_zero_iff]
        omega
      obtain ⟨e,he⟩ : ∃ e, ((behind suspendedKey v.items.getLast? p.merged).take limit).getLast? = some e :=
        ⟨_,getLast?_eq_some_getLast full⟩
      rw [if_pos more,he] at cursor
      constructor
      · rw [visit_items going,map_append,h.items,entries]
      · rw [visit_ended going,decide_eq_false (not_le.mpr more)]
        simp [cursor]
      · intro _
        rw [visit_items going,getLast?_append,he]
        exact cursor
    · rw [if_neg more] at cursor
      constructor
      · rw [visit_items going,map_append,h.items,entries]
      · rw [visit_ended going,decide_eq_true (not_lt.mp more)]
        simp [cursor]
      · intro last
        simp [cursor] at last

end

theorem follows_run {limit : Nat} (pos : 0 < limit) {w : SuspendedWalk} {v : Walk (ExecutionId × Int)}
    (h : Follows w v) {pages : List SuspendedIndexes} (steady : Along (next limit) Steady w pages) :
    Follows (runFrom (next limit) w pages) (runFrom (visit suspendedKey limit) v (pages.map merged)) := by
  induction pages generalizing w v with
  | nil => exact h
  | cons p pages ih => exact ih (follows_next pos h steady.1) steady.2

namespace Client

/-- The only lane of the partition. -/
def laneIndex : String := "ff:idx:\x7bfp:0\x7d:lane:default:suspended"

def listing (members : List (String × Int)) (nonempty : members ≠ []) (nodup : (members.map Prod.fst).Nodup) :
    SuspendedIndexes where
  zset key := if key = laneIndex then members else []
  scan := [laneIndex]
  reasonCode _ := some "approval"
  found key := by
    by_cases h : key = laneIndex
    · simp [h,nonempty]
    · simp [h]
  nodup key := by
    split
    · exact nodup
    · exact nodup_nil
  single key key' member h h' := by
    by_cases hk : key = laneIndex
    · by_cases hk' : key' = laneIndex
      · rw [hk,hk']
      · simp [hk'] at h'
    · simp [hk] at h

def execA : ExecutionId := ⟨"a",by decide⟩
def execB : ExecutionId := ⟨"b",by decide⟩
def execC : ExecutionId := ⟨"c",by decide⟩

theorem steady_of_mem {w : SuspendedWalk} {members : List (String × Int)} {nonempty : members ≠ []}
    {nodup : (members.map Prod.fst).Nodup}
    (h : ∀ last ∈ w.returned.getLast?, (last.executionId.text,last.suspendedAtMs) ∈ members) :
    Steady w (listing members nonempty nodup) where
  once := nodup_singleton _
  few := Nat.le_of_ble_eq_true rfl
  cursor last hl := .inl ⟨laneIndex,by simpa [listing,place] using h last hl⟩

end Client

end FlowFabric
