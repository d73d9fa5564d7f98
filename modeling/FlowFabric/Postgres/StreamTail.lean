import FlowFabric.Foundation.Cursor
import FlowFabric.Postgres.Rows
import FlowFabric.TailStream

/-! append_frame, read_stream and tail_stream on the frames of one attempt, and a reader that passes the id of the
last frame it received. The clock of a frame is read before the lock is taken. All frames are durable. -/
namespace FlowFabric.Postgres
open Foundation SortedMap List

/-- The committed frames of the attempt in the order of their ids. -/
abbrev Frames := List (StreamId × String)

/-! ### The methods -/

variable (tsMs : Nat) (frames : Frames)

def seqsAt : List Nat := (frames.filter fun e => (ofLex e.1).1 = tsMs).map fun e => (ofLex e.1).2

def nextSeq : Nat := ((seqsAt tsMs frames).max?.map (· + 1)).getD 0

def frameId : StreamId := toLex (tsMs,nextSeq tsMs frames)

/-- What append_frame does under the lock. -/
def mintFrame (fields : String) (frames : Frames) : Frames := put (frameId tsMs frames) fields frames

private theorem frameId_new : frameId tsMs frames ∉ frames.map Prod.fst := by
  intro h
  obtain ⟨e,he,hk⟩ := mem_map.mp h
  have listed : nextSeq tsMs frames ∈ seqsAt tsMs frames := by
    refine mem_map.mpr ⟨e,mem_filter.mpr ⟨he,?_⟩,?_⟩
    · rw [hk]
      exact decide_eq_true rfl
    · rw [hk]
      rfl
  rw [nextSeq] at listed
  cases hm : (seqsAt tsMs frames).max? with
  | none =>
    rw [List.max?_eq_none_iff.mp hm] at listed
    cases listed
  | some m =>
    rw [hm] at listed
    have le := (List.max?_eq_some_iff.mp hm).2 _ listed
    exact Nat.not_succ_le_self m le

inductive StreamCursor where
  | start | stop
  | atId (id : StreamId)

def StreamCursor.admitsFrom (id : StreamId) : StreamCursor → Bool
  | .start => true
  | .stop => false
  | .atId c => c ≤ id

def StreamCursor.admitsTo (id : StreamId) : StreamCursor → Bool
  | .start => false
  | .stop => true
  | .atId c => id ≤ c

/-- Both cursors are inclusive. -/
def readStream (lower upper : StreamCursor) (countLimit : Nat) (frames : Frames) : Frames :=
  (frames.filter fun e => lower.admitsFrom e.1 && upper.admitsTo e.1).take (min countLimit streamReadHardCap)

/-- A call that parks selects again at each wake-up. The selects before the last one have found nothing. -/
def tailStream (after : StreamCursor) (countLimit : Nat) (frames : Frames) : Except EngineError Frames :=
  match after with
  | .atId id => .ok ((beyond id frames).take (min countLimit streamReadHardCap))
  | .start | .stop => .error (.invalidInput "tail_stream requires concrete after cursor")

/-! ### The machine -/

structure Tailing where
  frames : Frames := []
  /-- The calls that have read the clock and wait for the lock. -/
  waiting : List (Nat × String) := []
  reader : Reader StreamId String := { seen := toLex (0,0) }

inductive TailingStep where
  | begins (tsMs : Nat) (fields : String)
  | commits (call : Nat)
  | tailStream (countLimit : Nat)
  | readStream (countLimit : Nat)

namespace Tailing

def receives (s : Tailing) (page : Frames) : Tailing :=
  { s with reader := ({ s.reader with page := page } : Reader StreamId String).takeAll }

/-- Where a reader starts with read_stream. -/
def cursor (s : Tailing) : StreamCursor := if s.reader.got = [] then .start else .atId s.reader.seen

def append (s : Tailing) (i : Nat) : Tailing :=
  match s.waiting[i]? with
  | none => s
  | some call => { s with waiting := s.waiting.eraseIdx i, frames := mintFrame call.1 call.2 s.frames }

def next (q : TailingStep) (s : Tailing) : Tailing :=
  match q with
  | .begins tsMs fields => { s with waiting := s.waiting ++ [(tsMs,fields)] }
  | .commits i => s.append i
  | .tailStream countLimit =>
    match Postgres.tailStream (.atId s.reader.seen) countLimit s.frames with
    | .ok page => s.receives page
    | .error _ => s
  | .readStream countLimit => s.receives (Postgres.readStream s.cursor .stop countLimit s.frames)

/-- A reader that goes on with tail_stream comes to have every committed frame, once each and in the order of
the ids. -/
def Complete (s : Tailing) : Prop :=
  ∀ limits : List Nat, (∀ limit ∈ limits, 0 < limit) → s.frames.length ≤ limits.length →
    (runFrom next s (limits.map .tailStream)).reader.got = s.frames

/-- A frame is committed behind the last one that the reader has, and read_stream is for the first call only,
because it has no exclusive start. -/
def Ahead (s : Tailing) : TailingStep → Prop
  | .commits i => ∀ call ∈ s.waiting[i]?, s.reader.seen < frameId call.1 s.frames
  | .readStream countLimit => s.reader.got = [] ∨ countLimit = 0
  | .begins .. | .tailStream _ => True

structure Regular (s : Tailing) : Prop where
  sorted : Sorted s.frames
  read : s.reader.page = []
  seen : s.reader.seen = (s.reader.got.getLast?.map Prod.fst).getD (toLex (0,0))

variable {s : Tailing}

theorem regular_init : Regular {} := ⟨List.Pairwise.nil,rfl,rfl⟩

theorem Regular.receives (h : s.Regular) (page : Frames) : (s.receives page).Regular := by
  refine ⟨h.sorted,rfl,?_⟩
  change (page.getLast?.map Prod.fst).getD s.reader.seen = ((s.reader.got ++ page).getLast?.map Prod.fst).getD _
  rw [List.getLast?_append,h.seen]
  cases page.getLast? <;> rfl

theorem Regular.next (h : s.Regular) (q : TailingStep) : (next q s).Regular := by
  cases q with
  | begins => exact ⟨h.sorted,h.read,h.seen⟩
  | commits =>
    rw [Tailing.next,append]
    split
    · exact h
    · exact ⟨h.sorted.put _ _,h.read,h.seen⟩
  | tailStream | readStream => exact h.receives _

/-! ### What the reader comes to have -/

private theorem tails (limits : List Nat) (s : Tailing) : (runFrom next s (limits.map .tailStream)).reader =
      runFrom (Reader.read s.frames) s.reader (limits.map (min · streamReadHardCap)) := by
  induction limits generalizing s with
  | nil => rfl
  | cons limit limits ih => exact ih _

theorem got_tails (h : s.Regular) {limits : List Nat} (hl : ∀ limit ∈ limits, 0 < limit)
    (hn : s.frames.length ≤ limits.length) :
    (runFrom next s (limits.map .tailStream)).reader.got = s.reader.got ++ beyond s.reader.seen s.frames := by
  rw [tails]
  apply Reader.got_reads h.sorted
  · intro _ hm
    obtain ⟨limit,hlimit,rfl⟩ := mem_map.mp hm
    exact lt_min (hl limit hlimit) (by decide)
  · rw [length_map]
    exact le_trans (length_filter_le _ _) hn

theorem complete_iff (h : s.Regular) : s.Complete ↔ s.reader.got ++ beyond s.reader.seen s.frames = s.frames := by
  constructor
  · intro hc
    have ones : ∀ limit ∈ List.replicate s.frames.length 1, 0 < limit := by
      intro limit hm
      rw [eq_of_mem_replicate hm]
      decide
    have all := hc _ ones (by rw [length_replicate])
    rw [got_tails h ones (by rw [length_replicate])] at all
    exact all
  · intro hg limits hl hn
    rw [got_tails h hl hn,hg]

theorem complete_iff_filter (h : s.Regular) :
    s.Complete ↔ s.reader.got = s.frames.filter (fun e => e.1 ≤ s.reader.seen) := by
  have split := filter_le_append_filter_lt h.sorted s.reader.seen
  rw [complete_iff h]
  constructor
  · intro hg
    exact append_cancel_right (hg.trans split.symm)
  · intro hg
    rw [hg]
    exact split

/-! ### The steps -/

private theorem complete_append (h : s.Regular) (hc : s.Complete) (i : Nat) :
    s.Ahead (.commits i) ↔ (s.append i).Complete := by
  have regular : (s.append i).Regular := h.next (.commits i)
  rw [complete_iff_filter regular,Ahead]
  rw [complete_iff_filter h] at hc
  unfold append
  cases s.waiting[i]? with
  | none => exact iff_of_true (fun _ hm => by cases hm) hc
  | some call =>
    have new := frameId_new call.1 s.frames
    change (∀ c ∈ some call, _) ↔ s.reader.got = (mintFrame call.1 call.2 s.frames).filter fun e => e.1 ≤ s.reader.seen
    constructor
    · intro ahead
      rw [mintFrame,filter_put new (by simpa using ahead call rfl)]
      exact hc
    · -- a frame below the cursor is not among those that were received
      rintro hg _ ⟨⟩
      by_contra behind
      have listed : (frameId call.1 s.frames,call.2) ∈ s.reader.got := by
        rw [hg,mem_filter]
        exact ⟨(mem_put new).mpr (.inl rfl),by simpa using behind⟩
      rw [hc] at listed
      exact new (mem_map_of_mem (mem_filter.mp listed).1)

theorem complete_receives (h : s.Regular) (hc : s.Complete) (limit : Nat) :
    (s.receives ((beyond s.reader.seen s.frames).take limit)).Complete := by
  rw [complete_iff (h.receives _)]
  rw [complete_iff h] at hc
  change (s.reader.got ++ (beyond s.reader.seen s.frames).take limit) ++ beyond (s.reader.fetch limit s.frames).edge s.frames = _
  rw [Reader.beyond_edge_fetch h.sorted,append_assoc,take_append_drop]
  exact hc

variable {e : StreamId × String}

private theorem filter_from {frames : Frames} (hs : Sorted frames) (he : e ∈ frames) :
    frames.filter (fun e' => e.1 ≤ e'.1) = e :: beyond e.1 frames := by
  have split := filter_le_append_filter_lt (hs.filter (p := fun e' => e.1 ≤ e'.1)) e.1
  have first : (frames.filter fun e' => e.1 ≤ e'.1).filter (fun e' => e'.1 ≤ e.1) = [e] := by
    rw [filter_filter,← hs.filter_key he]
    apply filter_congr
    intro e' _
    rw [← Bool.decide_and]
    exact decide_eq_decide.mpr ⟨fun h => le_antisymm h.1 h.2,fun h => ⟨le_of_eq h,ge_of_eq h⟩⟩
  have rest : (frames.filter fun e' => e.1 ≤ e'.1).filter (fun e' => e.1 < e'.1) = beyond e.1 frames := by
    rw [filter_filter,beyond]
    apply filter_congr
    intro e' _
    simpa using le_of_lt
  rw [← split,first,rest]
  rfl

private theorem readStream_first (hg : s.reader.got = []) (countLimit : Nat) :
    readStream s.cursor .stop countLimit s.frames = s.frames.take (min countLimit streamReadHardCap) := by
  rw [cursor,if_pos hg,readStream]
  refine congrArg _ (filter_eq_self.mpr fun _ _ => ?_)
  rfl

theorem readStream_again (hg : s.reader.got ≠ []) (countLimit : Nat) : readStream s.cursor .stop countLimit s.frames =
      (s.frames.filter fun e => s.reader.seen ≤ e.1).take (min countLimit streamReadHardCap) := by
  rw [cursor,if_neg hg,readStream]
  refine congrArg _ (filter_congr fun e _ => ?_)
  exact Bool.and_true _

theorem not_complete_again (h : s.Regular) (hc : s.Complete) (he : e ∈ s.reader.got.getLast?)
    {limit : Nat} (pos : 0 < limit) : ¬ (s.receives ((s.frames.filter fun e => s.reader.seen ≤ e.1).take limit)).Complete := by
  have got : e ∈ s.reader.got := mem_of_getLast? he
  have seen : s.reader.seen = e.1 := by
    rw [h.seen,he]
    rfl
  have kept : e ∈ s.frames := by
    rw [(complete_iff_filter h).mp hc] at got
    exact (mem_filter.mp got).1
  have again : e ∈ (s.frames.filter fun e => s.reader.seen ≤ e.1).take limit := by
    obtain ⟨limit,rfl⟩ := Nat.exists_eq_succ_of_ne_zero (Nat.ne_of_gt pos)
    rw [seen,filter_from h.sorted kept,take_succ_cons]
    exact mem_cons_self
  intro complete
  have nodup : (s.receives ((s.frames.filter fun e => s.reader.seen ≤ e.1).take limit)).reader.got.Nodup := by
    rw [(complete_iff_filter (h.receives _)).mp complete]
    exact List.Nodup.of_map Prod.fst (h.sorted.filter.imp ne_of_lt)
  exact (nodup_append.mp nodup).2.2 e got e again rfl

theorem complete_readStream (h : s.Regular) (hc : s.Complete) (countLimit : Nat) : s.Ahead (.readStream countLimit) ↔
      (s.receives (readStream s.cursor .stop countLimit s.frames)).Complete := by
  by_cases hg : s.reader.got = []
  · refine iff_of_true (.inl hg) ?_
    have all := (complete_iff h).mp hc
    rw [hg,nil_append] at all
    rw [readStream_first hg]
    nth_rewrite 1 [← all]
    exact complete_receives h hc _
  · rw [Ahead,or_iff_right hg,readStream_again hg]
    cases he : s.reader.got.getLast? with
    | none => exact absurd (List.getLast?_eq_none_iff.mp he) hg
    | some =>
      cases countLimit with
      | zero =>
        refine iff_of_true rfl ?_
        exact complete_receives h hc 0
      | succ n => exact iff_of_false (by simp) (not_complete_again h hc he (lt_min (Nat.succ_pos n) (by decide)))

/-- The reader keeps getting every frame exactly in the runs whose steps are ahead of it. -/
theorem tail_complete_iff (qs : List TailingStep) : Throughout next Complete {} qs ↔ Along next Ahead {} qs := by
  refine throughout_iff_along_of (J := Regular) (Q := fun _ _ => True) (fun s q h _ => h.next q) ?_ regular_init
    (Along.of_forall (fun _ _ => trivial) _) ((complete_iff regular_init).mpr rfl)
  intro s q h _ hc
  cases q with
  | begins => exact iff_of_true trivial ((complete_iff (h.next _)).mpr ((complete_iff h).mp hc))
  | commits i => exact complete_append h hc i
  | tailStream => exact iff_of_true trivial (complete_receives h hc _)
  | readStream countLimit => exact complete_readStream h hc countLimit

end Tailing

namespace Client

/-- The clock of the second call is behind, and its frame is committed after the reader has got the first one. -/
def lateFrame : List TailingStep := [.begins 5 "first",.begins 3 "second",.commits 0,.tailStream 10,.commits 0]

/-- The reader does not get the second frame, however often it asks. -/
theorem late_frame_lost : (runFrom Tailing.next {} lateFrame).frames = [(toLex (3,0),"second"),(toLex (5,0),"first")] ∧
      ¬ (runFrom Tailing.next {} lateFrame).Complete := by
  have regular : (runFrom Tailing.next {} lateFrame).Regular :=
    runFrom_invariant (fun _ q h => h.next q) Tailing.regular_init lateFrame
  rw [Tailing.complete_iff regular]
  decide +kernel

end Client
end FlowFabric.Postgres
