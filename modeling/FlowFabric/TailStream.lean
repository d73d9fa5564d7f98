import FlowFabric.Foundation.Field
import FlowFabric.Foundation.Paging
import Mathlib.Data.Prod.Lex

/-! Tailing the stream of an attempt: tail_stream_impl over xread_block, and the client that passes
the id of the last frame it was given as its next cursor. -/
namespace FlowFabric
open Foundation List Function

/-- The id of a stream entry: its millisecond, then its number within it. -/
abbrev StreamId := Nat ×ₗ Nat

structure StreamFrame where
  id : StreamId
  fields : Hash String
  deriving DecidableEq

open StreamFrame

/-- The entries of a stream. The server hands out growing ids and never the first one of all. -/
structure Stream where
  entries : List StreamFrame
  sorted : entries.Pairwise (·.id < ·.id)
  positive : ∀ f ∈ entries, toLex (0,0) < f.id

inductive TailVisibility where
  | all | excludeBestEffort

structure StreamFrames where
  frames : List StreamFrame
  closedAt : Option Int
  closedReason : Option String

def streamReadHardCap : Nat := 10000

def fetchClosedMeta (streamMeta : Fields) : Option Int × Option String :=
  ((present streamMeta "closed_at").bind fun v => (v.parse (-2 ^ 63) (2 ^ 63)).toOption,
    (present streamMeta "closed_reason").map (·.render))

variable (stream : Stream) (streamMeta : Fields)

/-- A call that blocks on a stream that does not grow ends with what it would have read at once. -/
def xreadBlock (lastId : StreamId) (countLimit : Nat) : Except String StreamFrames :=
  if countLimit = 0 then .error "xread_block: count_limit must be >= 1"
  else if streamReadHardCap < countLimit then
    .error ("xread_block: count_limit exceeds STREAM_READ_HARD_CAP (" ++ toString streamReadHardCap ++ ")")
  else
    .ok {
      frames := (stream.entries.filter (lastId < ·.id)).take countLimit, closedAt := (fetchClosedMeta streamMeta).1
      closedReason := (fetchClosedMeta streamMeta).2 }

/-- A frame without a mode was written before there were modes and is durable. -/
def StreamFrame.notBestEffort (f : StreamFrame) : Bool := (f.fields.lookup "mode").getD "durable" ≠ "best_effort"

def tailStreamImpl (after : StreamId) (countLimit : Nat)
    (visibility : TailVisibility) : Except String StreamFrames := do
  let page ← xreadBlock stream streamMeta after countLimit
  match visibility with
  | .all => pure page
  | .excludeBestEffort => pure { page with frames := page.frames.filter notBestEffort }

structure TailClient where
  after : StreamId
  received : List StreamFrame
  deriving DecidableEq

open TailClient

def TailClient.fromBeginning : TailClient := ⟨toLex (0,0),[]⟩

/-- One call. A client that is given nothing, or an error, keeps its cursor. -/
def TailClient.call (countLimit : Nat) (t : TailClient) : TailClient :=
  match tailStreamImpl stream streamMeta t.after countLimit .excludeBestEffort with
  | .ok page => ⟨(page.frames.getLast?.map (·.id)).getD t.after,t.received ++ page.frames⟩
  | .error _ => t

section
variable {stream : Stream} {streamMeta : Fields} {count : Nat} {t : TailClient}

def TailClient.page (stream : Stream) (count : Nat) (t : TailClient) : List StreamFrame :=
  ((stream.entries.filter (t.after < ·.id)).take count).filter notBestEffort

theorem call_eq (pos : count ≠ 0) (cap : count ≤ streamReadHardCap) : t.call stream streamMeta count =
      ⟨((t.page stream count).getLast?.map (·.id)).getD t.after,t.received ++ t.page stream count⟩ := by
  simp only [call,tailStreamImpl,xreadBlock,if_neg pos,if_neg (not_lt.mpr cap)]
  rfl

private theorem call_of_refused (h : count = 0 ∨ streamReadHardCap < count) : t.call stream streamMeta count = t := by
  simp only [call,tailStreamImpl,xreadBlock]
  split
  · rename_i page answered
    split_ifs at answered with pos cap
    · cases answered
    · cases answered
    · rcases h with h | h
      · exact absurd h pos
      · exact absurd h cap
  · rfl

/-- The client has come to the place between the two parts of the stream. -/
structure TailClient.At (stream : Stream) (t : TailClient) (read rest : List StreamFrame) : Prop where
  entries : stream.entries = read ++ rest
  received : t.received = read.filter notBestEffort
  rest : stream.entries.filter (t.after < ·.id) = rest

private theorem fromBeginning_at (stream : Stream) : fromBeginning.At stream [] stream.entries where
  entries := rfl
  received := rfl
  rest := by
    rw [filter_eq_self]
    intro f hf
    exact decide_eq_true (stream.positive f hf)

variable {read rest : List StreamFrame}

theorem TailClient.At.complete_iff (h : t.At stream read rest) :
    t.received = stream.entries.filter notBestEffort ↔ rest.filter notBestEffort = [] := by
  rw [h.received,h.entries,filter_append,self_eq_append_right]

theorem call_of_hidden (pos : count ≠ 0) (cap : count ≤ streamReadHardCap) (h : t.At stream read rest)
    (hidden : (rest.take count).filter notBestEffort = []) : t.call stream streamMeta count = t := by
  have page : t.page stream count = [] := by rw [page,h.rest,hidden]
  rw [call_eq pos cap,page]
  simp

theorem call_of_shown (streamMeta : Fields) (pos : count ≠ 0) (cap : count ≤ streamReadHardCap)
    (h : t.At stream read rest) (shown : (rest.take count).filter notBestEffort ≠ []) :
    ∃ front w back, rest = front ++ w :: back ∧ w.notBestEffort ∧ front.length < count ∧
      (t.call stream streamMeta count).At stream (read ++ front ++ [w]) back := by
  obtain ⟨front,w,hiddenBack,split,hw,hidden⟩ := exists_last_shown shown
  have whole : rest = front ++ w :: (hiddenBack ++ rest.drop count) := by
    conv_lhs => rw [← take_append_drop count rest,split]
    simp
  have reach : front.length < count := by
    have := congrArg List.length split
    simp only [length_take,length_append,length_cons] at this
    omega
  have page : t.page stream count = front.filter notBestEffort ++ [w] := by
    rw [page,h.rest,split,filter_append,filter_cons_of_pos hw,hidden]
  have entries : stream.entries = read ++ front ++ w :: (hiddenBack ++ rest.drop count) := by
    rw [h.entries,append_assoc,← whole]
  refine ⟨front,w,_,whole,hw,reach,?_⟩
  rw [call_eq pos cap,page]
  constructor
  · simpa using entries
  · simp [h.received,hw]
  · have sorted := stream.sorted
    rw [entries] at sorted ⊢
    simpa using filter_lt_of_split StreamFrame.id sorted

theorem calls_complete_iff (pos : count ≠ 0) (cap : count ≤ streamReadHardCap) (n : Nat)
    (h : t.At stream read rest) (enough : (rest.filter notBestEffort).length ≤ n) :
    ((call stream streamMeta count)^[n] t).received = stream.entries.filter notBestEffort ↔
      Spaced notBestEffort count 0 rest := by
  induction n generalizing t read rest with
  | zero =>
    have none_left : rest.filter notBestEffort = [] := length_eq_zero_iff.mp (by omega)
    have complete : t.received = stream.entries.filter notBestEffort := h.complete_iff.mpr none_left
    exact iff_of_true complete (spaced_of_hidden none_left)
  | succ n ih =>
    by_cases hidden : (rest.take count).filter notBestEffort = []
    · -- The client is stuck, and complete only if nothing was left.
      rw [iterate_fixed (call_of_hidden pos cap h hidden),h.complete_iff]
      exact (spaced_of_take_hidden hidden).symm
    · obtain ⟨front,w,back,rfl,hw,reach,h'⟩ := call_of_shown streamMeta pos cap h hidden
      rw [iterate_succ_apply,spaced_append hw (by omega)]
      refine ih h' ?_
      rw [filter_append,filter_cons_of_pos hw,length_append,length_cons] at enough
      omega

end

/-- A client that tails a stream without its best-effort frames has all others, once and in order,
after as many calls as the stream has entries exactly when there are none or its page is within the
cap and wider than every stretch of best-effort frames before one of them. -/
theorem tail_misses_nothing_iff (stream : Stream) (streamMeta : Fields) (countLimit : Nat) :
    ((call stream streamMeta countLimit)^[stream.entries.length] .fromBeginning).received =
        stream.entries.filter notBestEffort ↔ stream.entries.filter notBestEffort = [] ∨
        countLimit ≤ streamReadHardCap ∧ Spaced notBestEffort countLimit 0 stream.entries := by
  have start := fromBeginning_at stream
  by_cases refused : countLimit = 0 ∨ streamReadHardCap < countLimit
  · rw [iterate_fixed (call_of_refused refused),start.complete_iff]
    refine ⟨.inl,?_⟩
    rintro (none_shown | ⟨cap,spaced⟩)
    · exact none_shown
    · rcases refused with rfl | beyond
      · exact (spaced_beyond_reach (le_refl 0)).mp spaced
      · omega
  · obtain ⟨pos,cap⟩ := not_or.mp refused
    rw [calls_complete_iff pos (not_lt.mp cap) _ start (length_filter_le _ _)]
    refine ⟨fun spaced => .inr ⟨not_lt.mp cap,spaced⟩,?_⟩
    rintro (none_shown | ⟨-,spaced⟩)
    · exact spaced_of_hidden none_shown
    · exact spaced

/-- A best-effort frame and a durable one behind it. -/
def bestEffortFirst : Stream where
  entries := [⟨toLex (1,0),Hash.hset [("mode","best_effort")] ∅⟩,⟨toLex (2,0),∅⟩]
  sorted := by decide
  positive := by decide

/-- One frame at a time, the client is never given the durable frame. -/
theorem durable_frame_is_never_received : bestEffortFirst.entries.filter notBestEffort = [⟨toLex (2,0),∅⟩] ∧
      ∀ n, ((call bestEffortFirst ∅ 1)^[n] .fromBeginning).received = [] := by
  have stuck : call bestEffortFirst ∅ 1 .fromBeginning = .fromBeginning := by decide
  refine ⟨rfl,?_⟩
  intro n
  rw [iterate_fixed stuck]
  rfl

end FlowFabric
