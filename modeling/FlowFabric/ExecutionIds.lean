import Mathlib.Data.List.SplitLengths
import FlowFabric.Foundation.Label
import FlowFabric.Token

/-! The spellings of an execution id. -/
namespace FlowFabric.Types
open Foundation List Nat Option

structure Uuid where
  digits : List (Fin 16)
  whole : digits.length = 32

namespace Uuid

def read (cs : List Char) : Option Uuid :=
  (cs.mapM fun c => (hexValue c).map (Fin.ofNat 16)).bind fun ds => if h : ds.length = 32 then some ⟨ds,h⟩ else none

def parseHyphenated (cs : List Char) : Option Uuid :=
  if (cs.splitOn '-').map length = [8,4,4,4,12] then read (cs.splitOn '-').flatten else none

/-- The plain digits, and the hyphenated ones as such, in braces or as a URN. -/
def parseStr (cs : List Char) : Option Uuid :=
  parseHyphenated cs <|> read cs <|>
    ((isPrefixOf? ['\x7b'] cs).bind fun rest =>
      if rest.getLast? = some '\x7d' then parseHyphenated rest.dropLast else none) <|>
    (isPrefixOf? "urn:uuid:".toList cs).bind parseHyphenated

def text (u : Uuid) : List Char := u.digits.map fun d : Fin 16 => hexDigit d.val

def hyphenated (u : Uuid) : List Char := ['-'].intercalate ([8,4,4,4,12].splitLengths u.text)

end Uuid

/-- A plus sign and zeros may come before the number. -/
def parseU16 (cs : List Char) : Option Nat :=
  let ds := if cs.head? = some '+' then cs.tail else cs
  if ds = [] then none else (Json.digits ds 0).filter (· < 2 ^ 16)

inductive ExecutionIdParseError where
  | missingTag (s : String)
  | invalidPartitionIndex (s : String)
  | invalidUuid (s : String)

/-- The partition with the brace behind it, and the rest. -/
def parts (s : String) : Option (List Char × List Char) :=
  (isPrefixOf? "\x7bfp:".toList s.toList).bind (splitPair '\x7d' ':')

/-- What the parser reads from a text. It keeps the text. -/
def parse (s : String) : Except ExecutionIdParseError (Nat × Uuid) := do
  let p ← (parts s).elim (.error (.missingTag s)) .ok
  let n ← (parseU16 p.1.dropLast).elim (.error (.invalidPartitionIndex (.ofList p.1.dropLast))) .ok
  let u ← (Uuid.parseStr p.2).elim (.error (.invalidUuid (.ofList p.2))) .ok
  return (n,u)

structure ExecutionId where
  text : String
  partition : Nat
  uuid : Uuid
  parsed : parse text = .ok (partition,uuid)

open ExecutionId

def hashTag (partition : Nat) : List Char := "\x7bfp:".toList ++ (toDigits 10 partition ++ ['\x7d'])

def withPartitionAndUuid (partition : Nat) (u : Uuid) : String := .ofList (hashTag partition ++ ':' :: u.hyphenated)

namespace ExecutionId
variable (e : ExecutionId)

/-- The text up to the brace. -/
def tag : List Char := "\x7bfp:".toList ++ (parts e.text).elim [] Prod.fst

def number : List Char := ((parts e.text).elim [] Prod.fst).dropLast

def uuidText : List Char := (parts e.text).elim [] Prod.snd

end ExecutionId

/-- There is no plus sign and no leading zero. -/
def PlainNumber (cs : List Char) : Prop := cs.head? ≠ some '+' ∧ (cs.head? = some '0' → cs = ['0'])

/-- Five groups between hyphens, of digits and lower-case letters. -/
def PlainUuid (cs : List Char) : Prop :=
  (cs.splitOn '-').map length = [8,4,4,4,12] ∧ ∀ c ∈ (cs.splitOn '-').flatten, c ∈ "0123456789abcdef".toList

def ExecutionId.Plain (e : ExecutionId) : Prop := PlainNumber e.number ∧ PlainUuid e.uuidText

/-! ### The number -/

private theorem toDigits_digit {c : Char} (h : c.isDigit = true) : toDigits 10 (c.toNat - '0'.toNat) = [c] := by
  have table : ∀ n : Fin 58, 48 ≤ n.val → toDigits 10 (n - 48) = [Char.ofNat n] := by decide
  obtain ⟨low,high⟩ := Char.isDigit_iff_toNat.mp h
  have entry := table ⟨c.toNat,lt_succ_of_le high⟩ low
  rwa [Char.ofNat_toNat] at entry

private theorem toDigits_digits {cs : List Char} {acc n : Nat} (hacc : 0 < acc) (h : Json.digits cs acc = some n) :
    toDigits 10 n = toDigits 10 acc ++ cs := by
  induction cs generalizing acc with
  | nil =>
    cases h
    simp
  | cons c cs ih =>
    rw [Json.digits] at h
    split at h
    · rename_i digit
      have below : c.toNat - '0'.toNat < 10 := by
        have high := (Char.isDigit_iff_toNat.mp digit).2
        change c.toNat ≤ 57 at high
        change c.toNat - 48 < 10
        omega
      rw [ih (by omega) h,← toDigits_append_toDigits (by decide) hacc below,toDigits_digit digit]
      simp
    · cases h

private theorem toDigits_head {n : Nat} (h : (Nat.toDigits 10 n).head? = some '0') : n = 0 := by
  induction n using Nat.strong_induction_on with
  | _ n ih =>
    rw [toDigits_eq_if (by decide)] at h
    split at h
    · exact digitChar_eq_zero.mp (some.inj h)
    · rw [head?_append_of_ne_nil _ toDigits_ne_nil] at h
      have := ih (n / 10) (by omega) h
      omega

private theorem plainNumber_iff {cs : List Char} {n : Nat} (h : parseU16 cs = some n) :
    PlainNumber cs ↔ cs = toDigits 10 n := by
  constructor
  · rintro ⟨unsigned,plain⟩
    rw [parseU16,if_neg unsigned] at h
    cases cs with
    | nil => cases h
    | cons c cs =>
      rw [if_neg (cons_ne_nil c cs),filter_eq_some_iff,Json.digits] at h
      split at h
      · rename_i digit
        by_cases zero : c = '0'
        · subst zero
          cases plain rfl
          cases h.1
          rfl
        · have pos : 0 < 10 * 0 + (c.toNat - '0'.toNat) := by
            have low := (Char.isDigit_iff_toNat.mp digit).1
            have ne : c.toNat ≠ '0'.toNat := fun he => zero (Char.toNat_inj.mp he)
            omega
          rw [toDigits_digits pos h.1,mul_zero,zero_add,toDigits_digit digit,singleton_append]
      · cases h.1
  · rintro rfl
    refine ⟨fun hs => notMem_toDigits (c := '+') rfl n (mem_of_head? hs),fun hz => ?_⟩
    rw [toDigits_head hz]
    rfl

/-! ### The UUID -/

namespace Uuid

private theorem exists_hexDigit {c : Char} (hc : c ∈ "0123456789abcdef".toList) : ∃ d : Fin 16, hexDigit d.val = c := by
  obtain ⟨i,hi,rfl⟩ := getElem_of_mem hc
  exact ⟨⟨i,hi⟩,by rw [hexDigit,getD_eq_getElem?_getD,getElem?_eq_getElem hi]; rfl⟩

private theorem value_hexDigit : ∀ d : Fin 16,
    (hexValue (hexDigit d.val)).map (Fin.ofNat 16) = some d ∧ hexDigit d.val ≠ '-' ∧
      hexDigit d.val ∈ "0123456789abcdef".toList := by
  decide

private theorem read_text (u : Uuid) : read u.text = some u := by
  have digits (ds : List (Fin 16)) : (ds.map fun d : Fin 16 => hexDigit d.val).mapM
      (fun c => (hexValue c).map (Fin.ofNat 16)) = some ds := by
    induction ds with
    | nil => rfl
    | cons d ds ih =>
      rw [map_cons,mapM_cons,(value_hexDigit d).1,ih]
      rfl
  rw [read,text,digits,bind_some,dif_pos u.whole]

private theorem exists_text {cs : List Char} (hl : cs.length = 32) (h : ∀ c ∈ cs, c ∈ "0123456789abcdef".toList) :
    ∃ u : Uuid, cs = u.text := by
  obtain ⟨ds,hds⟩ : ∃ ds : List (Fin 16), cs = ds.map fun d : Fin 16 => hexDigit d.val := by
    clear hl
    induction cs with
    | nil => exact ⟨[],rfl⟩
    | cons c cs ih =>
      obtain ⟨hc,hcs⟩ := forall_mem_cons.mp h
      obtain ⟨ds,hds⟩ := ih hcs
      obtain ⟨d,hd⟩ := exists_hexDigit hc
      exact ⟨d :: ds,by rw [hds,map_cons,hd]⟩
  exact ⟨⟨ds,by rwa [hds,length_map] at hl⟩,hds⟩

private theorem length_text (u : Uuid) : u.text.length = 32 := by rw [text,length_map,u.whole]

private theorem splitOn_hyphenated (u : Uuid) : u.hyphenated.splitOn '-' = [8,4,4,4,12].splitLengths u.text := by
  refine splitOn_intercalate '-' (fun l hl hm => ?_) (by simp [splitLengths])
  have joined : ([8,4,4,4,12].splitLengths u.text).flatten = u.text := flatten_splitLengths _ _ u.length_text.le
  obtain ⟨d,-,hd⟩ := mem_map.mp (joined ▸ mem_flatten.mpr ⟨l,hl,hm⟩)
  exact (value_hexDigit d).2.1 hd

theorem parseStr_hyphenated (u : Uuid) : parseStr u.hyphenated = some u := by
  have parsed : parseHyphenated u.hyphenated = some u := by
    rw [parseHyphenated,splitOn_hyphenated,map_splitLengths_length u.text [8,4,4,4,12] u.length_text.ge,if_pos rfl,
      flatten_splitLengths _ _ u.length_text.le,read_text]
  rw [parseStr,parsed]
  rfl

private theorem splitLengths_flatten (ls : List (List Char)) : (ls.map length).splitLengths ls.flatten = ls := by
  induction ls with
  | nil => rfl
  | cons l ls ih => simp [ih]

private theorem plainUuid_iff {cs : List Char} {u : Uuid} (h : parseStr cs = some u) :
    PlainUuid cs ↔ cs = u.hyphenated := by
  constructor
  · rintro ⟨groups,lower⟩
    have joined : ['-'].intercalate (cs.splitOn '-') = cs := intercalate_splitOn '-'
    have count : (cs.splitOn '-').flatten.length = 32 := by rw [length_flatten,groups]; rfl
    obtain ⟨u',text⟩ := exists_text count lower
    have spelled : cs = u'.hyphenated := by rw [hyphenated,← text,← groups,splitLengths_flatten,joined]
    rw [spelled,parseStr_hyphenated] at h
    cases h
    exact spelled
  · rintro rfl
    rw [PlainUuid,splitOn_hyphenated,map_splitLengths_length u.text [8,4,4,4,12] u.length_text.ge,
      flatten_splitLengths _ _ u.length_text.le]
    refine ⟨rfl,fun c hc => ?_⟩
    obtain ⟨d,-,rfl⟩ := mem_map.mp hc
    exact (value_hexDigit d).2.2

end Uuid

theorem parts_minted (n : Nat) (u : Uuid) :
    parts (withPartitionAndUuid n u) = some (toDigits 10 n ++ ['\x7d'],u.hyphenated) := by
  have split := splitPair_append (d := ':') (notMem_toDigits (c := '\x7d') rfl n) u.hyphenated
  simpa [parts,withPartitionAndUuid,hashTag,isPrefixOf?] using split

private theorem parseU16_toDigits {n : Nat} (h : n < 2 ^ 16) : parseU16 (toDigits 10 n) = some n := by
  have unsigned : (toDigits 10 n).head? ≠ some '+' := fun hs => notMem_toDigits (c := '+') rfl n (mem_of_head? hs)
  rw [parseU16,if_neg unsigned,if_neg toDigits_ne_nil,digits_toDigits]
  simpa using h

theorem parse_minted {n : Nat} (h : n < 2 ^ 16) (u : Uuid) : parse (withPartitionAndUuid n u) = .ok (n,u) := by
  rw [parse,parts_minted]
  simp [parseU16_toDigits h,u.parseStr_hyphenated,bind,Except.bind,pure,Except.pure]

private theorem parts_eq {s : String} {p : List Char × List Char} (h : parts s = some p) :
    ∃ number, p.1 = number ++ ['\x7d'] ∧ s = .ofList ("\x7bfp:".toList ++ (number ++ '\x7d' :: ':' :: p.2)) := by
  obtain ⟨rest,hrest,hp⟩ := bind_eq_some_iff.mp h
  obtain ⟨number,hnumber,hsplit⟩ := splitPair_eq hp
  refine ⟨number,hnumber,?_⟩
  rw [← hsplit,isPrefixOf?_eq_some_iff_append_eq.mp hrest,String.ofList_toList]

namespace ExecutionId
variable (e : ExecutionId)

/-- What the parser has accepted. -/
private theorem read : e.tag = "\x7bfp:".toList ++ (e.number ++ ['\x7d']) ∧
    e.text = .ofList ("\x7bfp:".toList ++ (e.number ++ '\x7d' :: ':' :: e.uuidText)) ∧
    parseU16 e.number = some e.partition ∧ Uuid.parseStr e.uuidText = some e.uuid := by
  have parsed := e.parsed
  unfold tag number uuidText
  unfold parse at parsed
  cases hp : parts e.text with
  | none =>
    rw [hp] at parsed
    cases parsed
  | some p =>
    obtain ⟨number,hnumber,htext⟩ := parts_eq hp
    simp only [hp,hnumber,elim_some,dropLast_concat,bind,Except.bind,pure,Except.pure] at parsed ⊢
    cases hn : parseU16 number with
    | none => simp [hn] at parsed
    | some n =>
      cases hu : Uuid.parseStr p.2 with
      | none => simp [hn,hu] at parsed
      | some u =>
        simp [hn,hu] at parsed
        simp [htext,parsed]

private theorem partition_lt : e.partition < 2 ^ 16 := by
  have h := e.read.2.2.1
  unfold parseU16 at h
  generalize (if e.number.head? = some '+' then e.number.tail else e.number) = ds at h
  dsimp only at h
  split at h
  · cases h
  · exact of_decide_eq_true (filter_eq_some_iff.mp h).2

private theorem plain_iff : e.Plain ↔ e.text = withPartitionAndUuid e.partition e.uuid := by
  obtain ⟨-,text,number,uuid⟩ := e.read
  rw [Plain,plainNumber_iff number,Uuid.plainUuid_iff uuid]
  constructor
  · rintro ⟨hn,hu⟩
    rw [text,hn,hu,withPartitionAndUuid,hashTag]
    simp
  · intro h
    simp [ExecutionId.number,uuidText,h,parts_minted]

variable {e}

private theorem ext_text {e' : ExecutionId} (ht : e.text = e'.text) (hp : e.partition = e'.partition)
    (hu : e.uuid = e'.uuid) : e = e' := by
  cases e
  cases e'
  cases ht
  cases hp
  cases hu
  rfl

end ExecutionId

/-- Every id has a plain spelling. Two ids that denote the same are equal exactly if their numbers and their
UUIDs are written alike, and to the plain one exactly the plain one is equal. The tag is that of the partition
exactly if the number is plain. -/
theorem executionIds_are_canonical_iff (a : ExecutionId) :
    (∃ e : ExecutionId, e.Plain ∧ e.partition = a.partition ∧ e.uuid = a.uuid) ∧
    (∀ b : ExecutionId, a.partition = b.partition → a.uuid = b.uuid →
      (a = b ↔ a.number = b.number ∧ a.uuidText = b.uuidText) ∧ (b.Plain → (a = b ↔ a.Plain))) ∧
    (a.tag = hashTag a.partition ↔ PlainNumber a.number) := by
  obtain ⟨tag,text,number,-⟩ := a.read
  refine ⟨⟨⟨_,_,_,parse_minted a.partition_lt a.uuid⟩,(plain_iff _).mpr rfl,rfl,rfl⟩,
    fun b hp hu => ⟨⟨fun h => h ▸ ⟨rfl,rfl⟩,fun h => ?_⟩,fun plain => ⟨fun h => h ▸ plain,fun h => ?_⟩⟩,?_⟩
  · refine ext_text ?_ hp hu
    rw [text,h.1,h.2,← b.read.2.1]
  · refine ext_text ?_ hp hu
    rw [a.plain_iff.mp h,b.plain_iff.mp plain,hp,hu]
  · rw [tag,hashTag,append_cancel_left_eq,append_cancel_right_eq,plainNumber_iff number]

def nil : Uuid := ⟨replicate 32 0,rfl⟩

/-- A plus sign is kept in the text. -/
theorem signed_id_is_another : let text : String := .ofList ("\x7bfp:+5\x7d:".toList ++ nil.hyphenated)
    ∃ a b : ExecutionId, a.text = text ∧ b.text = withPartitionAndUuid 5 nil ∧ a.partition = b.partition ∧
      a.uuid = b.uuid ∧ a ≠ b ∧ a.tag ≠ hashTag a.partition := by
  refine ⟨⟨_,5,nil,rfl⟩,⟨_,5,nil,parse_minted (by decide) nil⟩,rfl,rfl,rfl,rfl,fun h => ?_,by decide⟩
  exact absurd (congrArg text h) (by decide)

end FlowFabric.Types
