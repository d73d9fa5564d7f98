import FlowFabric.Token

/-! The keys that hex_to_bytes takes beside pairs of hexadecimal digits. -/
namespace FlowFabric
open Foundation

def isHexDigit (c : Char) : Bool := (hexValue c).isSome

def WellFormedKey (hex : String) : Prop := hex.toList.length % 2 = 0 ∧ ∀ c ∈ hex.toList, isHexDigit c

/-- Pairs of digits are all that is decoded, and they come back in lower case. -/
def DecodesStrictly (hex : String) : Prop :=
  ((hexToBytes hex).isSome ↔ WellFormedKey hex) ∧ (∀ bytes, hexToBytes hex = some bytes → toHex bytes = hex.toLower) ∧
    ∀ message, (hmacSha1Hex hex message).isSome ↔ WellFormedKey hex

/-- Two digits, or one beside a blank, after a sign or before NUL. -/
def ReadableGroup (a b : Char) : Prop :=
  (isHexDigit a ∧ (isHexDigit b ∨ isBlank b ∨ b = '\x00')) ∨ ((isBlank a ∨ a = '+' ∨ a = '-') ∧ isHexDigit b)

/-- The groups of two characters that the loop reads. -/
def InGroups (P : Char → Char → Prop) : List Char → Prop
  | [] => True
  | [_] => False
  | a :: b :: rest => P a b ∧ InGroups P rest

variable {a b c : Char} {x : Nat} {l : List Char}

private theorem hexValue_digit (h : hexValue c = some x) : x < 16 ∧ hexDigit x = c.toLower := by
  have table : ∀ n : Fin 128, (hexValue (Char.ofNat n)).all fun x =>
      x < 16 ∧ hexDigit x = (Char.ofNat n).toLower := by
    decide +kernel
  have ascii : c ≤ 'f' := by
    unfold hexValue at h
    split_ifs at h with decimal lower upper
    · exact le_trans decimal.2 (by decide)
    · exact lower.2
    · exact le_trans upper.2 (by decide)
  have entry := table ⟨c.toNat,lt_of_le_of_lt (show c.toNat ≤ 102 from ascii) (by decide)⟩
  rw [Char.ofNat_toNat,h] at entry
  exact of_decide_eq_true entry

private theorem hexPair_isSome : (hexPair a b).isSome ↔ ReadableGroup a b := by
  unfold hexPair ReadableGroup isHexDigit
  cases hexValue a with
  | none | some => cases hexValue b <;> grind

private theorem hexPairs_isSome : (hexPairs l).isSome ↔ InGroups ReadableGroup l := by
  fun_induction InGroups ReadableGroup l with
  | case1 | case2 => simp [hexPairs]
  | case3 a b rest ih =>
    rw [hexPairs,← hexPair_isSome,← ih]
    cases hexPair a b <;> cases hexPairs rest <;> simp

private theorem hexPairs_of_digits (he : l.length % 2 = 0) (h : ∀ c ∈ l, isHexDigit c) :
    ∃ bytes, hexPairs l = some bytes ∧
    (bytes.flatMap fun b => [hexDigit (b.toNat / 16),hexDigit (b.toNat % 16)]) = l.map Char.toLower := by
  fun_induction InGroups ReadableGroup l with
  | case1 => exact ⟨[],rfl,rfl⟩
  | case2 => simp at he
  | case3 a b rest ih =>
    simp only [List.forall_mem_cons,isHexDigit,Option.isSome_iff_exists] at h
    obtain ⟨⟨x,hx⟩,⟨y,hy⟩,hrest⟩ := h
    obtain ⟨bytes,hbytes,htext⟩ := ih (by simp at he; omega) (by simpa [isHexDigit,Option.isSome_iff_exists] using hrest)
    refine ⟨BitVec.ofNat 8 (16 * x + y) :: bytes,by simp [hexPairs,hexPair,hx,hy,hbytes],?_⟩
    obtain ⟨hx,hx'⟩ := hexValue_digit hx
    obtain ⟨hy,hy'⟩ := hexValue_digit hy
    have high : (16 * x + y) % 256 / 16 = x := by omega
    have low : (16 * x + y) % 256 % 16 = y := by omega
    simp [htext,high,low,hx',hy']

/-- The decoder is strict on a key unless it pairs up into groups that can be read and are not all digits. -/
theorem hex_decodes_strictly_iff (hex : String) :
    DecodesStrictly hex ↔ ¬ (InGroups ReadableGroup hex.toList ∧ ¬ WellFormedKey hex) := by
  have defined (message : String) : (hmacSha1Hex hex message).isSome = (hexToBytes hex).isSome := Option.isSome_map
  have decoded (h : WellFormedKey hex) : ∃ bytes, hexToBytes hex = some bytes ∧ toHex bytes = hex.toLower := by
    obtain ⟨bytes,hbytes,htext⟩ := hexPairs_of_digits h.1 h.2
    refine ⟨bytes,hbytes,?_⟩
    rw [toHex,htext,← String.toList_map,String.ofList_toList]
    rfl
  rw [← hexPairs_isSome,not_and_not_right]
  refine ⟨fun h => h.1.mp,fun strict => ?_⟩
  have iff : (hexToBytes hex).isSome ↔ WellFormedKey hex := by
    refine ⟨strict,fun h => ?_⟩
    obtain ⟨bytes,hbytes,-⟩ := decoded h
    rw [hbytes]
    rfl
  refine ⟨iff,fun bytes hbytes => ?_,fun message => (defined message).symm ▸ iff⟩
  obtain ⟨bytes',hbytes',htext⟩ := decoded (iff.mp (by rw [hbytes]; rfl))
  cases hbytes.symm.trans hbytes'
  exact htext

/-- A blank, a sign and NUL are taken for digits. -/
theorem blank_key_is_decoded :
    hexToBytes "+a 1-f2\x00" = some [0x0a#8,0x01#8,0x00#8,0x02#8] ∧ ¬ WellFormedKey "+a 1-f2\x00" ∧
      (hmacSha1Hex "+a 1-f2\x00" "").isSome := by
  refine ⟨rfl,fun h => ?_,rfl⟩
  cases h.2 '+' (by decide)

end FlowFabric
