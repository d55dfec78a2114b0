import Mathlib.Tactic.Common

/-!
# UTF-8 with replacement

Bytes are read as characters. A byte that begins no character, and a longest beginning of a
character that is not completed, is read as the replacement character.
-/
namespace PromptForge.Utf8

def replacement : Char := '\uFFFD'

/-- A character that is not complete: its bits so far, how many bytes are to follow, and the
    bounds of the next one. -/
structure Pending where
  bits : ℕ
  left : ℕ
  low : ℕ
  high : ℕ

def begins (b : ℕ) : Option Pending :=
  if 0xC2 ≤ b ∧ b ≤ 0xDF then some ⟨b - 0xC0, 1, 0x80, 0xBF⟩
  else if b = 0xE0 then some ⟨b - 0xE0, 2, 0xA0, 0xBF⟩
  else if b = 0xED then some ⟨b - 0xE0, 2, 0x80, 0x9F⟩
  else if 0xE1 ≤ b ∧ b ≤ 0xEF then some ⟨b - 0xE0, 2, 0x80, 0xBF⟩
  else if b = 0xF0 then some ⟨b - 0xF0, 3, 0x90, 0xBF⟩
  else if 0xF1 ≤ b ∧ b ≤ 0xF3 then some ⟨b - 0xF0, 3, 0x80, 0xBF⟩
  else if b = 0xF4 then some ⟨b - 0xF0, 3, 0x80, 0x8F⟩
  else none

def first (b : ℕ) : List Char × Option Pending :=
  if b < 0x80 then ([Char.ofNat b], none)
  else
    match begins b with
    | some pending => ([], some pending)
    | none => ([replacement], none)

def follow (pending : Pending) (b : ℕ) : List Char × Option Pending :=
  if pending.low ≤ b ∧ b ≤ pending.high then
    let bits := pending.bits * 64 + (b - 0x80)
    if pending.left = 1 then ([Char.ofNat bits], none) else ([], some ⟨bits, pending.left - 1, 0x80, 0xBF⟩)
  else (replacement :: (first b).1, (first b).2)

def decodeFrom : Option Pending → List UInt8 → List Char
  | none, [] => []
  | some _, [] => [replacement]
  | none, b :: rest => (first b.toNat).1 ++ decodeFrom (first b.toNat).2 rest
  | some pending, b :: rest => (follow pending b.toNat).1 ++ decodeFrom (follow pending b.toNat).2 rest

/-- `bytes.decode("utf-8", errors="replace")` -/
def decode (bytes : List UInt8) : List Char := decodeFrom none bytes

example : decode [0x41, 0xE2, 0x82, 0xAC, 0xC0, 0xE2, 0x82] = ['A', '€', replacement, replacement] := by decide

lemma decode_ascii {bytes : List UInt8} (h : ∀ b ∈ bytes, b.toNat < 0x80) :
    decode bytes = bytes.map fun b => Char.ofNat b.toNat := by
  induction bytes with
  | nil => rfl
  | cons b rest ih =>
    have hb := h b List.mem_cons_self
    have hfirst : first b.toNat = ([Char.ofNat b.toNat], none) := if_pos hb
    rw [decode, decodeFrom, hfirst, List.map_cons, ← ih fun c hc => h c (List.mem_cons_of_mem _ hc)]
    rfl

lemma decode_single {b : UInt8} (h : 0x80 ≤ b.toNat) : decode [b] = [replacement] := by
  rw [decode, decodeFrom, first, if_neg (by omega)]
  cases begins b.toNat <;> rfl

lemma ofNat_ne_replacement {n : ℕ} (h : n < 0x80) : Char.ofNat n ≠ replacement := by
  intro heq
  have hn : (Char.ofNat n).toNat = n := by
    have hvalid : n.isValidChar := .inl (by omega)
    rw [Char.ofNat, dif_pos hvalid]
    rfl
  rw [heq] at hn
  have hr : replacement.toNat = 0xFFFD := rfl
  omega

lemma zero_of_ofNat {n : ℕ} (h : (0 : UInt8) = UInt8.ofNat n) : n % 256 = 0 := by
  have hn := congrArg UInt8.toNat h
  simpa using hn.symm

lemma zero_mem_utf8EncodeChar {c : Char} (h : (0 : UInt8) ∈ String.utf8EncodeChar c) : c = '\x00' := by
  unfold String.utf8EncodeChar at h
  simp only at h
  have hval : c.val.toNat = 0 := by
    split at h
    · have hz := zero_of_ofNat (List.mem_singleton.mp h)
      omega
    · split at h
      · simp only [List.mem_cons, List.not_mem_nil, or_false] at h
        rcases h with h | h <;> have hz := zero_of_ofNat h <;> omega
      · split at h
        · simp only [List.mem_cons, List.not_mem_nil, or_false] at h
          rcases h with h | h | h <;> have hz := zero_of_ofNat h <;> omega
        · simp only [List.mem_cons, List.not_mem_nil, or_false] at h
          rcases h with h | h | h | h <;> have hz := zero_of_ofNat h <;> omega
  exact Char.ext (UInt32.toNat.inj hval)

def encode (text : List Char) : List UInt8 := text.flatMap String.utf8EncodeChar

lemma bytes_ofList (text : List Char) : (String.ofList text).toByteArray.data.toList = encode text := by
  rw [String.toByteArray_ofList, List.utf8Encode]
  simp [encode]

lemma encode_inj {a b : List Char} (h : encode a = encode b) : a = b := by
  rw [← bytes_ofList a, ← bytes_ofList b] at h
  exact String.ofList_injective (String.toByteArray_inj.mp (ByteArray.ext (Array.toList_inj.mp h)))

lemma zero_not_mem_encode {text : List Char} (h : '\x00' ∉ text) : (0 : UInt8) ∉ encode text := by
  intro hzero
  obtain ⟨c, hc, hzero⟩ := List.mem_flatMap.1 hzero
  exact h (zero_mem_utf8EncodeChar hzero ▸ hc)

end PromptForge.Utf8
