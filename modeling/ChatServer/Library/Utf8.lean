import Mathlib.Data.List.Basic
import Mathlib.Tactic.Common

/-! # UTF-8 with replacement

The decoder never fails: a sequence of bytes that encodes no character is replaced
by U+FFFD. What was encoded is decoded to itself in front of anything, and fixed-size
fields that are filled up with zeros and stripped of zeros give back their text
exactly if nothing else is in them.
-/

namespace Utf8

def encode (cs : List Char) : List UInt8 := cs.flatMap String.utf8EncodeChar

/-- The character whose encoding the bytes begin with -/
def first (l : List UInt8) : Option Char := l.toByteArray.utf8DecodeChar? 0

/-- The range of the second byte after a first byte of a longer encoding -/
def secondByte (b : UInt8) : Option (UInt8 × UInt8) :=
  if b < 0xC2 ∨ 0xF4 < b then none
  else if b = 0xE0 then some (0xA0, 0xBF)
  else if b = 0xED then some (0x80, 0x9F)
  else if b = 0xF0 then some (0x90, 0xBF)
  else if b = 0xF4 then some (0x80, 0x8F)
  else some (0x80, 0xBF)

/-- How many bytes one replacement stands for: the longest beginning of an encoding,
or a single byte. -/
def invalidLength : List UInt8 → ℕ
  | b :: c :: l =>
    match secondByte b with
    | none => 1
    | some (low, high) =>
      if low ≤ c ∧ c ≤ high then
        match l with
        | d :: _ => if 0x80 ≤ d ∧ d ≤ 0xBF then 3 else 2
        | [] => 2
      else 1
  | _ => 1

/-- Decode after skipping bytes that belong to the previous character. -/
def decodeFrom : ℕ → List UInt8 → List Char
  | _, [] => []
  | skip + 1, _ :: l => decodeFrom skip l
  | 0, b :: l =>
    match first (b :: l) with
    | some c => c :: decodeFrom (c.utf8Size - 1) l
    | none => '\uFFFD' :: decodeFrom (invalidLength (b :: l) - 1) l

def decode (l : List UInt8) : List Char := decodeFrom 0 l

@[simp] theorem encode_nil : encode [] = [] := rfl

@[simp] theorem encode_cons (c : Char) (cs : List Char) :
    encode (c :: cs) = String.utf8EncodeChar c ++ encode cs := rfl

@[simp] theorem encode_append (cs ds : List Char) : encode (cs ++ ds) = encode cs ++ encode ds := by
  simp [encode]

@[simp] theorem encode_eq_nil {cs : List Char} : encode cs = [] ↔ cs = [] := by
  cases cs with
  | nil => simp
  | cons c cs => simp [String.utf8EncodeChar_ne_nil]

/-- The zero byte encodes the zero character and is part of no other encoding. -/
theorem zero_mem_utf8EncodeChar {c : Char} : 0 ∈ String.utf8EncodeChar c ↔ c = '\x00' := by
  have hval : c = '\x00' ↔ c.val.toNat = 0 := by
    rw [Char.ext_iff, ← UInt32.toNat_inj]
    rfl
  rw [hval, String.utf8EncodeChar]
  generalize c.val.toNat = v
  split_ifs with hone htwo hthree <;>
    simp only [List.mem_cons, List.not_mem_nil, or_false, ← UInt8.toNat_inj, UInt8.toNat_ofNat',
      UInt8.toNat_zero]
  all_goals omega

theorem zero_mem_encode {cs : List Char} : 0 ∈ encode cs ↔ '\x00' ∈ cs := by
  simp [encode, zero_mem_utf8EncodeChar]

theorem first_utf8EncodeChar_append (c : Char) (l : List UInt8) :
    first (String.utf8EncodeChar c ++ l) = some c := by
  rw [first, List.toByteArray_append]
  exact ByteArray.utf8DecodeChar?_utf8EncodeChar_append

/-- A character is decoded only where its encoding stands. -/
theorem eq_append_of_first {l : List UInt8} {c : Char} (h : first l = some c) :
    ∃ rest, l = String.utf8EncodeChar c ++ rest := by
  rcases ByteArray.exists_of_utf8DecodeChar?_eq_some h with ⟨rest, hrest⟩
  have hdata := congrArg (fun bytes => bytes.data.toList) hrest
  exact ⟨rest.data.toList, by simpa using hdata⟩

theorem decodeFrom_length (skipped l : List UInt8) :
    decodeFrom skipped.length (skipped ++ l) = decode l := by
  induction skipped with
  | nil => rfl
  | cons b skipped ih => exact ih

theorem decode_utf8EncodeChar_append (c : Char) (l : List UInt8) :
    decode (String.utf8EncodeChar c ++ l) = c :: decode l := by
  have hfirst := first_utf8EncodeChar_append c l
  have hlength := String.length_utf8EncodeChar c
  cases hc : String.utf8EncodeChar c with
  | nil => exact absurd hc String.utf8EncodeChar_ne_nil
  | cons b bs =>
    rw [hc] at hfirst hlength
    rw [List.cons_append] at hfirst ⊢
    have hskip : c.utf8Size - 1 = bs.length := by
      rw [← hlength, List.length_cons, Nat.add_sub_cancel]
    rw [decode, decodeFrom, hfirst]
    simp only [hskip, decodeFrom_length]

theorem decode_encode_append (cs : List Char) (l : List UInt8) :
    decode (encode cs ++ l) = cs ++ decode l := by
  induction cs with
  | nil => rfl
  | cons c cs ih => rw [encode_cons, List.append_assoc, decode_utf8EncodeChar_append, ih,
      List.cons_append]

theorem decode_encode (cs : List Char) : decode (encode cs) = cs := by
  simpa [decode, decodeFrom] using decode_encode_append cs []

theorem encode_injective : Function.Injective encode :=
  Function.LeftInverse.injective decode_encode

/-! ## Fields filled up with zeros -/

theorem decode_replicate_zero (n : ℕ) : decode (List.replicate n 0) = List.replicate n '\x00' := by
  have hzeros : List.replicate n 0 = encode (List.replicate n '\x00') := by
    induction n with
    | zero => rfl
    | succ n ih => rw [List.replicate_succ, ih]; rfl
  rw [hzeros, decode_encode]

/-- Only zeros are decoded to zero characters. -/
theorem eq_zero_of_decode {l : List UInt8} (h : ∀ c ∈ decode l, c = '\x00') : ∀ b ∈ l, b = 0 := by
  induction l with
  | nil => simp
  | cons b l ih =>
    cases hfirst : first (b :: l) with
    | none =>
      have := h '\uFFFD' (by simp [decode, decodeFrom, hfirst])
      exact absurd this (by decide)
    | some c =>
      obtain rfl : c = '\x00' := h c (by simp [decode, decodeFrom, hfirst])
      rcases eq_append_of_first hfirst with ⟨rest, hrest⟩
      have hzero : String.utf8EncodeChar '\x00' = [0] := by decide
      rw [hzero, List.singleton_append, List.cons.injEq] at hrest
      have hrec : decode (b :: l) = '\x00' :: decode l := by
        rw [hrest.1, ← List.singleton_append, ← hzero, decode_utf8EncodeChar_append]
      rw [hrec] at h
      simp only [List.mem_cons, forall_eq_or_imp] at h ⊢
      exact ⟨hrest.1, ih h.2⟩

/-- The text of a field: its bytes decoded and all zero characters removed. -/
def text (l : List UInt8) : List Char := (decode l).filter (· ≠ '\x00')

theorem text_encode_append {cs : List Char} (h : '\x00' ∉ cs) (l : List UInt8) :
    text (encode cs ++ l) = cs ++ text l := by
  rw [text, decode_encode_append, List.filter_append, List.filter_eq_self.mpr]
  · rfl
  · intro c hc
    simpa using ne_of_mem_of_not_mem hc h

theorem text_eq_nil {l : List UInt8} : text l = [] ↔ ∀ b ∈ l, b = 0 := by
  rw [text, List.filter_eq_nil_iff]
  constructor
  · intro h
    exact eq_zero_of_decode fun c hc => by simpa using h c hc
  · intro h
    rw [List.eq_replicate_of_mem h, decode_replicate_zero]
    simp

/-- Bytes without a zero come back from a field exactly if they encode a text and the
rest of the field is zero. -/
theorem encode_text_append_iff {id l : List UInt8} (h : 0 ∉ id) :
    encode (text (id ++ l)) = id ↔ (∃ cs, encode cs = id) ∧ ∀ b ∈ l, b = 0 := by
  constructor
  · intro hid
    refine ⟨⟨_, hid⟩, ?_⟩
    obtain ⟨cs, rfl⟩ : ∃ cs, encode cs = id := ⟨_, hid⟩
    rw [zero_mem_encode] at h
    rw [text_encode_append h, encode_append] at hid
    rw [← text_eq_nil, ← encode_eq_nil]
    exact List.append_right_eq_self.mp hid
  · rintro ⟨⟨cs, rfl⟩, hl⟩
    rw [zero_mem_encode] at h
    rw [text_encode_append h, text_eq_nil.mpr hl, List.append_nil]

end Utf8
