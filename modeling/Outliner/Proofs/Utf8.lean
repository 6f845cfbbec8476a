import Mathlib.Tactic.Lemma
import Outliner.Text.Word

set_option autoImplicit false

/-!
# Texts as bytes

A program that goes through a text byte by byte and looks for characters of ASCII finds what it
would find going through the characters: a character of ASCII is one byte, and no byte of another
character is the same. Whether a character begins at an offset can be told from the byte there.

## Main definitions

* `Outliner.Utf8.encode` — the bytes of a text.
* `Outliner.Utf8.isFirstByte` — the bytes with which characters begin.

## Main results

* `Outliner.Utf8.count_encode` — a character of ASCII occurs as often among the bytes.
* `Outliner.Utf8.any_isFirstByte_iff` — a character begins where a first byte stands.
* `Outliner.Utf8.getElem?_encode_iff` — a character of ASCII stands where as many bytes are in front
  of it.
-/

namespace Outliner.Utf8

/-- The bytes of a text. -/
def encode (text : List Char) : List UInt8 := text.flatMap String.utf8EncodeChar

variable {c d : Char}

/-- The empty text has no bytes. -/
@[simp] lemma encode_nil : encode [] = [] := rfl

/-- The bytes of a character come before those of the rest of the text. -/
lemma encode_cons (c : Char) (text : List Char) :
    encode (c :: text) = String.utf8EncodeChar c ++ encode text := rfl

/-- The bytes of two texts come one after the other. -/
lemma encode_append (a b : List Char) : encode (a ++ b) = encode a ++ encode b :=
  List.flatMap_append

/-- A text has as many bytes as it takes. -/
lemma length_encode (text : List Char) : (encode text).length = byteLength text := by
  induction text with
  | nil => rfl
  | cons c text ih =>
    rw [encode_cons, List.length_append, String.length_utf8EncodeChar, ih]
    rfl

/-! ## Characters of ASCII -/

/-- A character of ASCII is one byte. -/
lemma encodeChar_ascii (h : c.toNat < 0x80) : String.utf8EncodeChar c = [c.toUInt8] := by
  have hle : c.val.toNat ≤ 127 := Nat.le_of_lt_succ h
  rw [String.utf8EncodeChar, if_pos hle]
  rfl

/-- Every byte of another character lies beyond ASCII.

**Proof sketch.** A character beyond ASCII has two, three or four bytes, and all of them have the
highest bit. -/
lemma le_of_mem_encodeChar (h : 0x80 ≤ c.toNat) {b : UInt8} (hb : b ∈ String.utf8EncodeChar c) :
    0x80 ≤ b.toNat := by
  have hnot : ¬ c.val.toNat ≤ 127 := Nat.not_le_of_lt h
  have hbyte : ∀ n, 0x80 ≤ n → n < 0x100 → 0x80 ≤ (UInt8.ofNat n).toNat := by
    intro n hle hlt
    rwa [UInt8.toNat_ofNat', Nat.mod_eq_of_lt hlt]
  -- two, three or four bytes
  rw [String.utf8EncodeChar, if_neg hnot] at hb
  split at hb
  · simp only [List.mem_cons, List.not_mem_nil, or_false] at hb
    rcases hb with rfl | rfl <;> exact hbyte _ (by omega) (by omega)
  · split at hb
    · simp only [List.mem_cons, List.not_mem_nil, or_false] at hb
      rcases hb with rfl | rfl | rfl <;> exact hbyte _ (by omega) (by omega)
    · simp only [List.mem_cons, List.not_mem_nil, or_false] at hb
      rcases hb with rfl | rfl | rfl | rfl <;> exact hbyte _ (by omega) (by omega)

/-- A character of ASCII is its own byte. -/
lemma toNat_toUInt8 (h : c.toNat < 0x80) : c.toUInt8.toNat = c.toNat := by
  rw [Char.toUInt8, UInt32.toNat_toUInt8]
  exact Nat.mod_eq_of_lt (Nat.lt_of_lt_of_le h (by decide))

/-- The byte of a character of ASCII is a byte of this character only. -/
lemma mem_encodeChar_iff (hd : d.toNat < 0x80) : d.toUInt8 ∈ String.utf8EncodeChar c ↔ c = d := by
  constructor
  · intro hmem
    rcases Nat.lt_or_ge c.toNat 0x80 with hc | hc
    · rw [encodeChar_ascii hc, List.mem_singleton] at hmem
      have hsame := congrArg UInt8.toNat hmem
      rw [toNat_toUInt8 hc, toNat_toUInt8 hd] at hsame
      exact (Char.toNat_inj.1 hsame).symm
    · have hle := le_of_mem_encodeChar hc hmem
      rw [toNat_toUInt8 hd] at hle
      exact absurd hd (Nat.not_lt_of_le hle)
  · rintro rfl
    rw [encodeChar_ascii hd]
    exact List.mem_singleton_self _

/-- **A character of ASCII occurs as often among the bytes of a text as in the text.** -/
theorem count_encode (hd : d.toNat < 0x80) (text : List Char) :
    (encode text).count d.toUInt8 = text.count d := by
  induction text with
  | nil => rfl
  | cons c text ih =>
    rw [encode_cons, List.count_append, ih, List.count_cons, Nat.add_comm]
    congr 1
    by_cases hc : c = d
    · subst hc
      rw [encodeChar_ascii hd, List.count_singleton_self, beq_self_eq_true, if_pos rfl]
    · rw [if_neg (by simpa using hc), List.count_eq_zero, mem_encodeChar_iff hd]
      exact hc

/-! ## Where characters begin -/

/-- Whether a character begins with the byte. The other bytes go on with a character. -/
def isFirstByte (b : UInt8) : Bool := b < 0x80 || 0xC0 ≤ b

/-- A first byte lies in ASCII or begins a character of several bytes. -/
lemma isFirstByte_ofNat {n : Nat} (h : n < 0x100) :
    isFirstByte (.ofNat n) = true ↔ n < 0x80 ∨ 0xC0 ≤ n := by
  rw [isFirstByte, Bool.or_eq_true, decide_eq_true_eq, decide_eq_true_eq, UInt8.lt_iff_toNat_lt,
    UInt8.le_iff_toNat_le, UInt8.toNat_ofNat', Nat.mod_eq_of_lt h]
  rfl

/-- A character is a first byte and others that go on with it.

**Proof sketch.** The bytes behind the first are six bits each, with the highest bit set and the
next one not. The first one is a character of ASCII or has both bits. -/
lemma exists_encodeChar (c : Char) : ∃ first further,
    String.utf8EncodeChar c = first :: further ∧ isFirstByte first = true
      ∧ ∀ b ∈ further, isFirstByte b = false := by
  have hfirst : ∀ n, 0xC0 ≤ n → n < 0x100 → isFirstByte (.ofNat n) = true :=
    fun n hle hlt => (isFirstByte_ofNat hlt).2 (.inr hle)
  have hfurther : ∀ n, isFirstByte (.ofNat (n % 64 + 0x80)) = false := by
    intro n
    rw [Bool.eq_false_iff, ne_eq, isFirstByte_ofNat (by omega)]
    omega
  have hall : ∀ ns : List Nat, ∀ b ∈ ns.map fun n => UInt8.ofNat (n % 64 + 0x80),
      isFirstByte b = false :=
    fun _ => List.forall_mem_map.2 fun n _ => hfurther n
  rw [String.utf8EncodeChar]
  -- one, two, three or four bytes
  split
  · exact ⟨_, [], rfl, (isFirstByte_ofNat (by omega)).2 (.inl (by omega)), List.forall_mem_nil _⟩
  · split
    · exact ⟨_, _, rfl, hfirst _ (by omega) (by omega), hall [_]⟩
    · split
      · exact ⟨_, _, rfl, hfirst _ (by omega) (by omega), hall [_, _]⟩
      · exact ⟨_, _, rfl, hfirst _ (by omega) (by omega), hall [_, _, _]⟩

/-- Behind some characters the first byte of the next one stands. -/
lemma getElem?_encode_append_cons (before : List Char) (c : Char) (after : List Char) :
    (encode (before ++ c :: after))[byteLength before]? = (String.utf8EncodeChar c).head? := by
  obtain ⟨first, further, hbytes, -⟩ := exists_encodeChar c
  rw [encode_append, ← length_encode, List.getElem?_append_right (Nat.le_refl _), Nat.sub_self,
    encode_cons, hbytes]
  rfl

/-- **A character begins where a first byte stands.** No other place has as many bytes in front of
it.

**Proof sketch.** Induction on the text. Among the bytes of the first character only the first one
is a first byte, and behind them the offset is one of what follows. -/
theorem any_isFirstByte_iff {text : List Char} {offset : Nat} :
    (encode text)[offset]?.any isFirstByte = true
      ↔ ∃ before c after, text = before ++ c :: after ∧ byteLength before = offset := by
  constructor
  · intro h
    induction text generalizing offset with
    | nil => simp at h
    | cons c text ih =>
      obtain ⟨first, further, hbytes, -, hfurther⟩ := exists_encodeChar c
      rw [encode_cons] at h
      rcases Nat.lt_or_ge offset (String.utf8EncodeChar c).length with hhere | hbehind
      · rw [List.getElem?_append_left hhere, hbytes] at h
        cases offset with
        | zero => exact ⟨[], c, text, rfl, rfl⟩
        | succ offset =>
          obtain ⟨b, hb, hisFirst⟩ := (Option.any_eq_true _ _).1 h
          rw [hfurther b (List.mem_of_getElem? hb)] at hisFirst
          exact absurd hisFirst Bool.false_ne_true
      · rw [List.getElem?_append_right hbehind] at h
        obtain ⟨before, d, after, rfl, hbefore⟩ := ih h
        refine ⟨c :: before, d, after, rfl, ?_⟩
        rw [byteLength, hbefore, ← String.length_utf8EncodeChar]
        omega
  · rintro ⟨before, c, after, rfl, rfl⟩
    obtain ⟨first, further, hbytes, hfirst, -⟩ := exists_encodeChar c
    rw [getElem?_encode_append_cons, hbytes]
    exact hfirst

/-! ## Places -/

/-- The first characters of a text have the first bytes. -/
lemma take_encode (text : List Char) (place : Nat) :
    (encode text).take (byteLength (text.take place)) = encode (text.take place) := by
  have hsplit := encode_append (text.take place) (text.drop place)
  rw [List.take_append_drop] at hsplit
  rw [hsplit, ← length_encode, List.take_left]

/-- The last characters of a text have the last bytes. -/
lemma drop_encode (text : List Char) (place : Nat) :
    (encode text).drop (byteLength (text.take place)) = encode (text.drop place) := by
  have hsplit := encode_append (text.take place) (text.drop place)
  rw [List.take_append_drop] at hsplit
  rw [hsplit, ← length_encode, List.drop_left]

/-- **A character of ASCII stands among the bytes of a text where as many bytes are in front of
it.**

**Proof sketch.** A byte of ASCII is a first byte, so a character of the text begins there
(`any_isFirstByte_iff`), and it is the only character that begins with this byte. -/
theorem getElem?_encode_iff (hd : d.toNat < 0x80) {text : List Char} {offset : Nat} :
    (encode text)[offset]? = some d.toUInt8
      ↔ ∃ place, offset = byteLength (text.take place) ∧ text[place]? = some d := by
  have hbyte : d.toUInt8 = .ofNat d.toNat := rfl
  constructor
  · intro h
    have hfirst : (encode text)[offset]?.any isFirstByte = true := by
      rw [h, Option.any_some, hbyte, isFirstByte_ofNat (by omega)]
      exact .inl hd
    obtain ⟨before, c, after, rfl, rfl⟩ := any_isFirstByte_iff.1 hfirst
    rw [getElem?_encode_append_cons] at h
    obtain rfl := (mem_encodeChar_iff hd).1 (List.mem_of_head? h)
    refine ⟨before.length, by rw [List.take_left], ?_⟩
    rw [List.getElem?_append_right (Nat.le_refl _), Nat.sub_self]
    rfl
  · rintro ⟨place, rfl, hplace⟩
    obtain ⟨hlt, rfl⟩ := List.getElem?_eq_some_iff.1 hplace
    have hfound := getElem?_encode_append_cons (text.take place) text[place] (text.drop (place + 1))
    rwa [← List.drop_eq_getElem_cons hlt, List.take_append_drop, encodeChar_ascii hd] at hfound

end Outliner.Utf8
