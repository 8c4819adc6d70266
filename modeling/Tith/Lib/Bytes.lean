import Mathlib

/-!
This module contains byte strings: words in big and little endian order, the UTF-8 bytes of a text and
byte strings that carry their own length in front of them.
-/

namespace Bytes

def ofWord (w : UInt64) : List UInt8 :=
  [(w >>> 56).toUInt8, (w >>> 48).toUInt8, (w >>> 40).toUInt8, (w >>> 32).toUInt8,
   (w >>> 24).toUInt8, (w >>> 16).toUInt8, (w >>> 8).toUInt8, w.toUInt8]

@[simp]
theorem length_ofWord (w : UInt64) : (ofWord w).length = 8 := rfl

theorem ofWord_inj {v w : UInt64} : ofWord v = ofWord w ↔ v = w := by
  constructor
  . intro h
    simp only [ofWord, List.cons.injEq, and_true] at h
    simp only [← UInt8.toNat_inj, UInt64.toNat_toUInt8, UInt64.toNat_shiftRight,
      Nat.shiftRight_eq_div_pow] at h
    have hv := v.toNat_lt
    have hw := w.toNat_lt
    apply UInt64.toNat_inj.mp
    simp at h
    omega
  . intro h
    rw [h]

def ofLittleWord (w : UInt64) : List UInt8 := (ofWord w).reverse

def ofLittleWord32 (w : UInt32) : List UInt8 :=
  [w.toUInt8, (w >>> 8).toUInt8, (w >>> 16).toUInt8, (w >>> 24).toUInt8]

def ofString (s : String) : List UInt8 := s.toByteArray.data.toList

@[simp]
theorem length_ofString (s : String) : (ofString s).length = s.utf8ByteSize := by
  simp only [ofString, Array.length_toList]
  rfl

theorem ofString_inj {s t : String} : ofString s = ofString t ↔ s = t := by
  constructor
  . intro h
    apply String.toByteArray_inj.mp
    apply ByteArray.ext
    apply Array.ext'
    exact h
  . intro h
    rw [h]

/--
The text that a byte string is the UTF-8 encoding of, if there is one.
-/
def toString? (b : List UInt8) : Option String := String.fromUTF8? ⟨b.toArray⟩

theorem toString?_ofString (s : String) : toString? (ofString s) = some s := by
  have hbytes : (⟨(ofString s).toArray⟩ : ByteArray) = s.toByteArray := rfl
  unfold toString?
  rw [hbytes]
  exact dif_pos s.isValidUTF8

theorem ofString_of_toString? {b : List UInt8} {s : String} (h : toString? b = some s)
    : ofString s = b := by
  unfold toString? String.fromUTF8? at h
  split at h
  . injection h with h
    rw [← h]
    rfl
  . cases h

theorem ofString_ofList (l : List Char) : ofString (String.ofList l) = l.flatMap String.utf8EncodeChar := by
  simp [ofString, List.utf8Encode]

theorem mem_utf8EncodeChar {c : Char} {b : UInt8} (h : b ∈ String.utf8EncodeChar c) (hb : b.toNat < 128)
    : b.toNat = c.toNat := by
  have hc : c.val.toNat = c.toNat := rfl
  unfold String.utf8EncodeChar at h
  dsimp only at h
  split at h
  . simp only [List.mem_singleton] at h
    rw [h, UInt8.toNat_ofNat']
    omega
  . exfalso
    split at h
    . simp only [List.mem_cons, List.not_mem_nil, or_false] at h
      rcases h with h | h <;> (rw [h, UInt8.toNat_ofNat'] at hb; omega)
    . split at h
      . simp only [List.mem_cons, List.not_mem_nil, or_false] at h
        rcases h with h | h | h <;> (rw [h, UInt8.toNat_ofNat'] at hb; omega)
      . simp only [List.mem_cons, List.not_mem_nil, or_false] at h
        rcases h with h | h | h | h <;> (rw [h, UInt8.toNat_ofNat'] at hb; omega)

theorem not_mem_ofString_ofList {l : List Char} {c : Char} {b : UInt8} (hb : b.toNat < 128)
    (hc : b.toNat = c.toNat) (h : c ∉ l)
    : b ∉ ofString (String.ofList l) := by
  intro hmem
  rw [ofString_ofList, List.mem_flatMap] at hmem
  obtain ⟨d, hd, hbyte⟩ := hmem
  have := mem_utf8EncodeChar hbyte hb
  have heq : c = d := Char.toNat_inj.mp (by omega)
  rw [heq] at h
  exact h hd

theorem utf8EncodeChar_of_lt {c : Char} (h : c.toNat < 128) : String.utf8EncodeChar c = [UInt8.ofNat c.toNat] := by
  have hc : c.val.toNat = c.toNat := rfl
  unfold String.utf8EncodeChar
  dsimp only
  rw [if_pos (by omega)]
  rfl

theorem ofString_ofList_prefix {a b : List Char} (ha : ∀ c ∈ a, c.toNat < 128)
    : ofString (String.ofList a) <+: ofString (String.ofList b) ↔ a <+: b := by
  rw [ofString_ofList, ofString_ofList]
  induction a generalizing b with
  | nil => simp
  | cons c a ih =>
    rw [List.forall_mem_cons] at ha
    rw [List.flatMap_cons, utf8EncodeChar_of_lt ha.1]
    cases b with
    | nil => simp
    | cons d b =>
      rw [List.flatMap_cons, List.cons_prefix_cons]
      constructor
      . intro h
        obtain ⟨byte, bytes, hbytes⟩ := List.exists_cons_of_ne_nil (@String.utf8EncodeChar_ne_nil d)
        rw [hbytes, List.singleton_append, List.cons_append, List.cons_prefix_cons] at h
        have hbyte : byte.toNat = c.toNat := by
          rw [← h.1, UInt8.toNat_ofNat']
          omega
        have heq : c = d := by
          apply Char.toNat_inj.mp
          rw [← hbyte]
          exact mem_utf8EncodeChar (by rw [hbytes]; simp) (by omega)
        subst heq
        rw [utf8EncodeChar_of_lt ha.1] at hbytes
        injection hbytes with _ hbytes
        subst hbytes
        exact ⟨rfl, (ih ha.2).mp h.2⟩
      . rintro ⟨rfl, h⟩
        rw [utf8EncodeChar_of_lt ha.1, List.singleton_append, List.singleton_append, List.cons_prefix_cons]
        exact ⟨rfl, (ih ha.2).mpr h⟩

def withLength (b : List UInt8) : List UInt8 := ofWord (UInt64.ofNat b.length) ++ b

@[simp]
theorem length_withLength (b : List UInt8) : (withLength b).length = 8 + b.length := by
  simp [withLength]

theorem withLength_append_inj {a b x y : List UInt8} (ha : a.length < 2 ^ 64)
    (hb : b.length < 2 ^ 64) (h : withLength a ++ x = withLength b ++ y)
    : a = b ∧ x = y := by
  simp only [withLength, List.append_assoc] at h
  obtain ⟨hword, hrest⟩ := List.append_inj h (by simp)
  have hlen := congrArg UInt64.toNat (ofWord_inj.mp hword)
  simp only [UInt64.toNat_ofNat'] at hlen
  rw [Nat.mod_eq_of_lt (by omega), Nat.mod_eq_of_lt (by omega)] at hlen
  exact List.append_inj hrest hlen

end Bytes
